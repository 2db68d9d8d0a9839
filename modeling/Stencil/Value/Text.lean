import Stencil.Value.Basic
import Stencil.Decimal.Layout

/-!
# The text of a value

What a value contributes to the output and to a concatenation. Null has no text of its own, but
shows as `null` inside a container.
-/

namespace Stencil.Value

/-- The text of a double. It has no exponent however large or small the double is. -/
def doubleText (bits : UInt64) : String :=
  String.ofList (Decimal.withoutExponent (Decimal.Layout.short.text bits).toList)

/-- The text of an item of a container, whose own text is `text`. -/
def shownInside (v : Value) (text : String) : String := if v.isNull then "null" else text

mutual

/-- The text of a value. -/
def text : Value → String
  | null => ""
  | bool b => if b then "true" else "false"
  | int n => toString n.toInt
  | float x => doubleText x.toBits
  | str s => s
  | raw s => s
  | array items => "[" ++ ", ".intercalate (itemTexts items) ++ "]"
  | map entries => "\x7b" ++ ", ".intercalate (entryTexts entries) ++ "\x7d"
  | host _ _ text _ => text

/-- The texts of the items of an array. -/
def itemTexts : List Value → List String
  | [] => []
  | v :: rest => shownInside v v.text :: itemTexts rest

/-- The texts of the entries of a map. -/
def entryTexts : List (String × Value) → List String
  | [] => []
  | (k, v) :: rest => (k ++ "=" ++ shownInside v v.text) :: entryTexts rest

end

example : text (array [int 0, null, str "a"]) = "[0, null, a]" := by decide +kernel
example : text (float 1e16) = "10000000000000000.0" := by decide +kernel

end Stencil.Value
