import Stencil.Bindings

/-!
# Values

What templates compute with: null, truth values, integers of 64 bits, doubles, texts, texts that
are already escaped, arrays, maps that keep the order of their keys, and objects of the host
application.

* `Value`: the values;
* `Value.typeName`: the name of a value's type, as messages show it;
* `Value.isTruthy`: everything but null and `false`;
* `Value.text?`: the characters of plain and of raw texts.
-/

namespace Stencil

/-- A value of a template. -/
inductive Value
  | null
  | bool (b : Bool)
  | int (n : Int64)
  | float (x : Float)
  | str (s : String)
  /-- Text that is appended to the output as it is. -/
  | raw (s : String)
  | array (items : List Value)
  | map (entries : List (String × Value))
  /-- An object of the host application: the name of its type, the number that tells it from all
  others, the text it shows, and what its type keeps in it. -/
  | host (type : String) (id : Nat) (text : String) (state : Value)
  deriving Inhabited

/-- The variables of a render, in the order in which they were first assigned. -/
abbrev Vars := Bindings Value

namespace Value

/-- The name of a value's type. -/
def typeName : Value → String
  | null => "null"
  | bool _ => "bool"
  | int _ => "integer"
  | float _ => "double"
  | str _ => "string"
  | raw _ => "raw string"
  | array _ => "array"
  | map _ => "map"
  | host type _ _ _ => type

/-- Is the value null? -/
def isNull : Value → Bool
  | null => true
  | _ => false

/-- Only null and `false` are false. -/
def isTruthy : Value → Bool
  | null => false
  | bool b => b
  | _ => true

/-- The characters of a plain or raw text. -/
def text? : Value → Option String
  | str s => some s
  | raw s => some s
  | _ => none

end Value

end Stencil
