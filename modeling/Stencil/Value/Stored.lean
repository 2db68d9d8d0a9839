import Stencil.Value.Basic
import Stencil.Json.Parse
import Stencil.Decimal.Numeral

/-!
# Values of stored data

Stored data can be read as a value. Integers in range stay integers; every other numeral becomes a
double, which is computed from its leading digits and one power of ten and need not be the nearest
one.

* `Numeral.value?`: the value of a numeral, if it is not too large;
* `Value.ofJson`: the value of a tree;
* `Value.vars?`: the variables that a map stands for.
-/

namespace Stencil

namespace Numeral

/-- Goes through digits as long as the number they make with `n` before them fits a word, and gives
that number and how many digits were used. -/
def fitting : (n : Nat) → List Char → Nat × Nat
  | n, [] => (n, 0)
  | n, d :: rest =>
    let next := n * 10 + (d.toNat - '0'.toNat)
    if next < UInt64.size then
      let (m, used) := fitting next rest
      (m, used + 1)
    else (n, 0)

/-- The greatest power of ten that a double holds. -/
def greatestPower : Nat := 308

/-- `x / 10 ^ e` for an exponent of any size, in steps of the greatest power. Any double is zero
after three of them. -/
def scaleDown : (steps : Nat) → Float → Nat → Float
  | 0, _, _ => 0
  | steps + 1, x, e =>
    if e ≤ greatestPower then x / Float.ofScientific 1 false e
    else scaleDown steps (x / Float.ofScientific 1 false greatestPower) (e - greatestPower)

/-- `n · 10 ^ e`, unless it is too large. -/
def scaled (n : Nat) (e : Int) : Option Float :=
  let x := Float.ofNat n
  if e < 0 then some (scaleDown 4 x e.natAbs)
  else if e.toNat ≤ greatestPower then
    let y := x * Float.ofScientific 1 false e.toNat
    if y.isInf then none else some y
  else if n = 0 then some 0
  else none

/-- The largest exponent that is taken at its value. -/
def maxExponent : Nat := 0x7FFFFFFF

/-- The size of a numeral as a double. -/
def size? (n : Numeral) : Option Float :=
  let (significand, used) := fitting 0 n.whole
  let (significand, places) := fitting significand (n.fraction.getD [])
  let shift : Int := (n.whole.length - used : Nat) - (places : Int)
  match n.exponent with
  | none => scaled significand shift
  | some (negative, digits) =>
    let e := Nat.ofDigitChars 10 digits 0
    if maxExponent < e then
      if significand = 0 ∨ negative then some 0 else none
    else scaled significand (shift + if negative then -(e : Int) else e)

/-- The integer of a numeral without point and power of ten. -/
def integer? (n : Numeral) : Option Int :=
  match n.fraction, n.exponent with
  | none, none =>
    let m : Nat := Nat.ofDigitChars 10 n.whole 0
    if n.negative then (if m = 0 then none else some (-m)) else some m
  | _, _ => none

/-- The value of a numeral. -/
def value? (n : Numeral) : Option Value :=
  match n.integer?.bind Decimal.toWord? with
  | some i => some (.int i)
  | none => n.size?.map fun x => .float (if n.negative then -x else x)

end Numeral

namespace Value

mutual

/-- The value of a tree whose arrays and objects are nested at most `room` deep. -/
def ofJson : (room : Nat) → Json → Option Value
  | _, .null => some null
  | _, .bool b => some (bool b)
  | _, .number n => n.value?
  | _, .text s => s.map str
  | 0, .array _ | 0, .object _ => none
  | room + 1, .array items => array <$> ofItems room items
  | room + 1, .object fields => (fun pairs => map (Bindings.ofPairs pairs)) <$> ofFields room fields

/-- The values of trees. -/
def ofItems (room : Nat) : List Json → Option (List Value)
  | [] => some []
  | item :: rest => do return (← ofJson room item) :: (← ofItems room rest)

/-- The keys and values of fields. -/
def ofFields (room : Nat) : List (Option String × Json) → Option (List (String × Value))
  | [] => some []
  | (key, item) :: rest => do return (← key, ← ofJson room item) :: (← ofFields room rest)

end

/-- How deep arrays and objects may be nested. -/
def maxNesting : Nat := 127

/-- The value of a text. -/
def parse (s : String) : Option Value := Json.parse s >>= ofJson maxNesting

/-- The variables that a map stands for. -/
def vars? : Value → Option Vars
  | map entries => some entries
  | _ => none

end Value

end Stencil
