import Stencil.Decimal.Binary

/-!
# The shortest decimal of a double

A double stands for every real number that rounds to it. `Binary.shortest` finds the decimal with
the fewest digits among these, and of several such the one nearest to the double itself.

* `roundDiv`: a quotient of naturals to the nearest whole number, where `Tie` says which neighbour
  wins when both are equally near;
* `Decimal`: a number `digits · 10 ^ exponent`;
* `Binary.point`: how many places the leading digit stands before the decimal point;
* `Binary.readsBack`: does a decimal round to the double?
* `Binary.shortest`: grids of one, two, … digits are tried in turn, and on each the two
  neighbours of the double; a grid with any point among the numbers that round to the double has
  one of the two among them.
-/

namespace Stencil

/-- The number `digits · 10 ^ exponent`. -/
structure Decimal where
  digits : Nat
  exponent : Int
  deriving DecidableEq

namespace Decimal

/-! ### Rounding to whole numbers -/

/-- Which of two equally near neighbours is taken. -/
inductive Tie
  | even
  | up
  deriving DecidableEq

/-- Does a remainder of `r` in `den` parts round the quotient `q` up? -/
def Tie.roundsUp (tie : Tie) (q r den : Nat) : Bool :=
  match compare (2 * r) den with
  | .lt => false
  | .gt => true
  | .eq => match tie with
    | .up => true
    | .even => q % 2 == 1

/-- `num / den` to the nearest whole number. -/
def roundDiv (tie : Tie) (num den : Nat) : Nat :=
  if tie.roundsUp (num / den) (num % den) den then num / den + 1 else num / den

example : roundDiv .even 5 2 = 2 := by decide
example : roundDiv .up 5 2 = 3 := by decide

/-! ### Decimals -/

/-- The same number without zeros at the end of its digits, as far as `places` of them go. -/
def trimPlaces : Nat → Decimal → Decimal
  | 0, d => d
  | places + 1, d =>
    if d.digits % 10 = 0 then trimPlaces places ⟨d.digits / 10, d.exponent + 1⟩ else d

/-- The same number without zeros at the end of its digits; zero itself is left as it is. -/
def trim (d : Decimal) : Decimal :=
  if d.digits = 0 then d else d.trimPlaces d.digits.log2

/-- How many decimal digits `n` has; zero has one. -/
def digitCount (n : Nat) : Nat := (Nat.toDigits 10 n).length

/-- The least `k` with `x < 10 ^ k`, for a positive `x`. -/
def Binary.point (x : Binary) : Int :=
  if x.den ≤ x.num then digitCount (x.num / x.den)
  else 1 - digitCount ((x.den + x.num - 1) / x.num - 1)

/-- Compares `digits · 10 ^ exponent` with `n · 2 ^ j`. -/
def compareBinary (d : Decimal) (n : Nat) (j : Int) : Ordering :=
  compare (d.digits * Nat.pow 10 d.exponent.toNat * Nat.pow 2 (-j).toNat)
    (n * Nat.pow 2 j.toNat * Nat.pow 10 (-d.exponent).toNat)

/-- Is the double just below `x` only half as far away as the one above? -/
def Binary.isNarrowBelow (x : Binary) : Bool :=
  x.mantissa == leastMantissa && x.exponent != -1074

/-- Does `d` round to `x`? The bounds lie halfway to the neighbours of `x`, and belong to `x`
exactly if its mantissa is even. -/
def Binary.readsBack (x : Binary) (d : Decimal) : Bool :=
  let low := if x.isNarrowBelow then 4 * x.mantissa - 1 else 4 * x.mantissa - 2
  let high := 4 * x.mantissa + 2
  let closed := x.mantissa % 2 == 0
  let below := compareBinary d low (x.exponent - 2)
  let above := compareBinary d high (x.exponent - 2)
  (below == .gt || (closed && below == .eq)) && (above == .lt || (closed && above == .eq))

/-- `x / 10 ^ e` as a quotient of naturals. -/
def Binary.overTen (x : Binary) (e : Int) : Nat × Nat :=
  (x.num * Nat.pow 10 (-e).toNat, x.den * Nat.pow 10 e.toNat)

/-- The nearer of the two neighbours of `x` on the grid `10 ^ e` that round to `x`, if any does. -/
def Binary.onGrid (tie : Tie) (x : Binary) (e : Int) : Option Decimal :=
  let (num, den) := x.overTen e
  let lower : Decimal := ⟨num / den, e⟩
  let upper : Decimal := ⟨num / den + 1, e⟩
  match x.readsBack lower, x.readsBack upper with
  | true, true => some ⟨roundDiv tie num den, e⟩
  | true, false => some lower
  | false, true => some upper
  | false, false => none

/-- The decimal with the fewest digits that rounds to `x`, the nearest such. Seventeen digits
always suffice; should they not, the exact value is taken. -/
def Binary.shortest (tie : Tie) (x : Binary) : Decimal :=
  if x.mantissa = 0 then ⟨0, 0⟩
  else
    match (List.range 17).findSome? fun n : Nat => x.onGrid tie (x.point - (n + 1 : Nat)) with
    | some d => d.trim
    | none => ⟨x.num * Nat.pow 5 (-x.exponent).toNat, min 0 x.exponent⟩

example : Binary.shortest .even ⟨3602879701896397, -55⟩ = ⟨1, -1⟩ := by decide +kernel
example : Binary.shortest .even ⟨5960464477539062, 24⟩ = ⟨1, 23⟩ := by decide +kernel
example : Binary.shortest .even ⟨1, -1074⟩ = ⟨5, -324⟩ := by decide +kernel
example : Binary.shortest .even ⟨leastMantissa, -77⟩ = ⟨29802322387695312, -24⟩ := by decide +kernel
example : Binary.shortest .up ⟨leastMantissa, -77⟩ = ⟨29802322387695313, -24⟩ := by decide +kernel

end Decimal

end Stencil
