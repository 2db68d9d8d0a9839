import Stencil.Decimal.Shortest

/-!
# Reading numerals

* `integer?`: an optional sign and decimal digits, in the range of 64 bits;
* `double?`: an optional sign, then digits with an optional point and exponent, or one of the words
  `inf`, `infinity` and `nan` in any case. The nearest double is taken, and infinity beyond the
  largest.
-/

namespace Stencil.Decimal

/-- Takes a sign off the front: is it a minus, and what follows? -/
def splitSign : List Char → Bool × List Char
  | '-' :: rest => (true, rest)
  | '+' :: rest => (false, rest)
  | rest => (false, rest)

/-- The value of decimal digits. -/
def natural? (digits : List Char) : Option Nat :=
  if !digits.isEmpty && digits.all Char.isDigit then some (Nat.ofDigitChars 10 digits 0) else none

/-- The integer as a word of 64 bits, if it fits. -/
def toWord? (n : Int) : Option Int64 :=
  if -0x8000000000000000 ≤ n ∧ n < 0x8000000000000000 then some (Int64.ofInt n) else none

/-- The value of an integer literal. -/
def integer? (s : String) : Option Int64 := do
  let (negative, digits) := splitSign s.toList
  let n ← natural? digits
  toWord? (if negative then -n else n)

/-- The bit pattern of positive infinity. -/
def infinityBits : UInt64 := 0x7FF0000000000000

/-- The bit pattern that stands for not-a-number. -/
def nanBits : UInt64 := 0x7FF8000000000000

/-- The bit pattern with its sign bit set. -/
def negated (bits : UInt64) : UInt64 := bits ||| 0x8000000000000000

/-- The bit pattern of the double nearest to `m · 10 ^ e`. Powers far outside the range of doubles
are settled by the number of digits alone. -/
def nearestBits (m : Nat) (e : Int) : UInt64 :=
  if m = 0 then 0
  else
    let point := digitCount m + e
    if 310 < point then infinityBits
    else if point < -330 then 0
    else (Float.ofScientific m (e < 0) e.natAbs).toBits

/-- The power of ten at the end of a numeral: nothing, or `e` with an optional sign and digits. -/
def exponent? : List Char → Option Int
  | [] => some 0
  | c :: rest => do
    guard (c = 'e' ∨ c = 'E')
    let (negative, digits) := splitSign rest
    let n ← natural? digits
    return if negative then -n else n

/-- The bit pattern of a numeral without sign. -/
def unsigned? (cs : List Char) : Option UInt64 :=
  match String.ofList (cs.map Char.toLower) with
  | "inf" | "infinity" => some infinityBits
  | "nan" => some nanBits
  | _ => do
    let whole := cs.takeWhile Char.isDigit
    let (fraction, rest) := match cs.dropWhile Char.isDigit with
      | '.' :: rest => (rest.takeWhile Char.isDigit, rest.dropWhile Char.isDigit)
      | rest => ([], rest)
    let m ← natural? (whole ++ fraction)
    let e ← exponent? rest
    return nearestBits m (e - fraction.length)

/-- The bit pattern of a literal for a double. -/
def double? (s : String) : Option UInt64 := do
  let (negative, rest) := splitSign s.toList
  let bits ← unsigned? rest
  return if negative then negated bits else bits

example : double? ".5" = some (0.5 : Float).toBits := by decide +kernel
example : double? "-1.E3" = some (-1000.0 : Float).toBits := by decide +kernel
example : double? "." = none ∧ double? "1e" = none ∧ double? " 1" = none := by decide +kernel

end Stencil.Decimal
