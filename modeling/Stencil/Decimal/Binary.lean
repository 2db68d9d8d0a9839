/-!
# Binary fractions

The finite doubles as exact numbers `mantissa · 2 ^ exponent`, and the sorting of bit patterns
into not-a-number, infinity and finite values.

* `Binary`, `Binary.num`, `Binary.den`: a non-negative binary fraction and the two naturals whose
  quotient it is;
* `Magnitude.ofBits`: what a bit pattern stands for, its sign aside;
* `Binary.toBits`: the pattern of a fraction that a double can hold;
* `remainder`: the remainder of two doubles, which is exact.
-/

namespace Stencil.Decimal

/-- A non-negative number `mantissa · 2 ^ exponent`. -/
structure Binary where
  mantissa : Nat
  exponent : Int
  deriving DecidableEq

namespace Binary

/-- The numerator of the fraction over `den`. -/
def num (x : Binary) : Nat := x.mantissa * Nat.pow 2 x.exponent.toNat

/-- The power of two under the fraction. -/
def den (x : Binary) : Nat := Nat.pow 2 (-x.exponent).toNat

theorem den_pos (x : Binary) : 0 < x.den := Nat.pow_pos (by decide)

end Binary

/-- What a double holds besides its sign. -/
inductive Magnitude
  | nan
  | infinite
  | finite (x : Binary)
  deriving DecidableEq

/-- Is the sign bit set? -/
def isNegative (bits : UInt64) : Bool := bits.toNat / 0x8000000000000000 == 1

/-- The least mantissa of 53 bits. A pattern keeps the 52 bits below the leading one. -/
def leastMantissa : Nat := 0x10000000000000

/-- The value of a bit pattern, its sign aside. -/
def Magnitude.ofBits (bits : UInt64) : Magnitude :=
  let exponent : Nat := bits.toNat / leastMantissa % 2048
  let fraction : Nat := bits.toNat % leastMantissa
  if exponent = 2047 then
    if fraction = 0 then .infinite else .nan
  else if exponent = 0 then .finite ⟨fraction, -1074⟩
  else .finite ⟨leastMantissa + fraction, (exponent : Int) - 1075⟩

/-- The bit pattern of a fraction that a double holds exactly; the sign is clear. -/
def Binary.toBits (x : Binary) : UInt64 :=
  if x.mantissa = 0 then 0
  else
    let leading : Int := x.mantissa.log2 + x.exponent
    let last : Int := max (leading - 52) (-1074)
    let shift := x.exponent - last
    let m := x.mantissa * Nat.pow 2 shift.toNat / Nat.pow 2 (-shift).toNat
    if m < leastMantissa then UInt64.ofNat m
    else UInt64.ofNat ((last + 1075).toNat * leastMantissa + (m - leastMantissa))

example : (Binary.mk 3 (-1)).toBits = (1.5 : Float).toBits := by decide +kernel
example : (Binary.mk 1 (-1074)).toBits = 1 := by decide +kernel

/-! ### Remainders -/

/-- The remainder of two binary fractions, the second one not zero. -/
def Binary.mod (x y : Binary) : Binary :=
  let e := min x.exponent y.exponent
  ⟨x.mantissa * Nat.pow 2 (x.exponent - e).toNat
    % (y.mantissa * Nat.pow 2 (y.exponent - e).toNat), e⟩

/-- The remainder of a division that is cut off after the point; it has the sign of `x`. Both
numbers are whole multiples of one power of two, so nothing is rounded. -/
def remainder (x y : Float) : Float :=
  match Magnitude.ofBits x.toBits, Magnitude.ofBits y.toBits with
  | .finite _, .infinite => x
  | .finite a, .finite b =>
    if b.mantissa = 0 then 0 / 0
    else
      let r := Float.ofBits (a.mod b).toBits
      if isNegative x.toBits then -r else r
  | _, _ => 0 / 0

example : remainder (-7.5) 2 == -1.5 := by decide +kernel

end Stencil.Decimal
