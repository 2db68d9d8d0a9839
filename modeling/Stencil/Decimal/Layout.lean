import Stencil.Decimal.Numeral

/-!
# How doubles are laid out

A number of `n` digits `d₁…dₙ` whose point stands at `k` is `0.d₁…dₙ · 10 ^ k`.

* `Layout`: the decisions of one way to write doubles by their shortest decimal;
* `Layout.text`: a bit pattern written accordingly;
* `withoutExponent`: a numeral with its power of ten carried out, where zeros fill the room between
  the point and the digits;
* `Binary.fixed`, `Binary.scientific`: a binary fraction with a given number of digits after the
  point, rounded from its exact value, a half to the even neighbour.
-/

namespace Stencil.Decimal

/-- The decisions of one way to write doubles. -/
structure Layout where
  /-- Which of two equally near decimals is taken. -/
  tie : Tie
  /-- Is a number with its point at this place written without an exponent? -/
  isPlain : Int → Bool
  /-- Does a whole number written without an exponent show `.0`? -/
  showsZero : Bool

/-- `count` zeros. -/
def zeros (count : Int) : List Char := List.replicate count.toNat '0'

/-- The digits written without an exponent, the point at `point`. -/
def Layout.plain (l : Layout) (digits : List Char) (point : Int) : List Char :=
  if point ≤ 0 then '0' :: '.' :: zeros (-point) ++ digits
  else if (digits.length : Int) ≤ point then
    digits ++ zeros (point - digits.length) ++ (if l.showsZero then ['.', '0'] else [])
  else digits.take point.toNat ++ '.' :: digits.drop point.toNat

/-- Doubles have an exponent if their point stands far from their digits, and whole numbers without
one show a zero after the point. -/
def Layout.short : Layout := ⟨.even, fun k => decide (-5 < k ∧ k ≤ 16), true⟩

/-- A whole number with a minus sign if it is negative. -/
def signed (n : Int) : List Char :=
  if n < 0 then '-' :: Nat.toDigits 10 n.natAbs else Nat.toDigits 10 n.natAbs

/-- The digits written with an exponent: one of them before the point. -/
def withExponent (digits : List Char) (point : Int) : List Char :=
  digits.take 1 ++ (if digits.length ≤ 1 then [] else '.' :: digits.drop 1)
    ++ 'e' :: signed (point - 1)

/-- The text of a decimal. -/
def Layout.decimal (l : Layout) (d : Decimal) : List Char :=
  let digits := Nat.toDigits 10 d.digits
  let point := digits.length + d.exponent
  if l.isPlain point then l.plain digits point else withExponent digits point

/-- The text of the double with the given bit pattern. -/
def Layout.text (l : Layout) (bits : UInt64) : String :=
  let sign := if isNegative bits then ['-'] else []
  match Magnitude.ofBits bits with
  | .nan => "NaN"
  | .infinite => String.ofList (sign ++ ['i', 'n', 'f'])
  | .finite x => String.ofList (sign ++ l.decimal (x.shortest l.tie))

/-! ### Carrying out powers of ten -/

/-- Takes a minus sign off the front: the sign and what follows. -/
def splitMinus : List Char → List Char × List Char
  | '-' :: rest => (['-'], rest)
  | rest => ([], rest)

/-- The numeral with its exponent carried out. What has no exponent, or one that is no integer of
64 bits, stays as it is. -/
def withoutExponent (cs : List Char) : List Char :=
  match cs.dropWhile (· ≠ 'e') with
  | [] => cs
  | _ :: power =>
    match integer? (String.ofList power) with
    | none => cs
    | some e =>
      let (sign, mantissa) := splitMinus (cs.takeWhile (· ≠ 'e'))
      let whole := mantissa.takeWhile (· ≠ '.')
      let fraction := (mantissa.dropWhile (· ≠ '.')).drop 1
      sign ++ Layout.short.plain (whole ++ fraction) (whole.length + e.toInt)

/-! ### A given number of places -/

/-- The digits of `n` with a point before the last `places` of them. -/
def withPoint (places n : Nat) : String :=
  let digits := (Nat.toDigits 10 n).leftpad (places + 1) '0'
  let whole := digits.take (digits.length - places)
  if places = 0 then String.ofList whole
  else String.ofList (whole ++ '.' :: digits.drop (digits.length - places))

/-- The fraction with `places` digits after the point. -/
def Binary.fixed (places : Nat) (x : Binary) : String :=
  withPoint places (roundDiv .even (x.num * Nat.pow 10 places) x.den)

/-- The fraction as a number with one digit before and `places` digits after the point, and a
power of ten. -/
def Binary.scientific (places : Nat) (x : Binary) : String × Int :=
  if x.mantissa = 0 then (withPoint places 0, 0)
  else
    let leading := x.point - 1
    let (num, den) := x.overTen (leading - places)
    let n := roundDiv .even num den
    if n < Nat.pow 10 (places + 1) then (withPoint places n, leading)
    else (withPoint places (n / 10), leading + 1)

example : Binary.fixed 1 ⟨1, -2⟩ = "0.2" := by decide +kernel
example : Binary.scientific 1 ⟨9999, 0⟩ = ("1.0", 4) := by decide +kernel

end Stencil.Decimal
