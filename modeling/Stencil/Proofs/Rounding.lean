import Stencil.Decimal.Shortest
import Stencil.Proofs.Doubles

/-!
# Integers as doubles

The double of an integer keeps 53 bits. What is behind them is rounded away, to the nearer side,
and in the middle to the even one.

* `Decimal.roundedMantissa_shiftRight`: shifting bits out and rounding is rounded division;
* `Decimal.roundWithAccuracy_eq`: what rounding makes of a long mantissa;
* `Decimal.ofNat_eq`: the double of a positive integer;
* `Double.rounded`: the integer that the double next to an integer is;
* `Double.value?_toDouble`: the double of an integer is the rounded integer;
* `Double.rounded_eq_self_iff`: the integers that are doubles.
-/

namespace Stencil.Decimal

open Float.Model (UnpackedFloat Format totalExponent)
open Float.Model.UnpackedFloat (Sign ExtendedMantissa Accuracy)

/-! ### Quotients to the nearest -/

theorem roundDiv_mul_right (tie : Tie) (a b : Nat) {c : Nat} (hc : 0 < c) :
    roundDiv tie (a * c) (b * c) = roundDiv tie a b := by
  have hcompare : compare (2 * (a % b * c)) (b * c) = compare (2 * (a % b)) b := by
    rw [← Nat.mul_assoc]
    simp only [Nat.compare_eq_ite_lt, Nat.mul_lt_mul_right hc]
  have hup : tie.roundsUp (a / b) (a % b * c) (b * c) = tie.roundsUp (a / b) (a % b) b := by
    unfold Tie.roundsUp
    rw [hcompare]
  simp only [roundDiv, Nat.mul_div_mul_right _ _ hc, Nat.mul_mod_mul_right, hup]

theorem roundDiv_mul_self (tie : Tie) (a : Nat) {b : Nat} (hb : 0 < b) :
    roundDiv tie (a * b) b = a := by
  have hcompare : compare 0 b = .lt := Nat.compare_eq_lt.2 hb
  simp [roundDiv, Tie.roundsUp, Nat.mul_div_cancel _ hb, hcompare]

theorem roundDiv_one (tie : Tie) (a : Nat) : roundDiv tie a 1 = a := by
  have hself := roundDiv_mul_self tie a Nat.one_pos
  rwa [Nat.mul_one] at hself

/-- Rounding stays between the two neighbours. -/
theorem roundDiv_bounds (tie : Tie) (a b : Nat) :
    a / b ≤ roundDiv tie a b ∧ roundDiv tie a b ≤ a / b + 1 := by
  unfold roundDiv
  split <;> omega

/-! ### Shifted mantissas -/

/-- A mantissa of which `k` bits have been shifted out keeps a bit for the first of them, and one
for all the others. -/
theorem shiftRight_exact (m k : Nat) :
    (ExtendedMantissa.mk m false false) >>> k =
      ⟨m / 2 ^ k, decide (2 ^ k ≤ 2 * (m % 2 ^ k)),
        decide (2 * (m % 2 ^ k) ≠ 0 ∧ 2 * (m % 2 ^ k) ≠ 2 ^ k)⟩ := by
  induction k with
  | zero => simp [HShiftRight.hShiftRight, Nat.repeat, Nat.mod_one]
  | succ k ih =>
    have hstep : (ExtendedMantissa.mk m false false) >>> (k + 1) =
        ((ExtendedMantissa.mk m false false) >>> k).shiftRightOne := rfl
    have hmod : m % 2 ^ (k + 1) = m % 2 ^ k + 2 ^ k * (m / 2 ^ k % 2) := Nat.mod_pow_succ
    have hlt : m % 2 ^ k < 2 ^ k := Nat.mod_lt _ (Nat.two_pow_pos k)
    have hbit : m / 2 ^ k % 2 = 0 ∨ m / 2 ^ k % 2 = 1 := by omega
    rw [hstep, ih, ExtendedMantissa.shiftRightOne, hmod]
    dsimp only
    rw [Nat.div_div_eq_div_mul, ← Nat.pow_succ]
    congr 1
    · rcases hbit with h | h <;> simp [h] <;> omega
    · rcases hbit with h | h <;> rw [← Bool.decide_or, decide_eq_decide] <;> rw [h] <;> omega

theorem roundedMantissa_shiftRight (m k : Nat) :
    ((ExtendedMantissa.mk m false false) >>> k).roundedMantissa = roundDiv .even m (2 ^ k) := by
  have hpos : 0 < 2 ^ k := Nat.two_pow_pos k
  rw [shiftRight_exact, roundDiv, Tie.roundsUp, ExtendedMantissa.roundedMantissa]
  rcases hcompare : compare (2 * (m % 2 ^ k)) (2 ^ k) with _ | _ | _
  · have hlt := Nat.compare_eq_lt.1 hcompare
    rw [decide_eq_false (Nat.not_le.2 hlt)]
    by_cases hzero : 2 * (m % 2 ^ k) = 0
    · rw [decide_eq_false fun h => h.1 hzero]
      rfl
    · rw [decide_eq_true ⟨hzero, Nat.ne_of_lt hlt⟩]
      rfl
  · have heq := Nat.compare_eq_eq.1 hcompare
    rw [decide_eq_true heq.ge, decide_eq_false fun h => h.2 heq]
    rcases Nat.mod_two_eq_zero_or_one (m / 2 ^ k) with h | h <;>
      simp [ExtendedMantissa.accuracy, Accuracy.roundToNearestEven, h]
  · have hgt := Nat.compare_eq_gt.1 hcompare
    rw [decide_eq_true hgt.le, decide_eq_true ⟨by omega, Nat.ne_of_gt hgt⟩]
    rfl

/-! ### Rounded fractions -/

/-- A rounded mantissa that has become too long by one bit gives it to the exponent. -/
def Binary.carry (q : Nat) (e : Int) : Binary :=
  if q < 2 * leastMantissa then ⟨q, e⟩ else ⟨leastMantissa, e + 1⟩

theorem targetExponent_eq {m : Nat} {e : Int} (h : -1074 ≤ e + m.log2 - 52) :
    Format.binary64.targetExponent (totalExponent m e) = e + m.log2 - 52 := by
  change max (((m.log2 : Int) + 1 + e) - 53) (-1074) = _
  omega

theorem shiftToTargetExponent_eq {m : Nat} {e : Int} (hm : 52 ≤ m.log2)
    (he : -1074 ≤ e + m.log2 - 52) :
    UnpackedFloat.shiftToTargetExponent Format.binary64 m e .exact =
      ((ExtendedMantissa.mk m false false) >>> (m.log2 - 52), e + m.log2 - 52) := by
  have hshift : (e + m.log2 - 52 - e).toNat = m.log2 - 52 := by omega
  have hexponent : e + ((m.log2 - 52 : Nat) : Int) = e + m.log2 - 52 := by omega
  rw [UnpackedFloat.shiftToTargetExponent, targetExponent_eq he, UnpackedFloat.shiftToExponent,
    hshift, hexponent]
  rfl

/-- After two shifts, of which the second one is to carry, the mantissa and exponent are final. -/
theorem roundWithAccuracy_of_shifts {format : Format} {m : Nat} {e d c : Int}
    {a : Accuracy} {x y : ExtendedMantissa}
    (hx : UnpackedFloat.shiftToTargetExponent format m e a = (x, d))
    (hy : UnpackedFloat.shiftToTargetExponent format x.roundedMantissa d .exact = (y, c))
    (s : Sign) :
    UnpackedFloat.roundWithAccuracy format s m e a =
      (Magnitude.finite ⟨y.mantissa, c⟩).withSign s := by
  simp only [UnpackedFloat.roundWithAccuracy, hx, hy]
  rfl

/-- A quotient of 53 bits, rounded, has 53 bits or is the next power of two. -/
theorem roundDiv_mantissa {m : Nat} (hm : 52 ≤ m.log2) :
    leastMantissa ≤ roundDiv .even m (2 ^ (m.log2 - 52)) ∧
      roundDiv .even m (2 ^ (m.log2 - 52)) ≤ 2 * leastMantissa := by
  have hne : m ≠ 0 := by
    rintro rfl
    exact absurd hm (by decide)
  have hpos : 0 < 2 ^ (m.log2 - 52) := Nat.two_pow_pos _
  have hlog : 52 + (m.log2 - 52) = m.log2 := by omega
  have hlow : leastMantissa ≤ m / 2 ^ (m.log2 - 52) := by
    rw [Nat.le_div_iff_mul_le hpos, show leastMantissa = 2 ^ 52 from rfl, ← Nat.pow_add, hlog]
    exact Nat.log2_self_le hne
  have hhigh : m / 2 ^ (m.log2 - 52) < 2 * leastMantissa := by
    rw [Nat.div_lt_iff_lt_mul hpos, show 2 * leastMantissa = 2 ^ 53 from rfl, ← Nat.pow_add,
      show 53 + (m.log2 - 52) = m.log2 + 1 by omega]
    exact Nat.lt_log2_self
  obtain ⟨hfloor, hceil⟩ := roundDiv_bounds .even m (2 ^ (m.log2 - 52))
  omega

/-- Rounding to a double rounds the mantissa to 53 bits. -/
theorem roundWithAccuracy_eq (s : Sign) {m : Nat} {e : Int} (hm : 52 ≤ m.log2)
    (he : -1074 ≤ e + m.log2 - 52) :
    UnpackedFloat.roundWithAccuracy Format.binary64 s m e .exact =
      (Magnitude.finite (Binary.carry (roundDiv .even m (2 ^ (m.log2 - 52)))
        (e + m.log2 - 52))).withSign s := by
  have hx := shiftToTargetExponent_eq hm he
  obtain ⟨hle, hge⟩ := roundDiv_mantissa hm
  rw [← roundedMantissa_shiftRight] at hle hge ⊢
  generalize (ExtendedMantissa.mk m false false) >>> (m.log2 - 52) = x at hx hle hge ⊢
  generalize hq : x.roundedMantissa = q at hle hge ⊢
  rw [Binary.carry]
  rcases Nat.lt_or_eq_of_le hge with hlt | heq
  · have hlog : q.log2 = 52 := (Nat.log2_eq_iff (by rintro rfl; exact absurd hle (by decide))).2
      ⟨hle, hlt⟩
    have hy := shiftToTargetExponent_eq (e := e + m.log2 - 52) hlog.ge (by omega)
    rw [← hq] at hy
    rw [if_pos hlt, roundWithAccuracy_of_shifts hx hy, shiftRight_exact, hq, hlog]
    simp
  · have hlog : q.log2 = 53 := by rw [heq]; decide
    have hy := shiftToTargetExponent_eq (e := e + m.log2 - 52) (m := q) (by omega) (by omega)
    rw [← hq] at hy
    rw [if_neg (Nat.not_lt.2 heq.ge), roundWithAccuracy_of_shifts hx hy, shiftRight_exact, hq,
      hlog, heq, show e + m.log2 - 52 + ((53 : Nat) : Int) - 52 = e + m.log2 - 52 + 1 by omega]
    rfl

/-! ### Integers -/

/-- The double next to a positive integer, as a fraction. -/
def Binary.nearest (n : Nat) : Binary :=
  carry (roundDiv .even n (2 ^ (n.log2 - 52)) * 2 ^ (52 - n.log2)) (n.log2 - 52)

theorem log2_mul_two_pow {n : Nat} (hn : n ≠ 0) (k : Nat) : (n * 2 ^ k).log2 = n.log2 + k := by
  refine (Nat.log2_eq_iff (by positivity)).2 ⟨?_, ?_⟩
  · rw [Nat.pow_add]
    exact Nat.mul_le_mul_right _ (Nat.log2_self_le hn)
  · rw [Nat.add_right_comm, Nat.pow_add]
    exact Nat.mul_lt_mul_of_pos_right Nat.lt_log2_self (Nat.two_pow_pos k)

/-- A quotient of which both parts have been scaled. -/
theorem roundDiv_scaled {n k : Nat} (h : 52 ≤ n.log2 + k) :
    roundDiv .even (n * 2 ^ k) (2 ^ (n.log2 + k - 52)) =
      roundDiv .even n (2 ^ (n.log2 - 52)) * 2 ^ (52 - n.log2) := by
  rcases Nat.le_total 52 n.log2 with hle | hge
  · rw [show n.log2 + k - 52 = n.log2 - 52 + k by omega, Nat.pow_add,
      roundDiv_mul_right _ _ _ (Nat.two_pow_pos k), Nat.sub_eq_zero_of_le hle, Nat.pow_zero,
      Nat.mul_one]
  · have hk : 2 ^ k = 2 ^ (52 - n.log2) * 2 ^ (n.log2 + k - 52) := by
      rw [← Nat.pow_add]
      congr 1
      omega
    rw [hk, ← Nat.mul_assoc, roundDiv_mul_self _ _ (Nat.two_pow_pos _), Nat.sub_eq_zero_of_le hge,
      Nat.pow_zero, roundDiv_one]

/-- An integer is rounded in the same way however it is scaled. -/
theorem round_scaled (s : Sign) {n k : Nat} (hn : n ≠ 0) (h : 52 ≤ n.log2 + k) :
    UnpackedFloat.roundWithAccuracy Format.binary64 s (n * 2 ^ k) (-k) .exact =
      (Magnitude.finite (Binary.nearest n)).withSign s := by
  have hlog := log2_mul_two_pow hn k
  rw [roundWithAccuracy_eq s (by omega) (by omega), hlog, roundDiv_scaled h, Binary.nearest,
    show (-k : Int) + ((n.log2 + k : Nat) : Int) - 52 = n.log2 - 52 by omega]

/-! ### Doubles of integers -/

theorem Binary.nearest_of_lt {n : Nat} (hn : n ≠ 0) (h : n.log2 ≤ 52) :
    Binary.nearest n = ⟨n * 2 ^ (52 - n.log2), n.log2 - 52⟩ := by
  have hlt : n * 2 ^ (52 - n.log2) < 2 * leastMantissa := by
    have hlog := log2_mul_two_pow hn (52 - n.log2)
    have hlt := Nat.lt_log2_self (n := n * 2 ^ (52 - n.log2))
    rwa [hlog, show n.log2 + (52 - n.log2) + 1 = 53 by omega] at hlt
  rw [Binary.nearest, Nat.sub_eq_zero_of_le h, Nat.pow_zero, roundDiv_one, carry, if_pos hlt]

theorem Binary.nearest_mantissa_bounds {n : Nat} (hn : n ≠ 0) :
    leastMantissa ≤ roundDiv .even n (2 ^ (n.log2 - 52)) * 2 ^ (52 - n.log2) ∧
      roundDiv .even n (2 ^ (n.log2 - 52)) * 2 ^ (52 - n.log2) ≤ 2 * leastMantissa := by
  have hmantissa := roundDiv_mantissa (m := n * 2 ^ 52)
    (by rw [log2_mul_two_pow hn]; exact Nat.le_add_left _ _)
  rwa [log2_mul_two_pow hn, roundDiv_scaled (Nat.le_add_left _ _)] at hmantissa

/-- The mantissa of the double next to an integer has 53 bits. -/
theorem Binary.nearest_isCanonical {n : Nat} (hn : n ≠ 0) (h : n.log2 ≤ 1000) :
    (Binary.nearest n).IsCanonical ∧ (Binary.nearest n).mantissa ≠ 0 := by
  have hbounds := nearest_mantissa_bounds hn
  have hpos : 0 < leastMantissa := by decide
  rw [Binary.nearest, carry]
  generalize roundDiv .even n (2 ^ (n.log2 - 52)) * 2 ^ (52 - n.log2) = q at hbounds
  split
  · next hlt =>
    exact ⟨isCanonical_mk hlt (by omega) (by omega) (.inl hbounds.1),
      Nat.ne_of_gt (Nat.lt_of_lt_of_le hpos hbounds.1)⟩
  · exact ⟨isCanonical_mk (by omega) (by omega) (by omega) (.inl (Nat.le_refl _)),
      Nat.ne_of_gt hpos⟩

/-- A fraction with a sign as a double. -/
def Binary.double (x : Binary) (s : Sign) : Float :=
  .ofModel (Float.Model.pack ((Magnitude.finite x).withSign s))

/-- A fraction in the form of doubles is kept as it is. -/
theorem Binary.IsCanonical.double {x : Binary} (h : x.IsCanonical) (hm : x.mantissa ≠ 0)
    (s : Sign) :
    signOf (x.double s).toBits = s ∧ Magnitude.ofBits (x.double s).toBits = .finite x := by
  have hshows := shows_pack s (Nat.pos_of_ne_zero hm) h
  rw [Binary.double, Magnitude.withSign_finite hm]
  exact hshows

theorem unpack_double (s : Sign) {x : Binary} (h : x.IsCanonical) (hm : x.mantissa ≠ 0) :
    (x.double s).toModel.unpack = (Magnitude.finite x).withSign s := by
  obtain ⟨hsign, hmagnitude⟩ := h.double hm s
  rw [unpack_eq, hsign, hmagnitude]

/-- Rounding an integer finds the double next to it. -/
theorem round_eq (s : Sign) {n : Nat} (hn : n ≠ 0) :
    UnpackedFloat.round Format.binary64 s n 0 =
      (Magnitude.finite (Binary.nearest n)).withSign s := by
  have hshift : (0 - (0 + (n.log2 : Int) - 52)).toNat = 52 - n.log2 := by omega
  rw [UnpackedFloat.round, targetExponent_eq (by omega), UnpackedFloat.decreaseExponent, hshift,
    Nat.shiftLeft_eq, Int.zero_sub]
  exact round_scaled s hn (by omega)

theorem toFloat_eq {n : Nat} (hn : n ≠ 0) (h : n < 2 ^ 64) :
    n.toUInt64.toFloat = (Binary.nearest n).double .positive := by
  have hnat : n.toUInt64.toNat = n := Nat.mod_eq_of_lt h
  have hgt : compare (n : Int) 0 = .gt := compare_gt_iff_gt.2 (by omega)
  change Float.ofModel (Float.Model.pack (UnpackedFloat.ofInt Format.binary64 n.toUInt64.toNat)) = _
  rw [hnat, UnpackedFloat.ofInt, UnpackedFloat.normalize, hgt, Binary.double]
  change Float.ofModel (Float.Model.pack (UnpackedFloat.round Format.binary64 .positive n 0)) = _
  rw [round_eq _ hn]

/-- The first power of ten among doubles. -/
theorem unpack_one : (Float.ofBits 0x3FF0000000000000).toModel.unpack =
    .finite .positive (2 ^ 52) (-52) (by decide) := rfl

theorem double_mul_one {n : Nat} (hn : n ≠ 0) (h : n.log2 ≤ 52) :
    (Binary.nearest n).double .positive * Float.ofBits 0x3FF0000000000000 =
      (Binary.nearest n).double .positive := by
  obtain ⟨hcanonical, hmantissa⟩ := Binary.nearest_isCanonical hn (by omega)
  have hround := round_scaled .positive (k := 104 - n.log2) hn (by omega)
  have hfactor : n * 2 ^ (104 - n.log2) = n * 2 ^ (52 - n.log2) * 2 ^ 52 := by
    rw [Nat.mul_assoc, ← Nat.pow_add]
    congr 2
    omega
  have hexponent : (-((104 - n.log2 : Nat) : Int)) = n.log2 - 52 + -52 := by omega
  rw [hfactor, hexponent] at hround
  change Float.ofModel (Float.Model.pack (UnpackedFloat.mul Format.binary64
    ((Binary.nearest n).double .positive).toModel.unpack _)) = _
  rw [unpack_double _ hcanonical hmantissa, unpack_one, Magnitude.withSign_finite hmantissa,
    Binary.double, ← hround]
  simp only [Binary.nearest_of_lt hn h]
  rfl

/-- A longer integer is scaled by a power of two and multiplied by one. -/
theorem ofScientific_eq {n : Nat} (hn : n ≠ 0) :
    UnpackedFloat.ofScientific Format.binary64 n 0 =
      (Magnitude.finite (Binary.nearest n)).withSign .positive := by
  have hexponents : (2 : Int) ^ Format.binary64.exponentBits = 2048 := rfl
  have hbits : Format.binary64.mantissaBits = 53 := rfl
  have hround := round_scaled .positive (k := 53) hn (by omega)
  rw [UnpackedFloat.ofScientific, dif_neg hn, hexponents, if_neg (by decide), if_neg (by omega),
    if_pos (Int.le_refl 0), ← hround]
  simp only [UnpackedFloat.mul, hbits, Nat.shiftLeft_eq, Int.toNat_zero, Nat.pow_zero, Nat.mul_one,
    Int.add_zero]
  rfl

/-- The double of a positive integer is the one next to it. -/
theorem ofNat_eq {n : Nat} (hn : n ≠ 0) (h : n < 2 ^ 64) :
    Float.ofNat n = (Binary.nearest n).double .positive := by
  have hlog : n.log2 < 64 := (Nat.log2_lt hn).2 h
  unfold Float.ofNat
  change Float.ofScientific n false 0 = _
  unfold Float.ofScientific
  split
  · next hsmall =>
    have hlog : n.log2 < 53 := (Nat.log2_lt hn).2 hsmall.1
    rw [← double_mul_one hn (by omega), ← toFloat_eq hn h]
    rfl
  · rw [Binary.double, ← ofScientific_eq hn]
    rfl

theorem neg_double {x : Binary} (h : x.IsCanonical) (hm : x.mantissa ≠ 0) :
    (x.double .positive).neg = x.double .negative := by
  change Float.ofModel (Float.Model.pack (x.double .positive).toModel.unpack.neg) = _
  rw [unpack_double _ h hm, Binary.double, Magnitude.withSign_finite hm,
    Magnitude.withSign_finite hm]
  rfl

theorem Binary.value_carry {q : Nat} (e : Int) (h : q ≤ 2 * leastMantissa) :
    (carry q e).value = q * 2 ^ e := by
  rw [carry]
  split
  · rfl
  · next hge =>
    rw [Nat.le_antisymm h (Nat.not_lt.1 hge), value, zpow_add_one₀ two_ne_zero]
    push_cast
    ring

/-- The number that the double next to an integer is. -/
theorem Binary.value_nearest {n : Nat} (hn : n ≠ 0) :
    (Binary.nearest n).value =
      ((roundDiv .even n (2 ^ (n.log2 - 52)) * 2 ^ (n.log2 - 52) : Nat) : ℚ) := by
  have hpowers : (2 : ℚ) ^ (52 - n.log2) * 2 ^ ((n.log2 : Int) - 52) = 2 ^ (n.log2 - 52) := by
    rw [← zpow_natCast, ← zpow_natCast, ← zpow_add₀ two_ne_zero]
    congr 1
    omega
  rw [Binary.nearest, value_carry _ (nearest_mantissa_bounds hn).2]
  push_cast
  rw [mul_assoc, hpowers]

end Stencil.Decimal

namespace Stencil.Double

open Decimal

/-- The integer that the double next to an integer is. -/
def rounded (n : Int) : Int :=
  n.sign * (roundDiv .even n.natAbs (2 ^ (n.natAbs.log2 - 52)) * 2 ^ (n.natAbs.log2 - 52) : Nat)

/-- The double of an integer is the one next to it. -/
theorem toDouble_eq {n : Int64} (hn : n.toInt ≠ 0) :
    toDouble n = (Binary.nearest n.toInt.natAbs).double
      (if n.toInt < 0 then .negative else .positive) := by
  have hlow := n.le_toInt
  have hhigh := n.toInt_lt
  rw [toDouble]
  generalize n.toInt = k at hn hlow hhigh ⊢
  cases k with
  | ofNat k =>
    rw [Int.ofNat_eq_natCast] at hn hlow hhigh ⊢
    rw [if_neg (Int.not_lt.2 (Int.natCast_nonneg k))]
    exact ofNat_eq (by rintro rfl; exact hn rfl) (by omega)
  | negSucc k =>
    have hlog : k.succ.log2 < 64 := (Nat.log2_lt (Nat.succ_ne_zero k)).2 (by omega)
    obtain ⟨hcanonical, hmantissa⟩ := Binary.nearest_isCanonical (Nat.succ_ne_zero k) (by omega)
    rw [if_pos (Int.negSucc_lt_zero k), Int.natAbs_negSucc, ← neg_double hcanonical hmantissa,
      ← ofNat_eq (Nat.succ_ne_zero k) (by omega)]
    rfl

/-- The double of an integer is the integer rounded to 53 bits. -/
theorem value?_toDouble (n : Int64) : value? (toDouble n) = some (rounded n.toInt : ℚ) := by
  by_cases hn : n.toInt = 0
  · have hzero : Magnitude.ofBits (Float.ofInt 0).toBits = .finite ⟨0, -1074⟩ := by decide +kernel
    rw [value?, toDouble, hn, hzero]
    exact congrArg some (Binary.signed_eq_zero rfl _)
  · have habs : n.toInt.natAbs ≠ 0 := Int.natAbs_ne_zero.2 hn
    have hlow := n.le_toInt
    have hhigh := n.toInt_lt
    have hlog : n.toInt.natAbs.log2 < 64 := (Nat.log2_lt habs).2 (by omega)
    obtain ⟨hcanonical, hmantissa⟩ := Binary.nearest_isCanonical habs (by omega)
    obtain ⟨hsign, hmagnitude⟩ :=
      hcanonical.double hmantissa (if n.toInt < 0 then .negative else .positive)
    rw [value?, toDouble_eq hn, hmagnitude, hsign, rounded]
    dsimp only
    rw [Option.some.injEq, Int.cast_mul, Int.cast_natCast, ← Binary.value_nearest habs]
    rcases Int.lt_or_gt_of_ne hn with h | h
    · rw [if_pos h, Int.sign_eq_neg_one_of_neg h, Binary.signed]
      push_cast
      ring
    · rw [if_neg (by omega), Int.sign_eq_one_of_pos h, Binary.signed]
      push_cast
      ring

/-- An integer is a double if it has 53 bits besides the zeros at its end. -/
theorem rounded_eq_self_iff {n : Int} :
    rounded n = n ↔ 2 ^ (n.natAbs.log2 - 52) ∣ n.natAbs := by
  have hsplit := Int.sign_mul_natAbs n
  refine ⟨fun h => ?_, fun ⟨k, hk⟩ => ?_⟩
  · have habs := congrArg Int.natAbs h
    by_cases hn : n = 0
    · simp [hn]
    · rw [rounded, Int.natAbs_mul, Int.natAbs_sign_of_ne_zero hn, Nat.one_mul,
        Int.natAbs_natCast] at habs
      exact ⟨_, (Nat.mul_comm _ _).trans habs |>.symm⟩
  · have hround : roundDiv .even n.natAbs (2 ^ (n.natAbs.log2 - 52)) = k := by
      have hself := roundDiv_mul_self .even k (Nat.two_pow_pos (n.natAbs.log2 - 52))
      rwa [Nat.mul_comm, ← hk] at hself
    rw [rounded, hround, Nat.mul_comm, ← hk, hsplit]

example : rounded 9007199254740993 = 9007199254740992 := by decide +kernel

theorem rounded_of_le {n : Int} (h : n.natAbs ≤ 2 ^ 53) : rounded n = n := by
  refine rounded_eq_self_iff.2 ?_
  rcases Nat.lt_or_eq_of_le h with hlt | heq
  · have hlog : n.natAbs.log2 - 52 = 0 := by
      rcases Nat.eq_zero_or_pos n.natAbs with hzero | hpos
      · rw [hzero, Nat.log2_zero]
      · have := (Nat.log2_lt (Nat.ne_of_gt hpos)).2 hlt
        omega
    rw [hlog, Nat.pow_zero]
    exact one_dvd _
  · rw [heq, Nat.log2_two_pow]
    exact ⟨2 ^ 52, rfl⟩

/-- Integers are equal as doubles if they are rounded to the same integer. -/
theorem toDouble_beq_iff {m n : Int64} :
    (toDouble m == toDouble n) = true ↔ rounded m.toInt = rounded n.toInt := by
  rw [beq_eq, beq_iff_eq, order_eq_some_eq_iff (value?_toDouble m), value?_toDouble,
    Option.some.injEq, Int.cast_inj, eq_comm]

theorem isNaN_toDouble (n : Int64) : (toDouble n).isNaN = false :=
  isNaN_of_value? (value?_toDouble n)

end Stencil.Double
