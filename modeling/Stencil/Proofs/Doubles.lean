import Mathlib
import Stencil.Decimal.Binary
import Stencil.Value.Compare

/-!
# Doubles as numbers

A double is a bit pattern, and its parts are those that the pattern shows: a sign, and a fraction
unless it is infinite or not a number. Doubles keep their fractions in one form, so that the order
of two doubles, which looks at exponents first, is the order of the numbers that they are.

* `Decimal.unpack_eq`: the parts of a double are those of its pattern;
* `Decimal.Binary.IsCanonical`: the form in which doubles keep fractions;
* `Decimal.shows_pack`: every fraction of this form is the fraction of a double;
* `Double.order`: the order of two doubles, if there is one;
* `Double.value?`: the number that a double is;
* `Double.order_eq_compare`: doubles have the order of their numbers.
-/

namespace Stencil

open Float.Model (UnpackedFloat Format)
open Float.Model.UnpackedFloat (Sign)

namespace Decimal

/-! ### The parts of a pattern -/

/-- The sign of a bit pattern. -/
def signOf (bits : UInt64) : Sign := if isNegative bits then .negative else .positive

/-- A sign and a magnitude put together. -/
def Magnitude.withSign (s : Sign) : Magnitude → UnpackedFloat
  | .nan => .notANumber
  | .infinite => .infinity s
  | .finite x =>
    if h : x.mantissa = 0 then .zero s
    else .finite s x.mantissa x.exponent (Nat.pos_of_ne_zero h)

theorem Magnitude.withSign_zero {x : Binary} (h : x.mantissa = 0) (s : Sign) :
    (Magnitude.finite x).withSign s = .zero s := dif_pos h

theorem Magnitude.withSign_finite {x : Binary} (h : x.mantissa ≠ 0) (s : Sign) :
    (Magnitude.finite x).withSign s =
      .finite s x.mantissa x.exponent (Nat.pos_of_ne_zero h) := dif_neg h

theorem toNat_unpackMantissa (bits : UInt64) :
    (@UnpackedFloat.unpackMantissa Format.binary64 bits.toBitVec).toNat =
      bits.toNat % leastMantissa := by
  rw [UnpackedFloat.unpackMantissa_def, BitVec.extractLsb'_toNat, Nat.shiftRight_zero]
  rfl

theorem toNat_unpackExponent (bits : UInt64) :
    (@UnpackedFloat.unpackExponent Format.binary64 bits.toBitVec).toNat =
      bits.toNat / leastMantissa % 2048 := by
  rw [UnpackedFloat.unpackExponent_def, BitVec.extractLsb'_toNat, Nat.shiftRight_eq_div_pow]
  rfl

theorem ofBitVec_unpackSign (bits : UInt64) :
    Sign.ofBitVec (@UnpackedFloat.unpackSign Format.binary64 bits.toBitVec) = signOf bits := by
  have hlt := bits.toNat_lt
  have hsign : (@UnpackedFloat.unpackSign Format.binary64 bits.toBitVec).toNat =
      bits.toNat / 0x8000000000000000 := by
    rw [UnpackedFloat.unpackSign_def, BitVec.extractLsb'_toNat, Nat.shiftRight_eq_div_pow]
    change bits.toNat / 0x8000000000000000 % 2 = _
    omega
  simp only [Sign.ofBitVec, signOf, isNegative, ← BitVec.toNat_inj, hsign, beq_iff_eq]
  change (if bits.toNat / 0x8000000000000000 = 0 then _ else _) = _
  split <;> split <;> first | rfl | omega

theorem toNat_leading (fraction : BitVec 52) :
    (1#1 ++ fraction).toNat = leastMantissa + fraction.toNat := by
  rw [BitVec.toNat_append, ← Nat.shiftLeft_add_eq_or_of_lt fraction.isLt]
  rfl

/-- The parts of a double are those that its bit pattern shows. -/
theorem unpack_eq (x : Float) :
    x.toModel.unpack = (Magnitude.ofBits x.toBits).withSign (signOf x.toBits) := by
  change UnpackedFloat.unpack Format.binary64 x.toBits.toBitVec = _
  have hones : @UnpackedFloat.unpackExponent Format.binary64 x.toBits.toBitVec = -1#11 ↔
      x.toBits.toNat / leastMantissa % 2048 = 2047 := by
    rw [← toNat_unpackExponent]
    exact BitVec.toNat_inj.symm
  have hzero : @UnpackedFloat.unpackExponent Format.binary64 x.toBits.toBitVec = 0#11 ↔
      x.toBits.toNat / leastMantissa % 2048 = 0 := by
    rw [← toNat_unpackExponent]
    exact BitVec.toNat_inj.symm
  have hwhole : @UnpackedFloat.unpackMantissa Format.binary64 x.toBits.toBitVec = 0#52 ↔
      x.toBits.toNat % leastMantissa = 0 := by
    rw [← toNat_unpackMantissa]
    exact BitVec.toNat_inj.symm
  rw [UnpackedFloat.unpack, ofBitVec_unpackSign, Magnitude.ofBits]
  simp only [toNat_leading, toNat_unpackExponent, toNat_unpackMantissa]
  split
  · next h =>
    rw [if_pos (hones.1 h)]
    split
    · next h => rw [if_pos (hwhole.1 h)]; rfl
    · next h => rw [if_neg (mt hwhole.2 h)]; rfl
  · next h =>
    rw [if_neg (mt hones.2 h)]
    split
    · next h =>
      rw [if_pos (hzero.1 h)]
      simp only [hzero.1 h]
      split
      · next h => rw [Magnitude.withSign_zero (hwhole.1 h)]
      · next h => rw [Magnitude.withSign_finite (mt hwhole.2 h)]; rfl
    · next h =>
      rw [if_neg (mt hzero.2 h), Magnitude.withSign_finite (by simp [leastMantissa])]
      rfl

/-! ### The form of fractions -/

/-- A mantissa and an exponent as doubles have them. -/
structure Binary.IsCanonical (x : Binary) : Prop where
  mantissa_lt : x.mantissa < 2 * leastMantissa
  exponent_ge : -1074 ≤ x.exponent
  exponent_le : x.exponent ≤ 971
  normal : leastMantissa ≤ x.mantissa ∨ x.exponent = -1074

theorem Binary.isCanonical_mk {m : Nat} {e : Int} (hlt : m < 2 * leastMantissa) (hge : -1074 ≤ e)
    (hle : e ≤ 971) (hnormal : leastMantissa ≤ m ∨ e = -1074) : (Binary.mk m e).IsCanonical :=
  ⟨hlt, hge, hle, hnormal⟩

/-- The fraction of a double is in the form of doubles. -/
theorem Magnitude.isCanonical_of_ofBits {bits : UInt64} {x : Binary}
    (h : Magnitude.ofBits bits = .finite x) : x.IsCanonical := by
  have hfraction : bits.toNat % leastMantissa < leastMantissa := Nat.mod_lt _ (by decide)
  have hexponent : bits.toNat / leastMantissa % 2048 < 2048 := Nat.mod_lt _ (by decide)
  simp only [Magnitude.ofBits] at h
  split at h
  · split at h <;> cases h
  · split at h
    · cases h
      exact Binary.isCanonical_mk (by omega) (by omega) (by omega) (.inr rfl)
    · cases h
      exact Binary.isCanonical_mk (by omega) (by omega) (by omega) (.inl (Nat.le_add_right _ _))

/-! ### Packing -/

theorem toNat_packComponents (s : Sign) (e : BitVec 11) (m : BitVec 52) :
    (UnpackedFloat.packComponents Format.binary64 s e m).toNat =
      (s.toBitVec.toNat * 2048 + e.toNat) * leastMantissa + m.toNat := by
  unfold UnpackedFloat.packComponents
  rw [BitVec.toNat_append, ← Nat.shiftLeft_add_eq_or_of_lt m.isLt, BitVec.toNat_append,
    ← Nat.shiftLeft_add_eq_or_of_lt e.isLt, Nat.shiftLeft_eq, Nat.shiftLeft_eq]
  rfl

/-- What a double shows whose pattern is put together of three fields. -/
theorem shows_of_fields {bits : UInt64} {s : Sign} {e f : Nat} (he : e < 2048)
    (hf : f < leastMantissa)
    (h : bits.toNat = (s.toBitVec.toNat * 2048 + e) * leastMantissa + f) :
    signOf bits = s ∧ Magnitude.ofBits bits =
      if e = 2047 then if f = 0 then .infinite else .nan
      else if e = 0 then .finite ⟨f, -1074⟩
      else .finite ⟨leastMantissa + f, (e : Int) - 1075⟩ := by
  have hdiv : bits.toNat / leastMantissa = s.toBitVec.toNat * 2048 + e := by
    rw [h, Nat.add_comm, Nat.add_mul_div_right _ _ (by decide), Nat.div_eq_of_lt hf, Nat.zero_add]
  have hmod : bits.toNat % leastMantissa = f := by
    rw [h, Nat.mul_add_mod', Nat.mod_eq_of_lt hf]
  refine ⟨?_, ?_⟩
  · have hhalf : bits.toNat / 0x8000000000000000 = s.toBitVec.toNat := by
      rw [show 0x8000000000000000 = leastMantissa * 2048 from rfl, ← Nat.div_div_eq_div_mul, hdiv]
      omega
    rw [signOf, isNegative, hhalf]
    cases s <;> rfl
  · rw [Magnitude.ofBits, hdiv, hmod, Nat.mul_add_mod', Nat.mod_eq_of_lt he]

/-- A double is packed with the sign, the mantissa and the exponent that it shows. -/
theorem shows_pack (s : Sign) {m : Nat} {e : Int} (hm : 0 < m) (h : (Binary.mk m e).IsCanonical) :
    let bits := (Float.Model.pack (.finite s m e hm)).toBits
    signOf bits = s ∧ Magnitude.ofBits bits = .finite ⟨m, e⟩ := by
  obtain ⟨hlt, hge, hle, hnormal⟩ := h
  dsimp only at hlt hge hle hnormal ⊢
  have hbias : e + (Format.exponentBias Format.binary64 : Int) + ((52 : Nat) : Int) = e + 1075 := by
    rw [Int.add_assoc]
    rfl
  have hlog : m.log2 + 1 = Format.binary64.mantissaBits ↔ leastMantissa ≤ m := by
    have hle : 52 ≤ m.log2 ↔ leastMantissa ≤ m := Nat.le_log2 (Nat.ne_of_gt hm)
    have hlt : m.log2 < 53 := (Nat.log2_lt (Nat.ne_of_gt hm)).2 hlt
    change m.log2 + 1 = 53 ↔ _
    omega
  have hpack : (Float.Model.pack (.finite s m e hm)).toBits.toNat =
      (if leastMantissa ≤ m then
        UnpackedFloat.packComponents Format.binary64 s (.ofNat 11 (e + 1075).toNat) (.ofNat 52 m)
      else UnpackedFloat.packComponents Format.binary64 s 0#11 (.ofNat 52 m)).toNat := by
    change (UnpackedFloat.pack Format.binary64 (.finite s m e hm)).toNat = _
    rw [UnpackedFloat.pack]
    dsimp only
    rw [hbias, if_neg (by omega)]
    simp only [hlog]
  by_cases hbig : leastMantissa ≤ m
  · rw [if_pos hbig, toNat_packComponents, BitVec.toNat_ofNat, BitVec.toNat_ofNat,
      Nat.mod_eq_of_lt (show (e + 1075).toNat < 2 ^ 11 by omega)] at hpack
    have hfraction : m % 2 ^ 52 = m - leastMantissa := by
      rw [show 2 ^ 52 = leastMantissa from rfl, Nat.mod_eq_sub_mod hbig,
        Nat.mod_eq_of_lt (by omega)]
    rw [hfraction] at hpack
    obtain ⟨hsign, hshown⟩ := shows_of_fields (by omega) (by omega) hpack
    refine ⟨hsign, hshown.trans ?_⟩
    rw [if_neg (by omega), if_neg (by omega), Nat.add_sub_cancel' hbig,
      Int.toNat_of_nonneg (by omega), Int.add_sub_cancel]
  · have hfraction : (BitVec.ofNat 52 m).toNat = m := Nat.mod_eq_of_lt (Nat.not_le.1 hbig)
    rw [if_neg hbig, toNat_packComponents, hfraction] at hpack
    obtain ⟨hsign, hshown⟩ := shows_of_fields (e := 0) (by decide) (Nat.not_le.1 hbig) hpack
    exact ⟨hsign, by rw [hshown, hnormal.resolve_left hbig]; rfl⟩

/-! ### The numbers of fractions -/

namespace Binary

/-- The number that a fraction is. -/
def value (x : Binary) : ℚ := x.mantissa * 2 ^ x.exponent

/-- The number that a fraction with a sign is. -/
def signed (x : Binary) : Sign → ℚ
  | .positive => x.value
  | .negative => -x.value

variable {x y : Binary}

theorem value_pos (h : x.mantissa ≠ 0) : 0 < x.value :=
  mul_pos (Nat.cast_pos.2 (Nat.pos_of_ne_zero h)) (by positivity)

theorem signed_eq_zero (h : x.mantissa = 0) (s : Sign) : x.signed s = 0 := by
  cases s <;> simp [signed, value, h]

/-- The mantissas of doubles are so long that the exponents decide first. -/
theorem IsCanonical.value_lt (hx : x.IsCanonical) (hy : y.IsCanonical)
    (h : x.exponent < y.exponent) : x.value < y.value := by
  have hnormal : leastMantissa ≤ y.mantissa :=
    hy.normal.resolve_right (Int.ne_of_gt (Int.lt_of_le_of_lt hx.exponent_ge h))
  have hmantissa : (x.mantissa : ℚ) < 2 * y.mantissa := by
    have := hx.mantissa_lt
    exact_mod_cast show x.mantissa < 2 * y.mantissa by omega
  calc x.value < 2 * y.mantissa * 2 ^ x.exponent :=
        mul_lt_mul_of_pos_right hmantissa (by positivity)
    _ = y.mantissa * 2 ^ (x.exponent + 1) := by rw [zpow_add_one₀ two_ne_zero]; ring
    _ ≤ y.value := mul_le_mul_of_nonneg_left (zpow_le_zpow_right₀ one_le_two h) (Nat.cast_nonneg _)

theorem IsCanonical.compare_value (hx : x.IsCanonical) (hy : y.IsCanonical) :
    compare x.value y.value =
      (compare x.exponent y.exponent).then (compare x.mantissa y.mantissa) := by
  rcases lt_trichotomy x.exponent y.exponent with h | h | h
  · rw [compare_lt_iff_lt.2 (hx.value_lt hy h), compare_lt_iff_lt.2 h]
    rfl
  · rw [compare_eq_iff_eq.2 h, Ordering.eq_then, value, value, h]
    have hpos : (0 : ℚ) < 2 ^ y.exponent := by positivity
    rcases lt_trichotomy x.mantissa y.mantissa with hm | hm | hm
    · rw [compare_lt_iff_lt.2 hm, compare_lt_iff_lt]
      gcongr
    · rw [compare_eq_iff_eq.2 hm, compare_eq_iff_eq, hm]
    · rw [compare_gt_iff_gt.2 hm, compare_gt_iff_gt]
      gcongr
  · rw [compare_gt_iff_gt.2 (hy.value_lt hx h), compare_gt_iff_gt.2 h]
    rfl

/-- The order of doubles is the order of the numbers that they are. -/
theorem IsCanonical.compare_withSign (hx : x.IsCanonical) (hy : y.IsCanonical) (s t : Sign) :
    ((Magnitude.finite x).withSign s).compare ((Magnitude.finite y).withSign t) =
      some (compare (x.signed s) (y.signed t)) := by
  by_cases hxm : x.mantissa = 0
  · rw [signed_eq_zero hxm, Magnitude.withSign_zero hxm]
    by_cases hym : y.mantissa = 0
    · rw [signed_eq_zero hym, Magnitude.withSign_zero hym, compare_eq_iff_eq.2 rfl]
      rfl
    · have hpos := value_pos hym
      rw [Magnitude.withSign_finite hym]
      cases t with
      | positive => rw [signed, compare_lt_iff_lt.2 hpos]; rfl
      | negative => rw [signed, compare_gt_iff_gt.2 (neg_neg_of_pos hpos)]; rfl
  · have hxpos := value_pos hxm
    rw [Magnitude.withSign_finite hxm]
    by_cases hym : y.mantissa = 0
    · rw [signed_eq_zero hym, Magnitude.withSign_zero hym]
      cases s with
      | positive => rw [signed, compare_gt_iff_gt.2 hxpos]; rfl
      | negative => rw [signed, compare_lt_iff_lt.2 (neg_neg_of_pos hxpos)]; rfl
    · have hypos := value_pos hym
      rw [Magnitude.withSign_finite hym]
      cases s with
      | positive =>
        cases t with
        | positive => rw [signed, signed, hx.compare_value hy]; rfl
        | negative => rw [signed, signed, compare_gt_iff_gt.2 (show _ < _ by linarith)]; rfl
      | negative =>
        cases t with
        | positive => rw [signed, signed, compare_lt_iff_lt.2 (by linarith)]; rfl
        | negative =>
          have hswap : compare (-x.value) (-y.value) = (compare x.value y.value).swap := by
            have hneg : StrictAnti (Neg.neg : ℚ → ℚ) := fun _ _ h => neg_lt_neg h
            rw [← cmp_eq_compare, hneg.cmp_map_eq, ← cmp_swap, cmp_eq_compare]
          rw [signed, signed, hswap, hx.compare_value hy]
          rfl

end Binary

end Decimal

namespace Double

open Decimal

/-! ### The order of doubles -/

/-- The order of two doubles, if there is one: zeros are equal whatever their signs, and what is
not a number has no order. -/
def order (a b : Float) : Option Ordering := a.toModel.compare b.toModel

theorem unpacked_compare_swap (a b : UnpackedFloat) :
    b.compare a = (a.compare b).map Ordering.swap := by
  cases a with
  | infinity s =>
    cases b with
    | infinity t => cases s <;> cases t <;> rfl
    | _ => cases s <;> rfl
  | notANumber => cases b <;> rfl
  | zero s =>
    cases b with
    | infinity t => cases t <;> rfl
    | finite t m e h => cases t <;> rfl
    | _ => rfl
  | finite s m e h =>
    cases b with
    | infinity t => cases s <;> cases t <;> rfl
    | finite t n d h' =>
      have hswap : ((compare e d).then (compare m n)).swap = (compare d e).then (compare n m) := by
        rw [Ordering.swap_then, Int.compare_swap, Nat.compare_swap]
      cases s <;> cases t <;> simp [UnpackedFloat.compare, hswap]
    | _ => cases s <;> rfl

theorem order_swap (a b : Float) : order b a = (order a b).map Ordering.swap :=
  unpacked_compare_swap _ _

theorem order_eq_none_iff {a b : Float} : order a b = none ↔ a.isNaN = true ∨ b.isNaN = true := by
  change UnpackedFloat.compare a.toModel.unpack b.toModel.unpack = none ↔
    a.toModel.unpack.isNaN = true ∨ b.toModel.unpack.isNaN = true
  generalize a.toModel.unpack = u
  generalize b.toModel.unpack = v
  cases u with
  | infinity s => cases v <;> cases s <;> simp [UnpackedFloat.compare]
  | notANumber => simp [UnpackedFloat.compare]
  | zero s =>
    cases v with
    | infinity t => cases t <;> simp [UnpackedFloat.compare]
    | finite t m e h => cases t <;> simp [UnpackedFloat.compare]
    | _ => simp [UnpackedFloat.compare]
  | finite s m e h =>
    cases v with
    | infinity t => cases s <;> cases t <;> simp [UnpackedFloat.compare]
    | finite t n d h' => cases s <;> cases t <;> simp [UnpackedFloat.compare]
    | _ => cases s <;> simp [UnpackedFloat.compare]

/-- A double that is a number is equal to itself. -/
theorem order_self {a : Float} (h : a.isNaN = false) : order a a = some .eq := by
  have hswap := order_swap a a
  cases ho : order a a with
  | none =>
    rw [order_eq_none_iff, or_self, h] at ho
    cases ho
  | some o =>
    rw [ho] at hswap
    cases o <;> cases hswap
    rfl

theorem beq_eq (a b : Float) : (a == b) = (order a b == some .eq) := rfl

theorem beq_comm (a b : Float) : (a == b) = (b == a) := by
  rw [beq_eq, beq_eq, order_swap]
  rcases order b a with _ | _ | _ | _ <;> rfl

theorem lt_iff {a b : Float} : a < b ↔ order a b = some .lt :=
  decide_eq_true_iff.trans beq_iff_eq

/-- The comparison of doubles finds their order. -/
theorem compareDoubles_eq (a b : Float) :
    Value.compareDoubles a b = (order a b).elim (.error .nan) .ok := by
  have hgt : b < a ↔ order a b = some .gt := by
    rw [lt_iff, order_swap]
    rcases order a b with _ | _ | _ | _ <;> simp
  rw [Value.compareDoubles, beq_eq]
  simp only [lt_iff, hgt]
  rcases order a b with _ | _ | _ | _ <;> rfl

/-! ### Doubles and their numbers -/

/-- The number that a double is, unless it is infinite or not a number. -/
def value? (x : Float) : Option ℚ :=
  match Magnitude.ofBits x.toBits with
  | .finite b => some (b.signed (signOf x.toBits))
  | _ => none

theorem order_eq (a b : Float) :
    order a b = ((Magnitude.ofBits a.toBits).withSign (signOf a.toBits)).compare
      ((Magnitude.ofBits b.toBits).withSign (signOf b.toBits)) := by
  rw [← unpack_eq, ← unpack_eq]
  rfl

/-- What is infinite or not a number has no equal among the fractions. -/
theorem exists_of_compare_eq {x : Binary} {s t : Sign} {m : Magnitude}
    (h : ((Magnitude.finite x).withSign s).compare (m.withSign t) = some .eq) :
    ∃ y, m = .finite y := by
  cases m with
  | finite y => exact ⟨y, rfl⟩
  | nan | infinite =>
    simp only [Magnitude.withSign] at h
    split at h <;> cases s <;> cases t <;> cases h

theorem value?_eq_some {x : Float} {r : ℚ} (h : value? x = some r) :
    ∃ b : Binary, Magnitude.ofBits x.toBits = .finite b ∧ b.IsCanonical ∧
      b.signed (signOf x.toBits) = r := by
  unfold value? at h
  split at h
  · next b hb => exact ⟨b, hb, Magnitude.isCanonical_of_ofBits hb, Option.some.inj h⟩
  · cases h

/-- Doubles have the order of the numbers that they are. -/
theorem order_eq_compare {a b : Float} {r q : ℚ} (ha : value? a = some r) (hb : value? b = some q) :
    order a b = some (compare r q) := by
  obtain ⟨x, hx, hxc, rfl⟩ := value?_eq_some ha
  obtain ⟨y, hy, hyc, rfl⟩ := value?_eq_some hb
  rw [order_eq, hx, hy, hxc.compare_withSign hyc]

/-- What is equal to a number is that number. -/
theorem order_eq_some_eq_iff {a b : Float} {r : ℚ} (ha : value? a = some r) :
    order a b = some .eq ↔ value? b = some r := by
  refine ⟨fun h => ?_, fun hb => ?_⟩
  · cases hb : value? b with
    | some q => rw [order_eq_compare ha hb, Option.some.injEq, compare_eq_iff_eq] at h; rw [h]
    | none =>
      obtain ⟨x, hx, -⟩ := value?_eq_some ha
      rw [order_eq, hx] at h
      obtain ⟨y, hy⟩ := exists_of_compare_eq h
      simp [value?, hy] at hb
  · rw [order_eq_compare ha hb, compare_eq_iff_eq.2 rfl]

theorem isNaN_of_value? {a : Float} {r : ℚ} (h : value? a = some r) : a.isNaN = false := by
  have hself := (order_eq_some_eq_iff h).2 h
  by_contra hnan
  rw [order_eq_none_iff.2 (.inl (Bool.eq_true_of_not_eq_false hnan))] at hself
  cases hself

end Double

end Stencil
