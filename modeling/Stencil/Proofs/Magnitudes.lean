import Stencil.Decimal.Shortest
import Stencil.Proofs.Doubles

/-!
# How far points stand from digits

The shortest decimal of a double has its point within a few thousand places of its first digit, so
that an exponent of the decimal has four digits at most. The bounds are rough: a number below
`2 ^ k` is taken to be below `10 ^ k`.

* `Decimal.trimPlaces_point`: zeros that are taken off the end do not move the point;
* `Decimal.Binary.IsCanonical.point_bounds`: the first digit of a double;
* `Decimal.Binary.IsCanonical.shortest_point_lt`: the point of the shortest decimal.
-/

namespace Stencil.Decimal

/-! ### Numbers of digits -/

theorem digitCount_pos (n : Nat) : 0 < digitCount n := Nat.length_toDigits_pos

theorem digitCount_le {n k : Nat} (h : n < 10 ^ k) : digitCount n ≤ k + 1 :=
  (Nat.length_toDigits_le_iff (by decide) k.succ_pos).2
    (h.trans_le (Nat.pow_le_pow_right (by decide) k.le_succ))

theorem digitCount_div_ten {n : Nat} (h : 10 ≤ n) : digitCount n = digitCount (n / 10) + 1 := by
  rw [digitCount, Nat.toDigits_of_base_le (by decide) h, List.length_append]
  rfl

theorem two_pow_le (k : Nat) : 2 ^ k ≤ 10 ^ k := Nat.pow_le_pow_left (by decide) k

/-- Zeros that are taken off the end do not move the point. -/
theorem trimPlaces_point (places : Nat) {d : Decimal} (h : d.digits ≠ 0) :
    digitCount (d.trimPlaces places).digits + (d.trimPlaces places).exponent =
      digitCount d.digits + d.exponent := by
  induction places generalizing d with
  | zero => rfl
  | succ places ih =>
    rw [trimPlaces]
    split
    · next hzero =>
      have hten : 10 ≤ d.digits :=
        Nat.le_of_dvd (Nat.pos_of_ne_zero h) (Nat.dvd_of_mod_eq_zero hzero)
      have hcount := digitCount_div_ten hten
      have hpoint := @ih ⟨d.digits / 10, d.exponent + 1⟩ (by simp only; omega)
      rw [hpoint, hcount]
      push_cast
      ring
    · rfl

theorem trim_point (d : Decimal) :
    digitCount d.trim.digits + d.trim.exponent = digitCount d.digits + d.exponent := by
  unfold trim
  split
  · rfl
  · next h => exact trimPlaces_point _ h

/-! ### Doubles -/

namespace Binary

variable {x : Binary}

theorem IsCanonical.num_lt (h : x.IsCanonical) : x.num < 10 ^ (53 + x.exponent.toNat) :=
  calc x.num < 2 * leastMantissa * 2 ^ x.exponent.toNat :=
        Nat.mul_lt_mul_of_pos_right h.mantissa_lt (Nat.two_pow_pos _)
    _ = 2 ^ (53 + x.exponent.toNat) := (Nat.pow_add 2 53 _).symm
    _ ≤ 10 ^ (53 + x.exponent.toNat) := two_pow_le _

theorem add_sub_one_lt {a b c : Nat} (ha : 0 < a) (hb : b < c) : a + b - 1 < a * c := by
  obtain ⟨a, rfl⟩ := Nat.exists_eq_succ_of_ne_zero ha.ne'
  calc a.succ + b - 1 = a + b := by omega
    _ < a * c + c := Nat.add_lt_add_of_le_of_lt (Nat.le_mul_of_pos_right a (by omega)) hb
    _ = a.succ * c := (Nat.succ_mul a c).symm

/-- The first digit of a double is not far from its point. -/
theorem IsCanonical.point_bounds (h : x.IsCanonical) : -3000 ≤ x.point ∧ x.point ≤ 1025 := by
  have hlow := h.exponent_ge
  have hhigh := h.exponent_le
  unfold point
  split
  · have hcount := digitCount_le ((Nat.div_le_self x.num x.den).trans_lt h.num_lt)
    omega
  · have hlt : (x.den + x.num - 1) / x.num - 1 <
        10 ^ ((-x.exponent).toNat + (53 + x.exponent.toNat)) := by
      calc (x.den + x.num - 1) / x.num - 1 ≤ x.den + x.num - 1 :=
            (Nat.sub_le _ _).trans (Nat.div_le_self _ _)
        _ < x.den * 10 ^ (53 + x.exponent.toNat) := add_sub_one_lt x.den_pos h.num_lt
        _ ≤ 10 ^ (-x.exponent).toNat * 10 ^ (53 + x.exponent.toNat) :=
            Nat.mul_le_mul_right _ (two_pow_le _)
        _ = 10 ^ ((-x.exponent).toNat + (53 + x.exponent.toNat)) := (Nat.pow_add 10 _ _).symm
    have hcount := digitCount_le hlt
    have hpos := digitCount_pos ((x.den + x.num - 1) / x.num - 1)
    omega

theorem roundDiv_le (tie : Tie) (num den : Nat) : roundDiv tie num den ≤ num / den + 1 := by
  unfold roundDiv
  split <;> omega

/-- A decimal on a grid has as many digits as fit between the double and the grid. -/
theorem onGrid_eq_some {tie : Tie} {e : Int} {d : Decimal} (h : x.onGrid tie e = some d) :
    d.exponent = e ∧ d.digits ≤ x.num * 10 ^ (-e).toNat + 1 := by
  have hle : (x.overTen e).1 / (x.overTen e).2 + 1 ≤ x.num * 10 ^ (-e).toNat + 1 :=
    Nat.succ_le_succ (Nat.div_le_self _ _)
  simp only [onGrid] at h
  split at h <;> cases h
  · exact ⟨rfl, (roundDiv_le tie _ _).trans hle⟩
  · exact ⟨rfl, (Nat.le_succ _).trans hle⟩
  · exact ⟨rfl, hle⟩

theorem IsCanonical.mul_lt (h : x.IsCanonical) {n k : Nat} (hn : n ≤ 10 ^ k) (hpos : 0 < n) :
    x.num * n < 10 ^ (53 + x.exponent.toNat + k) :=
  calc x.num * n < 10 ^ (53 + x.exponent.toNat) * n := Nat.mul_lt_mul_of_pos_right h.num_lt hpos
    _ ≤ 10 ^ (53 + x.exponent.toNat) * 10 ^ k := Nat.mul_le_mul_left _ hn
    _ = 10 ^ (53 + x.exponent.toNat + k) := (Nat.pow_add 10 _ _).symm

/-- The point of the shortest decimal of a double is not far from its first digit. -/
theorem IsCanonical.shortest_point_lt (h : x.IsCanonical) (tie : Tie) :
    (digitCount (x.shortest tie).digits + (x.shortest tie).exponent - 1).natAbs < 10 ^ 4 := by
  have hlow := h.exponent_ge
  have hhigh := h.exponent_le
  unfold shortest
  split
  · decide
  · split
    · next d hd =>
      rw [trim_point]
      obtain ⟨n, hn, hgrid⟩ := List.exists_of_findSome?_eq_some hd
      obtain ⟨hexponent, hdigits⟩ := onGrid_eq_some hgrid
      obtain ⟨hpointLow, hpointHigh⟩ := h.point_bounds
      have hsmall := h.mul_lt (le_refl (10 ^ (-(x.point - (n + 1 : Nat))).toNat))
        (Nat.pow_pos (by decide))
      -- Rounding up on the grid costs one digit at most.
      have hlt : d.digits <
          10 ^ (53 + x.exponent.toNat + (-(x.point - (n + 1 : Nat))).toNat + 1) := by
        rw [Nat.pow_succ]
        omega
      have hcount := digitCount_le hlt
      have hpos := digitCount_pos d.digits
      rw [List.mem_range] at hn
      omega
    · have hfive : Nat.pow 5 (-x.exponent).toNat ≤ 10 ^ (-x.exponent).toNat :=
        Nat.pow_le_pow_left (by decide) _
      have hcount := digitCount_le (h.mul_lt hfive (Nat.pow_pos (by decide)))
      have hpos := digitCount_pos (x.num * Nat.pow 5 (-x.exponent).toNat)
      dsimp only
      omega

end Binary

end Stencil.Decimal
