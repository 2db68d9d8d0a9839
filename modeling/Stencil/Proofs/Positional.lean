import Stencil.Json.Basic
import Stencil.Value.Text
import Stencil.Proofs.Arithmetic
import Stencil.Proofs.Conversions
import Stencil.Proofs.Magnitudes

/-!
# Doubles without exponents

The text of a double has a point with digits on both sides and no exponent, and denotes the number
that the shortest decimal of the double is. A text with an exponent is rewritten for this: its point
is moved, to the left of all digits, between two of them, or to the right of all.

* `Numeral.rational`: the number that a numeral denotes;
* `Numeral.IsPositional`, `Numeral.IsScientific`: numerals without and with an exponent;
* `Decimal.exists_plain`: digits with a point at any place;
* `Decimal.withoutExponent_chars`: an exponent is a shift of the point;
* `Decimal.exists_decimal`: the shortest decimal of a double is laid out as one of both;
* `Value.text_exact`: the text of a double is positional and exact.
-/

namespace Stencil

/-! ### Digits -/

/-- There are characters, and all of them are digits. -/
def AreDigits (ds : List Char) : Prop := ds ≠ [] ∧ ∀ c ∈ ds, c.isDigit = true

section Digits
variable {ds es : List Char}

theorem AreDigits.append (hd : AreDigits ds) (he : ∀ c ∈ es, c.isDigit = true) :
    AreDigits (ds ++ es) :=
  ⟨List.append_ne_nil_of_left_ne_nil hd.1 es, List.forall_mem_append.2 ⟨hd.2, he⟩⟩

theorem areDigits_toDigits (n : Nat) : AreDigits (Nat.toDigits 10 n) :=
  ⟨Nat.toDigits_ne_nil, fun _ => Nat.isDigit_of_mem_toDigits (by decide) (by decide)⟩

theorem areDigits_zero : AreDigits ['0'] := ⟨List.cons_ne_nil _ _, List.forall_mem_singleton.2 rfl⟩

theorem AreDigits.take (h : AreDigits ds) {n : Nat} (hn : 0 < n) : AreDigits (ds.take n) := by
  refine ⟨?_, fun c hc => h.2 c (List.mem_of_mem_take hc)⟩
  rw [Ne, List.take_eq_nil_iff]
  exact not_or.2 ⟨hn.ne', h.1⟩

theorem AreDigits.drop (h : AreDigits ds) {n : Nat} (hn : n < ds.length) :
    AreDigits (ds.drop n) := by
  refine ⟨?_, fun c hc => h.2 c (List.mem_of_mem_drop hc)⟩
  rw [Ne, List.drop_eq_nil_iff]
  exact not_le.2 hn

theorem isDigit_of_mem_zeros {count : Int} {c : Char} (h : c ∈ Decimal.zeros count) :
    c.isDigit = true := by
  rw [List.eq_of_mem_replicate h]
  rfl

theorem ofDigitChars_zeros (count : Int) (n : Nat) :
    Nat.ofDigitChars 10 (Decimal.zeros count) n = 10 ^ count.toNat * n :=
  Nat.ofDigitChars_replicate_zero

theorem ofDigitChars_append (ds es : List Char) :
    Nat.ofDigitChars 10 (ds ++ es) 0 =
      10 ^ es.length * Nat.ofDigitChars 10 ds 0 + Nat.ofDigitChars 10 es 0 := by
  rw [Nat.ofDigitChars_append, Nat.ofDigitChars_eq_ofDigitChars_zero]

/-- Digits make a number below the power of ten that has one digit more. -/
theorem ofDigitChars_lt (h : ∀ c ∈ ds, c.isDigit = true) :
    Nat.ofDigitChars 10 ds 0 < 10 ^ ds.length := by
  induction ds with
  | nil => exact Nat.one_pos
  | cons d ds ih =>
    obtain ⟨hd, hds⟩ := List.forall_mem_cons.1 h
    have hdigit : d.toNat - '0'.toNat ≤ 9 := Nat.sub_le_of_le_add (Char.isDigit_iff_toNat.1 hd).2
    have hlt := ih hds
    rw [← List.singleton_append, ofDigitChars_append, List.singleton_append, List.length_cons,
      pow_succ]
    have hhead : Nat.ofDigitChars 10 [d] 0 = d.toNat - '0'.toNat := by
      rw [Nat.ofDigitChars_cons, Nat.ofDigitChars_nil, Nat.mul_zero, Nat.zero_add]
    rw [hhead]
    nlinarith [hdigit, hlt]

end Digits

/-! ### Numerals -/

namespace Numeral

/-- The sign in front of a numeral. -/
def minus (negative : Bool) : List Char := if negative then ['-'] else []

/-- The sign of a numeral as a factor. -/
def sign (negative : Bool) : ℚ := if negative then -1 else 1

/-- The digits of a numeral before its exponent. -/
def digits (n : Numeral) : List Char := n.whole ++ n.fraction.getD []

/-- The power of ten that a numeral states. -/
def power (n : Numeral) : Int :=
  match n.exponent with
  | none => 0
  | some (negative, ds) =>
    if negative then -(Nat.ofDigitChars 10 ds 0 : Int) else Nat.ofDigitChars 10 ds 0

/-- The number that a numeral denotes. -/
def rational (n : Numeral) : ℚ :=
  sign n.negative * Nat.ofDigitChars 10 n.digits 0 * 10 ^ (n.power - (n.fraction.getD []).length)

/-- The numeral has no exponent, but a point with digits on both sides. -/
structure IsPositional (n : Numeral) : Prop where
  whole : AreDigits n.whole
  fraction : ∃ ds, n.fraction = some ds ∧ AreDigits ds
  exponent : n.exponent = none

/-- The numeral has an exponent of at most four digits. -/
structure IsScientific (n : Numeral) : Prop where
  whole : AreDigits n.whole
  fraction : ∀ ds, n.fraction = some ds → AreDigits ds
  exponent : ∃ negative ds, n.exponent = some (negative, ds) ∧ AreDigits ds ∧ ds.length ≤ 4

/-- The numeral with the given digits and power of ten. -/
def raised (negative : Bool) (whole : List Char) (fraction : Option (List Char)) (e : Int) :
    Numeral :=
  ⟨negative, whole, fraction, some (decide (e < 0), Nat.toDigits 10 e.natAbs)⟩

theorem power_raised (negative : Bool) (whole : List Char) (fraction : Option (List Char))
    (e : Int) : (raised negative whole fraction e).power = e := by
  simp only [raised, power, Nat.ofDigitChars_ten_toDigits, decide_eq_true_eq]
  split <;> omega

theorem isScientific_raised (negative : Bool) {whole : List Char} {fraction : Option (List Char)}
    {e : Int} (hwhole : AreDigits whole) (hfraction : ∀ ds, fraction = some ds → AreDigits ds)
    (he : e.natAbs < 10 ^ 4) : (raised negative whole fraction e).IsScientific :=
  ⟨hwhole, hfraction, _, _, rfl, areDigits_toDigits e.natAbs,
    (Nat.length_toDigits_le_iff (by decide) (by decide)).2 he⟩

end Numeral

namespace Decimal

open Numeral (minus sign raised power_raised isScientific_raised)

/-- Digits around a point are a positional numeral. -/
theorem exists_around (negative : Bool) {whole fraction : List Char} (hwhole : AreDigits whole)
    (hfraction : AreDigits fraction) {q : ℚ}
    (hq : (Nat.ofDigitChars 10 (whole ++ fraction) 0 : ℚ) * 10 ^ (-fraction.length : Int) = q) :
    ∃ n : Numeral, n.IsPositional ∧ n.negative = negative ∧
      n.chars = minus negative ++ (whole ++ '.' :: fraction) ∧ n.rational = sign negative * q := by
  refine ⟨⟨negative, whole, some fraction, none⟩, ⟨hwhole, ⟨_, rfl, hfraction⟩, rfl⟩, rfl, ?_, ?_⟩
  · simp only [Numeral.chars, minus, List.append_assoc, List.append_nil]
  · rw [← hq, ← mul_assoc]
    simp only [Numeral.rational, Numeral.digits, Numeral.power, Option.getD_some, zero_sub]

/-- Digits with a point at any place are a positional numeral. -/
theorem exists_plain (negative : Bool) {ds : List Char} (h : AreDigits ds) (point : Int) :
    ∃ n : Numeral, n.IsPositional ∧ n.negative = negative ∧
      n.chars = minus negative ++ Layout.short.plain ds point ∧
      n.rational = sign negative * (Nat.ofDigitChars 10 ds 0 * 10 ^ (point - ds.length)) := by
  unfold Layout.plain
  split
  · next hpoint =>
    -- All digits are right of the point.
    have hfraction : AreDigits (zeros (-point) ++ ds) :=
      ⟨List.append_ne_nil_of_right_ne_nil _ h.1,
        List.forall_mem_append.2 ⟨fun c => isDigit_of_mem_zeros, h.2⟩⟩
    refine exists_around negative areDigits_zero hfraction ?_
    have hnumber : Nat.ofDigitChars 10 (['0'] ++ (zeros (-point) ++ ds)) 0 =
        Nat.ofDigitChars 10 ds 0 := by
      rw [Nat.ofDigitChars_append, Nat.ofDigitChars_append, ofDigitChars_zeros]
      rfl
    have hlength : (-(zeros (-point) ++ ds).length : Int) = point - ds.length := by
      rw [List.length_append, zeros, List.length_replicate]
      omega
    rw [hnumber, hlength]
  · next hpoint =>
    split
    · next hlength =>
      -- All digits are left of the point.
      have hwhole : AreDigits (ds ++ zeros (point - ds.length)) :=
        h.append fun c => isDigit_of_mem_zeros
      refine exists_around negative hwhole areDigits_zero ?_
      have hnumber : Nat.ofDigitChars 10 (ds ++ zeros (point - ds.length) ++ ['0']) 0 =
          Nat.ofDigitChars 10 ds 0 * 10 ^ (point - ds.length).toNat * 10 := by
        rw [Nat.ofDigitChars_append, Nat.ofDigitChars_append, ofDigitChars_zeros]
        change 10 * (10 ^ (point - ds.length).toNat * Nat.ofDigitChars 10 ds 0) + 0 = _
        ring
      have hpower : (10 : ℚ) ^ (point - ds.length).toNat = 10 ^ (point - ds.length) := by
        rw [← zpow_natCast, Int.toNat_of_nonneg (Int.sub_nonneg.2 hlength)]
      rw [hnumber]
      push_cast
      rw [hpower]
      change _ * 10 ^ (-1 : Int) = _
      rw [mul_assoc, ← zpow_one_add₀ (by decide : (10 : ℚ) ≠ 0)]
      norm_num
    · next hlength =>
      -- The point stands between two digits.
      refine exists_around negative (h.take (by omega)) (h.drop (by omega)) ?_
      have hpower : (-(ds.drop point.toNat).length : Int) = point - ds.length := by
        rw [List.length_drop]
        omega
      rw [List.take_append_drop, hpower]

/-! ### Carrying out an exponent -/

theorem ne_of_isDigit {c x : Char} (hc : c.isDigit = true) (hx : x.isDigit = false) : c ≠ x := by
  rintro rfl
  exact nomatch hc.symm.trans hx

/-- What has no exponent stays as it is. -/
theorem withoutExponent_of_notMem {cs : List Char} (h : 'e' ∉ cs) : withoutExponent cs = cs := by
  have hcut : cs.dropWhile (· ≠ 'e') = [] :=
    List.dropWhile_eq_nil_iff.2 fun c hc => decide_eq_true fun heq => h (heq ▸ hc)
  rw [withoutExponent, hcut]

theorem splitMinus_minus (negative : Bool) {ds : List Char} (h : AreDigits ds)
    (rest : List Char) :
    splitMinus (minus negative ++ (ds ++ rest)) = (minus negative, ds ++ rest) := by
  cases negative with
  | true => rfl
  | false =>
    cases ds with
    | nil => exact absurd rfl h.1
    | cons d ds =>
      have hd := h.2 d List.mem_cons_self
      change splitMinus (d :: (ds ++ rest)) = ([], d :: (ds ++ rest))
      unfold splitMinus
      split
      · next heq => cases heq; cases hd
      · rfl

theorem splitSign_minus (negative : Bool) {ds : List Char} (h : AreDigits ds) :
    splitSign (minus negative ++ ds) = (negative, ds) := by
  cases negative with
  | true => rfl
  | false =>
    cases ds with
    | nil => exact absurd rfl h.1
    | cons d ds =>
      have hd := h.2 d List.mem_cons_self
      change splitSign (d :: ds) = (false, d :: ds)
      unfold splitSign
      split
      · next heq => cases heq; cases hd
      · next heq => cases heq; cases hd
      · rfl

/-- An exponent of four digits is read. -/
theorem exists_integer? (negative : Bool) {ds : List Char} (h : AreDigits ds)
    (hlength : ds.length ≤ 4) :
    ∃ e, integer? (String.ofList (minus negative ++ ds)) = some e ∧ e.toInt =
      if negative then -(Nat.ofDigitChars 10 ds 0 : Int) else Nat.ofDigitChars 10 ds 0 := by
  have hlt : Nat.ofDigitChars 10 ds 0 < 10 ^ 4 :=
    (ofDigitChars_lt h.2).trans_le (Nat.pow_le_pow_right (by decide) hlength)
  have hnatural : natural? ds = some (Nat.ofDigitChars 10 ds 0) := by
    rw [natural?, if_pos]
    rw [List.all_eq_true.2 h.2, List.isEmpty_eq_false_iff.2 h.1]
    rfl
  have hword : IsWord (if negative then -(Nat.ofDigitChars 10 ds 0 : Int)
      else Nat.ofDigitChars 10 ds 0) := by
    rw [isWord_iff]
    split <;> omega
  refine ⟨_, ?_, toInt_ofInt hword⟩
  rw [integer?, String.toList_ofList, splitSign_minus negative h]
  simp only [hnatural, Option.bind_eq_bind, Option.bind_some, toWord?_eq_some hword]

theorem withoutExponent_append (negative : Bool) {whole power : List Char} (tail : List Char)
    (hwhole : AreDigits whole) (htail : ∀ c ∈ tail, c ≠ 'e') (hpoint : ∀ c ∈ tail.head?, c = '.')
    {e : Int64} (he : integer? (String.ofList power) = some e) :
    withoutExponent (minus negative ++ (whole ++ tail) ++ 'e' :: power) =
      minus negative ++ Layout.short.plain (whole ++ tail.drop 1) (whole.length + e.toInt) := by
  -- The text is cut at the exponent, then behind the sign, and at last at the point.
  have hmantissa : ∀ c ∈ minus negative ++ (whole ++ tail), decide (c ≠ 'e') = true := by
    simp only [decide_eq_true_eq, List.forall_mem_append]
    refine ⟨fun c hc => ?_, fun c hc => ne_of_isDigit (hwhole.2 c hc) rfl, htail⟩
    cases negative with
    | true => rw [List.mem_singleton.1 hc]; decide
    | false => cases hc
  have hexponent : ∀ c ∈ ('e' :: power).head?, decide (c ≠ 'e') = false := by
    rintro _ ⟨⟩
    rfl
  have hdigits : ∀ c ∈ whole, decide (c ≠ '.') = true :=
    fun c hc => decide_eq_true (ne_of_isDigit (hwhole.2 c hc) rfl)
  have hbehind : ∀ c ∈ tail.head?, decide (c ≠ '.') = false := by
    intro c hc
    rw [hpoint c hc]
    rfl
  rw [withoutExponent, Format.dropWhile_span hmantissa hexponent]
  simp only [he]
  rw [Format.takeWhile_span hmantissa hexponent, splitMinus_minus negative hwhole]
  simp only
  rw [Format.takeWhile_span hdigits hbehind, Format.dropWhile_span hdigits hbehind]

/-- Carrying out an exponent moves the point. -/
theorem withoutExponent_chars {n : Numeral} (h : n.IsScientific) :
    withoutExponent n.chars =
      minus n.negative ++ Layout.short.plain n.digits (n.whole.length + n.power) := by
  obtain ⟨negative, ds, hexponent, hds, hlength⟩ := h.exponent
  obtain ⟨e, he, hpower⟩ := exists_integer? negative hds hlength
  have hpower : n.power = e.toInt := by rw [hpower, Numeral.power, hexponent]
  rw [hpower, Numeral.digits]
  cases hfraction : n.fraction with
  | none =>
    refine Eq.trans ?_ (withoutExponent_append n.negative [] h.whole nofun nofun he)
    simp [Numeral.chars, hexponent, hfraction, minus]
  | some fraction =>
    have htail : ∀ c ∈ '.' :: fraction, c ≠ 'e' := List.forall_mem_cons.2
      ⟨by decide, fun c hc => ne_of_isDigit ((h.fraction fraction hfraction).2 c hc) rfl⟩
    have hpoint : ∀ c ∈ ('.' :: fraction).head?, c = '.' := fun c hc => (Option.some.inj hc).symm
    refine Eq.trans ?_ (withoutExponent_append n.negative _ h.whole htail hpoint he)
    simp [Numeral.chars, hexponent, hfraction, minus]

/-- A numeral with an exponent becomes one without that denotes the same number. -/
theorem exists_withoutExponent {n : Numeral} (h : n.IsScientific) :
    ∃ m : Numeral, m.IsPositional ∧ m.negative = n.negative ∧ m.rational = n.rational ∧
      withoutExponent n.chars = m.chars := by
  have hdigits : AreDigits n.digits := by
    refine h.whole.append ?_
    cases hfraction : n.fraction with
    | none => nofun
    | some ds => exact (h.fraction ds hfraction).2
  obtain ⟨m, hm, hsign, hchars, hvalue⟩ :=
    exists_plain n.negative hdigits (n.whole.length + n.power)
  refine ⟨m, hm, hsign, ?_, ?_⟩
  · have hpower : (n.whole.length + n.power - n.digits.length : Int) =
        n.power - (n.fraction.getD []).length := by
      rw [Numeral.digits, List.length_append]
      omega
    rw [hvalue, hpower, Numeral.rational, mul_assoc]
  · rw [withoutExponent_chars h, hchars]

/-- A numeral without an exponent stays as it is. -/
theorem withoutExponent_positional {n : Numeral} (h : n.IsPositional) :
    withoutExponent n.chars = n.chars := by
  obtain ⟨fraction, hfraction, hdigits⟩ := h.fraction
  refine withoutExponent_of_notMem ?_
  intro he
  simp only [Numeral.chars, h.exponent, hfraction, List.mem_append, List.mem_cons, or_assoc] at he
  rcases he with he | he | he | he | he
  · split at he
    · exact absurd (List.mem_singleton.1 he) (by decide)
    · cases he
  · exact nomatch h.whole.2 _ he
  · exact absurd he (by decide)
  · exact nomatch hdigits.2 _ he
  · cases he

/-! ### The shortest decimal of a double -/

/-- The number that a decimal is. -/
def value (d : Decimal) : ℚ := d.digits * 10 ^ d.exponent

theorem signed_eq (e : Int) : signed e = minus (decide (e < 0)) ++ Nat.toDigits 10 e.natAbs := by
  by_cases he : e < 0
  · rw [signed, if_pos he, decide_eq_true he]
    rfl
  · rw [signed, if_neg he, decide_eq_false he]
    rfl

/-- Digits with an exponent are a numeral with an exponent. -/
theorem exists_withExponent (negative : Bool) {ds : List Char} (h : AreDigits ds) {point : Int}
    (hpoint : (point - 1).natAbs < 10 ^ 4) :
    ∃ n : Numeral, n.IsScientific ∧ n.negative = negative ∧
      n.chars = minus negative ++ withExponent ds point ∧
      n.rational = sign negative * (Nat.ofDigitChars 10 ds 0 * 10 ^ (point - ds.length)) := by
  have hpositive : 0 < ds.length := List.length_pos_iff.2 h.1
  have hwhole : AreDigits (ds.take 1) := h.take Nat.one_pos
  by_cases hlength : ds.length ≤ 1
  · refine ⟨raised negative (ds.take 1) none (point - 1),
      isScientific_raised negative hwhole nofun hpoint, rfl, ?_, ?_⟩
    · rw [withExponent, if_pos hlength, signed_eq]
      simp only [raised, Numeral.chars, minus, List.append_nil, List.append_assoc, List.cons_append]
      rfl
    · have hone : ds.take 1 ++ [] = ds := by
        rw [List.append_nil, List.take_of_length_le hlength]
      rw [Numeral.rational, power_raised, mul_assoc]
      change sign negative * (Nat.ofDigitChars 10 (ds.take 1 ++ []) 0 * 10 ^ (point - 1 - 0)) = _
      rw [hone, le_antisymm hlength hpositive, sub_zero]
      rfl
  · have hdrop : AreDigits (ds.drop 1) := h.drop (by omega)
    refine ⟨raised negative (ds.take 1) (some (ds.drop 1)) (point - 1),
      isScientific_raised negative hwhole ?_ hpoint, rfl, ?_, ?_⟩
    · rintro _ ⟨⟩
      exact hdrop
    · rw [withExponent, if_neg hlength, signed_eq]
      simp only [raised, Numeral.chars, minus, List.append_assoc, List.cons_append]
      rfl
    · rw [Numeral.rational, power_raised, mul_assoc]
      change sign negative * ((Nat.ofDigitChars 10 (ds.take 1 ++ ds.drop 1) 0 : ℚ) *
        10 ^ (point - 1 - (ds.drop 1).length)) = _
      rw [List.take_append_drop, List.length_drop, Nat.cast_sub hpositive, Nat.cast_one,
        sub_sub_sub_cancel_right]

/-- The decimal is written as a numeral without or with an exponent. -/
theorem exists_decimal (negative : Bool) {d : Decimal}
    (h : ((Nat.toDigits 10 d.digits).length + d.exponent - 1).natAbs < 10 ^ 4) :
    ∃ n : Numeral, (n.IsPositional ∨ n.IsScientific) ∧ n.negative = negative ∧
      n.chars = minus negative ++ Layout.short.decimal d ∧
      n.rational = sign negative * d.value := by
  have hdigits := areDigits_toDigits d.digits
  have hvalue : ∀ q : ℚ, q = sign negative * (Nat.ofDigitChars 10 (Nat.toDigits 10 d.digits) 0 *
      10 ^ ((Nat.toDigits 10 d.digits).length + d.exponent - (Nat.toDigits 10 d.digits).length)) →
        q = sign negative * d.value := by
    rintro q rfl
    rw [Nat.ofDigitChars_ten_toDigits, add_sub_cancel_left, value]
  unfold Layout.decimal
  dsimp only
  split
  · obtain ⟨n, hn, hsign, hchars, hn'⟩ :=
      exists_plain negative hdigits ((Nat.toDigits 10 d.digits).length + d.exponent)
    exact ⟨n, .inl hn, hsign, hchars, hvalue _ hn'⟩
  · obtain ⟨n, hn, hsign, hchars, hn'⟩ := exists_withExponent negative hdigits h
    exact ⟨n, .inr hn, hsign, hchars, hvalue _ hn'⟩

/-- The numeral that the shortest decimal of a double is written as. -/
theorem exists_text {bits : UInt64} {x : Binary} (h : Magnitude.ofBits bits = .finite x) :
    ∃ n : Numeral, (n.IsPositional ∨ n.IsScientific) ∧ n.negative = isNegative bits ∧
      Layout.short.text bits = String.ofList n.chars ∧
      n.rational = sign (isNegative bits) * (x.shortest .even).value := by
  have hpoint := (Magnitude.isCanonical_of_ofBits h).shortest_point_lt .even
  obtain ⟨n, hn, hsign, hchars, hvalue⟩ := exists_decimal (isNegative bits) hpoint
  refine ⟨n, hn, hsign, ?_, hvalue⟩
  rw [hchars, Layout.text, h]
  rfl

/-- The text is a positional numeral with the sign of the double, for the number that the shortest
decimal of the double is. -/
def IsExactText (bits : UInt64) (s : String) : Prop :=
  match Magnitude.ofBits bits with
  | .nan => s = "NaN"
  | .infinite => s = if isNegative bits then "-inf" else "inf"
  | .finite x => ∃ n : Numeral, s = String.ofList n.chars ∧ n.IsPositional ∧
      n.negative = isNegative bits ∧
      n.rational = sign (isNegative bits) * (x.shortest .even).value

theorem isExactText_doubleText (bits : UInt64) : IsExactText bits (Value.doubleText bits) := by
  unfold IsExactText
  cases h : Magnitude.ofBits bits with
  | nan =>
    have htext : Layout.short.text bits = "NaN" := by rw [Layout.text, h]
    rw [Value.doubleText, htext]
    rfl
  | infinite =>
    have htext : Layout.short.text bits =
        String.ofList (minus (isNegative bits) ++ ['i', 'n', 'f']) := by
      rw [Layout.text, h]
      rfl
    rw [Value.doubleText, htext]
    cases isNegative bits <;> rfl
  | finite x =>
    obtain ⟨n, hn, hsign, htext, hvalue⟩ := exists_text h
    rw [Value.doubleText, htext, String.toList_ofList]
    obtain hn | hn := hn
    · rw [withoutExponent_positional hn]
      exact ⟨n, rfl, hn, hsign, hvalue⟩
    · obtain ⟨m, hm, hmsign, hmvalue, hchars⟩ := exists_withoutExponent hn
      rw [hchars]
      exact ⟨m, rfl, hm, hmsign.trans hsign, hmvalue.trans hvalue⟩

end Decimal

/-- Texts of doubles have no exponent and lose nothing. Every numeral with an exponent is rewritten
to a positional one with the same sign, for the same number; what has no exponent stays as it is.
The shortest decimals of doubles are such numerals, and so are the texts that are made of them. -/
theorem Value.text_exact :
    (∀ n : Numeral, n.IsScientific → ∃ m : Numeral, m.IsPositional ∧ m.negative = n.negative ∧
      m.rational = n.rational ∧ Decimal.withoutExponent n.chars = m.chars) ∧
    (∀ n : Numeral, n.IsPositional → Decimal.withoutExponent n.chars = n.chars) ∧
    (∀ cs, 'e' ∉ cs → Decimal.withoutExponent cs = cs) ∧
    (∀ bits x, Decimal.Magnitude.ofBits bits = .finite x → ∃ n : Numeral,
      (n.IsPositional ∨ n.IsScientific) ∧ n.negative = Decimal.isNegative bits ∧
      Decimal.Layout.short.text bits = String.ofList n.chars ∧
      n.rational = Numeral.sign (Decimal.isNegative bits) * (x.shortest .even).value) ∧
    ∀ x : Float, Decimal.IsExactText x.toBits (Value.float x).text := by
  refine ⟨fun _ => Decimal.exists_withoutExponent, fun _ => Decimal.withoutExponent_positional,
    fun _ => Decimal.withoutExponent_of_notMem, fun _ _ => Decimal.exists_text, fun x => ?_⟩
  rw [Value.text]
  exact Decimal.isExactText_doubleText x.toBits

/-- The text `-1.25e17` is rewritten. -/
theorem Value.text_exact_shifted :
    ∃ m : Numeral, m.IsPositional ∧ m.negative = true ∧
      m.rational = Numeral.rational ⟨true, ['1'], some ['2', '5'], some (false, ['1', '7'])⟩ ∧
      Decimal.withoutExponent "-1.25e17".toList = m.chars := by
  have hscientific :
      Numeral.IsScientific ⟨true, ['1'], some ['2', '5'], some (false, ['1', '7'])⟩ := by
    refine ⟨by simp [AreDigits], ?_, _, _, rfl, by simp [AreDigits], by decide⟩
    rintro _ ⟨⟩
    simp [AreDigits]
  exact Value.text_exact.1 _ hscientific

end Stencil
