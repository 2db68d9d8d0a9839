import Stencil.Proofs.Formats

/-!
# Integers in fields

A conversion of an integer writes a sign or the mark of a base, and digits, in a width. Nothing is
lost on the way: whatever flags there are, the field is as wide as it has to be, and a reader who
passes over blanks finds the number in it.

* `readDigits`, `readInteger`, `readWord`: the numbers that a reader finds in fields;
* `Base`: the conversions that write the bits of an integer in another base;
* `Conversion.LaysOut`: how a field is laid out;
* `Conversion.laysOut_number`: numbers in their width are laid out in this way;
* `format_integer`: the fields of integers.
-/

namespace Stencil.Format

/-! ### Digits -/

/-- The value of a digit, in any base up to sixteen. What is no digit counts as sixteen. -/
def digitValue (c : Char) : Nat :=
  if '0' ≤ c ∧ c ≤ '9' then c.toNat - '0'.toNat
  else if 'a' ≤ c ∧ c ≤ 'f' then c.toNat - 'a'.toNat + 10
  else if 'A' ≤ c ∧ c ≤ 'F' then c.toNat - 'A'.toNat + 10
  else 16

/-- Is the character a digit in the base? -/
def isDigitIn (base : Nat) (c : Char) : Bool := digitValue c < base

/-- The value of digits in a base. -/
def valueIn (base : Nat) (ds : List Char) : Nat :=
  ds.foldl (fun n d => base * n + digitValue d) 0

variable {base : Nat} {ds : List Char} {shape : Char → Char}

theorem valueIn_concat (base : Nat) (ds : List Char) (d : Char) :
    valueIn base (ds ++ [d]) = base * valueIn base ds + digitValue d := by
  rw [valueIn, List.foldl_concat]
  rfl

/-- Zeros in front do not count. -/
theorem valueIn_zeros (base n : Nat) (ds : List Char) :
    valueIn base (List.replicate n '0' ++ ds) = valueIn base ds := by
  induction n with
  | zero => rfl
  | succ n ih =>
    rw [← ih, List.replicate_succ, List.cons_append, valueIn, List.foldl_cons]
    rfl

/-- The digits of a number, written in some shape that keeps their values. -/
theorem digits_toDigits (hbase : 1 < base) (hshape : ∀ d < base, digitValue (shape d.digitChar) = d)
    (n : Nat) :
    (∀ d ∈ (Nat.toDigits base n).map shape, isDigitIn base d = true) ∧
      valueIn base ((Nat.toDigits base n).map shape) = n := by
  induction n using Nat.strongRecOn with
  | ind n ih =>
    have hlast : digitValue (shape (n % base).digitChar) = n % base :=
      hshape _ (Nat.mod_lt n (by omega))
    rcases Nat.lt_or_ge n base with hlt | hge
    · rw [Nat.mod_eq_of_lt hlt] at hlast
      rw [Nat.toDigits_of_lt_base hlt, List.map_singleton]
      refine ⟨?_, ?_⟩
      · rintro d hd
        rw [List.mem_singleton.1 hd, isDigitIn, hlast]
        exact decide_eq_true hlt
      · rw [← List.nil_append [shape _], valueIn_concat, hlast]
        exact Nat.zero_add n
    · obtain ⟨hdigits, hvalue⟩ := ih (n / base) (Nat.div_lt_self (by omega) hbase)
      rw [Nat.toDigits_of_base_le hbase hge, List.map_append, List.map_singleton]
      refine ⟨?_, ?_⟩
      · intro d hd
        rcases List.mem_append.1 hd with hd | hd
        · exact hdigits d hd
        · rw [List.mem_singleton.1 hd, isDigitIn, hlast]
          exact decide_eq_true (Nat.mod_lt n (by omega))
      · rw [valueIn_concat, hvalue, hlast, Nat.div_add_mod]

/-! ### Reading -/

/-- Reads digits in a base, at least one, and blanks behind them. -/
def readDigits (base : Nat) (cs : List Char) : Option Nat :=
  if cs.takeWhile (isDigitIn base) ≠ [] ∧ (cs.dropWhile (isDigitIn base)).all (· == ' ') then
    some (valueIn base (cs.takeWhile (isDigitIn base)))
  else none

/-- Reads blanks, a sign if there is one, decimal digits and blanks. -/
def readInteger (cs : List Char) : Option Int :=
  let (negative, rest) := Decimal.splitSign (cs.dropWhile (· == ' '))
  (readDigits 10 rest).map fun n : Nat => if negative then -(n : Int) else n

/-- Reads blanks, a mark, digits in a base and blanks. -/
def readWord (base : Nat) (mark : List Char) (cs : List Char) : Option Nat :=
  (mark.isPrefixOf? (cs.dropWhile (· == ' '))).bind (readDigits base)

/-- A field: a lead, which is a sign or a mark, and digits, with blanks around them and zeros
between them. -/
def fieldText (before : Nat) (lead : List Char) (zeros : Nat) (digits : List Char) (after : Nat) :
    List Char :=
  List.replicate before ' ' ++ (lead ++ (List.replicate zeros '0' ++ (digits ++
    List.replicate after ' ')))

theorem isDigitIn_zero (hbase : 0 < base) : isDigitIn base '0' = true := decide_eq_true hbase

theorem isDigitIn_blank (hbase : base ≤ 16) : isDigitIn base ' ' = false :=
  decide_eq_false (Nat.not_lt.2 hbase)

theorem readDigits_field (hpos : 0 < base) (hbase : base ≤ 16) (hne : ds ≠ [])
    (hds : ∀ d ∈ ds, isDigitIn base d = true) (zeros after : Nat) :
    readDigits base (List.replicate zeros '0' ++ (ds ++ List.replicate after ' ')) =
      some (valueIn base ds) := by
  have hdigits : ∀ d ∈ List.replicate zeros '0' ++ ds, isDigitIn base d = true := by
    intro d hd
    rcases List.mem_append.1 hd with hd | hd
    · rw [List.eq_of_mem_replicate hd]
      exact isDigitIn_zero hpos
    · exact hds d hd
  have hblanks : ∀ d ∈ (List.replicate after ' ').head?, isDigitIn base d = false := by
    intro d hd
    rw [List.eq_of_mem_replicate (List.mem_of_head? hd)]
    exact isDigitIn_blank hbase
  rw [readDigits, ← List.append_assoc, takeWhile_span hdigits hblanks,
    dropWhile_span hdigits hblanks, valueIn_zeros, if_pos]
  exact ⟨List.append_ne_nil_of_right_ne_nil _ hne, List.all_eq_true.2 fun c hc =>
    beq_iff_eq.2 (List.eq_of_mem_replicate hc)⟩

theorem dropWhile_blanks (n : Nat) {cs : List Char} (h : ∀ c ∈ cs.head?, c ≠ ' ') :
    (List.replicate n ' ' ++ cs).dropWhile (· == ' ') = cs := by
  refine dropWhile_span (fun c hc => ?_) fun c hc => ?_
  · rw [List.eq_of_mem_replicate hc]
    rfl
  · exact beq_eq_false_iff_ne.2 (h c hc)

/-- The digits of a field begin with a digit. -/
theorem head?_digits (hpos : 0 < base) (hne : ds ≠ []) (hds : ∀ d ∈ ds, isDigitIn base d = true)
    (zeros after : Nat) :
    ∀ c ∈ (List.replicate zeros '0' ++ (ds ++ List.replicate after ' ')).head?,
      isDigitIn base c = true := by
  intro c hc
  cases zeros with
  | succ zeros =>
    cases hc
    exact isDigitIn_zero hpos
  | zero =>
    obtain ⟨d, ds', rfl⟩ := List.exists_cons_of_ne_nil hne
    cases hc
    exact hds c List.mem_cons_self

theorem splitSign_of_head {cs : List Char} (h : ∀ c ∈ cs.head?, c ≠ '-' ∧ c ≠ '+') :
    Decimal.splitSign cs = (false, cs) := by
  unfold Decimal.splitSign
  split
  · exact absurd rfl (h _ rfl).1
  · exact absurd rfl (h _ rfl).2
  · rfl

/-- The signs of numbers. A blank in place of a plus is passed over. -/
def signs : List (List Char) := [[], ['-'], ['+'], [' ']]

theorem readInteger_field {sign : List Char} (hsign : sign ∈ signs) (hne : ds ≠ [])
    (hds : ∀ d ∈ ds, isDigitIn 10 d = true) (before zeros after : Nat) :
    readInteger (fieldText before sign zeros ds after) =
      some (if sign = ['-'] then -(valueIn 10 ds : Int) else valueIn 10 ds) := by
  have hread := readDigits_field (by decide : 0 < 10) (by decide) hne hds zeros after
  have hhead := head?_digits (by decide : 0 < 10) hne hds zeros after
  have hblank : ∀ c ∈ (List.replicate zeros '0' ++ (ds ++ List.replicate after ' ')).head?,
      c ≠ ' ' := by
    rintro c hc rfl
    exact absurd (hhead _ hc) (by decide)
  have hsplit : Decimal.splitSign (List.replicate zeros '0' ++ (ds ++ List.replicate after ' ')) =
      (false, List.replicate zeros '0' ++ (ds ++ List.replicate after ' ')) := by
    refine splitSign_of_head fun c hc => ⟨?_, ?_⟩
    · rintro rfl
      exact absurd (hhead _ hc) (by decide)
    · rintro rfl
      exact absurd (hhead _ hc) (by decide)
  have hvalue (negative : Bool) {cs : List Char}
      (h : Decimal.splitSign (cs.dropWhile (· == ' ')) =
        (negative, List.replicate zeros '0' ++ (ds ++ List.replicate after ' '))) :
      readInteger cs = some (if negative then -(valueIn 10 ds : Int) else valueIn 10 ds) := by
    rw [readInteger, h]
    dsimp only
    rw [hread]
    rfl
  simp only [signs, List.mem_cons, List.not_mem_nil, or_false] at hsign
  rcases hsign with rfl | rfl | rfl | rfl
  · refine hvalue false ?_
    rw [fieldText, List.nil_append, dropWhile_blanks before hblank, hsplit]
  · refine hvalue true ?_
    rw [fieldText, dropWhile_blanks before (by rintro c ⟨⟩; decide)]
    rfl
  · refine hvalue false ?_
    rw [fieldText, dropWhile_blanks before (by rintro c ⟨⟩; decide)]
    rfl
  · refine hvalue false ?_
    rw [fieldText, ← List.append_assoc, ← List.replicate_succ',
      dropWhile_blanks (before + 1) hblank, hsplit]

theorem isPrefixOf?_append (mark cs : List Char) : mark.isPrefixOf? (mark ++ cs) = some cs := by
  induction mark with
  | nil => rfl
  | cons c mark ih => simp [List.isPrefixOf?, ih]

theorem readWord_field {mark : List Char} (hmark : ∀ c ∈ mark.head?, c ≠ ' ') (hpos : 0 < base)
    (hbase : base ≤ 16) (hne : ds ≠ []) (hds : ∀ d ∈ ds, isDigitIn base d = true)
    (before zeros after : Nat) :
    readWord base mark (fieldText before mark zeros ds after) = some (valueIn base ds) := by
  have hhead := head?_digits hpos hne hds zeros after
  have hblank : ∀ c ∈ (mark ++ (List.replicate zeros '0' ++
      (ds ++ List.replicate after ' '))).head?, c ≠ ' ' := by
    rintro c hc rfl
    cases mark with
    | cons m mark => exact hmark _ hc rfl
    | nil => exact absurd (hhead _ hc) (by simp [isDigitIn_blank hbase])
  rw [readWord, fieldText, dropWhile_blanks before hblank, isPrefixOf?_append]
  exact readDigits_field hpos hbase hne hds zeros after

/-! ### Layout -/

/-- `field` has `lead` and `digits` in the width of a conversion. With the flag `-` it begins with
them; without it, but with the flag `0`, zeros go between them; and else it ends with them. -/
structure Conversion.LaysOut (c : Conversion) (lead digits field : List Char) : Prop where
  length : field.length = max c.columns (lead ++ digits).length
  left : '-' ∈ c.flags → ∃ fill, field = fieldText 0 lead 0 digits fill
  zeros : '-' ∉ c.flags → '0' ∈ c.flags → ∃ fill, field = fieldText 0 lead fill digits 0
  right : '-' ∉ c.flags → '0' ∉ c.flags → ∃ fill, field = fieldText fill lead 0 digits 0

variable {c : Conversion} {lead digits field : List Char}

theorem length_fieldText (before : Nat) (lead : List Char) (zeros : Nat) (digits : List Char)
    (after : Nat) : (fieldText before lead zeros digits after).length =
      (lead ++ digits).length + (before + zeros + after) := by
  simp only [fieldText, List.length_append, List.length_replicate]
  omega

theorem Conversion.getD_width (c : Conversion) : c.spec.width.getD 0 = c.columns := by
  unfold spec columns
  cases c.width <;> rfl

/-- A number in its width is laid out as it should be. -/
theorem Conversion.laysOut_number (c : Conversion) (lead digits : List Char) :
    c.LaysOut lead digits (c.spec.number lead digits) := by
  have hleft : c.spec.left = decide ('-' ∈ c.flags) := List.contains_eq_mem '-' c.flags
  have hzero : c.spec.zero = decide ('0' ∈ c.flags) := List.contains_eq_mem '0' c.flags
  have hfield : c.spec.number lead digits =
      let fill := c.columns - (lead ++ digits).length
      if '-' ∈ c.flags then fieldText 0 lead 0 digits fill
      else if '0' ∈ c.flags then fieldText 0 lead fill digits 0
      else fieldText fill lead 0 digits 0 := by
    simp [Spec.number, fieldText, hleft, hzero, c.getD_width]
  rw [hfield]
  refine ⟨?_, fun hl => ⟨_, if_pos hl⟩, fun hl hz => ⟨_, (if_neg hl).trans (if_pos hz)⟩,
    fun hl hz => ⟨_, (if_neg hl).trans (if_neg hz)⟩⟩
  dsimp only
  split
  · rw [length_fieldText]
    omega
  split
  · rw [length_fieldText]
    omega
  · rw [length_fieldText]
    omega

theorem Conversion.LaysOut.exists_fieldText (h : c.LaysOut lead digits field) :
    ∃ before zeros after, field = fieldText before lead zeros digits after := by
  by_cases hleft : '-' ∈ c.flags
  · obtain ⟨fill, hfield⟩ := h.left hleft
    exact ⟨0, 0, fill, hfield⟩
  by_cases hzero : '0' ∈ c.flags
  · obtain ⟨fill, hfield⟩ := h.zeros hleft hzero
    exact ⟨0, fill, 0, hfield⟩
  · obtain ⟨fill, hfield⟩ := h.right hleft hzero
    exact ⟨fill, 0, 0, hfield⟩

/-! ### Integers -/

/-- A base in which the bits of an integer are written. -/
structure Base where
  letter : Char
  base : Nat
  /-- What stands in front of the digits with the flag `#`. -/
  mark : List Char
  /-- How digits are written. -/
  shape : Char → Char

/-- The bases that formats have letters for. -/
def Base.all : List Base :=
  [⟨'x', 16, ['0', 'x'], id⟩, ⟨'X', 16, ['0', 'X'], Char.toUpper⟩, ⟨'o', 8, ['0'], id⟩,
    ⟨'b', 2, ['0', 'b'], id⟩]

/-- The 64 bits of an integer as a natural number. -/
def bitsOf (n : Int64) : Nat := (n.toInt % 0x10000000000000000).toNat

theorem toNat_toUInt64 (n : Int64) : n.toUInt64.toNat = bitsOf n := by
  have hcond : n.toInt = if 2 * n.toUInt64.toNat < 0x10000000000000000 then
      (n.toUInt64.toNat : Int) else n.toUInt64.toNat - 0x10000000000000000 :=
    BitVec.toInt_eq_toNat_cond n.toBitVec
  have hlt : n.toUInt64.toNat < 0x10000000000000000 := n.toUInt64.toNat_lt
  unfold bitsOf
  split at hcond <;> omega

namespace Conversion

variable (c : Conversion)

/-- The format that is the conversion alone. -/
def asFormat : String := String.ofList ('%' :: c.text)

/-- The sign of an integer: a minus, or what the flags ask for. -/
def sign (n : Int64) : List Char :=
  if n.toInt < 0 then ['-']
  else if '+' ∈ c.flags then ['+']
  else if ' ' ∈ c.flags then [' ']
  else []

/-- The mark of a base, if the flags ask for it. -/
def mark (b : Base) : List Char := if '#' ∈ c.flags then b.mark else []

theorem sign_mem_signs (n : Int64) : c.sign n ∈ signs := by
  unfold sign
  split_ifs <;> decide

theorem spec_sign (n : Int64) : c.spec.sign (n.toInt < 0) = c.sign n := by
  have hplus : c.spec.plus = decide ('+' ∈ c.flags) := List.contains_eq_mem '+' c.flags
  have hspace : c.spec.space = decide (' ' ∈ c.flags) := List.contains_eq_mem ' ' c.flags
  simp [Spec.sign, sign, hplus, hspace]

theorem spec_mark (b : Base) : (if c.spec.alternate then b.mark else []) = c.mark b := by
  have halternate : c.spec.alternate = decide ('#' ∈ c.flags) := List.contains_eq_mem '#' c.flags
  simp [mark, halternate]

/-- A conversion alone gives its field. -/
theorem format_asFormat (hpercent : c.letter ≠ '%') (hline : c.letter ≠ 'n') (v : Value) :
    format c.asFormat [v] = String.ofList <$> convert c.spec c.letter v := by
  have hread : conversion? c.text = .ok (c.spec, c.letter, []) := by
    have hread := c.conversion?_text []
    rwa [List.append_nil] at hread
  have hpieces : pieces c.asFormat.toList = [.conversion c.spec c.letter] := by
    rw [asFormat, String.toList_ofList, pieces_of_ok hread, pieces]
  rw [format, hpieces, fill, if_neg hpercent, if_neg hline]
  cases convert c.spec c.letter v with
  | error e => rfl
  | ok field => exact congrArg (fun cs => Except.ok (String.ofList cs)) (List.append_nil field)

end Conversion

theorem convert_decimal {letter : Char} (h : letter = 'd' ∨ letter = 'i') (spec : Spec)
    (n : Int64) : convert spec letter (.int n) =
      .ok (spec.number (spec.sign (n.toInt < 0)) (Nat.toDigits 10 n.toInt.natAbs)) := by
  rcases h with rfl | rfl <;> rfl

theorem convert_base {b : Base} (hb : b ∈ Base.all) (spec : Spec) (n : Int64) :
    convert spec b.letter (.int n) =
      .ok (spec.number (if spec.alternate then b.mark else [])
        ((Nat.toDigits b.base n.toUInt64.toNat).map b.shape)) := by
  simp only [Base.all, List.mem_cons, List.not_mem_nil, or_false] at hb
  rcases hb with rfl | rfl | rfl | rfl
  · rw [List.map_id]
    rfl
  · rfl
  · rw [List.map_id]
    rfl
  · rw [List.map_id]
    rfl

theorem digitValue_digitChar : ∀ d < 16, digitValue d.digitChar = d := by decide

theorem digitValue_toUpper : ∀ d < 16, digitValue d.digitChar.toUpper = d := by decide

/-- What the bases of formats have in common. -/
theorem Base.valid {b : Base} (hb : b ∈ Base.all) :
    1 < b.base ∧ b.base ≤ 16 ∧ (∀ c ∈ b.mark.head?, c ≠ ' ') ∧
      ∀ d < b.base, digitValue (b.shape d.digitChar) = d := by
  simp only [Base.all, List.mem_cons, List.not_mem_nil, or_false] at hb
  rcases hb with rfl | rfl | rfl | rfl
  · exact ⟨by decide, by decide, by rintro c ⟨⟩; decide, digitValue_digitChar⟩
  · exact ⟨by decide, by decide, by rintro c ⟨⟩; decide, digitValue_toUpper⟩
  · exact ⟨by decide, by decide, by rintro c ⟨⟩; decide,
      fun d hd => digitValue_digitChar d (Nat.lt_of_lt_of_le hd (by decide))⟩
  · exact ⟨by decide, by decide, by rintro c ⟨⟩; decide,
      fun d hd => digitValue_digitChar d (Nat.lt_of_lt_of_le hd (by decide))⟩

theorem Base.letter_ne {b : Base} (hb : b ∈ Base.all) : b.letter ≠ '%' ∧ b.letter ≠ 'n' := by
  revert b
  decide

/-- A decimal field says its integer. -/
theorem readInteger_of_laysOut {c : Conversion} {n : Int64} {field : List Char}
    (h : c.LaysOut (c.sign n) (Nat.toDigits 10 n.toInt.natAbs) field) :
    readInteger field = some n.toInt := by
  obtain ⟨before, zeros, after, rfl⟩ := h.exists_fieldText
  have hshape : ∀ d < 10, digitValue (id d.digitChar) = d :=
    fun d hd => digitValue_digitChar d (Nat.lt_of_lt_of_le hd (by decide))
  obtain ⟨hdigits, hvalue⟩ := digits_toDigits (by decide) hshape n.toInt.natAbs
  rw [List.map_id] at hdigits hvalue
  rw [readInteger_field (c.sign_mem_signs n) Nat.toDigits_ne_nil hdigits, hvalue]
  have hsign : c.sign n = ['-'] ↔ n.toInt < 0 := by
    unfold Conversion.sign
    split_ifs with hneg <;> simp [hneg]
  by_cases hneg : n.toInt < 0
  · rw [if_pos (hsign.2 hneg)]
    exact congrArg some (by omega)
  · rw [if_neg (mt hsign.1 hneg)]
    exact congrArg some (by omega)

/-- A field in another base says the bits of its integer. -/
theorem readWord_of_laysOut {c : Conversion} {b : Base} (hb : b ∈ Base.all) {bits : Nat}
    {field : List Char}
    (h : c.LaysOut (c.mark b) ((Nat.toDigits b.base bits).map b.shape) field) :
    readWord b.base (c.mark b) field = some bits := by
  obtain ⟨before, zeros, after, rfl⟩ := h.exists_fieldText
  obtain ⟨hone, hsixteen, hmark, hshape⟩ := Base.valid hb
  obtain ⟨hdigits, hvalue⟩ := digits_toDigits hone hshape bits
  have hlead : ∀ d ∈ (c.mark b).head?, d ≠ ' ' := by
    unfold Conversion.mark
    split
    · exact hmark
    · exact nofun
  rw [readWord_field hlead (by omega) hsixteen (by simp [Nat.toDigits_ne_nil]) hdigits, hvalue]

/-- The field of an integer loses nothing. It is as wide as its sign or mark and its digits or as
the conversion asks for, whichever is more; blanks and zeros stand where the flags put them; and a
reader who passes over blanks finds the integer in it, or its bits if it is written in another
base. -/
theorem format_integer (c : Conversion) (n : Int64) :
    (c.letter = 'd' ∨ c.letter = 'i' → ∃ field,
      format c.asFormat [.int n] = .ok (String.ofList field) ∧
      c.LaysOut (c.sign n) (Nat.toDigits 10 n.toInt.natAbs) field ∧
      readInteger field = some n.toInt) ∧
    ∀ b ∈ Base.all, c.letter = b.letter → ∃ field,
      format c.asFormat [.int n] = .ok (String.ofList field) ∧
      c.LaysOut (c.mark b) ((Nat.toDigits b.base (bitsOf n)).map b.shape) field ∧
      readWord b.base (c.mark b) field = some (bitsOf n) := by
  constructor
  · intro hletter
    have hlays := c.laysOut_number (c.sign n) (Nat.toDigits 10 n.toInt.natAbs)
    refine ⟨_, ?_, hlays, readInteger_of_laysOut hlays⟩
    rw [c.format_asFormat (by rintro h; simp [h] at hletter) (by rintro h; simp [h] at hletter),
      convert_decimal hletter, c.spec_sign]
    rfl
  · intro b hb hletter
    have hlays := c.laysOut_number (c.mark b) ((Nat.toDigits b.base (bitsOf n)).map b.shape)
    obtain ⟨hpercent, hline⟩ := Base.letter_ne hb
    refine ⟨_, ?_, hlays, readWord_of_laysOut hb hlays⟩
    rw [c.format_asFormat (hletter ▸ hpercent) (hletter ▸ hline), hletter, convert_base hb,
      toNat_toUInt64, c.spec_mark]
    rfl

/-- A conversion with signs, marks, zeros, a width and a precision. -/
def Conversion.wide (letter : Char) (h : letter.isDigit = false) : Conversion where
  flags := ['+', '0', '#']
  width := ['2', '4']
  precision := some ['3']
  letter := letter
  isFlag_of_mem := List.all_eq_true.1 rfl
  flags_ended := by rintro c ⟨⟩; decide
  isDigit_of_mem := List.all_eq_true.1 rfl
  width_ended := by rintro c ⟨⟩; decide
  width_le := by decide
  isPrecision := {
    isDigit := by rintro ds ⟨⟩; exact List.all_eq_true.1 rfl
    le := by rintro ds ⟨⟩; decide
    ended := fun _ => h
    pointless := nofun }

/-- The least integer has twenty characters, and eighteen with its bits in base sixteen; zeros make
up for the rest. -/
theorem format_integer_least :
    (∃ field, format (Conversion.wide 'd' rfl).asFormat [.int (-0x8000000000000000)] =
        .ok (String.ofList field) ∧
      field.length = 24 ∧ readInteger field = some (-0x8000000000000000)) ∧
    ∃ field, format (Conversion.wide 'X' rfl).asFormat [.int (-0x8000000000000000)] =
        .ok (String.ofList field) ∧
      field.length = 24 ∧ readWord 16 ['0', 'X'] field = some 0x8000000000000000 := by
  constructor
  · obtain ⟨field, hfield, hlays, hread⟩ :=
      (format_integer (.wide 'd' rfl) (-0x8000000000000000)).1 (.inl rfl)
    refine ⟨field, hfield, ?_, hread⟩
    rw [hlays.length]
    decide +kernel
  · obtain ⟨field, hfield, hlays, hread⟩ :=
      (format_integer (.wide 'X' rfl) (-0x8000000000000000)).2
        ⟨'X', 16, ['0', 'X'], Char.toUpper⟩ (.tail _ (.head _)) rfl
    refine ⟨field, hfield, ?_, hread⟩
    rw [hlays.length]
    decide +kernel

end Stencil.Format
