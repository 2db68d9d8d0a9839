import Stencil.Format.Fill

/-!
# Conversions as they are written

A conversion is written as flags, the digits of a width, a point with the digits of a precision,
and a letter. The reader of formats accepts exactly these texts, whatever follows them: a conversion
ends with its letter, so that nothing behind it changes what it says.

* `Conversion`: a conversion as it is written behind its percent sign;
* `Conversion.text`, `Conversion.spec`: its text, and what it says;
* `conversion?_eq_ok`: the reader accepts these texts and no others;
* `exists_conversion`: flags, widths and precisions are free.
-/

namespace Stencil.Format

/-! ### Spans -/

section Spans
variable {p : Char → Bool} {cs ds : List Char}

theorem takeWhile_span (hcs : ∀ c ∈ cs, p c = true) (hds : ∀ c ∈ ds.head?, p c = false) :
    (cs ++ ds).takeWhile p = cs := by
  rw [List.takeWhile_append_of_pos hcs]
  cases ds with
  | nil => exact List.append_nil cs
  | cons d ds => rw [List.takeWhile_cons_of_neg (by simp [hds d rfl]), List.append_nil]

theorem dropWhile_span (hcs : ∀ c ∈ cs, p c = true) (hds : ∀ c ∈ ds.head?, p c = false) :
    (cs ++ ds).dropWhile p = ds := by
  rw [List.dropWhile_append_of_pos hcs]
  cases ds with
  | nil => rfl
  | cons d ds => rw [List.dropWhile_cons_of_neg (by simp [hds d rfl])]

/-- What follows a text that is not empty does not change how it begins. -/
theorem head?_behind (cs ds : List Char) (c : Char) :
    (cs ++ c :: ds).head? = (cs ++ [c]).head? := by
  cases cs <;> rfl

/-- How two texts in a row begin. -/
theorem head?_append_of {P : Char → Prop} (hcs : ∀ c ∈ cs.head?, P c)
    (hds : ∀ c ∈ ds.head?, P c) : ∀ c ∈ (cs ++ ds).head?, P c := by
  cases cs with
  | nil => exact hds
  | cons c cs => exact hcs

theorem head?_dropWhile (p : Char → Bool) (cs : List Char) :
    ∀ c ∈ (cs.dropWhile p).head?, p c = false := by
  intro c hc
  have hnot := List.head?_dropWhile_not p cs
  rw [Option.mem_def.1 hc] at hnot
  exact hnot

end Spans

/-! ### Conversions -/

/-- The point and the digits of a precision, if there is one. -/
def precisionText : Option (List Char) → List Char
  | none => []
  | some ds => '.' :: ds

/-- A precision in front of a letter, which is not taken for a part of it. -/
structure IsPrecision (precision : Option (List Char)) (letter : Char) : Prop where
  isDigit : ∀ ds ∈ precision, ∀ c ∈ ds, c.isDigit = true
  le : ∀ ds ∈ precision, Nat.ofDigitChars 10 ds 0 ≤ maxField
  ended : precision ≠ none → letter.isDigit = false
  pointless : precision = none → letter ≠ '.'

/-- A conversion as it is written behind its percent sign. Each of its parts ends where the next one
begins: so a width does not begin with a zero, which would be a flag. -/
structure Conversion where
  flags : List Char
  /-- The digits of the width. -/
  width : List Char
  /-- The digits behind the point, if there is one. -/
  precision : Option (List Char)
  letter : Char
  isFlag_of_mem : ∀ c ∈ flags, isFlag c = true
  flags_ended : ∀ c ∈ (width ++ (precisionText precision ++ [letter])).head?, isFlag c = false
  isDigit_of_mem : ∀ c ∈ width, c.isDigit = true
  width_ended : ∀ c ∈ (precisionText precision ++ [letter]).head?, c.isDigit = false
  width_le : Nat.ofDigitChars 10 width 0 ≤ maxField
  isPrecision : IsPrecision precision letter

namespace Conversion

variable (c : Conversion)

/-- The text of the conversion behind its percent sign. -/
def text : List Char := c.flags ++ (c.width ++ (precisionText c.precision ++ [c.letter]))

/-- The width that is asked for; zero if there is none. -/
def columns : Nat := Nat.ofDigitChars 10 c.width 0

/-- What the conversion says. -/
def spec : Spec :=
  { Spec.ofFlags c.flags with
    width := if c.width.isEmpty then none else some c.columns
    precision := c.precision.map fun ds => Nat.ofDigitChars 10 ds 0 }

end Conversion

/-! ### Reading -/

theorem fieldValue_of_le (field : Field) {ds : List Char}
    (h : Nat.ofDigitChars 10 ds 0 ≤ maxField) :
    fieldValue field ds =
      .ok (if ds.isEmpty then none else some (Nat.ofDigitChars 10 ds 0)) := by
  unfold fieldValue
  split
  · rfl
  · rw [if_neg (Nat.not_lt.2 h)]

theorem le_of_fieldValue {field : Field} {ds : List Char} {n : Option Nat}
    (h : fieldValue field ds = .ok n) : Nat.ofDigitChars 10 ds 0 ≤ maxField := by
  unfold fieldValue at h
  split at h
  · next hds => rw [List.isEmpty_iff.1 hds]; exact Nat.zero_le _
  · dsimp only at h
    split at h
    · cases h
    · next hle => exact Nat.not_lt.1 hle

/-- A precision is read as what it says, whatever follows its letter. -/
theorem IsPrecision.precision?_text {precision : Option (List Char)} {letter : Char}
    (h : IsPrecision precision letter) (rest : List Char) :
    precision? (precisionText precision ++ letter :: rest) =
      .ok (precision.map (Nat.ofDigitChars 10 · 0), letter :: rest) := by
  cases precision with
  | none =>
    rw [precisionText, List.nil_append, precision?]
    · rfl
    · intro cs hcs
      exact h.pointless rfl (List.cons.inj hcs).1
  | some ds =>
    have hds := h.isDigit ds rfl
    have hrest : ∀ c ∈ (letter :: rest).head?, c.isDigit = false := by
      rintro c ⟨⟩
      exact h.ended nofun
    rw [precisionText, List.cons_append, precision?, takeWhile_span hds hrest,
      dropWhile_span hds hrest, fieldValue_of_le .precision (h.le ds rfl)]
    cases ds <;> rfl

/-- The reader of precisions accepts precisions, and nothing else. -/
theorem precision?_eq_ok {cs rest : List Char} {n : Option Nat} {letter : Char} :
    precision? cs = .ok (n, letter :: rest) ↔
      ∃ precision, n = precision.map (Nat.ofDigitChars 10 · 0) ∧
        cs = precisionText precision ++ letter :: rest ∧ IsPrecision precision letter := by
  constructor
  · intro h
    unfold precision? at h
    split at h
    · next cs =>
      split at h
      · next n' hn =>
        obtain ⟨rfl, hrest⟩ := Prod.mk.inj (Except.ok.inj h)
        have hle := le_of_fieldValue hn
        have hended := head?_dropWhile Char.isDigit cs
        rw [fieldValue_of_le .precision hle] at hn
        rw [hrest] at hended
        refine ⟨some (cs.takeWhile Char.isDigit), ?_, ?_, ?_, ?_, fun _ => hended letter rfl, nofun⟩
        · rw [← Except.ok.inj hn]
          cases cs.takeWhile Char.isDigit <;> rfl
        · rw [precisionText, ← hrest, List.cons_append, List.takeWhile_append_dropWhile]
        · rintro ds ⟨⟩
          exact List.all_eq_true.1 List.all_takeWhile
        · rintro ds ⟨⟩
          exact hle
      · cases h
    · next hpoint =>
      obtain ⟨rfl, rfl⟩ := Prod.mk.inj (Except.ok.inj h)
      refine ⟨none, rfl, rfl, nofun, nofun, fun hnone => absurd rfl hnone, ?_⟩
      rintro - rfl
      exact hpoint rest rfl
  · rintro ⟨precision, rfl, rfl, h⟩
    exact h.precision?_text rest

theorem Conversion.text_append (c : Conversion) (rest : List Char) :
    c.text ++ rest = c.flags ++ (c.width ++ (precisionText c.precision ++ c.letter :: rest)) := by
  simp [text]

/-- A conversion is read as what it says, whatever follows it. -/
theorem Conversion.conversion?_text (c : Conversion) (rest : List Char) :
    conversion? (c.text ++ rest) = .ok (c.spec, c.letter, rest) := by
  have hflags : ∀ d ∈ (c.width ++ (precisionText c.precision ++ c.letter :: rest)).head?,
      isFlag d = false := by
    rw [← List.append_assoc, head?_behind, List.append_assoc]
    exact c.flags_ended
  have hwidth : ∀ d ∈ (precisionText c.precision ++ c.letter :: rest).head?,
      d.isDigit = false := by
    rw [head?_behind]
    exact c.width_ended
  rw [text_append, conversion?, takeWhile_span c.isFlag_of_mem hflags,
    dropWhile_span c.isFlag_of_mem hflags, takeWhile_span c.isDigit_of_mem hwidth,
    dropWhile_span c.isDigit_of_mem hwidth, fieldValue_of_le .width c.width_le,
    c.isPrecision.precision?_text rest]
  rfl

/-- The reader accepts conversions, and nothing else. -/
theorem conversion?_eq_ok {cs rest : List Char} {spec : Spec} {letter : Char} :
    conversion? cs = .ok (spec, letter, rest) ↔
      ∃ c : Conversion, c.spec = spec ∧ c.letter = letter ∧ cs = c.text ++ rest := by
  constructor
  · intro h
    unfold conversion? at h
    split at h
    · cases h
    next width hwidth =>
    split at h
    · cases h
    · cases h
    next n letter' rest' hprecision =>
    obtain ⟨rfl, rfl, rfl⟩ : _ = spec ∧ letter' = letter ∧ rest' = rest := by simpa using h
    obtain ⟨precision, rfl, htext, hp⟩ := precision?_eq_ok.1 hprecision
    have hle := le_of_fieldValue hwidth
    rw [fieldValue_of_le .width hle] at hwidth
    obtain rfl := Except.ok.inj hwidth
    have hrest : cs.dropWhile isFlag = (cs.dropWhile isFlag).takeWhile Char.isDigit ++
        (precisionText precision ++ letter' :: rest') := by
      rw [← htext, List.takeWhile_append_dropWhile]
    have hflags := head?_dropWhile isFlag cs
    have hdigits := head?_dropWhile Char.isDigit (cs.dropWhile isFlag)
    rw [hrest, ← List.append_assoc, head?_behind, List.append_assoc] at hflags
    rw [htext, head?_behind] at hdigits
    let c : Conversion := {
      flags := cs.takeWhile isFlag
      width := (cs.dropWhile isFlag).takeWhile Char.isDigit
      precision := precision
      letter := letter'
      isFlag_of_mem := List.all_eq_true.1 List.all_takeWhile
      flags_ended := hflags
      isDigit_of_mem := List.all_eq_true.1 List.all_takeWhile
      width_ended := hdigits
      width_le := hle
      isPrecision := hp }
    refine ⟨c, rfl, rfl, Eq.trans ?_ (c.text_append rest').symm⟩
    show cs = cs.takeWhile isFlag ++ ((cs.dropWhile isFlag).takeWhile Char.isDigit ++
      (precisionText precision ++ letter' :: rest'))
    rw [← hrest, List.takeWhile_append_dropWhile]
  · rintro ⟨c, rfl, rfl, rfl⟩
    exact c.conversion?_text rest

/-! ### Writing -/

/-- The digits of a number do not begin with a zero, unless it is zero. -/
theorem isFlag_head_toDigits {n : Nat} (h : 0 < n) :
    ∀ c ∈ (Nat.toDigits 10 n).head?, isFlag c = false := by
  induction n using Nat.strongRecOn with
  | ind n ih =>
    rcases Nat.lt_or_ge n 10 with hlt | hge
    · have hdigit : ∀ d < 10, 0 < d → isFlag d.digitChar = false := by decide
      rw [Nat.toDigits_of_lt_base hlt]
      rintro c ⟨⟩
      exact hdigit n hlt h
    · have hhead := ih (n / 10) (by omega) (by omega)
      obtain ⟨d, ds, hds⟩ := List.exists_cons_of_ne_nil (Nat.toDigits_ne_nil (n := n / 10))
      rw [Nat.toDigits_of_base_le (by decide) hge]
      rw [hds] at hhead ⊢
      exact hhead

/-- Every number has digits that can be written as a width; zero has none. -/
theorem exists_width (n : Nat) :
    ∃ ds : List Char, Nat.ofDigitChars 10 ds 0 = n ∧ (∀ c ∈ ds, c.isDigit = true) ∧
      ∀ c ∈ ds.head?, isFlag c = false := by
  rcases Nat.eq_zero_or_pos n with rfl | hpos
  · exact ⟨[], rfl, nofun, nofun⟩
  · exact ⟨Nat.toDigits 10 n, Nat.ofDigitChars_ten_toDigits,
      fun _ => Nat.isDigit_of_mem_toDigits (by decide) (by decide), isFlag_head_toDigits hpos⟩

/-- Whatever flags, width and precision are asked for, there is a conversion that does so. -/
theorem exists_conversion {flags : List Char} (hflags : ∀ c ∈ flags, isFlag c = true)
    {width : Nat} (hwidth : width ≤ maxField) {precision : Option (List Char)} {letter : Char}
    (hprecision : IsPrecision precision letter) (hdigit : letter.isDigit = false)
    (hflag : isFlag letter = false) :
    ∃ c : Conversion, c.flags = flags ∧ c.columns = width ∧ c.precision = precision ∧
      c.letter = letter := by
  have hended : ∀ c ∈ (precisionText precision ++ [letter]).head?,
      isFlag c = false ∧ c.isDigit = false := by
    cases precision with
    | none =>
      rintro c ⟨⟩
      exact ⟨hflag, hdigit⟩
    | some ds =>
      rintro c ⟨⟩
      decide
  obtain ⟨ds, rfl, hdigits, hhead⟩ := exists_width width
  exact ⟨{
    flags := flags
    width := ds
    precision := precision
    letter := letter
    isFlag_of_mem := hflags
    flags_ended := head?_append_of hhead fun c hc => (hended c hc).1
    isDigit_of_mem := hdigits
    width_ended := fun c hc => (hended c hc).2
    width_le := hwidth
    isPrecision := hprecision }, rfl, rfl, rfl, rfl⟩

end Stencil.Format
