import Stencil.Text.Escape
import Mathlib

/-!
# Text behind form fields

A form field is read from left to right: a plus stands for a blank, a percent sign with two
hexadecimal digits for the byte they name, and any other character for itself. Reading undoes
writing, so that two texts never make the same field.

* `Text.IsForm`: the characters of a form field;
* `Text.decodeForm`: the bytes that a form field stands for;
* `Text.decodeForm_flatMap`: reading undoes writing;
* `Text.encodeForm_reversible`: writing form fields loses nothing.
-/

namespace Stencil.Text

/-! ### Form fields -/

/-- The digits of a byte, by their values. -/
def hexDigits : List Char :=
  ['0', '1', '2', '3', '4', '5', '6', '7', '8', '9', 'A', 'B', 'C', 'D', 'E', 'F']

/-- Does the character stand in a form field by itself? -/
def IsFormCharacter (c : Char) : Prop :=
  'A' ≤ c ∧ c ≤ 'Z' ∨ 'a' ≤ c ∧ c ≤ 'z' ∨ '0' ≤ c ∧ c ≤ '9' ∨ c ∈ ['-', '_', '.', '*', '+']

/-- The characters of a form field. -/
inductive IsForm : List Char → Prop
  | nil : IsForm []
  | character {c : Char} {cs : List Char} (hc : IsFormCharacter c) (h : IsForm cs) :
    IsForm (c :: cs)
  | byte {x y : Char} {cs : List Char} (hx : x ∈ hexDigits) (hy : y ∈ hexDigits)
    (h : IsForm cs) : IsForm ('%' :: x :: y :: cs)

/-- The bytes that a form field stands for. -/
def decodeForm : List Char → List UInt8
  | '+' :: cs => 0x20 :: decodeForm cs
  | '%' :: x :: y :: cs =>
    UInt8.ofNat (16 * hexDigits.idxOf x + hexDigits.idxOf y) :: decodeForm cs
  | c :: cs => String.utf8EncodeChar c ++ decodeForm cs
  | [] => []

/-! ### Single bytes -/

variable {c : Char} {cs ds : List Char}

theorem IsForm.append (hc : IsForm cs) (hd : IsForm ds) : IsForm (cs ++ ds) := by
  induction hc with
  | nil => exact hd
  | character h _ ih => exact .character h ih
  | byte hx hy _ ih => exact .byte hx hy ih

theorem hexDigit_mem : ∀ d < 16, hexDigit d ∈ hexDigits := by decide

theorem idxOf_hexDigit : ∀ d < 16, hexDigits.idxOf (hexDigit d) = d := by decide

theorem isFormCharacter_of_isFormPlain (h : isFormPlain c = true) : IsFormCharacter c := by
  simp only [isFormPlain, Char.isAlphanum, Char.isAlpha, Char.isUpper, Char.isLower, Char.isDigit,
    Bool.or_eq_true, Bool.and_eq_true, decide_eq_true_eq, beq_iff_eq] at h
  simp only [IsFormCharacter, Char.le_def, List.mem_cons, List.not_mem_nil, or_false]
  grind

theorem IsFormCharacter.ne_percent (h : IsFormCharacter c) : c ≠ '%' := by
  rintro rfl
  revert h
  unfold IsFormCharacter
  decide

theorem ne_plus_of_isFormPlain (h : isFormPlain c = true) : c ≠ '+' := by
  rintro rfl
  revert h
  decide

theorem IsFormCharacter.toNat_lt (h : IsFormCharacter c) : c.toNat < 128 := by
  rcases h with ⟨-, h⟩ | ⟨-, h⟩ | ⟨-, h⟩ | h
  · exact Nat.lt_of_le_of_lt (UInt32.le_iff_toNat_le.1 h) (by decide)
  · exact Nat.lt_of_le_of_lt (UInt32.le_iff_toNat_le.1 h) (by decide)
  · exact Nat.lt_of_le_of_lt (UInt32.le_iff_toNat_le.1 h) (by decide)
  · simp only [List.mem_cons, List.not_mem_nil, or_false] at h
    rcases h with rfl | rfl | rfl | rfl | rfl <;> decide

theorem toNat_ofNat_byte (b : UInt8) : (Char.ofNat b.toNat).toNat = b.toNat := by
  have hvalid : b.toNat.isValidChar := Or.inl (Nat.lt_trans b.toNat_lt (by decide))
  rw [Char.ofNat, dif_pos hvalid]
  rfl

/-- A byte that stands for itself is the form of its character. -/
theorem utf8EncodeChar_of_isFormPlain {b : UInt8} (h : isFormPlain (Char.ofNat b.toNat) = true) :
    String.utf8EncodeChar (Char.ofNat b.toNat) = [b] := by
  have hval : (Char.ofNat b.toNat).val.toNat = b.toNat := toNat_ofNat_byte b
  have hlt := (isFormCharacter_of_isFormPlain h).toNat_lt
  rw [toNat_ofNat_byte] at hlt
  rw [String.utf8EncodeChar, hval, if_pos (Nat.le_of_lt_succ hlt), UInt8.ofNat_toNat]

theorem decodeForm_plain (h : isFormPlain c = true) (cs : List Char) :
    decodeForm (c :: cs) = String.utf8EncodeChar c ++ decodeForm cs := by
  have hplus := ne_plus_of_isFormPlain h
  have hpercent := (isFormCharacter_of_isFormPlain h).ne_percent
  rw [decodeForm] <;> simp_all

/-- A byte is written with the characters of form fields. -/
theorem isForm_formByte (b : UInt8) : IsForm (formByte b) := by
  have hb := b.toNat_lt
  unfold formByte
  dsimp only
  split
  · next h => exact .character (isFormCharacter_of_isFormPlain h) .nil
  split
  · exact .character (by simp [IsFormCharacter]) .nil
  · exact .byte (hexDigit_mem _ (by omega)) (hexDigit_mem _ (Nat.mod_lt _ (by decide))) .nil

/-- A byte is read back, whatever follows. -/
theorem decodeForm_formByte (b : UInt8) (cs : List Char) :
    decodeForm (formByte b ++ cs) = b :: decodeForm cs := by
  have hb := b.toNat_lt
  unfold formByte
  dsimp only
  split
  · next h =>
    rw [List.singleton_append, decodeForm_plain h, utf8EncodeChar_of_isFormPlain h,
      List.singleton_append]
  split
  · next h =>
    have hnat : b.toNat = 0x20 := by
      have := congrArg Char.toNat h
      rwa [toNat_ofNat_byte] at this
    have hblank : b = 0x20 := UInt8.toNat_inj.1 hnat
    rw [hblank]
    rfl
  · simp only [List.cons_append, List.nil_append, decodeForm,
      idxOf_hexDigit _ (show b.toNat / 16 < 16 by omega),
      idxOf_hexDigit _ (Nat.mod_lt b.toNat (by decide : 0 < 16)), Nat.div_add_mod,
      UInt8.ofNat_toNat]

/-! ### Texts -/

theorem isForm_flatMap (bs : List UInt8) : IsForm (bs.flatMap formByte) := by
  induction bs with
  | nil => exact .nil
  | cons b bs ih =>
    rw [List.flatMap_cons]
    exact (isForm_formByte b).append ih

/-- Reading undoes writing. -/
theorem decodeForm_flatMap (bs : List UInt8) : decodeForm (bs.flatMap formByte) = bs := by
  induction bs with
  | nil => rfl
  | cons b bs ih => rw [List.flatMap_cons, decodeForm_formByte, ih]

@[simp] theorem toList_encodeForm (s : String) :
    (encodeForm s).toList = s.toUTF8.data.toList.flatMap formByte := String.toList_ofList

/-- The bytes of a text are read back from its form. -/
theorem decodeForm_encodeForm (s : String) :
    decodeForm (encodeForm s).toList = s.toUTF8.data.toList := by
  rw [toList_encodeForm, decodeForm_flatMap]

theorem encodeForm_injective : Function.Injective encodeForm := by
  intro s t h
  have hbytes : s.toUTF8.data.toList = t.toUTF8.data.toList := by
    rw [← decodeForm_encodeForm s, h, decodeForm_encodeForm]
  exact String.toByteArray_inj.1 (ByteArray.ext (Array.toList_inj.1 hbytes))

theorem encodeForm_append (s t : String) : encodeForm (s ++ t) = encodeForm s ++ encodeForm t := by
  rw [← String.toList_inj]
  simp

/-- Writing form fields loses nothing. A field consists of letters, digits, a few signs, and bytes
with two digits each; the bytes of the text are read back from it, so that no other text makes the
same field; and texts in a row make their fields in a row. -/
theorem encodeForm_reversible :
    (∀ s, IsForm (encodeForm s).toList) ∧
    (∀ s, decodeForm (encodeForm s).toList = s.toUTF8.data.toList) ∧
    Function.Injective encodeForm ∧
    ∀ s t, encodeForm (s ++ t) = encodeForm s ++ encodeForm t := by
  refine ⟨fun s => ?_, decodeForm_encodeForm, encodeForm_injective, encodeForm_append⟩
  rw [toList_encodeForm]
  exact isForm_flatMap _

example : decodeForm "a+%2B%C3%A9".toList = "a +é".toUTF8.data.toList := by decide +kernel

end Stencil.Text
