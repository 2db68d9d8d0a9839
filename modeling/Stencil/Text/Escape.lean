/-!
# Texts in markup and in addresses

A text goes into markup or into an address without being taken for a part of it.

* `escapeMarkup`: the five characters that markup gives a meaning are replaced by entities, so that
  the text shows as it is between tags and inside quoted attributes;
* `encodeForm`: the text as the value of a form field: letters, digits and `-_.*` stand for
  themselves, a blank becomes `+`, and every other byte of the text's UTF-8 form becomes a percent
  sign with two hexadecimal digits.
-/

namespace Stencil.Text

/-! ### Markup -/

/-- Does markup give the character a meaning? -/
def isMarkup (c : Char) : Bool := c == '&' || c == '<' || c == '>' || c == '"' || c == '\''

/-- The entity of a character with a meaning in markup, any other character as it is. -/
def entity : Char → List Char
  | '&' => ['&', 'a', 'm', 'p', ';']
  | '<' => ['&', 'l', 't', ';']
  | '>' => ['&', 'g', 't', ';']
  | '"' => ['&', 'q', 'u', 'o', 't', ';']
  | '\'' => ['&', '#', '3', '9', ';']
  | c => [c]

/-- The text with every character that has a meaning in markup replaced by its entity. A text
without such characters is taken as it is. -/
def escapeMarkup (s : String) : String :=
  if s.toList.any isMarkup then String.ofList (s.toList.flatMap entity) else s

theorem entity_of_not_isMarkup {c : Char} (h : isMarkup c = false) : entity c = [c] := by
  simp only [isMarkup, Bool.or_eq_false_iff, beq_eq_false_iff_ne] at h
  unfold entity
  split <;> simp_all

theorem flatMap_entity_of_not_any {cs : List Char} (h : cs.any isMarkup = false) :
    cs.flatMap entity = cs := by
  induction cs with
  | nil => rfl
  | cons c cs ih =>
    rw [List.any_cons, Bool.or_eq_false_iff] at h
    rw [List.flatMap_cons, entity_of_not_isMarkup h.1, ih h.2]
    rfl

@[simp] theorem toList_escapeMarkup (s : String) :
    (escapeMarkup s).toList = s.toList.flatMap entity := by
  unfold escapeMarkup
  split
  · simp
  · next h => rw [flatMap_entity_of_not_any (Bool.eq_false_iff.2 h)]

theorem escapeMarkup_append (s t : String) :
    escapeMarkup (s ++ t) = escapeMarkup s ++ escapeMarkup t := by
  rw [← String.toList_inj]
  simp

/-! ### Form fields -/

/-- A hexadecimal digit in upper case. -/
def hexDigit (n : Nat) : Char := n.digitChar.toUpper

/-- Does the byte stand for itself in a form field? -/
def isFormPlain (c : Char) : Bool :=
  c.isAlphanum || c == '-' || c == '_' || c == '.' || c == '*'

/-- How one byte is written in a form field. -/
def formByte (b : UInt8) : List Char :=
  let c := Char.ofNat b.toNat
  if isFormPlain c then [c]
  else if c = ' ' then ['+']
  else ['%', hexDigit (b.toNat / 16), hexDigit (b.toNat % 16)]

/-- The text as the value of a form field. -/
def encodeForm (s : String) : String :=
  String.ofList (s.toUTF8.data.toList.flatMap formByte)

example : encodeForm "a b~é" = "a+b%7E%C3%A9" := by decide +kernel

end Stencil.Text
