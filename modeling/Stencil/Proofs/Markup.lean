import Stencil.Proofs.Escaping

/-!
# Text behind markup

Markup that stands for a text is read from left to right: an entity stands for its character, and
any other character for itself. Reading undoes escaping, so that two texts are never escaped to the
same markup.

* `Text.unescape`, `Text.unescapeMarkup`: the text that markup stands for;
* `Text.unescape_flatMap`: reading undoes escaping;
* `Text.escapeMarkup_lossless`: escaping is safe and loses nothing.
-/

namespace Stencil.Text

/-- The characters that markup stands for. -/
def unescape : List Char → List Char
  | '&' :: 'a' :: 'm' :: 'p' :: ';' :: cs => '&' :: unescape cs
  | '&' :: 'l' :: 't' :: ';' :: cs => '<' :: unescape cs
  | '&' :: 'g' :: 't' :: ';' :: cs => '>' :: unescape cs
  | '&' :: 'q' :: 'u' :: 'o' :: 't' :: ';' :: cs => '"' :: unescape cs
  | '&' :: '#' :: '3' :: '9' :: ';' :: cs => '\'' :: unescape cs
  | c :: cs => c :: unescape cs
  | [] => []

/-- The text that markup stands for. -/
def unescapeMarkup (s : String) : String := String.ofList (unescape s.toList)

theorem unescape_cons {c : Char} (h : c ≠ '&') (cs : List Char) :
    unescape (c :: cs) = c :: unescape cs := by
  rw [unescape] <;> simp_all

theorem unescape_entity (c : Char) (cs : List Char) :
    unescape (entity c ++ cs) = c :: unescape cs := by
  cases hc : isMarkup c with
  | true =>
    simp only [isMarkup, Bool.or_eq_true, beq_iff_eq, or_assoc] at hc
    rcases hc with rfl | rfl | rfl | rfl | rfl <;> rfl
  | false =>
    have hamp : c ≠ '&' := by
      rintro rfl
      cases hc
    rw [entity_of_not_isMarkup hc, List.singleton_append, unescape_cons hamp]

/-- Reading undoes escaping. -/
theorem unescape_flatMap (cs : List Char) : unescape (cs.flatMap entity) = cs := by
  induction cs with
  | nil => rfl
  | cons c cs ih => rw [List.flatMap_cons, unescape_entity, ih]

@[simp] theorem unescapeMarkup_escapeMarkup (s : String) :
    unescapeMarkup (escapeMarkup s) = s := by
  rw [unescapeMarkup, toList_escapeMarkup, unescape_flatMap, String.ofList_toList]

theorem escapeMarkup_injective : Function.Injective escapeMarkup :=
  Function.LeftInverse.injective unescapeMarkup_escapeMarkup

/-- The shortcut for texts without special characters makes no difference. -/
theorem escapeMarkup_eq_flatMap (s : String) :
    escapeMarkup s = String.ofList (s.toList.flatMap entity) := by
  rw [← toList_escapeMarkup, String.ofList_toList]

/-- Escaping is safe and loses nothing. The markup of a text has no delimiters, and its ampersands
begin entities; the text is read back from it, so that no other text has the same markup; texts in a
row have their markup in a row; and all this is done character by character, also where a text is
taken as it is because it has no character to escape. -/
theorem escapeMarkup_lossless :
    (∀ s, IsSafe (escapeMarkup s)) ∧
    (∀ s, unescapeMarkup (escapeMarkup s) = s) ∧
    Function.Injective escapeMarkup ∧
    (∀ s t, escapeMarkup (s ++ t) = escapeMarkup s ++ escapeMarkup t) ∧
    ∀ s, escapeMarkup s = String.ofList (s.toList.flatMap entity) :=
  ⟨isSafe_escapeMarkup, unescapeMarkup_escapeMarkup, escapeMarkup_injective, escapeMarkup_append,
    escapeMarkup_eq_flatMap⟩

example : escapeMarkup "a &lt; <b>" = "a &amp;lt; &lt;b&gt;" ∧
    unescapeMarkup "a &amp;lt; &lt;b&gt; &c" = "a &lt; <b> &c" := by decide +kernel

end Stencil.Text
