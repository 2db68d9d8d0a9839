import Stencil.Text.CharacterTables

/-!
# Upper and lower case of whole texts

* `upper`: every letter by its full mapping, so that one letter may become several;
* `lower`: the same, except that a capital sigma at the end of a word becomes the final form.
-/

namespace Stencil.Text

/-- The letter `c` under the mapping given by runs of single letters and by expansions. -/
def mapCase (runs : List CaseRun) (expansions : List (Nat × List Nat)) (c : Char) : List Char :=
  match expansions.lookup c.toNat with
  | some codes => codes.map Char.ofNat
  | none =>
    match runs.find? (·.covers c.toNat) with
    | some run => [Char.ofNat ((c.toNat : Int) + run.shift).toNat]
    | none => [c]

/-- The upper-case form of one character. -/
def upperChar (c : Char) : List Char := mapCase upperRuns upperExpansions c

/-- The lower-case form of one character, wherever it stands. -/
def lowerChar (c : Char) : List Char := mapCase lowerRuns lowerExpansions c

/-- Is the first character that is not passed over a cased one? -/
def meetsCased (cs : List Char) : Bool :=
  match cs.find? fun c => !inRanges caseIgnorableRanges c.toNat with
  | some c => inRanges casedRanges c.toNat
  | none => false

/-- Lower case of `cs`, where `before` holds the characters already passed, the nearest first.
A capital sigma takes its final form after a cased character and before none. -/
def lowerFrom : List Char → List Char → List Char
  | _, [] => []
  | before, c :: rest =>
    let form :=
      if c = 'Σ' then [if meetsCased before && !meetsCased rest then 'ς' else 'σ']
      else lowerChar c
    form ++ lowerFrom (c :: before) rest

/-- The text with every letter in upper case. -/
def upper (s : String) : String := String.ofList (s.toList.flatMap upperChar)

/-- The text with every letter in lower case. -/
def lower (s : String) : String := String.ofList (lowerFrom [] s.toList)

example : upper "straße" = "STRASSE" := by decide +kernel
example : lower "ΑΣ ΣΑ" = "ας σα" := by decide +kernel

end Stencil.Text
