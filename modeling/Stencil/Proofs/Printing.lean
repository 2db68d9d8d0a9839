import Stencil.Json.Parse
import Stencil.Proofs.Positional

/-!
# Stored data that is read back

What is printed for a tree of stored data is read as that tree, whatever follows it: a text ends
with its quote, an array and an object with their brackets, and a numeral in front of a comma or a
closing bracket. Only texts with half a character and numerals without digits have no written form
of their own.

* `Json.IsWritable`: the trees that have a written form;
* `Json.quoted_encode`: texts are read back;
* `Json.numeral_chars`: numerals are read back;
* `Json.value_chars`: trees are read back;
* `Json.parse_print`: the text of a tree stands for that tree.
-/

namespace Stencil

/-- The digits of a numeral are there, and only a single zero stands in front of the point. -/
structure Numeral.IsWritable (n : Numeral) : Prop where
  whole : AreDigits n.whole
  lead : n.whole.head? ≠ some '0' ∨ n.whole.length = 1
  fraction : ∀ ds ∈ n.fraction, AreDigits ds
  exponent : ∀ power ∈ n.exponent, AreDigits power.2

namespace Json

mutual

/-- All texts are whole, and all numerals have their digits. -/
def IsWritable : Json → Prop
  | null | bool _ => True
  | number n => n.IsWritable
  | text s => s.isSome
  | array items => AreWritable items
  | object fields => HasWritable fields

/-- All trees of a list have a written form. -/
def AreWritable : List Json → Prop
  | [] => True
  | item :: rest => item.IsWritable ∧ AreWritable rest

/-- All keys are whole, and all values have a written form. -/
def HasWritable : List (Option String × Json) → Prop
  | [] => True
  | (key, item) :: rest => key.isSome ∧ item.IsWritable ∧ HasWritable rest

end

/-! ### Texts -/

namespace Quoted

theorem fourDigits_eq : ∀ n < 0x20,
    fourDigits n = ['0', '0', Nat.digitChar (n / 16), Nat.digitChar (n % 16)] := by decide

theorem digitValue?_digitChar : ∀ d < 16, digitValue? (Nat.digitChar d) = some d := by decide

/-- A piece that a reader of pieces finds at the beginning. -/
def IsRead (written : List Char) (piece : Piece) : Prop :=
  ∀ rest, scan (written ++ rest) = (scan rest).map fun p => (piece :: p.1, p.2)

theorem isRead_number {n : Nat} (h : n < 0x20) :
    IsRead ('\\' :: 'u' :: fourDigits n) (.number n) := by
  intro rest
  have hzero : digitValue? '0' = some 0 := rfl
  have hvalue : fourValue? '0' '0' (Nat.digitChar (n / 16)) (Nat.digitChar (n % 16)) = some n := by
    rw [fourValue?, hzero, digitValue?_digitChar _ (by omega), digitValue?_digitChar _ (by omega)]
    simp only [Option.bind_eq_bind, Option.bind_some, Option.pure_def, Option.some.injEq]
    omega
  rw [fourDigits_eq n h]
  simp only [List.cons_append, List.nil_append, scan, hvalue]
  cases scan rest <;> rfl

theorem isRead_letter {letter c : Char} (h : letter? letter = some c) :
    IsRead ['\\', letter] (.char c) := by
  intro rest
  have hu : letter ≠ 'u' := by
    rintro rfl
    cases h
  rw [List.cons_append, List.singleton_append, scan]
  · rw [h]
    cases scan rest <;> rfl
  · rintro _ _ _ _ _ rfl
    exact absurd rfl hu

theorem isRead_plain {c : Char} (hquote : c ≠ '"') (hslash : c ≠ '\\') (h : 0x20 ≤ c.toNat) :
    IsRead [c] (.char c) := by
  intro rest
  rw [List.singleton_append, scan]
  · simp only [guard, if_pos h]
    cases scan rest <;> rfl
  all_goals simp_all

theorem join_number {n : Nat} (h : n < 0x20) (pieces : List Piece) :
    join (.number n :: pieces) = (join pieces).map (Char.ofNat n :: ·) := by
  have hhigh : isHigh n = false := by simp [isHigh]; omega
  have hlow : isLow n = false := by simp [isLow]; omega
  rw [join.eq_def]
  dsimp only
  rw [hhigh, hlow]
  rfl

theorem exists_piece (c : Char) : ∃ piece, IsRead (encodeChar c) piece ∧
    ∀ pieces, join (piece :: pieces) = (join pieces).map (c :: ·) := by
  unfold encodeChar
  split
  case h_8 hquote hslash _ _ _ _ _ =>
    split
    · next hc =>
      refine ⟨.number c.toNat, isRead_number hc, fun pieces => ?_⟩
      rw [join_number hc, Char.ofNat_toNat]
    · next hc => exact ⟨.char c, isRead_plain hquote hslash (Nat.le_of_not_lt hc), fun _ => rfl⟩
  all_goals exact ⟨_, isRead_letter rfl, fun _ => rfl⟩

/-- The pieces of a written text are read up to its quote, and they are the text. -/
theorem exists_pieces (cs : List Char) : ∃ pieces,
    (∀ rest, scan (cs.flatMap encodeChar ++ '"' :: rest) = some (pieces, rest)) ∧
      join pieces = some cs := by
  induction cs with
  | nil => exact ⟨[], fun rest => rfl, rfl⟩
  | cons c cs ih =>
    obtain ⟨piece, hread, hjoin⟩ := exists_piece c
    obtain ⟨pieces, hpieces, htext⟩ := ih
    refine ⟨piece :: pieces, fun rest => ?_, ?_⟩
    · rw [List.flatMap_cons, List.append_assoc, hread, hpieces]
      rfl
    · rw [hjoin, htext]
      rfl

end Quoted

/-- A text is read back from behind its opening quote. -/
theorem quoted_encode (s : String) (rest : List Char) :
    quoted (s.toList.flatMap Quoted.encodeChar ++ '"' :: rest) = some (some s, rest) := by
  obtain ⟨pieces, hscan, hjoin⟩ := Quoted.exists_pieces s.toList
  simp only [quoted, hscan, bind, Option.bind, hjoin, Option.map_some, String.ofList_toList]
  rfl

/-! ### Numerals -/

/-- A value may end here: nothing follows, or what stands behind an item or a field. -/
def Ends (rest : List Char) : Prop := ∀ c ∈ rest.head?, c = ',' ∨ c = ']' ∨ c = '\x7d'

theorem digits_append {ds rest : List Char} (h : AreDigits ds)
    (hrest : ∀ c ∈ rest.head?, c.isDigit = false) : digits (ds ++ rest) = some (ds, rest) := by
  rw [digits, Format.takeWhile_span h.2 hrest, Format.dropWhile_span h.2 hrest, if_neg]
  simpa using h.1

theorem Ends.isDigit {rest : List Char} (h : Ends rest) : ∀ c ∈ rest.head?, c.isDigit = false := by
  intro c hc
  rcases h c hc with rfl | rfl | rfl <;> rfl

/-- The characters of a power of ten. -/
def exponentChars : Option (Bool × List Char) → List Char
  | some (negative, ds) => 'e' :: (if negative then ['-'] else []) ++ ds
  | none => []

/-- The characters of a point and the digits behind it. -/
def fractionChars : Option (List Char) → List Char
  | some ds => '.' :: ds
  | none => []

theorem chars_eq (n : Numeral) : n.chars =
    (if n.negative then ['-'] else []) ++ n.whole ++ fractionChars n.fraction
      ++ exponentChars n.exponent := by
  obtain ⟨negative, whole, fraction, exponent⟩ := n
  cases fraction <;> rcases exponent with _ | ⟨_, _⟩ <;> rfl

theorem exponent_chars {power : Option (Bool × List Char)} (h : ∀ p ∈ power, AreDigits p.2)
    {rest : List Char} (hrest : Ends rest) :
    exponent (exponentChars power ++ rest) = some (power, rest) := by
  match power, h with
  | none, _ =>
    cases rest with
    | nil => rfl
    | cons c rest =>
      have hc : ¬(c = 'e' ∨ c = 'E') := by
        rcases hrest c rfl with rfl | rfl | rfl <;> decide
      exact if_neg hc
  | some (true, ds), h =>
    have hdigits := digits_append (h _ rfl) hrest.isDigit
    simp [exponentChars, exponent, hdigits]
  | some (false, ds), h =>
    have hds : AreDigits ds := h _ rfl
    have hdigits := digits_append hds hrest.isDigit
    obtain ⟨d, ds, rfl⟩ := List.exists_cons_of_ne_nil hds.1
    have hd := hds.2 d List.mem_cons_self
    rw [List.cons_append] at hdigits
    simp only [exponentChars, Bool.false_eq_true, if_false, List.cons_append, List.nil_append,
      exponent, true_or, if_true]
    split
    · next heq => cases heq; cases hd
    · next heq => cases heq; cases hd
    · rw [hdigits]
      rfl

theorem fraction_chars {places : Option (List Char)} (h : ∀ ds ∈ places, AreDigits ds)
    {rest : List Char} (hrest : ∀ c ∈ rest.head?, c.isDigit = false ∧ c ≠ '.') :
    fraction (fractionChars places ++ rest) = some (places, rest) := by
  cases places with
  | none =>
    change fraction rest = some (none, rest)
    unfold fraction
    split
    · exact absurd rfl (hrest '.' rfl).2
    · rfl
  | some ds =>
    have hdigits := digits_append (h ds rfl) fun c hc => (hrest c hc).1
    simp only [fractionChars, List.cons_append, fraction, hdigits]
    rfl

/-- A numeral is read back in front of whatever ends it. -/
theorem numeral_chars {n : Numeral} (h : n.IsWritable) {rest : List Char} (hrest : Ends rest) :
    numeral (n.chars ++ rest) = some (n, rest) := by
  obtain ⟨negative, whole, places, power⟩ := n
  have hpower := exponent_chars h.exponent hrest
  have hbehind : ∀ c ∈ (exponentChars power ++ rest).head?, c.isDigit = false ∧ c ≠ '.' := by
    cases power with
    | none =>
      intro c hc
      rcases hrest c hc with rfl | rfl | rfl <;> decide
    | some power =>
      rintro c ⟨⟩
      decide
  have hplaces := fraction_chars h.fraction hbehind
  have htail : ∀ c ∈ (fractionChars places ++ (exponentChars power ++ rest)).head?,
      c.isDigit = false := by
    cases places with
    | none => exact fun c hc => (hbehind c hc).1
    | some ds =>
      rintro c ⟨⟩
      rfl
  have hwhole := digits_append h.whole htail
  have hlead : (guard (whole.head? ≠ some '0' ∨ whole.length = 1) : Option Unit) = some () :=
    if_pos h.lead
  simp only [chars_eq, List.append_assoc]
  cases negative with
  | true =>
    simp only [if_true, List.cons_append, List.nil_append, numeral, hwhole, bind, Option.bind,
      hlead, hplaces, hpower]
    rfl
  | false =>
    obtain ⟨d, ds, rfl⟩ := List.exists_cons_of_ne_nil h.whole.1
    have hd := h.whole.2 d List.mem_cons_self
    simp only [List.cons_append] at hwhole
    simp only [Bool.false_eq_true, if_false, List.nil_append, List.cons_append, numeral]
    split
    · next heq => cases heq; cases hd
    · simp only [hwhole, bind, Option.bind, hlead, hplaces, hpower]
      rfl

/-! ### Trees -/

theorem skipBlanks_of_ne {c : Char} (h : isBlank c = false) (cs : List Char) :
    skipBlanks (c :: cs) = c :: cs := List.dropWhile_cons_of_neg (by simp [h])

theorem value_quote (fuel : Nat) (cs : List Char) :
    value (fuel + 1) ('"' :: cs) = (quoted cs).map fun p => (.text p.1, p.2) := by
  simp only [value, skipBlanks_of_ne (c := '"') rfl]
  cases quoted cs <;> rfl

/-- An array that is not empty is read from its first item on. -/
theorem value_bracket (fuel : Nat) {cs : List Char} (h : (skipBlanks cs).head? ≠ some ']') :
    value (fuel + 1) ('[' :: cs) =
      (items fuel (skipBlanks cs)).map fun p => (.array p.1, p.2) := by
  simp only [value, skipBlanks_of_ne (c := '[') rfl]
  split
  · next heq => exact absurd (congrArg List.head? heq) h
  · cases items fuel (skipBlanks cs) <;> rfl

/-- An object that is not empty is read from its first field on. -/
theorem value_brace (fuel : Nat) {cs : List Char} (h : (skipBlanks cs).head? ≠ some '\x7d') :
    value (fuel + 1) ('\x7b' :: cs) =
      (fields fuel (skipBlanks cs)).map fun p => (.object p.1, p.2) := by
  simp only [value, skipBlanks_of_ne (c := '\x7b') rfl]
  split
  · next heq => exact absurd (congrArg List.head? heq) h
  · cases fields fuel (skipBlanks cs) <;> rfl

/-- What begins with a minus sign or a digit is read as a numeral. -/
theorem value_numeral {c : Char} (hc : c = '-' ∨ c.isDigit = true) (fuel : Nat)
    (cs : List Char) :
    value (fuel + 1) (c :: cs) = (numeral (c :: cs)).map fun p => (.number p.1, p.2) := by
  have hblank : isBlank c = false := by
    rcases hc with rfl | hc
    · rfl
    · simp [isBlank, Decimal.ne_of_isDigit hc]
  rw [value, skipBlanks_of_ne hblank]
  split
  case h_7 => cases numeral (c :: cs) <;> rfl
  all_goals
    next heq =>
      cases heq
      exact absurd hc (by decide)

section Steps
variable {fuel : Nat} {cs rest : List Char} {item : Json}

theorem items_last (h : value fuel cs = some (item, ']' :: rest)) :
    items (fuel + 1) cs = some ([item], rest) := by
  simp only [items, h, bind, Option.bind, skipBlanks_of_ne (c := ']') rfl]
  rfl

theorem items_more (h : value fuel cs = some (item, ',' :: rest)) :
    items (fuel + 1) cs = (items fuel rest).map fun p => (item :: p.1, p.2) := by
  simp only [items, h, bind, Option.bind, skipBlanks_of_ne (c := ',') rfl]
  cases items fuel rest <;> rfl

theorem fields_last (key : String) (h : value fuel cs = some (item, '\x7d' :: rest)) :
    fields (fuel + 1) (Quoted.encode key ++ ':' :: cs) = some ([(some key, item)], rest) := by
  simp only [Quoted.encode, List.cons_append, List.append_assoc, List.nil_append, fields,
    skipBlanks_of_ne (c := '"') rfl, quoted_encode, h, bind, Option.bind,
    skipBlanks_of_ne (c := ':') rfl, skipBlanks_of_ne (c := '\x7d') rfl]
  rfl

theorem fields_more (key : String) (h : value fuel cs = some (item, ',' :: rest)) :
    fields (fuel + 1) (Quoted.encode key ++ ':' :: cs) =
      (fields fuel rest).map fun p => ((some key, item) :: p.1, p.2) := by
  simp only [Quoted.encode, List.cons_append, List.append_assoc, List.nil_append, fields,
    skipBlanks_of_ne (c := '"') rfl, quoted_encode, h, bind, Option.bind,
    skipBlanks_of_ne (c := ':') rfl, skipBlanks_of_ne (c := ',') rfl]
  cases fields fuel rest <;> rfl

end Steps

theorem exists_numeral_head {n : Numeral} (h : n.IsWritable) :
    ∃ c cs, n.chars = c :: cs ∧ (c = '-' ∨ c.isDigit = true) := by
  obtain ⟨d, ds, hds⟩ := List.exists_cons_of_ne_nil h.whole.1
  have hd := h.whole.2 d (hds ▸ List.mem_cons_self)
  rw [chars_eq, hds]
  cases n.negative with
  | true => exact ⟨_, _, rfl, .inl rfl⟩
  | false => exact ⟨_, _, rfl, .inr hd⟩

/-- A written tree does not begin with a blank or a closing bracket. -/
theorem exists_head (j : Json) (h : j.IsWritable) :
    ∃ c cs, j.chars = c :: cs ∧ isBlank c = false ∧ c ≠ ']' := by
  cases j with
  | number n =>
    obtain ⟨c, cs, hcs, hc⟩ := exists_numeral_head h
    refine ⟨c, cs, by rw [chars, hcs], ?_⟩
    rcases hc with rfl | hc
    · decide
    · simp [isBlank, Decimal.ne_of_isDigit hc]
  | bool b => cases b <;> exact ⟨_, _, rfl, rfl, by decide⟩
  | array items => cases items <;> exact ⟨_, _, rfl, rfl, by decide⟩
  | object fields => rcases fields with _ | ⟨⟨_, _⟩, _⟩ <;> exact ⟨_, _, rfl, rfl, by decide⟩
  | _ => exact ⟨_, _, rfl, rfl, by decide⟩

mutual

/-- A tree is read back in front of whatever ends it. -/
theorem value_chars : (j : Json) → j.IsWritable → (fuel : Nat) → j.chars.length < fuel →
    (rest : List Char) → Ends rest → value fuel (j.chars ++ rest) = some (j, rest)
  | j, _, 0, hfuel, _, _ => absurd hfuel (Nat.not_lt_zero _)
  | null, _, fuel + 1, _, rest, _ => rfl
  | bool true, _, fuel + 1, _, rest, _ => rfl
  | bool false, _, fuel + 1, _, rest, _ => rfl
  | number n, h, fuel + 1, _, rest, hrest => by
    have hread := numeral_chars h hrest
    obtain ⟨c, cs, hcs, hc⟩ := exists_numeral_head h
    rw [chars, hcs, List.cons_append, value_numeral hc, ← List.cons_append, ← hcs, hread]
    rfl
  | text s, h, fuel + 1, _, rest, _ => by
    obtain ⟨s, rfl⟩ := Option.isSome_iff_exists.1 h
    simp only [chars, Option.getD_some, Quoted.encode, List.cons_append, List.append_assoc,
      List.nil_append]
    rw [value_quote, quoted_encode]
    rfl
  | array [], _, fuel + 1, _, rest, _ => rfl
  | array (item :: items), h, fuel + 1, hfuel, rest, _ => by
    simp only [chars, List.length_append, List.length_cons] at hfuel
    have hread := items_chars (item :: items) h (List.cons_ne_nil _ _) fuel
      (by simp only [charsAfter, List.length_append, List.length_cons]; omega) rest
    obtain ⟨c, cs, hcs, hblank, hc⟩ := exists_head item h.1
    simp only [charsAfter, chars, hcs, List.cons_append, List.tail_cons] at hread ⊢
    rw [value_bracket, skipBlanks_of_ne hblank, hread]
    · rfl
    · rw [skipBlanks_of_ne hblank]
      simpa using hc
  | object [], _, fuel + 1, _, rest, _ => rfl
  | object ((key, item) :: fields), h, fuel + 1, hfuel, rest, _ => by
    simp only [chars, List.length_append, List.length_cons] at hfuel
    have hread := fields_chars ((key, item) :: fields) h (List.cons_ne_nil _ _) fuel
      (by simp only [fieldsAfter, List.length_append, List.length_cons]; omega) rest
    simp only [fieldsAfter, chars, Quoted.encode, List.cons_append, List.tail_cons] at hread ⊢
    rw [value_brace, skipBlanks_of_ne rfl, hread]
    · rfl
    · rw [skipBlanks_of_ne rfl]
      simp

/-- Items are read back up to their closing bracket. -/
theorem items_chars : (items : List Json) → AreWritable items → items ≠ [] → (fuel : Nat) →
    (charsAfter items).length ≤ fuel → (rest : List Char) →
      Json.items fuel ((charsAfter items).tail ++ rest) = some (items, rest)
  | [], _, hne, _, _, _ => absurd rfl hne
  | item :: items, h, _, 0, hfuel, rest => by simp [charsAfter] at hfuel
  | [item], h, _, fuel + 1, hfuel, rest => by
    simp only [charsAfter, List.length_append, List.length_cons] at hfuel
    have hitem := value_chars item h.1 fuel (by omega) (']' :: rest) (by rintro c ⟨⟩; simp)
    simp only [charsAfter, List.tail_cons, List.append_assoc, List.cons_append, List.nil_append]
    exact items_last hitem
  | item :: next :: items, h, _, fuel + 1, hfuel, rest => by
    simp only [charsAfter, List.length_append, List.length_cons] at hfuel
    have hitem := value_chars item h.1 fuel (by omega) (charsAfter (next :: items) ++ rest)
      (by rintro c ⟨⟩; simp)
    have hrest := items_chars (next :: items) h.2 (List.cons_ne_nil _ _) fuel
      (by simp only [charsAfter, List.length_append, List.length_cons]; omega) rest
    simp only [charsAfter, List.tail_cons, List.append_assoc, List.cons_append] at hitem hrest ⊢
    rw [items_more hitem, hrest]
    rfl

/-- Fields are read back up to their closing brace. -/
theorem fields_chars : (fields : List (Option String × Json)) → HasWritable fields →
    fields ≠ [] → (fuel : Nat) → (fieldsAfter fields).length ≤ fuel → (rest : List Char) →
      Json.fields fuel ((fieldsAfter fields).tail ++ rest) = some (fields, rest)
  | [], _, hne, _, _, _ => absurd rfl hne
  | (key, item) :: fields, h, _, 0, hfuel, rest => by simp [fieldsAfter] at hfuel
  | [(key, item)], h, _, fuel + 1, hfuel, rest => by
    obtain ⟨key, rfl⟩ := Option.isSome_iff_exists.1 h.1
    simp only [fieldsAfter, List.length_append, List.length_cons] at hfuel
    have hitem := value_chars item h.2.1 fuel (by omega) ('\x7d' :: rest) (by rintro c ⟨⟩; simp)
    simp only [fieldsAfter, Option.getD_some, List.tail_cons, List.append_assoc, List.cons_append,
      List.nil_append]
    exact fields_last key hitem
  | (key, item) :: (key', item') :: fields, h, _, fuel + 1, hfuel, rest => by
    obtain ⟨key, rfl⟩ := Option.isSome_iff_exists.1 h.1
    simp only [fieldsAfter, List.length_append, List.length_cons] at hfuel
    have hitem := value_chars item h.2.1 fuel (by omega)
      (fieldsAfter ((key', item') :: fields) ++ rest) (by rintro c ⟨⟩; simp)
    have hrest := fields_chars ((key', item') :: fields) h.2.2 (List.cons_ne_nil _ _) fuel
      (by simp only [fieldsAfter, List.length_append, List.length_cons]; omega) rest
    simp only [fieldsAfter, Option.getD_some, List.tail_cons, List.append_assoc,
      List.cons_append] at hitem hrest ⊢
    rw [fields_more key hitem, hrest]
    rfl

end

/-- The text of a tree stands for that tree. -/
theorem parse_print {j : Json} (h : j.IsWritable) : parse j.print = some j := by
  have hread := value_chars j h (2 * j.chars.length + 1) (by omega) [] nofun
  rw [List.append_nil] at hread
  simp only [parse, print, String.toList_ofList, hread, bind, Option.bind]
  rfl

end Json

end Stencil
