import Stencil.Tree.Stored
import Stencil.Proofs.Caching
import Stencil.Proofs.Printing

/-!
# Stored trees that are read back

A tree is read back from the text that it is stored in, with the difference between an empty text
and none, unless it has too many levels: an object and the array of its children take up two of the
127 places that nested arrays and objects have. The order of the fields does not matter, nor do
unknown fields that hold a single value.

* `Node.levels`: how many nodes stand one below the other;
* `Node.IsForm`: the stored forms of a tree, with fields in any order and unknown ones among them;
* `Node.ofJson_of_isForm`: what is read from a stored form with a given room;
* `Node.readsBack_iff`: the trees that are read back are those of at most 64 levels.
-/

namespace Stencil

/-- The tree is a single value, neither an array nor an object. -/
def Json.IsScalar : Json → Prop
  | array _ | object _ => False
  | _ => True

namespace Node

mutual

/-- How many nodes stand one below the other. -/
def levels : Node → Nat
  | ⟨_, _, children, _⟩ => levelsAll children + 1

/-- How many nodes stand one below the other in a list of trees. -/
def levelsAll : List Node → Nat
  | [] => 0
  | n :: rest => max n.levels (levelsAll rest)

end

theorem levels_pos (n : Node) : 0 < n.levels := by
  cases n
  exact Nat.succ_pos _

/-! ### Stored forms -/

/-- The keys that fields of nodes have. -/
def keys : List String := ["tag", "text", "children", "line"]

/-- The fields of a node whose children are stored as `items`. -/
def fieldsOf (tag : Tag) (text? : Option String) (items : List Json) (line : UInt32) :
    List (Option String × Json) :=
  (some "tag", .text (some tag.name))
    :: text?.toList.map (fun s => (some "text", .text (some s)))
    ++ (if items.isEmpty then [] else [(some "children", .array items)])
    ++ [(some "line", .number (.ofNat line.toNat))]

/-- The field has a key that no field of a node has, and holds a single value. -/
def IsUnknown (field : Option String × Json) : Prop :=
  ∃ key, field.1 = some key ∧ key ∉ keys ∧ field.2.IsScalar

mutual

/-- The stored forms of a tree: the fields of each node stand in any order, with any unknown fields
between them. -/
inductive IsForm : Node → Json → Prop
  | object {tag : Tag} {text? : Option String} {children : List Node} {line : UInt32}
    {items : List Json} {unknown fields : List (Option String × Json)}
    (hitems : AreForms children items) (hunknown : ∀ field ∈ unknown, IsUnknown field)
    (hfields : fields.Perm (fieldsOf tag text? items line ++ unknown)) :
    IsForm ⟨tag, text?, children, line⟩ (.object fields)

/-- The stored forms of trees in a row. -/
inductive AreForms : List Node → List Json → Prop
  | nil : AreForms [] []
  | cons {n : Node} {j : Json} {rest : List Node} {items : List Json} (h : IsForm n j)
    (hrest : AreForms rest items) : AreForms (n :: rest) (j :: items)

end

theorem toJson_eq (tag : Tag) (text? : Option String) (children : List Node) (line : UInt32) :
    toJson ⟨tag, text?, children, line⟩ =
      .object (fieldsOf tag text? (listToJson children) line) := by
  cases text? <;> cases children <;> rfl

mutual

/-- A tree is stored in one of its forms. -/
theorem isForm_toJson : (n : Node) → IsForm n n.toJson
  | ⟨tag, text?, children, line⟩ => by
    rw [toJson_eq]
    exact .object (areForms_listToJson children) (List.forall_mem_nil _) (by rw [List.append_nil])

theorem areForms_listToJson : (ns : List Node) → AreForms ns (listToJson ns)
  | [] => .nil
  | n :: rest => .cons (isForm_toJson n) (areForms_listToJson rest)

end

theorem isWritable_ofNat (n : Nat) : (Numeral.ofNat n).IsWritable where
  whole := areDigits_toDigits n
  lead := by
    rcases Nat.eq_zero_or_pos n with rfl | hpos
    · exact .inr rfl
    · refine .inl fun hzero => ?_
      exact absurd (Format.isFlag_head_toDigits hpos '0' hzero) (by decide)
  fraction := nofun
  exponent := nofun

mutual

theorem isWritable_toJson : (n : Node) → n.toJson.IsWritable
  | ⟨tag, text?, children, line⟩ => by
    have hchildren := areWritable_listToJson children
    have hline := isWritable_ofNat line.toNat
    cases text? <;> cases children <;>
      simp_all [toJson, listToJson, Json.IsWritable, Json.HasWritable, Json.AreWritable]

theorem areWritable_listToJson : (ns : List Node) → Json.AreWritable (listToJson ns)
  | [] => trivial
  | n :: rest => ⟨isWritable_toJson n, areWritable_listToJson rest⟩

end

/-! ### Reading fields -/

section Fields
variable {key : String} {fields fields' unknown : List (Option String × Json)}

/-- The order of fields does not matter. -/
theorem only_perm (h : fields.Perm fields') (key : String) :
    only key fields = only key fields' := by
  have hperm := h.filter (fun field => field.1 == some key)
  unfold only
  generalize fields.filter _ = l at hperm
  generalize fields'.filter _ = l' at hperm
  match l, hperm with
  | [], hperm => rw [hperm.nil_eq]
  | [field], hperm => rw [List.singleton_perm.1 hperm]
  | a :: b :: l, hperm =>
    match l', hperm.length_eq with
    | _ :: _ :: _, _ => rfl

/-- Unknown fields do not matter. -/
theorem only_append (h : ∀ field ∈ unknown, IsUnknown field) (hkey : key ∈ keys) :
    only key (fields ++ unknown) = only key fields := by
  have hnone : unknown.filter (fun field => field.1 == some key) = [] := by
    rw [List.filter_eq_nil_iff]
    intro field hfield heq
    obtain ⟨other, hother, hnot, -⟩ := h field hfield
    rw [hother, beq_iff_eq, Option.some.injEq] at heq
    exact hnot (heq ▸ hkey)
  simp only [only, List.filter_append, hnone, List.append_nil]

end Fields

section FieldsOf
variable (tag : Tag) (text? : Option String) (items : List Json) (line : UInt32)

theorem only_tag :
    only "tag" (fieldsOf tag text? items line) = some (some (.text (some tag.name))) := by
  cases text? <;> cases items <;> rfl

theorem only_text : only "text" (fieldsOf tag text? items line) =
    some (text?.map fun s => .text (some s)) := by
  cases text? <;> cases items <;> rfl

theorem only_children : only "children" (fieldsOf tag text? items line) =
    some (if items.isEmpty then none else some (.array items)) := by
  cases text? <;> cases items <;> rfl

theorem only_line : only "line" (fieldsOf tag text? items line) =
    some (some (.number (.ofNat line.toNat))) := by
  cases text? <;> cases items <;> rfl

end FieldsOf

theorem fields_named (tag : Tag) (text? : Option String) (items : List Json) (line : UInt32) :
    (fieldsOf tag text? items line).all (·.1.isSome) = true := by
  cases text? <;> cases items <;> rfl

theorem lineOf_ofNat (line : UInt32) : lineOf (.number (.ofNat line.toNat)) = some line := by
  have hsize : line.toNat < UInt32.size := line.toNat_lt
  simp only [lineOf, Numeral.ofNat, Nat.ofDigitChars_ten_toDigits, if_pos hsize, UInt32.ofNat_toNat]

/-- What is read from an object with the fields of a node, in any order and with unknown ones. -/
theorem ofJson_object {tag : Tag} {text? : Option String} {items : List Json} {line : UInt32}
    {unknown fields : List (Option String × Json)} (hunknown : ∀ field ∈ unknown, IsUnknown field)
    (hfields : fields.Perm (fieldsOf tag text? items line ++ unknown)) (room : Nat) :
    ofJson (room + 1) (.object fields) =
      (if items.isEmpty then some [] else childrenOf room (.array items)).map
        (⟨tag, text?, ·, line⟩) := by
  have honly (key : String) (hkey : key ∈ keys) :
      only key fields = only key (fieldsOf tag text? items line) :=
    (only_perm hfields key).trans (only_append hunknown hkey)
  have hkeys : fields.all (·.1.isSome) = true := by
    rw [hfields.all_eq, List.all_append, fields_named, Bool.true_and, List.all_eq_true]
    intro field hfield
    obtain ⟨other, hother, -⟩ := hunknown field hfield
    rw [hother]
    rfl
  have htag : tagOf room (.text (some tag.name)) = some tag := Tag.ofName?_name tag
  have htext : orElse textOf none (text?.map fun s => .text (some s)) = some text? := by
    cases text? <;> rfl
  simp only [ofJson, guard, hkeys, if_true, bind, Option.bind, only_tag, only_text, only_children,
    only_line, honly "tag" (by decide), honly "text" (by decide), honly "children" (by decide),
    honly "line" (by decide), htag, htext]
  cases items with
  | nil => simp only [List.isEmpty_nil, if_true, orElse, lineOf_ofNat, Option.map_some, pure]
  | cons item items =>
    simp only [List.isEmpty_cons, Bool.false_eq_true, if_false, orElse, lineOf_ofNat]
    cases childrenOf room (.array (item :: items)) <;> rfl

mutual

/-- A tree is read from each of its forms if the room is enough for its levels. -/
theorem ofJson_of_isForm : (n : Node) → {j : Json} → IsForm n j → (room : Nat) →
    ofJson room j = if 2 * n.levels ≤ room + 1 then some n else none
  | ⟨tag, text?, children, line⟩, _, .object _ _ _, 0 => by
    have hdeep : ¬2 * levels ⟨tag, text?, children, line⟩ ≤ 0 + 1 := by
      rw [levels]
      omega
    rw [if_neg hdeep]
    rfl
  | ⟨tag, text?, _, line⟩, _, .object .nil hunknown hfields, room + 1 => by
    have hlevels : 2 * levels ⟨tag, text?, [], line⟩ ≤ room + 1 + 1 := by
      rw [levels, levelsAll]
      omega
    rw [ofJson_object hunknown hfields, if_pos hlevels]
    rfl
  | ⟨tag, text?, n :: rest, line⟩, _, .object (.cons h hrest) hunknown hfields, 1 => by
    have hpos := n.levels_pos
    have hdeep : ¬2 * levels ⟨tag, text?, n :: rest, line⟩ ≤ 1 + 1 := by
      rw [levels, levelsAll]
      omega
    rw [ofJson_object hunknown hfields, if_neg hdeep]
    rfl
  | ⟨tag, text?, n :: rest, line⟩, _, .object (.cons h hrest) hunknown hfields, room + 2 => by
    have hlevels : 2 * levels ⟨tag, text?, n :: rest, line⟩ ≤ room + 2 + 1 ↔
        2 * levelsAll (n :: rest) ≤ room + 1 := by
      rw [levels]
      omega
    rw [ofJson_object hunknown hfields, childrenOf, mapM_of_areForms (n :: rest) (.cons h hrest)]
    simp only [List.isEmpty_cons, Bool.false_eq_true, if_false, hlevels]
    split <;> rfl

/-- The same for trees in a row. -/
theorem mapM_of_areForms : (ns : List Node) → {items : List Json} → AreForms ns items →
    (room : Nat) →
      items.mapM (ofJson room) = if 2 * levelsAll ns ≤ room + 1 then some ns else none
  | [], _, .nil, room => by
    have hlevels : 2 * levelsAll [] ≤ room + 1 := Nat.zero_le _
    rw [if_pos hlevels]
    rfl
  | n :: rest, _, .cons h hrest, room => by
    have hlevels : 2 * levelsAll (n :: rest) ≤ room + 1 ↔
        2 * n.levels ≤ room + 1 ∧ 2 * levelsAll rest ≤ room + 1 := by
      rw [levelsAll]
      omega
    rw [List.mapM_cons, ofJson_of_isForm n h, mapM_of_areForms rest hrest]
    by_cases hn : 2 * n.levels ≤ room + 1
    · by_cases hall : 2 * levelsAll rest ≤ room + 1
      · rw [if_pos hn, if_pos hall, if_pos (hlevels.2 ⟨hn, hall⟩)]
        rfl
      · rw [if_pos hn, if_neg hall, if_neg fun h => hall (hlevels.1 h).2]
        rfl
    · rw [if_neg hn, if_neg fun h => hn (hlevels.1 h).1]
      rfl

end

/-- Whatever the spelling of a stored form, it is read as the tree, or refused for its depth. -/
theorem parse_of_isForm {n : Node} {j : Json} (h : n.IsForm j) {text : String}
    (htext : Json.parse text = some j) :
    Node.parse text = if n.levels ≤ 64 then some n else none := by
  rw [Node.parse, htext]
  refine (ofJson_of_isForm n h maxNesting).trans ?_
  simp only [maxNesting, show 2 * n.levels ≤ 127 + 1 ↔ n.levels ≤ 64 by omega]

/-- A text that is empty and an unknown field. -/
example : (Node.parse "\x7b\"line\":3,\"note\":null,\"text\":\"\",\"tag\":\"string\"\x7d").any
    (same ⟨.string, some "", [], 3⟩) = true := by decide +kernel

/-- What is stored for a tree is read as the tree, or refused for its depth. -/
theorem parse_stored (n : Node) : Node.parse n.stored = if n.levels ≤ 64 then some n else none :=
  parse_of_isForm n.isForm_toJson (Json.parse_print n.isWritable_toJson)

end Node

/-! ### Files -/

/-- The parser of files that hold stored trees; what is wrong with a text is said in some words. -/
def TemplateParser.stored (complaint : String → String) : TemplateParser where
  parse text _ := match Node.parse text with
    | some n => .ok n
    | none => .error (complaint text)

namespace FileLoader

/-- The program of a file in which a tree is stored is that of the tree, but for its source. -/
theorem contents_stored {fs : FileSystem} {path text : String} {n : Node}
    (htext : fs.read? path = some text) (hparse : Node.parse text = some n)
    (complaint : String → String) (name : String) (source : Source) :
    contents fs (.stored complaint) name path =
      ((Program.compile n source).map fun p => { p with source := .file path }).mapError
        (.compile name) := by
  simp only [contents, htext, TemplateParser.stored, hparse]
  rw [Program.compile_source n source]

/-- A loader that keeps no program of a file answers with what the file contains now. -/
theorem load_of_cached?_eq_none {fs : FileSystem} {l : FileLoader} {name path : String}
    (hkept : ∀ path, l.cached? fs path = none)
    (hholder : holder? fs l.paths name = some path) (parser : TemplateParser) :
    (l.load fs parser name).1.map (·.program) = contents fs parser name path := by
  have hloads := load_loads (fun path _ => hkept path) parser name
  generalize l.load fs parser name = out at hloads ⊢
  cases hloads with
  | missing hnone => exact nomatch hholder.symm.trans hnone
  | kept _ hcached => exact nomatch (hkept _).symm.trans hcached
  | failed hother _ hcontents =>
    cases hholder.symm.trans hother
    exact hcontents.symm
  | made hother _ hcontents =>
    cases hholder.symm.trans hother
    exact hcontents.symm

end FileLoader

namespace Node

/-- A tree is read back from everything that it can be stored as. -/
structure ReadsBack (n : Node) : Prop where
  stored : Node.parse n.stored = some n
  /-- The fields of each node may stand in any order, and unknown fields with single values may
  stand between them. The text may spell this in any way. -/
  forms : ∀ {j : Json} {text : String}, n.IsForm j → Json.parse text = some j →
    Node.parse text = some n
  /-- Such a form is spelled by its own text. -/
  printed : ∀ {j : Json}, n.IsForm j → j.IsWritable → Node.parse j.print = some n
  /-- A file with such a text gives a loader that has not kept a program the program of the tree, or
  its error. Only the source is that of the file. -/
  served : ∀ {j : Json} {text : String}, n.IsForm j → Json.parse text = some j →
    ∀ (complaint : String → String) {fs : FileSystem} {l : FileLoader} {name path : String},
      FileLoader.holder? fs l.paths name = some path → fs.read? path = some text →
      (∀ path, l.cached? fs path = none) → ∀ source : Source,
        (l.load fs (.stored complaint) name).1.map (·.program) =
          ((Program.compile n source).map fun p => { p with source := .file path }).mapError
            (.compile name)

/-- The trees that are read back are those of at most 64 levels. -/
theorem readsBack_iff (n : Node) : n.ReadsBack ↔ n.levels ≤ 64 := by
  constructor
  · intro h
    by_contra hlevels
    have hstored := h.stored
    rw [parse_stored, if_neg hlevels] at hstored
    cases hstored
  · intro hlevels
    have hforms {j : Json} {text : String} (h : n.IsForm j) (htext : Json.parse text = some j) :
        Node.parse text = some n := by rw [parse_of_isForm h htext, if_pos hlevels]
    refine ⟨?_, hforms, fun h hj => hforms h (Json.parse_print hj), ?_⟩
    · rw [parse_stored, if_pos hlevels]
    · intro j text h htext complaint fs l name path hholder hread hkept source
      rw [FileLoader.load_of_cached?_eq_none hkept hholder]
      exact FileLoader.contents_stored hread (hforms h htext) complaint name source

end Node

end Stencil
