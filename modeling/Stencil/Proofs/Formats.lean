import Stencil.Proofs.Conversions
import Stencil.Proofs.Numbering

/-!
# Formats in a row

A format that is filled in from its first arguments can be put in front of any other format: the
text of both is the one text behind the other, and whatever goes wrong in the second format goes
wrong in both. This is so because a conversion ends with its letter, and takes one argument at most.

* `argumentCount`: how many arguments a format takes;
* `pieces_append`: the pieces of two formats in a row;
* `fill_append`, `fill_surplus`: pieces in a row, and arguments that are left over;
* `literally`: a format that stands for a text;
* `format_compositional`: formats in a row, arguments that are left over, and texts as formats.
-/

namespace Stencil.Format

/-! ### Pieces -/

theorem pieces_literal {c : Char} (h : c ≠ '%') (cs : List Char) :
    pieces (c :: cs) = .literal c :: pieces cs := by
  rw [pieces, if_neg h]

theorem pieces_of_ok {cs rest : List Char} {spec : Spec} {letter : Char}
    (h : conversion? cs = .ok (spec, letter, rest)) :
    pieces ('%' :: cs) = .conversion spec letter :: pieces rest := by
  rw [pieces, if_pos rfl]
  split
  · next h' =>
    rw [h] at h'
    cases h'
    rfl
  · next h' =>
    rw [h] at h'
    cases h'

/-- A conversion ends with its letter. -/
theorem conversion?_append {cs rest : List Char} {spec : Spec} {letter : Char}
    (h : conversion? cs = .ok (spec, letter, rest)) (ds : List Char) :
    conversion? (cs ++ ds) = .ok (spec, letter, rest ++ ds) := by
  obtain ⟨c, rfl, rfl, rfl⟩ := conversion?_eq_ok.1 h
  rw [List.append_assoc, c.conversion?_text]

/-- The pieces of a format stay the same in front of another one, if there is no fault in them. -/
theorem pieces_append (cs ds : List Char) (h : ∀ e, .fault e ∉ pieces cs) :
    pieces (cs ++ ds) = pieces cs ++ pieces ds := by
  fun_induction pieces cs with
  | case1 => rfl
  | case2 cs spec letter rest hread _ ih =>
    have hrest : ∀ e, .fault e ∉ pieces rest := fun e he => h e (List.mem_cons_of_mem _ he)
    rw [List.cons_append, pieces_of_ok (conversion?_append hread ds), ih hrest, List.cons_append]
  | case3 cs e hread => exact absurd List.mem_cons_self (h e)
  | case4 c cs hc ih =>
    have hrest : ∀ e, .fault e ∉ pieces cs := fun e he => h e (List.mem_cons_of_mem _ he)
    rw [List.cons_append, pieces_literal hc, ih hrest, List.cons_append]

/-- Is the piece a conversion that takes an argument? -/
def Piece.takesArgument : Piece → Bool
  | .conversion _ letter => letter != '%' && letter != 'n'
  | _ => false

/-- How many arguments a format takes: one for every conversion but percent signs and line ends. -/
def argumentCount (s : String) : Nat := (pieces s.toList).countP Piece.takesArgument

/-! ### Filling -/

/-- The text of one piece, which takes the first argument if it takes one at all. -/
def Piece.field (p : Piece) (args : List Value) : Except FormatError (List Char) :=
  match p with
  | .literal c => .ok [c]
  | .fault e => .error (.spec e)
  | .conversion spec letter =>
    if letter = '%' then .ok ['%']
    else if letter = 'n' then .ok ['\n']
    else
      match args with
      | [] => .error (.missingArgument letter)
      | v :: _ => convert spec letter v

/-- The arguments that a piece leaves over. -/
def Piece.leftOver (p : Piece) (args : List Value) : List Value :=
  args.drop (if p.takesArgument then 1 else 0)

variable {p : Piece} {ps qs : List Piece} {args : List Value} {text : List Char}

theorem fill_cons (p : Piece) (ps : List Piece) (args : List Value) :
    fill (p :: ps) args = (do
      let field ← p.field args
      (field ++ ·) <$> fill ps (p.leftOver args)) := by
  cases p with
  | literal c => rfl
  | fault e => rfl
  | conversion spec letter =>
    by_cases hpercent : letter = '%'
    · subst hpercent
      rfl
    by_cases hline : letter = 'n'
    · subst hline
      rfl
    cases args with
    | nil =>
      simp [fill, Piece.field, hpercent, hline]
      rfl
    | cons v args =>
      simp [fill, Piece.field, Piece.leftOver, Piece.takesArgument, hpercent, hline]

/-- A piece that has its argument takes no other one. -/
theorem Piece.field_append (h : p.field args = .ok text) (more : List Value) :
    p.field (args ++ more) = .ok text ∧ p.leftOver (args ++ more) = p.leftOver args ++ more := by
  cases args with
  | cons v args =>
    refine ⟨?_, ?_⟩
    · cases p with
      | literal c | fault e => exact h
      | conversion spec letter => exact h
    · rw [leftOver, leftOver, List.cons_append]
      cases p.takesArgument <;> rfl
  | nil =>
    cases p with
    | literal c => exact ⟨h, rfl⟩
    | fault e => cases h
    | conversion spec letter =>
      by_cases hpercent : letter = '%'
      · subst hpercent
        exact ⟨h, rfl⟩
      by_cases hline : letter = 'n'
      · subst hline
        exact ⟨h, rfl⟩
      simp [field, hpercent, hline] at h

/-- Pieces in a row: the second ones begin with the arguments that the first ones leave over. -/
theorem fill_append (ps qs : List Piece) (args : List Value) :
    fill (ps ++ qs) args = (do
      let text ← fill ps args
      (text ++ ·) <$> fill qs (args.drop (ps.countP Piece.takesArgument))) := by
  induction ps generalizing args with
  | nil =>
    show fill qs args = (([] : List Char) ++ ·) <$> fill qs args
    simp
  | cons p ps ih =>
    have hdrop : (p.leftOver args).drop (ps.countP Piece.takesArgument) =
        args.drop ((p :: ps).countP Piece.takesArgument) := by
      rw [Piece.leftOver, List.drop_drop, List.countP_cons, Nat.add_comm]
    rw [List.cons_append, fill_cons, fill_cons, ← hdrop]
    simp only [ih]
    cases p.field args with
    | error e => rfl
    | ok field =>
      cases fill ps (p.leftOver args) with
      | error e => rfl
      | ok text =>
        show (field ++ ·) <$> ((text ++ ·) <$> fill qs _) = (field ++ text ++ ·) <$> fill qs _
        simp [Functor.map_map]

theorem fill_cons_eq_ok :
    fill (p :: ps) args = .ok text ↔ ∃ field rest, p.field args = .ok field ∧
      fill ps (p.leftOver args) = .ok rest ∧ field ++ rest = text := by
  rw [fill_cons, bind_eq_ok]
  refine exists_congr fun field => ?_
  cases fill ps (p.leftOver args) with
  | error e => exact ⟨nofun, nofun⟩
  | ok rest => exact ⟨fun ⟨hfield, h⟩ => ⟨rest, hfield, rfl, Except.ok.inj h⟩,
      fun ⟨_, hfield, hrest, h⟩ => ⟨hfield, congrArg _ (Except.ok.inj hrest ▸ h)⟩⟩

/-- Arguments that are left over change nothing. -/
theorem fill_surplus (h : fill ps args = .ok text) (more : List Value) :
    fill ps (args ++ more) = .ok text := by
  induction ps generalizing args text with
  | nil => exact h
  | cons p ps ih =>
    obtain ⟨field, rest, hfield, hrest, rfl⟩ := fill_cons_eq_ok.1 h
    obtain ⟨hfield', hleft⟩ := p.field_append hfield more
    exact fill_cons_eq_ok.2 ⟨field, rest, hfield', hleft ▸ ih hrest, rfl⟩

theorem fault_notMem (h : fill ps args = .ok text) (e : SpecError) : .fault e ∉ ps := by
  induction ps generalizing args text with
  | nil => exact List.not_mem_nil
  | cons p ps ih =>
    obtain ⟨field, rest, hfield, hrest, rfl⟩ := fill_cons_eq_ok.1 h
    intro hmem
    rcases List.mem_cons.1 hmem with rfl | hmem
    · cases hfield
    · exact ih hrest hmem

/-! ### Formats -/

theorem format_eq_ok {s : String} {args : List Value} {text : String} :
    format s args = .ok text ↔ fill (pieces s.toList) args = .ok text.toList := by
  unfold format
  cases fill (pieces s.toList) args with
  | error e => exact ⟨nofun, nofun⟩
  | ok cs =>
    constructor
    · intro h
      rw [← Except.ok.inj h, String.toList_ofList]
    · intro h
      exact congrArg Except.ok (by rw [Except.ok.inj h, String.ofList_toList])

/-- A format whose arguments are all there can be put in front of any other one. -/
theorem format_append {s : String} {args : List Value} {text : String}
    (h : format s args = .ok text) (hargs : args.length = argumentCount s) (s' : String)
    (args' : List Value) :
    format (s ++ s') (args ++ args') = (text ++ ·) <$> format s' args' := by
  have hfill := format_eq_ok.1 h
  have hpieces := pieces_append s.toList s'.toList (fault_notMem hfill)
  rw [format, String.toList_append, hpieces, fill_append, fill_surplus hfill args',
    show List.countP Piece.takesArgument (pieces s.toList) = args.length from hargs.symm,
    List.drop_left, format]
  cases fill (pieces s'.toList) args' with
  | error e => rfl
  | ok cs =>
    refine congrArg Except.ok ?_
    rw [← String.toList_inj]
    simp

theorem format_surplus {s : String} {args : List Value} {text : String}
    (h : format s args = .ok text) (more : List Value) :
    format s (args ++ more) = .ok text :=
  format_eq_ok.2 (fill_surplus (format_eq_ok.1 h) more)

/-- The format that stands for a text: every percent sign is doubled. -/
def literally (s : String) : String :=
  String.ofList (s.toList.flatMap fun c => if c = '%' then ['%', '%'] else [c])

theorem fill_literally (cs : List Char) :
    fill (pieces (cs.flatMap fun c => if c = '%' then ['%', '%'] else [c])) [] = .ok cs := by
  induction cs with
  | nil =>
    rw [List.flatMap_nil, pieces]
    rfl
  | cons c cs ih =>
    rw [List.flatMap_cons]
    by_cases hc : c = '%'
    · subst hc
      have hread (cs : List Char) : conversion? ('%' :: cs) = .ok ({}, '%', cs) := rfl
      rw [if_pos rfl, List.cons_append, List.singleton_append, pieces_of_ok (hread _), fill,
        if_pos rfl, ih]
      rfl
    · rw [if_neg hc, List.singleton_append, pieces_literal hc, fill, ih]
      rfl

theorem format_literally (s : String) : format (literally s) [] = .ok s := by
  rw [format_eq_ok, literally, String.toList_ofList, fill_literally]

/-- How formats go together. A format that has been filled in from all of its arguments can be put
in front of any other one with its own arguments: both give the one text behind the other, or the
error of the second format. Arguments that are left over never change a text, and every text has a
format that takes no arguments. -/
theorem format_compositional :
    (∀ s args text, format s args = .ok text → args.length = argumentCount s → ∀ s' args',
      format (s ++ s') (args ++ args') = (text ++ ·) <$> format s' args') ∧
    (∀ s args text, format s args = .ok text → ∀ more, format s (args ++ more) = .ok text) ∧
    ∀ s, format (literally s) [] = .ok s :=
  ⟨fun _ _ _ h hargs => format_append h hargs, fun _ _ _ => format_surplus, format_literally⟩

theorem format_compositional_padded :
    format "%05d, " [.int (-42)] = .ok "-0042, " ∧ argumentCount "%05d, " = 1 ∧
      format ("%05d, " ++ "%s%%") ([.int (-42)] ++ [.str "a"]) = .ok "-0042, a%" ∧
      format ("%05d, " ++ "%d") ([.int (-42)] ++ [.null]) = .error (.notInteger 'd' "null") := by
  have htext : format "%05d, " [.int (-42)] = .ok "-0042, " := by decide +kernel
  have hcount : argumentCount "%05d, " = 1 := by decide +kernel
  have happend := format_compositional.1 _ _ _ htext hcount.symm
  have hsecond : format "%s%%" [.str "a"] = .ok "a%" := by decide +kernel
  have hwrong : format "%d" [.null] = .error (.notInteger 'd' "null") := by decide +kernel
  refine ⟨htext, hcount, ?_, ?_⟩
  · rw [happend, hsecond]
    rfl
  · rw [happend, hwrong]
    rfl

end Stencil.Format
