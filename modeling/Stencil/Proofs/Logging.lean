import Stencil.Proofs.Summaries
import Stencil.Trace.Log

/-!
# Logs with a limit

A log without a limit has one line for every step. A log with a limit has the same lines up to the
instruction that reaches the limit, and then a last one that says so. The limit is looked at behind
an instruction only, so that a log has the line of an instruction even if its limit is zero.

* `Log.isInstruction`: the lines of instructions;
* `Log.allLines_unlimited`: the lines of a log without a limit;
* `Log.logOf_eq_allLines`: the log of a render has the lines of the steps on record;
* `Log.EndsBehind`: lines that end behind an instruction, which is given by its number;
* `Log.endsBehind_allLines`: where a log with a limit ends;
* `Log.Honours`: lines that keep to a limit;
* `Log.honours_iff`: which logs keep to their limits.
-/

namespace Stencil

namespace Log

variable {l : Log} {n : Nat} {line ending : String} {whole lines : List String}

/-! ### Lines -/

/-- Is the line that of an instruction? No other line of a log begins with a bracket. -/
def isInstruction (line : String) : Bool := line.toList.head? == some '['

theorem head?_append {s : String} (h : s.toList ≠ []) (t : String) :
    (s ++ t).toList.head? = s.toList.head? := by
  obtain ⟨c, cs, hs⟩ := List.exists_cons_of_ne_nil h
  simp only [String.toList_append, hs, List.cons_append, List.head?_cons]

theorem head?_endLine (n : Nat) : (endLine n).toList.head? = some '-' := by
  unfold endLine
  rw [String.append_assoc, head?_append (by decide)]
  rfl

theorem head?_line (e : Event) :
    e.line.toList.head? = some (if e.op?.isSome then '[' else ' ') := by
  cases e with
  | instruction _ _ _ | enter _ _ | leave _ | loopPush _ | loopPop _ | warning _ =>
    unfold Event.line
    simp only [String.append_assoc, Event.op?]
    rw [head?_append (by decide)]
    rfl

@[simp] theorem isInstruction_line (e : Event) : isInstruction e.line = e.op?.isSome := by
  rw [isInstruction, head?_line]
  cases e.op? <;> rfl

@[simp] theorem isInstruction_endLine (n : Nat) : isInstruction (endLine n) = false := by
  rw [isInstruction, head?_endLine]
  rfl

/-- The line that ends a log is not that of a step. -/
theorem endLine_notMem (n : Nat) (events : List Event) : endLine n ∉ events.map Event.line := by
  intro hmem
  obtain ⟨e, -, he⟩ := List.mem_map.1 hmem
  have hhead := head?_line e
  rw [he, head?_endLine] at hhead
  cases hop : e.op? <;> simp [hop] at hhead

theorem filter_isInstruction_eq_nil {events : List Event} :
    (events.map Event.line).filter isInstruction = [] ↔ ∀ e ∈ events, e.op? = none := by
  simp [List.filter_eq_nil_iff]

/-! ### Steps -/

theorem lines_of_stopped (h : l.stopped = true) (e : Event) : l.lines e = ([], l) := by
  simp [lines, h]

/-- A step that is no instruction leaves the log as it is. -/
theorem lines_of_op?_eq_none (h : l.stopped = false) {e : Event} (he : e.op? = none) :
    l.lines e = ([e.line], l) := by
  cases e with
  | instruction _ _ _ => cases he
  | enter _ _ | leave _ | loopPush _ | loopPop _ | warning _ => simp [lines, h]

theorem lines_of_op?_eq_some (h : l.stopped = false) {e : Event} {op : Opcode}
    (he : e.op? = some op) : l.lines e = (e.line :: l.tick.1, l.tick.2) := by
  cases e with
  | instruction _ _ _ => simp [lines, h]
  | enter _ _ | leave _ | loopPush _ | loopPop _ | warning _ => cases he

theorem tick_unlimited (h : l.limit = none) : l.tick = ([], { l with count := l.count + 1 }) := by
  simp only [tick, h]

theorem tick_of_le (h : l.limit = some n) (hn : n ≤ l.count + 1) :
    l.tick = ([endLine n], { l with count := l.count + 1, stopped := true }) := by
  simp only [tick, h, if_pos hn]

theorem tick_of_lt (h : l.limit = some n) (hn : l.count + 1 < n) :
    l.tick = ([], { l with count := l.count + 1 }) := by
  simp only [tick, h, if_neg (Nat.not_le.2 hn)]

/-! ### Whole logs -/

theorem allLines_cons (l : Log) (e : Event) (events : List Event) :
    l.allLines (e :: events) = (l.lines e).1 ++ (l.lines e).2.allLines events := rfl

theorem allLines_of_stopped (h : l.stopped = true) (events : List Event) :
    l.allLines events = [] := by
  induction events with
  | nil => rfl
  | cons e events ih => rw [allLines_cons, lines_of_stopped h, List.nil_append, ih]

/-- A log without a limit has one line for every step. -/
theorem allLines_unlimited (h : l.limit = none) (hl : l.stopped = false) (events : List Event) :
    l.allLines events = events.map Event.line := by
  induction events generalizing l with
  | nil => rfl
  | cons e events ih =>
    rw [allLines_cons, List.map_cons]
    cases he : e.op? with
    | none => rw [lines_of_op?_eq_none hl he, ih h hl, List.singleton_append]
    | some op =>
      rw [lines_of_op?_eq_some hl he, tick_unlimited h, List.singleton_append]
      exact congrArg (e.line :: ·) (ih h hl)

/-- The log of a render has the lines of its steps, if warnings do not go into it as well. -/
theorem logOf_eq_allLines {sink : WarningSink} (h : sink ≠ .log) (l : Log)
    (entries : List Entry) :
    logOf sink (some l) entries = l.allLines (entries.filterMap Entry.event?) := by
  induction entries generalizing l with
  | nil => rfl
  | cons entry entries ih =>
    cases entry with
    | event e => exact congrArg ((l.lines e).1 ++ ·) (ih (l.lines e).2)
    | notice w =>
      rw [logOf, if_neg h, List.nil_append, ih, List.filterMap_cons_none rfl]
    | call name args => exact ih l

/-- `lines` are those of `whole` as far as the instruction with the given number, counted from one,
and the line `ending` behind it. If there is no such instruction, they are all those of `whole`. -/
inductive EndsBehind (ending : String) : (number : Nat) → (whole lines : List String) → Prop
  | nil (n : Nat) : EndsBehind ending n [] []
  | other {n : Nat} {line : String} {whole lines : List String} :
    isInstruction line = false → EndsBehind ending n whole lines →
    EndsBehind ending n (line :: whole) (line :: lines)
  | instruction {n : Nat} {line : String} {whole lines : List String} :
    isInstruction line = true → EndsBehind ending n whole lines →
    EndsBehind ending (n + 1) (line :: whole) (line :: lines)
  | last {line : String} (whole : List String) :
    isInstruction line = true → EndsBehind ending 1 (line :: whole) [line, ending]

/-- A log ends behind the instruction that reaches its limit, but not before the next one. -/
theorem endsBehind_allLines (h : l.limit = some n) (hl : l.stopped = false)
    (events : List Event) :
    EndsBehind (endLine n) (max (n - l.count) 1) (events.map Event.line) (l.allLines events) := by
  induction events generalizing l with
  | nil => exact .nil _
  | cons e events ih =>
    rw [allLines_cons, List.map_cons]
    cases he : e.op? with
    | none =>
      rw [lines_of_op?_eq_none hl he]
      exact .other (by rw [isInstruction_line, he]; rfl) (ih h hl)
    | some op =>
      have hline : isInstruction e.line = true := by
        rw [isInstruction_line, he]
        rfl
      rw [lines_of_op?_eq_some hl he]
      rcases Nat.lt_or_ge (l.count + 1) n with hlt | hge
      · have hnumber : max (n - l.count) 1 = max (n - (l.count + 1)) 1 + 1 := by omega
        rw [tick_of_lt h hlt, hnumber]
        exact .instruction hline (ih (l := { l with count := l.count + 1 }) h hl)
      · have hnumber : max (n - l.count) 1 = 1 := by omega
        rw [tick_of_le h hge, hnumber, allLines_of_stopped (by rfl)]
        exact .last _ hline

namespace EndsBehind

/-- The lines of instructions are the first ones. -/
theorem instructions (h : EndsBehind ending n whole lines)
    (hending : isInstruction ending = false) :
    lines.filter isInstruction = (whole.filter isInstruction).take n := by
  induction h with
  | nil => exact (List.take_nil).symm
  | other hline _ ih =>
    rw [List.filter_cons_of_neg (by simp [hline]), ih, List.filter_cons_of_neg (by simp [hline])]
  | instruction hline _ ih =>
    rw [List.filter_cons_of_pos hline, ih, List.filter_cons_of_pos hline, List.take_succ_cons]
  | last whole hline => simp [hline, hending]

/-- All is there, or the lines before the last one are there as they are. -/
theorem agrees (h : EndsBehind ending n whole lines) :
    lines = whole ∨ ∃ before, before <+: whole ∧ lines = before ++ [ending] := by
  induction h with
  | nil => exact .inl rfl
  | @other _ line _ _ _ _ ih | @instruction _ line _ _ _ _ ih =>
    rcases ih with rfl | ⟨before, hinit, rfl⟩
    · exact .inl rfl
    · exact .inr ⟨line :: before, (List.prefix_cons_inj line).2 hinit, rfl⟩
  | @last line whole _ => exact .inr ⟨[line], ⟨whole, rfl⟩, rfl⟩

/-- Nothing is missing if there are too few instructions. -/
theorem eq_of_length_lt (h : EndsBehind ending n whole lines)
    (hn : (whole.filter isInstruction).length < n) : lines = whole := by
  induction h with
  | nil => rfl
  | other hline _ ih =>
    rw [List.filter_cons_of_neg (by simp [hline])] at hn
    rw [ih hn]
  | instruction hline _ ih =>
    rw [List.filter_cons_of_pos hline, List.length_cons] at hn
    rw [ih (by omega)]
  | last whole hline =>
    rw [List.filter_cons_of_pos hline, List.length_cons] at hn
    omega

end EndsBehind

/-! ### Limits -/

/-- Lines keep to a limit of `n` instructions, where `whole` are all lines without a limit: the
lines of instructions are the first `n`, there is at most one line that says that the limit is
reached, it is the last line of all, and the lines before it are the same as without a limit. -/
structure Honours (n : Nat) (whole lines : List String) : Prop where
  instructions : lines.filter isInstruction = (whole.filter isInstruction).take n
  once : lines.count (endLine n) ≤ 1
  last : ∀ {before after}, lines = before ++ endLine n :: after → after = []
  agrees : lines = whole ∨ ∃ before, before <+: whole ∧ lines = before ++ [endLine n]

/-- If the end is marked by a line that does not come before, it is marked once, at the end. -/
theorem honours_of_agrees (hwhole : endLine n ∉ whole)
    (hinstructions : lines.filter isInstruction = (whole.filter isInstruction).take n)
    (hagrees : lines = whole ∨ ∃ before, before <+: whole ∧ lines = before ++ [endLine n]) :
    Honours n whole lines := by
  refine ⟨hinstructions, ?_, fun {before after} hlines => ?_, hagrees⟩
  · rcases hagrees with rfl | ⟨before, hinit, rfl⟩
    · rw [List.count_eq_zero.2 hwhole]
      exact Nat.zero_le 1
    · have hbefore : endLine n ∉ before := fun hmem => hwhole (hinit.subset hmem)
      have hcount : (before ++ [endLine n]).count (endLine n) = 1 := by
        rw [List.count_append, List.count_eq_zero.2 hbefore, List.count_singleton_self]
      exact Nat.le_of_eq hcount
  · rcases hagrees with rfl | ⟨shown, hinit, rfl⟩
    · exact absurd (hlines ▸ List.mem_append_right before List.mem_cons_self) hwhole
    · rcases List.eq_nil_or_concat after with rfl | ⟨init, line, rfl⟩
      · rfl
      · have hshown : shown = before ++ endLine n :: init := by
          rw [List.concat_eq_append, ← List.cons_append, ← List.append_assoc] at hlines
          exact (List.append_inj' hlines rfl).1
        exact absurd (hinit.subset (hshown ▸ List.mem_append_right before List.mem_cons_self))
          hwhole

/-- A log keeps to its limit unless the limit is zero and there is an instruction: the line of that
instruction comes before the limit is looked at. -/
theorem honours_iff (n : Nat) (events : List Event) :
    Honours n (({} : Log).allLines events) (({ limit := some n } : Log).allLines events) ↔
      0 < n ∨ ∀ e ∈ events, e.op? = none := by
  have hends := endsBehind_allLines (l := { limit := some n }) rfl rfl events
  have hfirst := hends.instructions (isInstruction_endLine n)
  have hwhole := endLine_notMem n events
  rw [allLines_unlimited rfl rfl]
  constructor
  · intro h
    rcases Nat.eq_zero_or_pos n with rfl | hpos
    · have hnone := hfirst.symm.trans h.instructions
      exact .inr (filter_isInstruction_eq_nil.1
        ((List.take_eq_nil_iff.1 hnone).resolve_left Nat.one_ne_zero))
    · exact .inl hpos
  · rintro (hpos | hnone)
    · have hnumber : max (n - ({ limit := some n } : Log).count) 1 = n := Nat.max_eq_left hpos
      rw [hnumber] at hfirst
      exact honours_of_agrees hwhole hfirst hends.agrees
    · have hfilter := filter_isInstruction_eq_nil.2 hnone
      rw [hends.eq_of_length_lt (by rw [hfilter]; exact Nat.le_max_right _ 1)]
      exact honours_of_agrees hwhole (by rw [hfilter, List.take_nil]) (.inl rfl)

/-- A limit of zero lets an instruction through. -/
theorem not_honours_zero :
    ¬Honours 0 (({} : Log).allLines [.enter "-" 0, .instruction 0 .appendText 0])
      (({ limit := some 0 } : Log).allLines [.enter "-" 0, .instruction 0 .appendText 0]) := by
  intro h
  have hnone := h.instructions
  revert hnone
  decide +kernel

end Log

end Stencil
