import Stencil.Trace.Profile
import Stencil.Trace.Recording

/-!
# What observers make of the steps of a render

Recorders and profilers see the same steps one by one. What they come to is read off the list of
all steps, which is what a recorder without a limit has kept: another recorder has kept the first
ones of the list, and a profile has counted them.

* `Event.op?`, `Event.entered?`, `Event.pushed?`, `Event.caution?`: what a step tells;
* `Recorder.events_watch`, `Recorder.events_watch_limit`: what recorders have kept;
* `Profiler.Counts`: a table that says how often operations occur;
* `Profiler.watch_eq`: what a profiler has come to;
* `Profile.Sums`, `Profile.sums_ofEvents`: a profile sums up a list of steps.
-/

namespace Stencil

/-! ### What steps tell -/

namespace Event

/-- The operation that is carried out. -/
def op? : Event → Option Opcode
  | instruction _ op _ => some op
  | _ => none

/-- How deep the template is nested that is entered. -/
def entered? : Event → Option Nat
  | enter _ depth => some depth
  | _ => none

/-- How many loops there are with the one that is entered. -/
def pushed? : Event → Option Nat
  | loopPush depth => some depth
  | _ => none

/-- What a warning is about. -/
def caution? : Event → Option Caution
  | warning caution => some caution
  | _ => none

end Event

/-! ### Recorders -/

namespace Recorder

theorem events_watch {r : Recorder} (h : r.limit = none) (events : List Event) :
    (r.watch events).events.toList = r.events.toList ++ events := by
  induction events generalizing r with
  | nil => exact (List.append_nil _).symm
  | cons e events ih =>
    have hsee : r.see e = { r with events := r.events.push e } := if_neg (by simp [isFull, h])
    calc (r.watch (e :: events)).events.toList
      _ = (r.see e).events.toList ++ events := ih (hsee ▸ h)
      _ = r.events.toList ++ e :: events := by
        rw [hsee, Array.toList_push, List.append_assoc, List.singleton_append]

/-- A recorder with a limit has room for the first steps only. -/
theorem events_watch_limit {r : Recorder} {n : Nat} (h : r.limit = some n)
    (hroom : r.events.size ≤ n) (events : List Event) :
    (r.watch events).events.toList = (r.events.toList ++ events).take n := by
  induction events generalizing r with
  | nil =>
    rw [List.append_nil]
    exact (List.take_of_length_le hroom).symm
  | cons e events ih =>
    rcases Nat.eq_or_lt_of_le hroom with hfull | hlt
    · have hsee : r.see e = r := if_pos (by simp [isFull, h, hfull])
      have hlength : r.events.toList.length = n := hfull
      calc (r.watch (e :: events)).events.toList
        _ = ((r.see e).watch events).events.toList := rfl
        _ = (r.events.toList ++ events).take n := by rw [hsee, ih h hroom]
        _ = (r.events.toList ++ e :: events).take n := by
          rw [List.take_left' hlength, List.take_left' hlength]
    · have hsee : r.see e = { r with events := r.events.push e } :=
        if_neg (by simp [isFull, h, hlt])
      have hsize : (r.see e).events.size ≤ n := by
        rw [hsee, Array.size_push]
        exact hlt
      calc (r.watch (e :: events)).events.toList
        _ = ((r.see e).events.toList ++ events).take n := ih (hsee ▸ h) hsize
        _ = (r.events.toList ++ e :: events).take n := by
          rw [hsee, Array.toList_push, List.append_assoc, List.singleton_append]

end Recorder

/-! ### Tables of counts -/

/-- No two operations have the same name. -/
theorem Opcode.name_injective {op op' : Opcode} (h : op.name = op'.name) : op = op' := by
  have hname := congrArg ofName? h
  simpa using hname

namespace Profiler

/-- A table says how often each operation occurs in a list. It has one entry for every operation
that occurs, and no other entries. -/
structure Counts (ops : List Opcode) (table : List (Opcode × Nat)) : Prop where
  nodup : (table.map Prod.fst).Nodup
  mem_iff : ∀ {op n}, (op, n) ∈ table ↔ op ∈ ops ∧ n = ops.count op

variable {ops : List Opcode} {table : List (Opcode × Nat)} {op other : Opcode} {n : Nat}

theorem Counts.mem_keys (h : Counts ops table) : op ∈ table.map Prod.fst ↔ op ∈ ops := by
  constructor
  · intro hop
    obtain ⟨⟨_, n⟩, hmem, rfl⟩ := List.mem_map.1 hop
    exact (h.mem_iff.1 hmem).1
  · intro hop
    exact List.mem_map.2 ⟨(op, ops.count op), h.mem_iff.2 ⟨hop, rfl⟩, rfl⟩

theorem Counts.perm (h : Counts ops table) {table' : List (Opcode × Nat)}
    (hperm : table'.Perm table) : Counts ops table' where
  nodup := (hperm.map Prod.fst).nodup_iff.2 h.nodup
  mem_iff := hperm.mem_iff.trans h.mem_iff

theorem mem_tally_of_ne (hne : other ≠ op) : (other, n) ∈ tally op table ↔ (other, n) ∈ table := by
  induction table with
  | nil => simp [tally, hne]
  | cons entry rest ih =>
    obtain ⟨seen, m⟩ := entry
    rw [tally]
    split
    · next hseen => simp [hseen, hne]
    · rw [List.mem_cons, ih, List.mem_cons]

/-- An operation that the table has no entry for gets one. -/
theorem tally_of_not_mem (hop : op ∉ table.map Prod.fst) : tally op table = table ++ [(op, 1)] := by
  induction table with
  | nil => rfl
  | cons entry rest ih =>
    obtain ⟨hne, hrest⟩ := not_or.1 (mt List.mem_cons.2 hop)
    rw [tally, if_neg (Ne.symm hne), ih hrest, List.cons_append]

theorem keys_tally_of_mem (hop : op ∈ table.map Prod.fst) :
    (tally op table).map Prod.fst = table.map Prod.fst := by
  induction table with
  | nil => cases hop
  | cons entry rest ih =>
    obtain ⟨seen, m⟩ := entry
    rw [tally]
    split
    · rfl
    · next hne =>
      rw [List.map_cons, ih ((List.mem_cons.1 hop).resolve_left (Ne.symm hne)), List.map_cons]

theorem mem_tally_self (hnodup : (table.map Prod.fst).Nodup) (hop : op ∈ table.map Prod.fst) :
    (op, n) ∈ tally op table ↔ ∃ m, (op, m) ∈ table ∧ n = m + 1 := by
  induction table with
  | nil => cases hop
  | cons entry rest ih =>
    obtain ⟨seen, m⟩ := entry
    obtain ⟨hseen, hrest⟩ := List.nodup_cons.1 hnodup
    rw [tally]
    split
    · next hop' =>
      subst hop'
      have hnone : ∀ k, (seen, k) ∉ rest := fun k hk => hseen (List.mem_map.2 ⟨_, hk, rfl⟩)
      simp [hnone]
    · next hne =>
      rw [List.mem_cons, ih hrest ((List.mem_cons.1 hop).resolve_left (Ne.symm hne))]
      simp [Ne.symm hne]

/-- Counting an operation once more. -/
theorem Counts.tally (h : Counts ops table) (op : Opcode) :
    Counts (ops ++ [op]) (tally op table) := by
  by_cases hop : op ∈ ops
  · have hkey := h.mem_keys.2 hop
    refine ⟨(keys_tally_of_mem hkey).symm ▸ h.nodup, fun {other n} => ?_⟩
    by_cases hother : other = op
    · subst hother
      simp [mem_tally_self h.nodup hkey, h.mem_iff, hop]
    · simp [mem_tally_of_ne hother, h.mem_iff, hother, List.count_append, Ne.symm hother]
  · have hkey := mt h.mem_keys.1 hop
    rw [tally_of_not_mem hkey]
    refine ⟨?_, fun {other n} => ?_⟩
    · rw [List.map_append, List.nodup_append]
      refine ⟨h.nodup, by simp, fun a ha b hb hab => hkey ?_⟩
      rw [← show b = op from List.mem_singleton.1 hb, ← hab]
      exact ha
    · rw [List.mem_append, h.mem_iff]
      by_cases hother : other = op
      · subst hother
        simp [hop, List.count_eq_zero.2 hop]
      · simp [hother, List.count_append, Ne.symm hother]

theorem Counts.foldl_tally (h : Counts ops table) (more : List Opcode) :
    Counts (ops ++ more) (more.foldl (fun table op => Profiler.tally op table) table) := by
  induction more generalizing ops table with
  | nil => simpa using h
  | cons op more ih =>
    have hmore := ih (h.tally op)
    rwa [List.append_assoc, List.singleton_append] at hmore

/-! ### What a profiler has come to -/

theorem watch_eq (p : Profiler) (events : List Event) :
    p.watch events =
      { opcodes := (events.filterMap Event.op?).foldl (fun table op => tally op table) p.opcodes
        instructions := p.instructions + (events.filterMap Event.op?).length
        templates := p.templates + (events.filterMap Event.entered?).length
        depth := (events.filterMap Event.entered?).foldl max p.depth
        loopDepth := (events.filterMap Event.pushed?).foldl max p.loopDepth
        warnings := p.warnings + (events.filterMap Event.caution?).length } := by
  induction events generalizing p with
  | nil => rfl
  | cons e events ih =>
    show (p.see e).watch events = _
    rw [ih (p.see e)]
    cases e with
    | instruction _ _ _ | enter _ _ | warning _ =>
      rw [see, Nat.add_right_comm]
      rfl
    | leave _ | loopPush _ | loopPop _ => rfl

/-! ### The order of the counts -/

theorem precedes_iff {a b : Opcode × Nat} :
    precedes a b = true ↔ b.2 < a.2 ∨ a.2 = b.2 ∧ a.1.name ≤ b.1.name := by
  simp [precedes]

theorem precedes_trans (a b c : Opcode × Nat) (hab : precedes a b = true)
    (hbc : precedes b c = true) : precedes a c = true := by
  rw [precedes_iff] at *
  rcases hab with hab | ⟨hab, hnames⟩
  · rcases hbc with hbc | ⟨hbc, -⟩
    · exact .inl (Nat.lt_trans hbc hab)
    · exact .inl (hbc ▸ hab)
  · rcases hbc with hbc | ⟨hbc, hnames'⟩
    · exact .inl (hab ▸ hbc)
    · exact .inr ⟨hab.trans hbc, String.le_trans hnames hnames'⟩

theorem precedes_total (a b : Opcode × Nat) : (precedes a b || precedes b a) = true := by
  rw [Bool.or_eq_true, precedes_iff, precedes_iff]
  rcases Nat.lt_trichotomy a.2 b.2 with hlt | heq | hgt
  · exact .inr (.inl hlt)
  · rcases String.le_total a.1.name b.1.name with hle | hle
    · exact .inl (.inr ⟨heq, hle⟩)
    · exact .inr (.inr ⟨heq.symm, hle⟩)
  · exact .inl (.inl hgt)

/-- Operations as frequent as each other are told apart by their names. -/
theorem precedes_antisymm {a b : Opcode × Nat} (hab : precedes a b = true)
    (hba : precedes b a = true) : a = b := by
  rw [precedes_iff] at hab hba
  have hcount : a.2 = b.2 := by omega
  have hnames : a.1.name = b.1.name :=
    String.le_antisymm (hab.resolve_left (by omega)).2 (hba.resolve_left (by omega)).2
  exact Prod.ext (Opcode.name_injective hnames) hcount

/-- Counts in the order of profiles: the higher ones first, and equal ones by the names of their
operations. -/
def IsInOrder (table : List (Opcode × Nat)) : Prop :=
  table.Pairwise fun a b => b.2 < a.2 ∨ a.2 = b.2 ∧ a.1.name < b.1.name

theorem isInOrder_mergeSort (hnodup : (table.map Prod.fst).Nodup) :
    IsInOrder (table.mergeSort precedes) := by
  have hsorted := List.pairwise_mergeSort precedes_trans precedes_total table
  have hkeys := ((List.mergeSort_perm table precedes).map Prod.fst).nodup_iff.2 hnodup
  refine (hsorted.and (List.pairwise_map.1 hkeys)).imp fun {a b} h => ?_
  obtain ⟨hprecedes, hne⟩ := h
  rcases precedes_iff.1 hprecedes with hlt | ⟨heq, hle⟩
  · exact .inl hlt
  · refine .inr ⟨heq, String.not_le.1 fun hge => hne ?_⟩
    exact Opcode.name_injective (String.le_antisymm hle hge)

/-- In whatever order the entries of a table come, they are put into the same order. -/
theorem mergeSort_eq_of_perm {table' : List (Opcode × Nat)} (h : table'.Perm table) :
    table'.mergeSort precedes = table.mergeSort precedes := by
  have hperm : (table'.mergeSort precedes).Perm (table.mergeSort precedes) :=
    (List.mergeSort_perm table' precedes).trans (h.trans (List.mergeSort_perm table precedes).symm)
  exact hperm.eq_of_pairwise (fun _ _ _ _ => precedes_antisymm)
    (List.pairwise_mergeSort precedes_trans precedes_total table')
    (List.pairwise_mergeSort precedes_trans precedes_total table)

end Profiler

/-! ### Profiles -/

/-- A profile sums up steps: it has an entry for each operation among them, with the number of its
occurrences, in order; it says how many operations were carried out, templates entered and warnings
given; and it says what the largest depths were, or zero if there were none. -/
structure Profile.Sums (p : Profile) (events : List Event) : Prop where
  opcodes : Profiler.Counts (events.filterMap Event.op?) p.opcodes
  order : Profiler.IsInOrder p.opcodes
  instructions : p.instructions = (events.filterMap Event.op?).length
  templates : p.templates = (events.filterMap Event.entered?).length
  warnings : p.warnings = (events.filterMap Event.caution?).length
  depth : p.depth = (events.filterMap Event.entered?).max?.getD 0
  loopDepth : p.loopDepth = (events.filterMap Event.pushed?).max?.getD 0

theorem Profiler.counts_watch (events : List Event) :
    Counts (events.filterMap Event.op?) (({} : Profiler).watch events).opcodes := by
  rw [watch_eq]
  have hnone : Counts [] [] := ⟨List.nodup_nil, by simp⟩
  exact hnone.foldl_tally _

theorem Profile.sums_ofEvents (events : List Event) : (ofEvents events).Sums events := by
  have hcounts := Profiler.counts_watch events
  have hwatch := Profiler.watch_eq {} events
  refine ⟨hcounts.perm (List.mergeSort_perm _ _), Profiler.isInOrder_mergeSort hcounts.nodup,
    ?_, ?_, ?_, ?_, ?_⟩
  all_goals
    simp only [ofEvents, Profiler.profile, hwatch, Nat.zero_add, List.foldl_max, Nat.zero_max]

/-- What all observers come to when they see the same steps. A recorder without a limit has kept all
of them, and one with a limit the first ones; a profile sums them up, and its entries are in the one
order that there is for them, in whatever order they were counted. -/
theorem Profile.observers_agree (events : List Event) :
    (({} : Recorder).watch events).events.toList = events ∧
    (∀ n, (({ limit := some n } : Recorder).watch events).events.toList = events.take n) ∧
    (ofEvents events).Sums events ∧
    ∀ table : List (Opcode × Nat), table.Perm (({} : Profiler).watch events).opcodes →
      table.mergeSort Profiler.precedes = (ofEvents events).opcodes := by
  refine ⟨Recorder.events_watch rfl events, fun n => ?_, sums_ofEvents events,
    fun table hperm => ?_⟩
  · exact Recorder.events_watch_limit rfl (Nat.zero_le n) events
  · exact Profiler.mergeSort_eq_of_perm hperm

end Stencil
