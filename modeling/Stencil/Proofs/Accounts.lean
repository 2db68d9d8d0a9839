import Mathlib.Order.Bounds.Basic
import Stencil.Proofs.Assembling

/-!
# The accounts of an assembly

Whatever an assembly is asked for, what it has handed out stays good. The runs of registers lie side
by side, every instruction keeps its number, its line and all of its operands but the target of a
jump, and what is refused leaves no trace.

* `Request.instruction?`, `Request.target?`, `Request.lines`, `Request.openLoops`: what requests ask
  for;
* `Tiles`: runs of registers without gap and overlap;
* `Assembly.Conduct`: what one request does and what it leaves alone;
* `Assembly.Accounts`: an assembly and the record of the requests;
* `Assembly.serveAll_accounts`: both hold for all requests in any order.
-/

namespace Stencil

/-! ### What requests ask for -/

namespace Instruction

/-- The operand for the target of a jump. -/
def aim (i : Instruction) : UInt32 := if i.op.isTargetFirst then i.a else i.b

/-- All of an instruction but the target of a jump. -/
def fixed (i : Instruction) : Opcode × UInt32 := (i.op, if i.op.isTargetFirst then i.b else i.a)

@[simp] theorem fixed_withTarget (i : Instruction) (x : UInt32) :
    (Assembly.withTarget i x).fixed = i.fixed := by
  unfold Assembly.withTarget
  split
  · next h => rw [fixed, fixed, if_pos h, if_pos h]
  · next h => rw [fixed, fixed, if_neg h, if_neg h]

@[simp] theorem aim_withTarget (i : Instruction) (x : UInt32) :
    (Assembly.withTarget i x).aim = x := by
  unfold Assembly.withTarget
  split
  · next h => exact if_pos h
  · next h => exact if_neg h

end Instruction

namespace Request

/-- The instruction that a request adds. -/
def instruction? : Request → Option Instruction
  | emit op x y => some ⟨op, x, y⟩
  | emitJump op register => some ⟨op, if op.isTargetFirst then 0 else register, 0⟩
  | _ => none

/-- The instructions that requests add. -/
def instructions (requests : List Request) : List Instruction := requests.filterMap instruction?

theorem instructions_cons (r : Request) (rest : List Request) :
    instructions (r :: rest) = r.instruction?.toList ++ instructions rest := by
  rw [instructions, List.filterMap_cons]
  cases r.instruction? <;> rfl

/-- The number of the jump that a request points at a target. -/
def label? : Request → Option Nat
  | pointTo label _ | pointHere label => some label
  | _ => none

/-- The target that a request points a jump at, where the next instruction is number `next`. -/
def target? (next : Nat) : Request → Option Nat
  | pointTo _ target => some target
  | pointHere _ => some next
  | _ => none

/-- The line of the instructions to come after a request. -/
def lineAfter (line : UInt32) : Request → UInt32
  | setLine line => line
  | _ => line

/-- For each instruction that is added the line that was set last. -/
def lines (line : UInt32) : List Request → List UInt32
  | [] => []
  | r :: rest => (r.instruction?.map fun _ => line).toList ++ lines (r.lineAfter line) rest

/-- The number of open loops after a request. -/
def loopsAfter (n : Nat) : Request → Nat
  | enterLoop => n + 1
  | exitLoop => n - 1
  | _ => n

/-- The number of open loops after requests. -/
def openLoops (n : Nat) (requests : List Request) : Nat := requests.foldl loopsAfter n

/-- The first register and the length of the run that a request is granted. -/
def run? : Request × Answer → Option (Nat × Nat)
  | (reserve count, .ok (some first)) => some (first, max count 1)
  | _ => none

end Request

/-- Runs of registers, each with its first register and its length, lie side by side from `start` up
to `stop`. -/
def Tiles : Nat → List (Nat × Nat) → Nat → Prop
  | start, [], stop => start = stop
  | start, (first, count) :: rest, stop => first = start ∧ Tiles (start + count) rest stop

namespace Assembly

/-- The assembly `t` has the instruction `label` of `s` with another target, and is equal to `s`
beyond that. -/
structure Repoints (s : Assembly) (label target : Nat) (t : Assembly) : Prop where
  own : ∀ i, s.instructions[label]? = some i →
    ∃ j, t.instructions[label]? = some j ∧ j.fixed = i.fixed ∧ j.aim.toNat = target
  others : ∀ n, n ≠ label → t.instructions[n]? = s.instructions[n]?
  rest : t = { s with instructions := t.instructions }

/-- What a request does, and what it leaves alone. -/
structure Conduct (s : Assembly) (r : Request) (answer : Answer) (t : Assembly) : Prop where
  refused : ∀ e, answer = .error e ↔ ∃ what, e = .tooLarge what ∧ s.AsksTooMuch r what
  unchanged : ∀ e, answer = .error e → t = s
  repoints : ∀ label target, r.label? = some label → r.target? s.instructions.size = some target →
    ∀ x, answer = .ok x → s.Repoints label target t
  appends : r.label? = none →
    t.instructions.toList = s.instructions.toList ++ r.instruction?.toList

/-- An assembly that was empty before the requests, and the record of them. -/
structure Accounts (s : Assembly) (requests : List Request) (log : List (Request × Answer)) :
    Prop where
  asked : log.map Prod.fst = requests
  /-- The runs of registers that were handed out lie side by side. -/
  tiles : Tiles 0 (log.filterMap Request.run?) s.registers
  registers : s.registers < operandLimit
  /-- The instructions stay in order, and only targets of jumps change. -/
  instructions : s.instructions.toList.map Instruction.fixed =
    (Request.instructions requests).map Instruction.fixed
  lines : s.lines.toList = Request.lines 0 requests
  size : s.lines.size = s.instructions.size
  /-- An instruction is known by its number, and stays as it is if nothing points it elsewhere. -/
  emitted : ∀ before r answer after i, log = before ++ (r, answer) :: after →
    r.instruction? = some i → ∃ n, answer = .ok (some n) ∧
      n = (Request.instructions (before.map Prod.fst)).length ∧
      ((∀ q ∈ after, q.1.label? ≠ some n) → s.instructions[n]? = some i)
  /-- A jump leads where it was pointed at last. -/
  aimed : ∀ before r x after n target, log = before ++ (r, .ok x) :: after → r.label? = some n →
    r.target? (Request.instructions (before.map Prod.fst)).length = some target →
    n < (Request.instructions (before.map Prod.fst)).length →
    (∀ q ∈ after, q.1.label? ≠ some n) → ∃ i, s.instructions[n]? = some i ∧ i.aim.toNat = target
  /-- The count of loops is the largest number that were open at any moment. -/
  depth : IsGreatest {n | ∃ part, part <+: requests ∧ Request.openLoops 0 part = n} s.maxDepth

/-! ### One request -/

variable {s t u : Assembly} {r : Request} {answer : Answer}

theorem AsksTooMuch.unique {what what' : Extent} (h : s.AsksTooMuch r what)
    (h' : s.AsksTooMuch r what') : what = what' := by
  cases h <;> cases h' <;> rfl

/-- What is refused was not to add an instruction. -/
theorem AsksTooMuch.instruction? {what : Extent} (h : s.AsksTooMuch r what) :
    r.instruction? = none := by
  cases h <;> rfl

theorem getElem?_pointed_of_ne {label n : Nat} (s : Assembly) (x : UInt32) (h : n ≠ label) :
    (s.pointed label x).instructions[n]? = s.instructions[n]? := by
  rw [pointed, Array.getElem?_modify, if_neg (Ne.symm h)]

theorem getElem?_pointed {label : Nat} (s : Assembly) (x : UInt32) :
    (s.pointed label x).instructions[label]? = s.instructions[label]?.map (withTarget · x) := by
  rw [pointed, Array.getElem?_modify, if_pos rfl]

theorem repoints_pointed (s : Assembly) (label : Nat) (x : UInt32) :
    s.Repoints label x.toNat (s.pointed label x) where
  own i hi := by
    refine ⟨withTarget i x, ?_, i.fixed_withTarget x, by rw [Instruction.aim_withTarget]⟩
    rw [getElem?_pointed, hi]
    rfl
  others n h := s.getElem?_pointed_of_ne x h
  rest := rfl

theorem Serves.conduct (h : s.Serves r (answer, t)) : s.Conduct r answer t where
  refused e := by
    cases h with
    | granted h =>
      refine ⟨nofun, ?_⟩
      rintro ⟨what, -, hmuch⟩
      exact absurd h (hmuch.not_grants _)
    | refused h =>
      constructor
      · rintro ⟨⟩
        exact ⟨_, rfl, h⟩
      · rintro ⟨what, rfl, hmuch⟩
        rw [h.unique hmuch]
  unchanged e he := by
    cases h with
    | granted h => cases he
    | refused h => rfl
  repoints label target hlabel htarget x hx := by
    cases h with
    | refused h => cases hx
    | granted h =>
      cases h with
      | pointTo label' x' =>
        cases hlabel
        cases htarget
        exact s.repoints_pointed label x'
      | @pointHere label' x' hsize =>
        cases hlabel
        cases htarget
        rw [← hsize]
        exact s.repoints_pointed label x'
      | _ => cases hlabel
  appends hlabel := by
    cases h with
    | refused h => rw [h.instruction?, Option.toList_none, List.append_nil]
    | granted h =>
      cases h with
      | pointTo | pointHere => cases hlabel
      | emit op x y => exact Array.toList_push
      | emitJump op register => exact Array.toList_push
      | _ => exact (List.append_nil _).symm

theorem Serves.lines (h : s.Serves r (answer, t)) :
    t.lines.toList = s.lines.toList ++ (r.instruction?.map fun _ => s.line).toList := by
  cases h with
  | refused h => rw [h.instruction?, Option.map_none, Option.toList_none, List.append_nil]
  | granted h =>
    cases h with
    | emit op x y => exact Array.toList_push
    | emitJump op register => exact Array.toList_push
    | _ => exact (List.append_nil _).symm

theorem Serves.line (h : s.Serves r (answer, t)) : t.line = r.lineAfter s.line := by
  cases h with
  | refused h => cases h <;> rfl
  | granted h => cases h <;> rfl

theorem fixed_pointed (s : Assembly) (label : Nat) (x : UInt32) :
    (s.pointed label x).instructions.map Instruction.fixed =
      s.instructions.map Instruction.fixed := by
  refine Array.ext_getElem? fun n => ?_
  rw [Array.getElem?_map, Array.getElem?_map]
  rcases eq_or_ne n label with rfl | hne
  · rw [getElem?_pointed, Option.map_map]
    exact congrArg (s.instructions[n]?.map ·) (funext fun i => i.fixed_withTarget x)
  · rw [s.getElem?_pointed_of_ne x hne]

/-- No request moves an instruction, and patches leave all but the target. -/
theorem Serves.instructions (h : s.Serves r (answer, t)) :
    t.instructions.toList.map Instruction.fixed =
      (s.instructions.toList ++ r.instruction?.toList).map Instruction.fixed := by
  cases hlabel : r.label? with
  | none => rw [h.conduct.appends hlabel]
  | some label =>
    have hnone : r.instruction? = none := by cases r <;> first | rfl | cases hlabel
    rw [hnone, Option.toList_none, List.append_nil]
    cases h with
    | refused h => rfl
    | granted h =>
      cases h with
      | pointTo label x | pointHere label =>
        rw [← Array.toList_map, fixed_pointed, Array.toList_map]
      | _ => cases hlabel

/-- An instruction that a request does not point elsewhere stays. -/
theorem Serves.getElem? {n : Nat} {i : Instruction} (h : s.Serves r (answer, t))
    (hi : s.instructions[n]? = some i) (hn : r.label? ≠ some n) : t.instructions[n]? = some i := by
  cases hlabel : r.label? with
  | none =>
    obtain ⟨hlt, -⟩ := Array.getElem?_eq_some_iff.1 hi
    rw [← Array.getElem?_toList, h.conduct.appends hlabel, List.getElem?_append_left hlt,
      Array.getElem?_toList, hi]
  | some label =>
    cases h with
    | refused h => exact hi
    | granted h =>
      cases h with
      | pointTo label x | pointHere label =>
        rw [s.getElem?_pointed_of_ne _ fun heq => hn (congrArg some heq.symm), hi]
      | _ => cases hlabel

theorem Serves.tiles (h : s.Serves r (answer, t)) :
    Tiles s.registers (Request.run? (r, answer)).toList t.registers := by
  cases h with
  | refused h => cases h <;> rfl
  | granted h =>
    cases h with
    | reserve h => exact ⟨rfl, rfl⟩
    | _ => rfl

theorem Serves.registers (h : s.Serves r (answer, t)) (hs : s.registers < operandLimit) :
    t.registers < operandLimit := by
  cases h with
  | refused h => exact hs
  | granted h =>
    cases h with
    | reserve h => exact h
    | _ => exact hs

theorem Serves.depth (h : s.Serves r (answer, t)) : t.depth = r.loopsAfter s.depth := by
  cases h with
  | refused h => cases h <;> rfl
  | granted h => cases h <;> rfl

theorem Serves.maxDepth (h : s.Serves r (answer, t)) (hs : s.depth ≤ s.maxDepth) :
    t.maxDepth = max s.maxDepth t.depth := by
  cases h with
  | refused h => exact (Nat.max_eq_left hs).symm
  | granted h =>
    cases h with
    | enterLoop => rfl
    | exitLoop => exact (Nat.max_eq_left ((Nat.sub_le _ _).trans hs)).symm
    | _ => exact (Nat.max_eq_left hs).symm

/-! ### Requests in order -/

variable {log : List (Request × Answer)}

theorem Record.lines (h : Record s log u) :
    u.lines.toList = s.lines.toList ++ Request.lines s.line (log.map Prod.fst) := by
  induction h with
  | nil s => exact (List.append_nil _).symm
  | cons hserves _ ih => rw [ih, hserves.lines, hserves.line, List.append_assoc]; rfl

theorem Record.instructions (h : Record s log u) :
    u.instructions.toList.map Instruction.fixed =
      (s.instructions.toList ++ Request.instructions (log.map Prod.fst)).map Instruction.fixed := by
  induction h with
  | nil s => exact congrArg _ (List.append_nil _).symm
  | cons hserves _ ih =>
    rw [ih, List.map_append, hserves.instructions, ← List.map_append, List.append_assoc,
      List.map_cons, Request.instructions_cons]

theorem Record.getElem? {n : Nat} {i : Instruction} (h : Record s log u)
    (hi : s.instructions[n]? = some i) (hn : ∀ q ∈ log, q.1.label? ≠ some n) :
    u.instructions[n]? = some i := by
  induction h with
  | nil s => exact hi
  | cons hserves _ ih =>
    exact ih (hserves.getElem? hi (hn _ List.mem_cons_self))
      fun q hq => hn q (List.mem_cons_of_mem _ hq)

theorem Record.tiles (h : Record s log u) :
    Tiles s.registers (log.filterMap Request.run?) u.registers := by
  induction h with
  | nil s => rfl
  | @cons s t u r answer log hserves _ ih =>
    have hrun := hserves.tiles
    cases h : Request.run? (r, answer) with
    | none =>
      rw [h] at hrun
      rw [List.filterMap_cons_none h, (hrun : s.registers = t.registers)]
      exact ih
    | some run =>
      rw [h] at hrun
      obtain ⟨hfirst, hstop⟩ := hrun
      rw [List.filterMap_cons_some h]
      exact ⟨hfirst, (hstop : _ = t.registers) ▸ ih⟩

theorem Record.registers (h : Record s log u) (hs : s.registers < operandLimit) :
    u.registers < operandLimit := by
  induction h with
  | nil s => exact hs
  | cons hserves _ ih => exact ih (hserves.registers hs)

/-- The count of loops is at least the number that are open at any moment. -/
theorem Record.le_maxDepth (h : Record s log u) (hs : s.depth ≤ s.maxDepth) :
    s.maxDepth ≤ u.maxDepth ∧
      ∀ part, part <+: log.map Prod.fst → Request.openLoops s.depth part ≤ u.maxDepth := by
  induction h with
  | nil s =>
    refine ⟨le_rfl, fun part hpart => ?_⟩
    rw [List.prefix_nil.1 hpart]
    exact hs
  | @cons s t u r answer log hserves _ ih =>
    have hmax := hserves.maxDepth hs
    obtain ⟨hle, hall⟩ := ih (hmax ▸ Nat.le_max_right _ _)
    have hst : s.maxDepth ≤ t.maxDepth := hmax ▸ Nat.le_max_left _ _
    have hsu := hst.trans hle
    refine ⟨hsu, fun part hpart => ?_⟩
    obtain rfl | ⟨rest, rfl, hrest⟩ := List.prefix_cons_iff.1 hpart
    · exact hs.trans hsu
    · have hopen := hall rest hrest
      rwa [hserves.depth] at hopen

/-- The count of loops is the number that were open at some moment, if it has grown. -/
theorem Record.exists_maxDepth (h : Record s log u) (hs : s.depth ≤ s.maxDepth) :
    u.maxDepth = s.maxDepth ∨
      ∃ part, part <+: log.map Prod.fst ∧ Request.openLoops s.depth part = u.maxDepth := by
  induction h with
  | nil s => exact .inl rfl
  | @cons s t u r answer log hserves _ ih =>
    have hmax := hserves.maxDepth hs
    obtain h | ⟨part, hpart, hopen⟩ := ih (hmax ▸ Nat.le_max_right _ _)
    · rw [hmax] at h
      rcases Nat.le_total t.depth s.maxDepth with hle | hle
      · exact .inl (by rw [h, Nat.max_eq_left hle])
      · refine .inr ⟨[r], ?_, ?_⟩
        · exact List.prefix_cons_iff.2 (.inr ⟨[], rfl, List.nil_prefix⟩)
        · rw [h, Nat.max_eq_right hle, hserves.depth]
          rfl
    · refine .inr ⟨r :: part, List.cons_prefix_cons.2 ⟨rfl, hpart⟩, ?_⟩
      rw [← hopen, hserves.depth]
      rfl

theorem Record.size (h : Record {} log u) :
    u.instructions.size = (Request.instructions (log.map Prod.fst)).length := by
  have hlength := congrArg List.length h.instructions
  rwa [List.length_map, List.length_map, Array.length_toList] at hlength

/-- What an instruction is known by, and what becomes of it. -/
theorem Record.emitted {before after : List (Request × Answer)} {i : Instruction}
    (h : Record {} (before ++ (r, answer) :: after) u) (hi : r.instruction? = some i) :
    ∃ n, answer = .ok (some n) ∧
      n = (Request.instructions (before.map Prod.fst)).length ∧
      ((∀ q ∈ after, q.1.label? ≠ some n) → u.instructions[n]? = some i) := by
  obtain ⟨t, v, hbefore, hserves, hafter⟩ := h.cut
  refine ⟨t.instructions.size, ?_, hbefore.size, fun hn => hafter.getElem? ?_ hn⟩
  · cases hserves with
    | refused hmuch => exact nomatch hi.symm.trans hmuch.instruction?
    | granted hgrants => cases hgrants <;> first | rfl | cases hi
  · have hlabel : r.label? = none := by cases r <;> first | rfl | cases hi
    rw [← Array.getElem?_toList, hserves.conduct.appends hlabel, hi, ← Array.length_toList]
    exact List.getElem?_concat_length

/-- The target of a jump is the last one that was asked for. -/
theorem Record.aimed {before after : List (Request × Answer)} {n target : Nat} {x : Option Nat}
    (h : Record {} (before ++ (r, .ok x) :: after) u) (hlabel : r.label? = some n)
    (htarget : r.target? (Request.instructions (before.map Prod.fst)).length = some target)
    (hn : n < (Request.instructions (before.map Prod.fst)).length)
    (hlast : ∀ q ∈ after, q.1.label? ≠ some n) :
    ∃ i, u.instructions[n]? = some i ∧ i.aim.toNat = target := by
  obtain ⟨t, v, hbefore, hserves, hafter⟩ := h.cut
  rw [← hbefore.size] at htarget hn
  obtain ⟨j, hj, -, haim⟩ :=
    (hserves.conduct.repoints n target hlabel htarget x rfl).own _ (Array.getElem?_eq_getElem hn)
  exact ⟨j, hafter.getElem? hj hlast, haim⟩

theorem length_lines (line : UInt32) (requests : List Request) :
    (Request.lines line requests).length = (Request.instructions requests).length := by
  induction requests generalizing line with
  | nil => rfl
  | cons r rest ih =>
    rw [Request.lines, Request.instructions_cons, List.length_append, List.length_append, ih]
    cases r.instruction? <;> rfl

theorem Record.accounts (h : Record {} log u) : u.Accounts (log.map Prod.fst) log where
  asked := rfl
  tiles := h.tiles
  registers := h.registers (by decide)
  instructions := h.instructions
  lines := h.lines
  size := by
    rw [h.size, ← length_lines 0, ← Array.length_toList, h.lines]
    rfl
  emitted before r answer after i hlog hi := by
    subst hlog
    exact h.emitted hi
  aimed before r x after n target hlog hlabel htarget hn hlast := by
    subst hlog
    exact h.aimed hlabel htarget hn hlast
  depth := by
    refine ⟨?_, ?_⟩
    · obtain hzero | hopen := h.exists_maxDepth le_rfl
      · exact ⟨[], List.nil_prefix, hzero.symm⟩
      · exact hopen
    · rintro _ ⟨part, hpart, rfl⟩
      exact (h.le_maxDepth le_rfl).2 part hpart

/-- Every assembly that starts empty accounts for all requests, and so does the program that it is
built into. The next request does what it is for and nothing else, or fails without a trace. -/
theorem serveAll_accounts (requests : List Request) (source : Source) :
    ∃ log s, serveAll {} requests = (log, s) ∧ s.Accounts requests log ∧
      (s.build source).registerCount.toNat = s.registers ∧
      (s.maxDepth < UInt64.size → (s.build source).loopDepth.toNat = s.maxDepth) ∧
      ∀ r, s.Conduct r (s.serve r).1 (s.serve r).2 := by
  have haccounts := (record {} requests).accounts
  rw [map_fst_serveAll] at haccounts
  refine ⟨_, _, rfl, haccounts, ?_, ?_, fun r => (serves _ r).conduct⟩
  · exact Nat.mod_eq_of_lt (haccounts.registers.trans (by decide))
  · exact fun h => Nat.mod_eq_of_lt h

end Assembly

end Stencil
