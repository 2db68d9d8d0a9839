import Stencil.Proofs.Accounts
import Stencil.Proofs.Steps
import Stencil.Proofs.Validity
import Stencil.Proofs.Ways

/-!
# What the pass of a node keeps to

The pass of a node leaves everything alone that was there before it. Its code writes registers that
are new, or the destination, and reads these and the variables of loops around it; its jumps stay
inside its code, but for those that wait for the end of a loop around it.

* `Opcode.Writes`: the register that an instruction writes, and `Frame.action_writes`: it is the
  only one;
* `Compiler.Disciplined`: what the pass of a node keeps to;
* `Compiler.Works`: the same half way, with registers at hand and jumps that are still open;
* `Compiler.IsDisciplined`: every run of a pass that succeeds is disciplined;
* `Compiler.Works.child`, `Compiler.Works.inLoop`, …: the steps of a pass, and the passes of parts.
-/

namespace Stencil

/-! ### Registers and targets of instructions -/

/-- An instruction with the operand `a` writes register `r`. -/
def Opcode.Writes (op : Opcode) (a r : Nat) : Prop :=
  match op with
  | setVar | appendText | append | jump | jumpIfFalse | jumpIfTrue | loopPop | wrap
  | finish => False
  | _ => r = a

/-- The register that an action writes. -/
def Action.register? : Action → Option Nat
  | store _ r _ | enter r _ _ | next r _ _ _ | call r _ _ _ | inclusion r _ | inclusionWith r _ _ =>
    some r
  | write _ | append _ | assign _ _ | skip | goto _ | exhaust _ | leave | wrap _ _ _
  | finish => none

namespace Frame

variable {f : Frame} {a : Nat}

/-- The action, if there is one, writes no register but `a`. -/
def StoresIn (a : Nat) (x : Except Fault Action) : Prop :=
  Promises (fun action => ∀ r ∈ action.register?, r = a) x

/-- An action that writes no register. -/
theorem writes_none {action : Action} (h : action.register? = none) {P : Nat → Prop} :
    ∀ r ∈ action.register?, P r := by
  rw [h]
  simp

theorem storesIn_store (v : Value) : StoresIn a (f.store a v) := by
  unfold store
  split
  · exact .ok fun r hr => (Option.some.inj hr).symm
  · exact .error _

theorem storesIn_nextItem (target : Nat) : StoresIn a (f.nextItem a target) := by
  unfold nextItem
  split
  · exact .error _
  · exact .ok (writes_none rfl)
  · split
    · exact .ok fun r hr => (Option.some.inj hr).symm
    · exact .error _

theorem storesIn_enterLoop (hosts : HostTypes) (target : Nat) :
    StoresIn a (f.enterLoop hosts a target) := by
  refine .bind fun v => ?_
  split
  · exact .ok (writes_none rfl)
  · exact .ok fun r hr => (Option.some.inj hr).symm
  · exact .error _

theorem storesIn_callFunction (functions : Functions) (count : Nat) :
    StoresIn a (f.callFunction functions a count) := by
  refine .bind fun v => ?_
  split
  · split
    · exact .ok fun r hr => (Option.some.inj hr).symm
    · exact .bind fun args => .ok fun r hr => (Option.some.inj hr).symm
  · exact .error _

theorem storesIn_callMethod (hosts : HostTypes) (count : Nat) :
    StoresIn a (f.callMethod hosts a count) := by
  refine .bind fun target => .bind fun v => ?_
  split
  · refine .bind fun args => ?_
    split
    · exact .ok fun r hr => (Option.some.inj hr).symm
    · exact .error _
  · exact .error _

theorem storesIn_fillFormat (count : Nat) : StoresIn a (f.fillFormat a count) := by
  refine .bind fun template => ?_
  split
  · exact .error _
  · refine .bind fun args => ?_
    split
    · exact .ok fun r hr => (Option.some.inj hr).symm
    · exact .error _

theorem storesIn_textAction (op : Opcode) : StoresIn a (f.textAction op a) := by
  refine .bind fun v => ?_
  split
  · exact .ok (writes_none rfl)
  · exact .ok fun r hr => (Option.some.inj hr).symm

/-- The action of an instruction writes no register but the one that the instruction writes. -/
theorem action_writes {hosts : HostTypes} {functions : Functions} {vars : Vars} {i : Instruction} :
    Promises (fun action => ∀ r ∈ action.register?, i.op.Writes i.a.toNat r)
      (f.action hosts functions vars i) := by
  obtain ⟨op, a, b⟩ := i
  cases op
  case loadConst | loadVar | move | array | map | markOutput =>
    exact .bind fun _ => storesIn_store _
  case loadInt | loadTrue | loadFalse | loadNull => exact storesIn_store _
  case loopCount | loopIndex | loopHasNext =>
    simp only [action]
    split
    · exact .error _
    · exact .bind fun _ => storesIn_store _
  case add | subtract | multiply | divide | modulo | equals | notEquals | test | gt | ge | lt | le
      | not | range =>
    exact .bind fun _ => .ok fun r hr => (Option.some.inj hr).symm
  case concat => exact .bind fun _ => .bind fun _ => .ok fun r hr => (Option.some.inj hr).symm
  case member =>
    exact .bind fun _ => .bind fun _ => .bind fun _ => .ok fun r hr => (Option.some.inj hr).symm
  case setVar | wrap => exact .bind fun _ => .bind fun _ => .ok (writes_none rfl)
  case appendText | append => exact .bind fun _ => .ok (writes_none rfl)
  case jump | finish => exact .ok (writes_none rfl)
  case jumpIfFalse | jumpIfTrue =>
    refine .bind fun v => ?_
    split <;> exact .ok (writes_none rfl)
  case iterStart => exact storesIn_enterLoop hosts _
  case iterNext => exact storesIn_nextItem _
  case loopPop =>
    simp only [action]
    split
    · exact .error _
    · exact .ok (writes_none rfl)
  case inclusion | inclusionWith => exact .bind fun _ => .ok fun r hr => (Option.some.inj hr).symm
  case call => exact storesIn_callFunction functions _
  case method => exact storesIn_callMethod hosts _
  case lower | upper | form => exact storesIn_textAction _
  case format => exact storesIn_fillFormat _

end Frame

/-- An instruction that may lead to another one besides the next one is a jump. -/
def Opcode.IsJump (op : Opcode) : Prop := op.kinds.1 = .target ∨ op.kinds.2 = .target

instance (op : Opcode) : Decidable op.IsJump := inferInstanceAs (Decidable (_ ∨ _))

theorem Opcode.Writes.eq {op : Opcode} {a r : Nat} (h : op.Writes a r) : r = a := by
  cases op <;> first | exact h | exact h.elim

theorem Opcode.IsJump.eq_of_reads {op : Opcode} {a b r : Nat} (h : op.IsJump)
    (hr : op.Reads a b r) : r = a := by
  cases op <;> first | exact hr | exact hr.elim | exact absurd h (by decide)

namespace Instruction

variable {i : Instruction} {x : UInt32} {r : Nat}

theorem target?_eq_none (h : ¬i.op.IsJump) : i.target? = none := by
  obtain ⟨op, a, b⟩ := i
  replace h : ¬op.IsJump := h
  cases op <;> first | rfl | exact absurd (by decide) h

@[simp] theorem op_withTarget : (Assembly.withTarget i x).op = i.op := by
  unfold Assembly.withTarget
  split <;> rfl

theorem target?_withTarget (h : i.op.IsJump) :
    (Assembly.withTarget i x).target? = some x.toNat := by
  obtain ⟨op, a, b⟩ := i
  replace h : op.IsJump := h
  cases op <;> first | rfl | exact absurd h (by decide)

theorem writes_withTarget :
    i.op.Writes (Assembly.withTarget i x).a.toNat r ↔ i.op.Writes i.a.toNat r := by
  obtain ⟨op, a, b⟩ := i
  cases op <;> rfl

theorem reads_withTarget (h : i.op.IsJump) :
    i.op.Reads (Assembly.withTarget i x).a.toNat (Assembly.withTarget i x).b.toNat r ↔
      i.op.Reads i.a.toNat i.b.toNat r := by
  obtain ⟨op, a, b⟩ := i
  replace h : op.IsJump := h
  cases op <;> first | exact Iff.rfl | exact absurd h (by decide)

end Instruction

/-! ### Pending jumps -/

namespace Pending

/-- The labels of pending jumps. -/
def labels (p : Pending) : List Nat := p.next ++ p.last

/-- Open loops with more pending jumps in the innermost one. -/
def addTo (p : Pending) : List Pending → List Pending
  | [] => []
  | q :: outer => (q ++ p) :: outer

variable {p q : Pending}

@[simp] theorem append_empty : p ++ ({} : Pending) = p := by
  change Pending.mk (p.last ++ []) (p.next ++ []) = p
  rw [List.append_nil, List.append_nil]

@[simp] theorem empty_append : ({} : Pending) ++ p = p := rfl

theorem mem_labels_append {l : Nat} : l ∈ (p ++ q).labels ↔ l ∈ p.labels ∨ l ∈ q.labels := by
  change l ∈ (p.next ++ q.next) ++ (p.last ++ q.last) ↔ _
  simp only [labels, List.mem_append]
  tauto

theorem addTo_empty (loops : List Pending) : addTo {} loops = loops := by
  cases loops with
  | nil => rfl
  | cons r outer => rw [addTo, append_empty]

theorem addTo_addTo (loops : List Pending) : q.addTo (p.addTo loops) = (p ++ q).addTo loops := by
  cases loops with
  | nil => rfl
  | cons r outer =>
    refine congrArg (· :: outer) ?_
    change Pending.mk (r.last ++ p.last ++ q.last) (r.next ++ p.next ++ q.next) = _
    rw [List.append_assoc, List.append_assoc]
    rfl

end Pending

namespace Compiler

/-! ### Discipline -/

/-- The registers that code made from `c` to `c'` may use for itself: the destination, and those
that have been reserved meanwhile. -/
def Owns (c : Compiler) (dest : Option UInt32) (c' : Compiler) (r : Nat) : Prop :=
  r ∈ dest.map UInt32.toNat ∨ c.registers ≤ r ∧ r < c'.registers

/-- All that was there before is there still, and the code that was added uses no registers but its
own and those of variables of loops, which it only reads. -/
structure Keeps (c : Compiler) (dest : Option UInt32) (c' : Compiler) : Prop where
  instructions : ∀ {n : Nat} {i : Instruction},
    c.instructions[n]? = some i → c'.instructions[n]? = some i
  lines : ∀ {n : Nat} {line : UInt32}, c.lines[n]? = some line → c'.lines[n]? = some line
  pool : ∀ {n : Nat} {k : Constant}, c.pool[n]? = some k → c'.pool[n]? = some k
  registers : c.registers ≤ c'.registers
  writes : ∀ {n : Nat} {i : Instruction}, c.instructions.size ≤ n → c'.instructions[n]? = some i →
    ∀ r, i.op.Writes i.a.toNat r → c.Owns dest c' r
  reads : ∀ {n : Nat} {i : Instruction}, c.instructions.size ≤ n → c'.instructions[n]? = some i →
    ∀ r, i.op.Reads i.a.toNat i.b.toNat r →
      c.Owns dest c' r ∨ ∃ name slot, c.scope.lookup name = some slot ∧ slot.toNat = r
  scope : c'.scope = c.scope

/-- What the pass of a node for a destination keeps to, where the jumps `p` stay pending. -/
structure Disciplined (c : Compiler) (dest : Option UInt32) (p : Pending) (c' : Compiler) : Prop
    extends c.Keeps dest c' where
  /-- The loops that are open are the same, with the pending jumps added to the innermost one. -/
  loops : c'.loops = p.addTo c.loops
  outside : c.loops = [] → p = {}
  depth : c'.depth = c.depth
  /-- The pending jumps are in the code that was added. -/
  pending : ∀ l ∈ p.labels, c.instructions.size ≤ l ∧
    ∃ i, c'.instructions[l]? = some i ∧ i.op.IsJump
  /-- All other jumps in the code that was added stay there, or go to its end. -/
  targets : ∀ {n : Nat} {i : Instruction}, c.instructions.size ≤ n → c'.instructions[n]? = some i →
    n ∉ p.labels → ∀ t ∈ i.target?, c.instructions.size ≤ t ∧ t ≤ c'.instructions.size

/-- Half way through the pass of a node: the registers `own` are at hand, the jumps `opened` have no
target yet, the jumps `p` stay pending, and `k` loops along a collection have not been left. -/
structure Works (s : Compiler) (dest : Option UInt32) (own : Set Nat) (opened : List Nat)
    (p : Pending) (k : Nat) (c : Compiler) : Prop extends s.Keeps dest c where
  own : ∀ r ∈ own, s.Owns dest c r
  loops : c.loops = p.addTo s.loops
  outside : s.loops = [] → p = {}
  depth : c.depth = s.depth + k
  labels : ∀ l ∈ opened ++ p.labels, s.instructions.size ≤ l ∧
    ∃ i, c.instructions[l]? = some i ∧ i.op.IsJump
  targets : ∀ {n : Nat} {i : Instruction}, s.instructions.size ≤ n → c.instructions[n]? = some i →
    n ∉ opened ++ p.labels → ∀ t ∈ i.target?, s.instructions.size ≤ t ∧ t ≤ c.instructions.size

/-- The pass of a node, or of something like it, keeps to the discipline. -/
def IsDisciplined (part : Part) : Prop :=
  ∀ ⦃dest : Option UInt32⦄ ⦃c c' : Compiler⦄ ⦃u : Unit⦄, Returns (part dest) c u c' →
    ∃ p, c.Disciplined dest p c'

variable {s c c' : Compiler} {dest d : Option UInt32} {own : Set Nat} {opened : List Nat}
  {p q : Pending} {k n : Nat} {u : Unit} {line x y : UInt32} {op : Opcode} {part : Part}

theorem size_le_of_getElem? {α : Type} {xs ys : Array α}
    (h : ∀ {n : Nat} {a : α}, xs[n]? = some a → ys[n]? = some a) : xs.size ≤ ys.size := by
  by_contra hlt
  have hsize : ys.size < xs.size := by omega
  have hlast := h (Array.getElem?_eq_getElem hsize)
  rw [Array.getElem?_eq_none (Nat.le_refl _)] at hlast
  cases hlast

theorem Keeps.size_le (h : s.Keeps dest c) : s.instructions.size ≤ c.instructions.size :=
  size_le_of_getElem? h.instructions

theorem Owns.mono {r : Nat} (h : s.Owns dest c r) (hle : c.registers ≤ c'.registers) :
    s.Owns dest c' r := h.imp_right fun hr => ⟨hr.1, Nat.lt_of_lt_of_le hr.2 hle⟩

namespace Works

/-- At the beginning the destination is at hand. -/
theorem start (s : Compiler) (dest : Option UInt32) :
    s.Works dest {r | r ∈ dest.map UInt32.toNat} [] {} 0 s where
  instructions h := h
  lines h := h
  pool h := h
  registers := Nat.le_refl _
  writes hn hi := by
    rw [Array.getElem?_eq_none hn] at hi
    cases hi
  reads hn hi := by
    rw [Array.getElem?_eq_none hn] at hi
    cases hi
  scope := rfl
  own r hr := .inl hr
  loops := (Pending.addTo_empty _).symm
  outside _ := rfl
  depth := rfl
  labels l hl := nomatch hl
  targets hn hi := by
    rw [Array.getElem?_eq_none hn] at hi
    cases hi

/-- At the end no jump is open any more. -/
theorem disciplined (h : s.Works dest own [] p 0 c) : s.Disciplined dest p c where
  toKeeps := h.toKeeps
  loops := h.loops
  outside := h.outside
  depth := h.depth
  pending := h.labels
  targets := h.targets

/-- One more instruction, on registers that are at hand or are those of variables. If it is a jump,
it is open. -/
theorem push (opened' : List Nat) (h : s.Works dest own opened p k c)
    (hwrites : ∀ r, op.Writes x.toNat r → r ∈ own)
    (hreads : ∀ r, op.Reads x.toNat y.toNat r →
      r ∈ own ∨ ∃ name slot, s.scope.lookup name = some slot ∧ slot.toNat = r)
    (hopened : ∀ l, l ∈ opened' ↔ l ∈ opened ∨ op.IsJump ∧ l = c.instructions.size) :
    s.Works dest own opened' p k (c.emitted line op x y) := by
  have hget {n : Nat} {i : Instruction} : (c.emitted line op x y).instructions[n]? = some i ↔
      n = c.instructions.size ∧ i = ⟨op, x, y⟩ ∨ c.instructions[n]? = some i := by
    change (c.instructions.push ⟨op, x, y⟩)[n]? = some i ↔ _
    rw [Array.getElem?_push]
    split
    · next hn =>
      rw [hn, Array.getElem?_eq_none (Nat.le_refl _)]
      simp [eq_comm]
    · next hn => simp [hn]
  have hsize : (c.emitted line op x y).instructions.size = c.instructions.size + 1 :=
    Array.size_push _
  exact {
    instructions := fun hi => hget.2 (.inr (h.instructions hi))
    lines := fun hl => by
      have hline := h.lines hl
      obtain ⟨hlt, -⟩ := Array.getElem?_eq_some_iff.1 hline
      rw [← hline]
      exact (Array.getElem?_push_lt hlt).trans (Array.getElem?_eq_getElem hlt).symm
    pool := h.pool
    registers := h.registers
    writes := fun hn hi r hr => by
      obtain ⟨-, rfl⟩ | hi := hget.1 hi
      · exact h.own r (hwrites r hr)
      · exact h.writes hn hi r hr
    reads := fun hn hi r hr => by
      obtain ⟨-, rfl⟩ | hi := hget.1 hi
      · exact (hreads r hr).imp_left (h.own r)
      · exact h.reads hn hi r hr
    scope := h.scope
    own := h.own
    loops := h.loops
    outside := h.outside
    depth := h.depth
    labels := fun l hl => by
      have hold : l ∈ opened ++ p.labels ∨ op.IsJump ∧ l = c.instructions.size := by
        rw [List.mem_append, hopened] at hl
        rw [List.mem_append]
        tauto
      obtain hl | ⟨hjump, rfl⟩ := hold
      · obtain ⟨hsl, i, hi, hjump⟩ := h.labels l hl
        exact ⟨hsl, i, hget.2 (.inr hi), hjump⟩
      · exact ⟨h.size_le, _, hget.2 (.inl ⟨rfl, rfl⟩), hjump⟩
    targets := fun hn hi hnot t ht => by
      rw [List.mem_append, hopened, not_or, not_or] at hnot
      obtain ⟨rfl, rfl⟩ | hi := hget.1 hi
      · rw [Instruction.target?_eq_none fun hjump => hnot.1.2 ⟨hjump, rfl⟩] at ht
        cases ht
      · have hold := h.targets hn hi (by simp only [List.mem_append]; tauto) t ht
        exact ⟨hold.1, hsize ▸ Nat.le_succ_of_le hold.2⟩ }

theorem emit (h : s.Works dest own opened p k c) (hr : Returns (emit line op x y) c u c')
    (hjump : ¬op.IsJump) (hwrites : ∀ r, op.Writes x.toNat r → r ∈ own)
    (hreads : ∀ r, op.Reads x.toNat y.toNat r → r ∈ own) : s.Works dest own opened p k c' := by
  obtain rfl := returns_emit.1 hr
  exact h.push _ hwrites (fun r hr => .inl (hreads r hr)) fun l =>
    ⟨.inl, fun hl => hl.resolve_right fun hj => hjump hj.1⟩

theorem emitJump {r : UInt32} {l : Nat} (h : s.Works dest own opened p k c)
    (hr : Returns (emitJump line op r) c l c') (hjump : op.IsJump)
    (hown : op = .jump ∨ r.toNat ∈ own) : s.Works dest own (l :: opened) p k c' := by
  obtain ⟨rfl, rfl⟩ := returns_emitJump.1 hr
  have hlabel : ∀ m, m ∈ c.instructions.size :: opened ↔
      m ∈ opened ∨ op.IsJump ∧ m = c.instructions.size := by
    intro m
    rw [List.mem_cons, or_comm, and_iff_right hjump]
  -- The unconditional jump has no register, and all others have one.
  rcases eq_or_ne op .jump with rfl | hop
  · exact h.push _ nofun nofun hlabel
  · have hfirst : ¬op.isTargetFirst = true := fun hfirst => hop (eq_of_beq hfirst)
    rw [if_neg hfirst]
    replace hown := hown.resolve_left hop
    exact h.push _ (fun q hq => hq.eq ▸ hown) (fun q hq => .inl (hjump.eq_of_reads hq ▸ hown))
      hlabel

theorem pointTo {l t : Nat} (h : s.Works dest own (l :: opened) p k c)
    (hr : Returns (doing (Assembly.pointTo l t)) c u c') (hs : s.instructions.size ≤ t)
    (hc : t ≤ c.instructions.size) : s.Works dest own opened p k c' := by
  obtain ⟨x, rfl, rfl⟩ := returns_pointTo.1 hr
  obtain ⟨hsl, i₀, hi₀, hjump⟩ := h.labels l (List.mem_append_left _ List.mem_cons_self)
  have hsize : (c.pointed l x).instructions.size = c.instructions.size := Array.size_modify ..
  -- Only the jump changes, and only its target.
  have hget {n : Nat} : (c.pointed l x).instructions[n]? =
      if n = l then some (Assembly.withTarget i₀ x) else c.instructions[n]? := by
    split
    · next hn =>
      rw [hn]
      exact (c.toAssembly.getElem?_pointed x).trans (congrArg _ hi₀)
    · next hn => exact c.toAssembly.getElem?_pointed_of_ne x hn
  exact {
    instructions := fun {n i} hi => by
      obtain ⟨hlt, -⟩ := Array.getElem?_eq_some_iff.1 hi
      rw [hget, if_neg (Nat.ne_of_lt (Nat.lt_of_lt_of_le hlt hsl))]
      exact h.instructions hi
    lines := h.lines
    pool := h.pool
    registers := h.registers
    writes := fun hn hi r hr => by
      rw [hget] at hi
      split at hi
      · cases hi
        rw [Instruction.op_withTarget, Instruction.writes_withTarget] at hr
        exact h.writes hsl hi₀ r hr
      · exact h.writes hn hi r hr
    reads := fun hn hi r hr => by
      rw [hget] at hi
      split at hi
      · cases hi
        rw [Instruction.op_withTarget, Instruction.reads_withTarget hjump] at hr
        exact h.reads hsl hi₀ r hr
      · exact h.reads hn hi r hr
    scope := h.scope
    own := h.own
    loops := h.loops
    outside := h.outside
    depth := h.depth
    labels := fun m hm => by
      obtain ⟨hsm, i, hi, hj⟩ := h.labels m (List.mem_cons_of_mem l hm)
      refine ⟨hsm, ?_⟩
      rw [hget]
      split
      · exact ⟨_, rfl, by rwa [Instruction.op_withTarget]⟩
      · exact ⟨i, hi, hj⟩
    targets := fun hn hi hnot t ht => by
      rw [hsize]
      rw [hget] at hi
      split at hi
      · cases hi
        rw [Instruction.target?_withTarget hjump] at ht
        cases ht
        exact ⟨hs, hc⟩
      · next hne => exact h.targets hn hi (List.not_mem_cons_of_ne_of_not_mem hne hnot) t ht }

theorem pointAll {ls : List Nat} {t : Nat} (h : s.Works dest own (ls ++ opened) p k c)
    (hr : Returns (pointAll t ls) c u c') (hs : s.instructions.size ≤ t)
    (hc : t ≤ c.instructions.size) :
    s.Works dest own opened p k c' ∧ c'.instructions.size = c.instructions.size := by
  induction ls generalizing c with
  | nil =>
    obtain ⟨-, rfl⟩ := returns_pure.1 hr
    exact ⟨h, rfl⟩
  | cons l ls ih =>
    obtain ⟨_, c₁, h₁, hr⟩ := returns_bind.1 hr
    have hsize : c₁.instructions.size = c.instructions.size := by
      obtain ⟨x, -, rfl⟩ := returns_pointTo.1 h₁
      exact Array.size_modify ..
    rw [← hsize] at hc ⊢
    exact ih (h.pointTo h₁ hs (hsize ▸ hc)) hr hc

theorem perm {opened' : List Nat} (h : s.Works dest own opened p k c)
    (hperm : opened.Perm opened') : s.Works dest own opened' p k c where
  toKeeps := h.toKeeps
  own := h.own
  loops := h.loops
  outside := h.outside
  depth := h.depth
  labels l hl := h.labels l ((hperm.append_right _).mem_iff.2 hl)
  targets hn hi hnot := h.targets hn hi (mt (hperm.append_right _).mem_iff.1 hnot)

theorem pointHere {ls opened' : List Nat} (h : s.Works dest own opened' p k c)
    (hperm : opened'.Perm (ls ++ opened)) (hr : Returns (pointHere ls) c u c') :
    s.Works dest own opened p k c' ∧ c'.instructions.size = c.instructions.size := by
  obtain ⟨n, c₁, h₁, hr⟩ := returns_bind.1 hr
  obtain ⟨rfl, rfl⟩ := returns_offset.1 h₁
  exact (h.perm hperm).pointAll hr h.size_le (Nat.le_refl _)

/-- The instructions up to an open jump are there. -/
theorem lt_size {l : Nat} (h : s.Works dest own opened p k c) (hl : l ∈ opened) :
    l < c.instructions.size := by
  obtain ⟨-, i, hi, -⟩ := h.labels l (List.mem_append_left _ hl)
  exact (Array.getElem?_eq_some_iff.1 hi).1

/-- Nothing is added to the code, but registers, constants and loops may be. -/
theorem idle {own' : Set Nat} {k' : Nat} (h : s.Works dest own opened p k c)
    (hi : c'.instructions = c.instructions) (hl : c'.lines = c.lines)
    (hpool : c.pool.toList <+: c'.pool.toList) (hregisters : c.registers ≤ c'.registers)
    (hscope : c'.scope = c.scope) (hloops : c'.loops = c.loops) (hdepth : c'.depth = s.depth + k')
    (hown : ∀ r ∈ own', r ∈ own ∨ c.registers ≤ r ∧ r < c'.registers) :
    s.Works dest own' opened p k' c' where
  instructions hn := hi ▸ h.instructions hn
  lines hn := hl ▸ h.lines hn
  pool hn := by
    obtain ⟨rest, hrest⟩ := hpool
    have hk := h.pool hn
    obtain ⟨hlt, -⟩ := Array.getElem?_eq_some_iff.1 hk
    rw [← Array.getElem?_toList, ← hrest, List.getElem?_append_left hlt, Array.getElem?_toList, hk]
  registers := Nat.le_trans h.registers hregisters
  writes hn hj r hr := (h.writes hn (hi ▸ hj) r hr).mono hregisters
  reads hn hj r hr := (h.reads hn (hi ▸ hj) r hr).imp_left fun ho => ho.mono hregisters
  scope := hscope.trans h.scope
  own r hr := (hown r hr).elim (fun ho => (h.own r ho).mono hregisters)
    fun hnew => .inr ⟨Nat.le_trans h.registers hnew.1, hnew.2⟩
  loops := hloops.trans h.loops
  outside := h.outside
  depth := hdepth
  labels l hl := hi ▸ h.labels l hl
  targets hn hj := by
    rw [hi] at hj ⊢
    exact h.targets hn hj

theorem forget {own' : Set Nat} (h : s.Works dest own opened p k c) (hsub : own' ⊆ own) :
    s.Works dest own' opened p k c :=
  h.idle rfl rfl List.prefix_rfl (Nat.le_refl _) rfl rfl h.depth fun _ hr => .inl (hsub hr)

theorem reserve {r : UInt32} (h : s.Works dest own opened p k c)
    (hr : Returns (reserve n) c r c') :
    s.Works dest (own ∪ Set.Ico r.toNat (r.toNat + max n 1)) opened p k c' ∧
      r.toNat + max n 1 < operandLimit := by
  obtain ⟨hroom, hfirst, rfl⟩ := returns_reserve.1 hr
  rw [hfirst]
  refine ⟨h.idle rfl rfl List.prefix_rfl (Nat.le_add_right _ _) rfl rfl h.depth ?_, hroom⟩
  exact fun q hq => hq

theorem register {r : UInt32} (h : s.Works dest own opened p k c)
    (hr : Returns register c r c') : s.Works dest (insert r.toNat own) opened p k c' := by
  refine (h.reserve hr).1.forget ?_
  rintro q (rfl | hq)
  · exact .inr (by simp)
  · exact .inl hq

theorem constant {j : Constant} {i : UInt32} (h : s.Works dest own opened p k c)
    (hr : Returns (constant j) c i c') : s.Works dest own opened p k c' := by
  obtain ⟨pool, places, hpool, rfl⟩ := hr.constant
  exact h.idle rfl rfl hpool (Nat.le_refl _) rfl rfl h.depth fun q hq => .inl hq

theorem enterLoop (h : s.Works dest own opened p k c)
    (hr : Returns (doing Assembly.enterLoop) c u c') :
    s.Works dest own opened p (k + 1) c' := by
  obtain rfl := returns_enterLoop.1 hr
  refine h.idle rfl rfl List.prefix_rfl (Nat.le_refl _) rfl rfl ?_ fun q hq => .inl hq
  rw [h.depth, Nat.add_assoc]

theorem exitLoop (h : s.Works dest own opened p (k + 1) c)
    (hr : Returns (doing Assembly.exitLoop) c u c') : s.Works dest own opened p k c' := by
  obtain rfl := returns_exitLoop.1 hr
  refine h.idle rfl rfl List.prefix_rfl (Nat.le_refl _) rfl rfl ?_ fun q hq => .inl hq
  rw [h.depth, ← Nat.add_assoc, Nat.add_sub_cancel]

/-- What the pass of another node adds, perhaps inside a loop with variables of its own. -/
theorem extend {c₁ c₂ : Compiler} (h : s.Works dest own opened p k c)
    (hd : c₁.Disciplined d q c₂) (hsame : c₁.toAssembly = c.toAssembly)
    (hdest : ∀ r ∈ d.map UInt32.toNat, r ∈ own)
    (hscope : ∀ name slot, c₁.scope.lookup name = some slot →
      slot.toNat ∈ own ∨ c.scope.lookup name = some slot) :
    s.Works dest own (q.labels ++ opened) p k { c₂ with scope := c.scope, loops := c.loops } := by
  obtain ⟨a₁, scope₁, loops₁⟩ := c₁
  obtain rfl : a₁ = c.toAssembly := hsame
  have hgrown : c.registers ≤ c₂.registers := hd.registers
  have howns : ∀ {r : Nat}, Owns ⟨c.toAssembly, scope₁, loops₁⟩ d c₂ r → s.Owns dest c₂ r := by
    rintro r (hr | ⟨hfirst, hlast⟩)
    · exact (h.own r (hdest r hr)).mono hgrown
    · exact .inr ⟨Nat.le_trans h.registers hfirst, hlast⟩
  -- The code of `c` is still there; what comes behind it is that of the other node.
  have hcode : ∀ {n : Nat} {i : Instruction}, c₂.instructions[n]? = some i →
      n < c.instructions.size ∧ c.instructions[n]? = some i ∨ c.instructions.size ≤ n := by
    intro n i hi
    rcases Nat.lt_or_ge n c.instructions.size with hn | hn
    · have hold := Array.getElem?_eq_getElem hn
      exact .inl ⟨hn, hold.trans ((hd.instructions hold).symm.trans hi)⟩
    · exact .inr hn
  exact {
    instructions := fun hi => hd.instructions (h.instructions hi)
    lines := fun hl => hd.lines (h.lines hl)
    pool := fun hk => hd.pool (h.pool hk)
    registers := Nat.le_trans h.registers hgrown
    writes := fun hn hi r hr => by
      obtain ⟨-, hold⟩ | hnew := hcode hi
      · exact (h.writes hn hold r hr).mono hgrown
      · exact howns (hd.writes hnew hi r hr)
    reads := fun hn hi r hr => by
      obtain ⟨-, hold⟩ | hnew := hcode hi
      · exact (h.reads hn hold r hr).imp_left fun ho => ho.mono hgrown
      · obtain hr | ⟨name, slot, hslot, rfl⟩ := hd.reads hnew hi r hr
        · exact .inl (howns hr)
        · refine (hscope name slot hslot).imp (fun ho => (h.own _ ho).mono hgrown) fun hs => ?_
          exact ⟨name, slot, h.scope ▸ hs, rfl⟩
    scope := h.scope
    own := fun r hr => (h.own r hr).mono hgrown
    loops := h.loops
    outside := h.outside
    depth := hd.depth.trans h.depth
    labels := fun l hl => by
      rw [List.append_assoc, List.mem_append] at hl
      obtain hl | hl := hl
      · obtain ⟨hcl, hjump⟩ := hd.pending l hl
        exact ⟨Nat.le_trans h.size_le hcl, hjump⟩
      · obtain ⟨hsl, i, hi, hjump⟩ := h.labels l hl
        exact ⟨hsl, i, hd.instructions hi, hjump⟩
    targets := fun hn hi hnot t ht => by
      rw [List.append_assoc, List.mem_append, not_or] at hnot
      obtain ⟨-, hold⟩ | hnew := hcode hi
      · have hle := h.targets hn hold hnot.2 t ht
        exact ⟨hle.1, Nat.le_trans hle.2 hd.size_le⟩
      · have hle := hd.targets hnew hi hnot.1 t ht
        exact ⟨Nat.le_trans h.size_le hle.1, hle.2⟩ }

/-- Open jumps become pending ones of the innermost loop. -/
theorem suspend (h : s.Works dest own (q.labels ++ opened) p k c) (hout : c.loops = [] → q = {}) :
    s.Works dest own opened (p ++ q) k { c with loops := q.addTo c.loops } where
  toKeeps := ⟨h.instructions, h.lines, h.pool, h.registers, h.writes, h.reads, h.scope⟩
  own := h.own
  loops := by rw [h.loops, Pending.addTo_addTo]
  outside hs := by
    have hp := h.outside hs
    rw [hp, hout (by rw [h.loops, hs]; rfl)]
    rfl
  depth := h.depth
  labels l hl := h.labels l (by
    simp only [List.mem_append, Pending.mem_labels_append] at hl ⊢
    tauto)
  targets hn hi hnot := h.targets hn hi (by
    simp only [List.mem_append, Pending.mem_labels_append] at hnot ⊢
    tauto)

/-- The pass of another node for a destination at hand. -/
theorem child (h : s.Works dest own opened p k c) (hpart : IsDisciplined part)
    (hr : Returns (part d) c u c') (hdest : ∀ r ∈ d.map UInt32.toNat, r ∈ own) :
    ∃ q, s.Works dest own opened q k c' := by
  obtain ⟨q, hd⟩ := hpart hr
  have hsame : { c' with scope := c.scope, loops := q.addTo c.loops } = c' := by
    rw [← hd.loops, ← hd.scope]
  exact ⟨p ++ q, hsame ▸ (h.extend hd rfl hdest fun _ _ hs => .inr hs).suspend hd.outside⟩

/-- The pass of another node inside a loop. -/
theorem inLoop {locals : List (String × UInt32)} (h : s.Works dest own opened p k c)
    (hpart : IsDisciplined part) (hr : Returns (inLoop locals (part none)) c q c')
    (hlocals : ∀ l ∈ locals, l.2.toNat ∈ own) :
    s.Works dest own (q.labels ++ opened) p k c' := by
  obtain ⟨c₂, h₂, rfl, rfl⟩ := returns_inLoop.1 hr
  obtain ⟨q, hd⟩ := hpart h₂
  have hscope : c₂.scope.drop locals.length = c.scope := by
    rw [hd.scope, List.drop_left]
  have hloops : c₂.loops = q :: c.loops := hd.loops
  rw [hscope, hloops]
  refine h.extend hd rfl nofun fun name slot hslot => ?_
  obtain hslot | ⟨-, hslot⟩ := Option.or_eq_some_iff.1 (List.lookup_append.symm.trans hslot)
  · obtain ⟨before, after, rfl, -⟩ := List.lookup_eq_some_iff.1 hslot
    exact .inl (hlocals (name, slot) (by simp))
  · exact .inr hslot

end Works

end Compiler

end Stencil
