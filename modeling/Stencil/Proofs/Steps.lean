import Stencil.Proofs.Assembling
import Stencil.Proofs.Pass

/-!
# What small passes return

Whether a small pass succeeds, with what answer, and what compiler it leaves. Facts about the pass
of a node are put together from these and not from the tasks of assemblies.

* `Compiler.Returns`: a pass succeeds with an answer and leaves a compiler;
* `Compiler.returns_emit`, `Compiler.returns_reserve`, …: the small passes.
-/

namespace Stencil

namespace Compiler

variable {α β : Type} {c c' : Compiler}

/-- A pass succeeds with an answer and leaves the compiler `c'`. -/
def Returns (p : Pass α) (c : Compiler) (a : α) (c' : Compiler) : Prop := p.run c = (.ok a, c')

/-! ### Passes in general -/

theorem not_returns {p : Pass α} {e : CompileError} {a : α} {c₁ : Compiler}
    (h : p.run c = (.error e, c₁)) : ¬Returns p c a c' := by
  intro h'
  cases h.symm.trans h'

theorem returns_bind {p : Pass α} {k : α → Pass β} {b : β} :
    Returns (p >>= k) c b c' ↔ ∃ a c₁, Returns p c a c₁ ∧ Returns (k a) c₁ b c' := by
  have hrun : (p >>= k).run c = match p.run c with
      | (.ok a, c₁) => (k a).run c₁
      | (.error e, c₁) => (.error e, c₁) := by
    change ExceptT.bindCont k (p.run c).1 (p.run c).2 = _
    rcases p.run c with ⟨_ | _, c₁⟩ <;> rfl
  rcases hp : p.run c with ⟨e | a, c₁⟩ <;> rw [hp] at hrun
  · refine iff_of_false (not_returns hrun) ?_
    rintro ⟨a, c₂, h, -⟩
    exact not_returns hp h
  · constructor
    · exact fun h => ⟨a, c₁, hp, hrun.symm.trans h⟩
    · rintro ⟨a', c₂, h, hk⟩
      cases hp.symm.trans h
      exact hrun.trans hk

@[simp] theorem returns_pure {a b : α} : Returns (pure a) c b c' ↔ b = a ∧ c' = c := by
  constructor
  · intro h
    cases h
    exact ⟨rfl, rfl⟩
  · rintro ⟨rfl, rfl⟩
    rfl

theorem returns_lift {x : Except CompileError α} {a : α} :
    Returns (liftM x : Pass α) c a c' ↔ x = .ok a ∧ c' = c := by
  cases x with
  | error e => exact iff_of_false (not_returns rfl) nofun
  | ok b =>
    constructor
    · intro h
      cases h
      exact ⟨rfl, rfl⟩
    · rintro ⟨⟨⟩, rfl⟩
      rfl

@[simp] theorem returns_throw {e : CompileError} {a : α} :
    Returns (throw e : Pass α) c a c' ↔ False :=
  iff_false_intro (not_returns rfl)

@[simp] theorem returns_unsupported {tag : Tag} {line : UInt32} {reason : Reason} {a : α} :
    Returns (liftM (unsupported tag line reason : Except CompileError α) : Pass α) c a c' ↔ False :=
  returns_throw

theorem returns_valueDest {tag : Tag} {line : UInt32} {dest : Option UInt32} {k : UInt32 → Pass α}
    {a : α} : Returns (do k (← valueDest tag line dest)) c a c' ↔
      ∃ d, dest = some d ∧ Returns (k d) c a c' := by
  simp only [returns_bind, returns_lift]
  cases dest with
  | none => exact iff_of_false (by rintro ⟨d, c₁, ⟨hd, -⟩, -⟩; cases hd) nofun
  | some d =>
    constructor
    · rintro ⟨_, _, ⟨⟨⟩, rfl⟩, h⟩
      exact ⟨d, rfl, h⟩
    · rintro ⟨_, ⟨⟩, h⟩
      exact ⟨d, c, ⟨rfl, rfl⟩, h⟩

theorem returns_expectVoid {tag : Tag} {line : UInt32} {dest : Option UInt32} {p : Pass α} {a : α} :
    Returns (do expectVoid tag line dest; p) c a c' ↔ dest = none ∧ Returns p c a c' := by
  simp only [returns_bind, returns_lift]
  cases dest with
  | none =>
    constructor
    · rintro ⟨_, _, ⟨-, rfl⟩, h⟩
      exact ⟨rfl, h⟩
    · rintro ⟨-, h⟩
      exact ⟨(), c, ⟨rfl, rfl⟩, h⟩
  | some d => exact iff_of_false (by rintro ⟨_, c₁, ⟨hd, -⟩, -⟩; cases hd) nofun

theorem returns_get {a : Compiler} : Returns get c a c' ↔ a = c ∧ c' = c := by
  constructor
  · intro h
    cases h
    exact ⟨rfl, rfl⟩
  · rintro ⟨rfl, rfl⟩
    rfl

theorem returns_doing {task : Task α} {a : α} : Returns (doing task) c a c' ↔
    ∃ s, task.run c.toAssembly = (.ok a, s) ∧ c' = { c with toAssembly := s } := by
  have hrun : (doing task).run c = ((task.run c.toAssembly).1,
      { c with toAssembly := (task.run c.toAssembly).2 }) := rfl
  unfold Returns
  rw [hrun]
  rcases task.run c.toAssembly with ⟨answer, s⟩
  constructor
  · intro h
    cases h
    exact ⟨s, rfl, rfl⟩
  · rintro ⟨_, ⟨⟩, rfl⟩
    rfl

theorem returns_of_run {p : Pass α} {a a₁ : α} {c₁ : Compiler} (h : p.run c = (.ok a₁, c₁)) :
    Returns p c a c' ↔ a = a₁ ∧ c' = c₁ := by
  unfold Returns
  rw [h, Prod.mk.injEq, Except.ok.injEq, eq_comm, @eq_comm _ c']

/-! ### Tasks -/

/-- The compiler with one more instruction. -/
def emitted (c : Compiler) (line : UInt32) (op : Opcode) (x y : UInt32) : Compiler :=
  { c with toBuilder := (c.toBuilder.setLine line).emit op x y }

/-- The compiler with another target of the jump with the label. -/
def pointed (c : Compiler) (label : Nat) (target : UInt32) : Compiler :=
  { c with toAssembly := c.toAssembly.pointed label target }

theorem returns_emit {line : UInt32} {op : Opcode} {x y : UInt32} {u : Unit} :
    Returns (emit line op x y) c u c' ↔ c' = c.emitted line op x y :=
  (returns_of_run rfl).trans (and_iff_right rfl)

theorem returns_emitJump {line : UInt32} {op : Opcode} {r : UInt32} {label : Nat} :
    Returns (emitJump line op r) c label c' ↔ label = c.instructions.size ∧
      c' = c.emitted line op (if op.isTargetFirst then 0 else r) 0 :=
  returns_of_run rfl

theorem returns_offset {n : Nat} :
    Returns (doing Assembly.offset) c n c' ↔ n = c.instructions.size ∧ c' = c :=
  returns_of_run rfl

theorem returns_enterLoop {u : Unit} : Returns (doing Assembly.enterLoop) c u c' ↔
    c' = { c with depth := c.depth + 1, maxDepth := max c.maxDepth (c.depth + 1) } :=
  (returns_of_run rfl).trans (and_iff_right rfl)

theorem returns_exitLoop {u : Unit} : Returns (doing Assembly.exitLoop) c u c' ↔
    c' = { c with depth := c.depth - 1 } :=
  (returns_of_run rfl).trans (and_iff_right rfl)

theorem returns_pointTo {label target : Nat} {u : Unit} :
    Returns (doing (Assembly.pointTo label target)) c u c' ↔
      ∃ x, x.toNat = target ∧ c' = c.pointed label x := by
  rw [returns_doing]
  simp only [Assembly.pointTo, Assembly.run_operand]
  rcases Nat.lt_or_ge target operandLimit with h | h
  · obtain ⟨x, hx, rfl⟩ := exists_operand .target h
    rw [hx]
    constructor
    · rintro ⟨s, hs, rfl⟩
      cases hs
      exact ⟨x, rfl, rfl⟩
    · rintro ⟨y, hy, rfl⟩
      cases UInt32.toNat_inj.1 hy
      exact ⟨_, rfl, rfl⟩
  · rw [operand_of_le h]
    refine iff_of_false (by rintro ⟨s, hs, -⟩; cases hs) ?_
    rintro ⟨x, rfl, -⟩
    exact absurd x.toNat_lt (Nat.not_lt.2 h)

/-- A task that a request asks for does what the request comes to. -/
theorem returns_serve {task : Task Nat} {r : Request} (hr : r.task = some <$> task) {n : Nat} :
    Returns (doing task) c n c' ↔
      ∃ s, c.toAssembly.serve r = (.ok (some n), s) ∧ c' = { c with toAssembly := s } := by
  rw [returns_doing]
  refine exists_congr fun s => and_congr_left fun _ => ?_
  unfold Assembly.serve
  rw [hr, Assembly.run_some]
  rcases task.run c.toAssembly with ⟨_ | m, t⟩
  · exact ⟨nofun, nofun⟩
  · constructor <;> (intro h; cases h; rfl)

theorem returns_doing_reserve {count n : Nat} : Returns (doing (Assembly.reserve count)) c n c' ↔
    c.registers + max count 1 < operandLimit ∧ n = c.registers ∧
      c' = { c with registers := c.registers + max count 1 } := by
  rw [returns_serve (r := .reserve count) rfl]
  have hserves := c.toAssembly.serves (.reserve count)
  generalize c.toAssembly.serve (.reserve count) = out at hserves ⊢
  cases hserves with
  | granted hgrants =>
    cases hgrants with
    | reserve hroom =>
      constructor
      · rintro ⟨s, ⟨⟩, rfl⟩
        exact ⟨hroom, rfl, rfl⟩
      · rintro ⟨-, rfl, rfl⟩
        exact ⟨_, rfl, rfl⟩
  | refused hmuch =>
    cases hmuch with
    | reserve hroom =>
      refine iff_of_false (by rintro ⟨s, hs, -⟩; cases hs) ?_
      exact fun h => absurd h.1 (Nat.not_lt.2 hroom)

theorem returns_reserve {count : Nat} {r : UInt32} : Returns (reserve count) c r c' ↔
    c.registers + max count 1 < operandLimit ∧ r.toNat = c.registers ∧
      c' = { c with registers := c.registers + max count 1 } := by
  simp only [reserve, returns_bind, returns_pure, returns_doing_reserve]
  constructor
  · rintro ⟨n, c₁, ⟨hroom, rfl, rfl⟩, rfl, rfl⟩
    refine ⟨hroom, ?_, rfl⟩
    rw [UInt32.toNat_ofNat']
    exact Nat.mod_eq_of_lt (Nat.lt_of_le_of_lt (Nat.le_add_right _ _) hroom)
  · rintro ⟨hroom, hr, rfl⟩
    refine ⟨_, _, ⟨hroom, rfl, rfl⟩, ?_, rfl⟩
    rw [← hr, UInt32.ofNat_toNat]

/-- What a pass for the place of a constant leaves: the pool has only grown. -/
theorem Returns.constant {k : Constant} {x : UInt32} (h : Returns (constant k) c x c') :
    ∃ pool places, c.pool.toList <+: pool.toList ∧
      c' = { c with pool := pool, places := places } := by
  simp only [Compiler.constant, returns_bind, returns_pure] at h
  obtain ⟨n, c₁, h, -, rfl⟩ := h
  obtain ⟨s, hs, rfl⟩ := (returns_serve (r := .constant k) rfl).1 h
  have hserves := c.toAssembly.serves (.constant k)
  rw [hs] at hserves
  cases hserves with
  | granted hgrants =>
    cases hgrants with
    | known hplace => exact ⟨_, _, List.prefix_rfl, rfl⟩
    | new hnone hn => exact ⟨_, _, ⟨_, Array.toList_push.symm⟩, rfl⟩

/-! ### Loops -/

theorem returns_inLoop {locals : List (String × UInt32)} {body : Pass Unit} {p : Pending} :
    Returns (inLoop locals body) c p c' ↔
      ∃ c₁, Returns body { c with scope := locals ++ c.scope, loops := {} :: c.loops } () c₁ ∧
        p = c₁.loops.headD {} ∧
        c' = { c₁ with scope := c₁.scope.drop locals.length, loops := c₁.loops.tail } := by
  have hrun : ∀ r c₁, body.run { c with scope := locals ++ c.scope, loops := {} :: c.loops } =
      (r, c₁) → (inLoop locals body).run c = (r.map fun _ => c₁.loops.headD {},
        { c₁ with scope := c₁.scope.drop locals.length, loops := c₁.loops.tail }) := by
    intro r c₁ h
    unfold inLoop
    exact congrArg (fun out : Except CompileError Unit × Compiler =>
      (out.1.map fun _ => out.2.loops.headD {}, ({ out.2 with
        scope := out.2.scope.drop locals.length, loops := out.2.loops.tail } : Compiler))) h
  rcases hbody : body.run { c with scope := locals ++ c.scope, loops := {} :: c.loops }
    with ⟨e | u, c₁⟩
  · refine iff_of_false (not_returns (hrun _ _ hbody)) ?_
    rintro ⟨c₂, h, -⟩
    exact not_returns hbody h
  · refine (returns_of_run (hrun _ _ hbody)).trans ⟨fun h => ⟨c₁, hbody, h⟩, ?_⟩
    rintro ⟨c₂, h, hp, hc⟩
    cases hbody.symm.trans h
    exact ⟨hp, hc⟩

theorem returns_suspend {tag : Tag} {line : UInt32} {p : Pending} {u : Unit} :
    Returns (suspend tag line p) c u c' ↔
      ∃ q outer, c.loops = q :: outer ∧ c' = { c with loops := (q ++ p) :: outer } := by
  simp only [suspend, returns_bind, returns_get]
  constructor
  · rintro ⟨_, _, ⟨rfl, rfl⟩, h⟩
    split at h
    · exact (returns_unsupported.1 h).elim
    · next q outer hloops => exact ⟨q, outer, hloops, ((returns_of_run rfl).1 h).2⟩
  · rintro ⟨q, outer, hloops, rfl⟩
    refine ⟨_, _, ⟨rfl, rfl⟩, ?_⟩
    rw [hloops]
    rfl

/-! ### Parts in a row -/

theorem length_parts (ns : List Node) : (Compiler.parts ns).length = ns.length := by
  induction ns with
  | nil => rfl
  | cons n rest ih => rw [Compiler.parts, List.length_cons, ih, List.length_cons]

theorem length_pairs : (ns : List Node) → (pairs ns).length = ns.length
  | [] => rfl
  | [_] => rfl
  | key :: value :: rest => by
    rw [pairs, List.length_cons, List.length_cons, length_pairs rest]
    rfl

theorem getElem?_parts (ns : List Node) (index : Nat) :
    (parts ns)[index]? = ns[index]?.map fun n dest => node dest n := by
  induction ns generalizing index with
  | nil => rfl
  | cons n ns ih =>
    cases index with
    | zero => rfl
    | succ index => exact ih index

end Compiler

end Stencil
