import Mathlib.Data.Set.Lattice
import Stencil.Proofs.Ownership
import Stencil.Proofs.Extent
import Stencil.Proofs.Interning

/-!
# What a pass adds

How far a compiler has got is told by the drafts that its instructions come from, and by its counts
and loops. A layout says this much, and no two compilers have the same layout. Passes are then
described by the layouts before and after them.

* `Builder.inStep_addAll`: a builder needs no index of its own, the one of its pool is in step;
* `Builder.addAll_jumpOn`: a draft of a jump can get its target later;
* `Layout`, `Layout.compilers`: how far a compiler has got;
* `Compiler.After`: what a pass leaves;
* `Layout.after_emit`, `Layout.after_register`, …: the small passes;
* `Layout.Waits`: jumps in code that wait for their target.
-/

namespace Stencil

/-! ### The index of a pool -/

/-- The index of a pool: the constants with their places, the last one first. -/
def Pool.places (pool : Array Constant) : List (Constant × UInt32) :=
  (pool.toList.zipIdx.map fun (c, n) => (c, UInt32.ofNat n)).reverse

theorem Pool.places_push (pool : Array Constant) (c : Constant) :
    places (pool.push c) = (c, UInt32.ofNat pool.size) :: places pool := by
  simp [places, List.zipIdx_append]

/-- The draft of a jump, which may be on a register. -/
def Draft.jumpOn (op : Opcode) (a target : Nat) (line : UInt32) : Draft :=
  if op.isTargetFirst then ⟨op, .target target, .none, line⟩ else branchTo op a target line

theorem Draft.branchTo_eq_jumpOn {op : Opcode} (hop : op.isTargetFirst = false) (a target : Nat)
    (line : UInt32) : branchTo op a target line = jumpOn op a target line := by
  rw [jumpOn, hop]
  rfl

namespace Builder

variable {b b' : Builder} {c : Constant} {n x : UInt32} {d : Draft} {ds es : List Draft}
  {o : Operand}

/-- The builder with the index of its pool. -/
def indexed (b : Builder) : Assembly := ⟨b, Pool.places b.pool⟩

theorem constant_of_some (h : b.indexed.InStep) (hc : (Pool.places b.pool).lookup c = some n) :
    b.constant c = .ok (b, n) := by
  have hfound : b.pool.idxOf? c = some n.toNat :=
    (Pool.idxOf?_eq_some h.nodup).2 ((h.index c n).1 hc)
  simp only [constant, Pool.intern, hfound, operand_toNat]
  rfl

theorem constant_of_none (h : b.indexed.InStep) (hc : (Pool.places b.pool).lookup c = none) :
    b.constant c =
      (operand .pool b.pool.size).map fun n => ({ b with pool := b.pool.push c }, n) := by
  have hfound : b.pool.idxOf? c = none := Array.idxOf?_eq_none_iff.2 (h.lookup_eq_none.1 hc)
  simp only [constant, Pool.intern, hfound]
  cases operand .pool b.pool.size <;> rfl

theorem inStep_constant (h : b.indexed.InStep) (hc : b.constant c = .ok (b', n)) :
    b'.indexed.InStep := by
  obtain ⟨m, hm, hok⟩ := bind_eq_ok.1 hc
  cases hok
  cases hfound : b.pool.idxOf? c with
  | some k => simpa only [Pool.intern, hfound] using h
  | none =>
    simp only [hfound] at hm ⊢
    have hnone := h.lookup_eq_none.2 (Array.idxOf?_eq_none_iff.1 hfound)
    have hsize : (UInt32.ofNat b.pool.size).toNat = b.pool.size := by
      rw [← operand_eq_ok hm, UInt32.ofNat_toNat]
    have hpush := h.push (n := UInt32.ofNat b.pool.size) hnone hsize
    exact ⟨hpush.nodup, hpush.size, by simpa only [indexed, Pool.places_push] using hpush.index⟩

theorem inStep_number (h : b.indexed.InStep) (ho : b.number o = .ok (b', n)) :
    b'.indexed.InStep := by
  cases o with
  | const c => exact inStep_constant h ho
  | none =>
    cases ho
    exact h
  | register | target | number =>
    obtain ⟨m, -, hok⟩ := bind_eq_ok.1 ho
    cases hok
    exact h

theorem inStep_add (h : b.indexed.InStep) (hd : b.add d = .ok b') : b'.indexed.InStep := by
  obtain ⟨⟨b₁, x⟩, hx, hd⟩ := bind_eq_ok.1 hd
  obtain ⟨⟨b₂, y⟩, hy, hd⟩ := bind_eq_ok.1 hd
  cases hd
  have hb := inStep_number (inStep_number h hx) hy
  exact ⟨hb.nodup, hb.size, hb.index⟩

theorem inStep_addAll (h : b.indexed.InStep) (hds : b.addAll ds = .ok b') :
    b'.indexed.InStep := by
  induction ds generalizing b with
  | nil =>
    cases hds
    exact h
  | cons d ds ih =>
    obtain ⟨b₁, hd, hds⟩ := bind_eq_ok.1 hds
    exact ih (inStep_add h hd) hds

/-! ### Drafts in a row -/

theorem operand_eq_ok_iff {what : Extent} {k : Nat} : operand what k = .ok x ↔ x.toNat = k := by
  refine ⟨operand_eq_ok, ?_⟩
  rintro rfl
  exact operand_toNat what x

theorem number_register {k : Nat} :
    b.number (.register k) = .ok (b', x) ↔ x.toNat = k ∧ b' = b := by
  simp only [number, bind_eq_ok, pure_eq_ok, operand_eq_ok_iff, Prod.mk.injEq]
  grind

theorem number_target {k : Nat} :
    b.number (.target k) = .ok (b', x) ↔ x.toNat = k ∧ b' = b := by
  simp only [number, bind_eq_ok, pure_eq_ok, operand_eq_ok_iff, Prod.mk.injEq]
  grind

theorem number_number {k : Nat} :
    b.number (.number k) = .ok (b', x) ↔ x.toNat = k ∧ b' = b := by
  simp only [number, bind_eq_ok, pure_eq_ok, operand_eq_ok_iff, Prod.mk.injEq]
  grind

theorem add_eq_ok_iff : b.add d = .ok b' ↔ ∃ b₁ x b₂ y, b.number d.a = .ok (b₁, x) ∧
    b₁.number d.b = .ok (b₂, y) ∧ b' = (b₂.setLine d.line).emit d.op x y := by
  simp only [add, bind_eq_ok, pure_eq_ok]
  constructor
  · rintro ⟨⟨b₁, x⟩, hx, ⟨b₂, y⟩, hy, rfl⟩
    exact ⟨b₁, x, b₂, y, hx, hy, rfl⟩
  · rintro ⟨b₁, x, b₂, y, hx, hy, rfl⟩
    exact ⟨(b₁, x), hx, (b₂, y), hy, rfl⟩

theorem size_add (h : b.add d = .ok b') : b'.instructions.size = b.instructions.size + 1 := by
  obtain ⟨⟨b₁, x⟩, hx, h⟩ := bind_eq_ok.1 h
  obtain ⟨⟨b₂, y⟩, hy, h⟩ := bind_eq_ok.1 h
  cases h
  rw [← (number_eq_ok hx).2.2.1, ← (number_eq_ok hy).2.2.1]
  exact Array.size_push _

theorem size_addAll (h : b.addAll ds = .ok b') :
    b'.instructions.size = b.instructions.size + ds.length := by
  induction ds generalizing b with
  | nil =>
    cases h
    rfl
  | cons d ds ih =>
    obtain ⟨b₁, hd, h⟩ := bind_eq_ok.1 h
    rw [ih h, size_add hd, List.length_cons, Nat.add_right_comm, Nat.add_assoc]

theorem addAll_append_eq_ok :
    b.addAll (ds ++ es) = .ok b' ↔ ∃ b₁, b.addAll ds = .ok b₁ ∧ b₁.addAll es = .ok b' := by
  induction ds generalizing b with
  | nil => exact ⟨fun h => ⟨b, rfl, h⟩, by rintro ⟨_, ⟨⟩, h⟩; exact h⟩
  | cons d ds ih =>
    simp only [List.cons_append, addAll, bind_eq_ok, ih]
    constructor
    · rintro ⟨b₁, hd, b₂, hds, h⟩
      exact ⟨b₂, ⟨b₁, hd, hds⟩, h⟩
    · rintro ⟨b₂, ⟨b₁, hd, hds⟩, h⟩
      exact ⟨b₁, hd, b₂, hds, h⟩

theorem addAll_singleton : b.addAll [d] = b.add d := by
  simp only [addAll]
  cases b.add d <;> rfl

/-! ### Targets of jumps -/

/-- The builder with another target of the jump with the label. -/
def pointed (b : Builder) (label : Nat) (target : UInt32) : Builder :=
  { b with instructions := b.instructions.modify label (Assembly.withTarget · target) }

theorem number_pointed (label : Nat) (x : UInt32) (b : Builder) (o : Operand) :
    (b.pointed label x).number o = (b.number o).map fun (b', n) => (b'.pointed label x, n) := by
  cases o with
  | none => rfl
  | register n | target n | number n =>
    simp only [number]
    cases operand _ n <;> rfl
  | const c =>
    simp only [number, constant]
    change (operand .pool (Pool.intern b.pool c).2 >>= _) = _
    cases operand .pool (Pool.intern b.pool c).2 <;> rfl

/-- Another instruction does not change the target of an earlier one. -/
theorem emit_pointed {label : Nat} (h : label < b.instructions.size) (op : Opcode)
    (x n m line : UInt32) : (((b.pointed label x).setLine line).emit op n m) =
      ((b.setLine line).emit op n m).pointed label x := by
  have hpush : ∀ i, (b.instructions.modify label (Assembly.withTarget · x)).push i =
      (b.instructions.push i).modify label (Assembly.withTarget · x) := by
    intro i
    refine Array.ext_getElem? fun k => ?_
    rw [Array.getElem?_modify, Array.getElem?_push, Array.getElem?_push, Array.size_modify,
      Array.getElem?_modify]
    split
    · next hk => rw [if_neg (by omega)]
    · rfl
  unfold pointed emit setLine
  dsimp only
  rw [hpush]

theorem add_pointed {label : Nat} (h : label < b.instructions.size) (x : UInt32) (d : Draft) :
    (b.pointed label x).add d = (b.add d).map (pointed · label x) := by
  unfold add
  rw [number_pointed]
  cases hn : b.number d.a with
  | error e => rfl
  | ok p =>
    obtain ⟨b₁, n⟩ := p
    change ((b₁.pointed label x).number d.b >>= _) = Except.map _ (b₁.number d.b >>= _)
    rw [number_pointed]
    cases hm : b₁.number d.b with
    | error e => rfl
    | ok q =>
      obtain ⟨b₂, m⟩ := q
      rw [← (number_eq_ok hn).2.2.1, ← (number_eq_ok hm).2.2.1] at h
      exact congrArg Except.ok (emit_pointed h d.op x n m d.line)

theorem addAll_pointed {label : Nat} (h : label < b.instructions.size) (x : UInt32)
    (ds : List Draft) : (b.pointed label x).addAll ds = (b.addAll ds).map (pointed · label x) := by
  induction ds generalizing b with
  | nil => rfl
  | cons d ds ih =>
    unfold addAll
    rw [add_pointed h]
    cases hd : b.add d with
    | error e => rfl
    | ok b₁ => exact ih (by rw [size_add hd]; exact Nat.lt_succ_of_lt h)

theorem add_jumpOn {op : Opcode} {line : UInt32} {a target : Nat} :
    b.add (.jumpOn op a target line) = .ok b' ↔
      ∃ r x : UInt32, (op.isTargetFirst = false → r.toNat = a) ∧ x.toNat = target ∧
        b' = (b.setLine line).emit op (if op.isTargetFirst then x else r)
          (if op.isTargetFirst then 0 else x) := by
  unfold Draft.jumpOn
  rw [add_eq_ok_iff]
  cases hop : op.isTargetFirst with
  | true =>
    constructor
    · rintro ⟨b₁, x, b₂, y, hx, ⟨⟩, rfl⟩
      obtain ⟨htarget, rfl⟩ := number_target.1 hx
      exact ⟨0, x, nofun, htarget, rfl⟩
    · rintro ⟨r, x, -, hx, rfl⟩
      exact ⟨b, x, b, 0, number_target.2 ⟨hx, rfl⟩, rfl, rfl⟩
  | false =>
    constructor
    · rintro ⟨b₁, r, b₂, x, hr, hx, rfl⟩
      obtain ⟨hregister, rfl⟩ := number_register.1 hr
      obtain ⟨htarget, rfl⟩ := number_target.1 hx
      exact ⟨r, x, fun _ => hregister, htarget, rfl⟩
    · rintro ⟨r, x, hr, hx, rfl⟩
      exact ⟨b, r, b, x, number_register.2 ⟨hr rfl, rfl⟩, number_target.2 ⟨hx, rfl⟩, rfl⟩

/-- A jump without a target is a jump to the first instruction. -/
theorem emit_pointed_self (b : Builder) (op : Opcode) (r x line : UInt32) :
    ((b.setLine line).emit op (if op.isTargetFirst then 0 else r) 0).pointed
        b.instructions.size x =
      (b.setLine line).emit op (if op.isTargetFirst then x else r)
        (if op.isTargetFirst then 0 else x) := by
  have hpush : ∀ i, (b.instructions.push i).modify b.instructions.size
      (Assembly.withTarget · x) = b.instructions.push (Assembly.withTarget i x) := by
    intro i
    refine Array.ext_getElem? fun k => ?_
    rw [Array.getElem?_modify, Array.getElem?_push, Array.getElem?_push]
    grind
  unfold pointed emit setLine
  dsimp only
  rw [hpush]
  unfold Assembly.withTarget
  split <;> rfl

/-- The target of a jump can be put in later. -/
theorem addAll_jumpOn {op : Opcode} {line : UInt32} {a target : Nat} :
    b.addAll (ds ++ .jumpOn op a target line :: es) = .ok b' ↔
      ∃ b₀ x, b.addAll (ds ++ .jumpOn op a 0 line :: es) = .ok b₀ ∧ x.toNat = target ∧
        b' = b₀.pointed (b.instructions.size + ds.length) x := by
  have hpointed : ∀ (b₁ : Builder) (r x : UInt32),
      ((b₁.setLine line).emit op (if op.isTargetFirst then x else r)
        (if op.isTargetFirst then 0 else x)).addAll es =
      (((b₁.setLine line).emit op (if op.isTargetFirst then 0 else r) 0).addAll es).map
        (pointed · b₁.instructions.size x) := by
    intro b₁ r x
    rw [← emit_pointed_self, addAll_pointed]
    exact Nat.lt_of_lt_of_eq (Nat.lt_succ_self _) (Array.size_push _).symm
  simp only [addAll_append_eq_ok, addAll, bind_eq_ok, add_jumpOn]
  constructor
  · rintro ⟨b₁, hds, _, ⟨r, x, hr, hx, rfl⟩, hes⟩
    rw [hpointed] at hes
    cases hb₀ : ((b₁.setLine line).emit op (if op.isTargetFirst then 0 else r) 0).addAll es with
    | error e => rw [hb₀] at hes; cases hes
    | ok b₀ =>
      rw [hb₀] at hes
      cases hes
      refine ⟨b₀, x, ⟨b₁, hds, _, ⟨r, 0, hr, rfl, rfl⟩, ?_⟩, hx, by rw [size_addAll hds]⟩
      rw [ite_self]
      exact hb₀
  · rintro ⟨b₀, x, ⟨b₁, hds, _, ⟨r, y, hr, hy, rfl⟩, hb₀⟩, hx, rfl⟩
    obtain rfl : y = 0 := UInt32.toNat_inj.1 hy
    rw [ite_self] at hb₀
    refine ⟨b₁, hds, _, ⟨r, x, hr, hx, rfl⟩, ?_⟩
    rw [hpointed, hb₀, ← size_addAll hds]
    rfl

end Builder

/-! ### What a pass leaves -/

namespace Compiler

variable {α β : Type}

/-- The compilers that a pass with a certain answer can leave, if it begins with one of the given
compilers. -/
def After (p : Pass α) (before : Set Compiler) (a : α) : Set Compiler :=
  {c' | ∃ c ∈ before, Returns p c a c'}

theorem mem_after {p : Pass α} {before : Set Compiler} {a : α} {c' : Compiler} :
    c' ∈ After p before a ↔ ∃ c ∈ before, Returns p c a c' := Iff.rfl

theorem after_bind (p : Pass α) (k : α → Pass β) (before : Set Compiler) (b : β) :
    After (p >>= k) before b = ⋃ a, After (k a) (After p before a) b := by
  ext c'
  simp only [mem_after, Set.mem_iUnion, returns_bind]
  constructor
  · rintro ⟨c, hc, a, c₁, hp, hk⟩
    exact ⟨a, c₁, ⟨c, hc, hp⟩, hk⟩
  · rintro ⟨a, c₁, ⟨c, hc, hp⟩, hk⟩
    exact ⟨c, hc, a, c₁, hp, hk⟩

theorem after_iUnion {ι : Sort*} (p : Pass α) (before : ι → Set Compiler) (a : α) :
    After p (⋃ i, before i) a = ⋃ i, After p (before i) a := by
  ext c'
  simp only [mem_after, Set.mem_iUnion]
  constructor
  · rintro ⟨c, ⟨i, hc⟩, hp⟩
    exact ⟨i, c, hc, hp⟩
  · rintro ⟨i, c, hc, hp⟩
    exact ⟨c, ⟨i, hc⟩, hp⟩

theorem after_pure (a b : α) (before : Set Compiler) :
    After (pure a) before b = ⋃ _ : b = a, before := by
  ext c'
  simp only [mem_after, Set.mem_iUnion, returns_pure, exists_prop]
  constructor
  · rintro ⟨c, hc, rfl, rfl⟩
    exact ⟨rfl, hc⟩
  · rintro ⟨rfl, hc⟩
    exact ⟨c', hc, rfl, rfl⟩

theorem after_seq (p : Pass Unit) (k : Unit → Pass β) (before : Set Compiler) (b : β) :
    After (p >>= k) before b = After (k ()) (After p before ()) b := by
  rw [after_bind]
  exact iSup_unique (α := Set Compiler) fun u => After (k u) (After p before u) b

theorem after_done (u v : Unit) (before : Set Compiler) : After (pure u) before v = before := by
  rw [after_pure]
  exact iSup_pos (f := fun _ : v = u => before) rfl

/-- What follows a pass that can only have one answer. -/
theorem after_answer {p : Pass α} {k : α → Pass β} {before after : Set Compiler} {a : α} {b : β}
    (h : ∀ a' c', c' ∈ After p before a' ↔ a' = a ∧ c' ∈ after) :
    After (p >>= k) before b = After (k a) after b := by
  rw [after_bind]
  ext c'
  simp only [Set.mem_iUnion, mem_after (p := k _), h]
  constructor
  · rintro ⟨_, c, ⟨rfl, hc⟩, hk⟩
    exact ⟨c, hc, hk⟩
  · rintro ⟨c, hc, hk⟩
    exact ⟨a, c, ⟨rfl, hc⟩, hk⟩

section Made

variable {γ δ ε : Type} {A : α → Prop} {B : β → Prop} {C : γ → Prop}

/-- Things that are made from others, one by one. -/
theorem iUnion_made {made : α → δ} (f : δ → Set ε) :
    ⋃ x, ⋃ _ : A x, f (made x) = ⋃ d, ⋃ _ : ∃ x, A x ∧ d = made x, f d := by
  ext e
  simp only [Set.mem_iUnion, exists_prop]
  grind

theorem iUnion_made_two {made : α → β → δ} (f : δ → Set ε) :
    ⋃ x, ⋃ _ : A x, ⋃ y, ⋃ _ : B y, f (made x y) =
      ⋃ d, ⋃ _ : ∃ x y, A x ∧ B y ∧ d = made x y, f d := by
  ext e
  simp only [Set.mem_iUnion, exists_prop]
  grind

theorem iUnion_made_three {made : α → β → γ → δ} (f : δ → Set ε) :
    ⋃ x, ⋃ _ : A x, ⋃ y, ⋃ _ : B y, ⋃ z, ⋃ _ : C z, f (made x y z) =
      ⋃ d, ⋃ _ : ∃ x y z, A x ∧ B y ∧ C z ∧ d = made x y z, f d := by
  ext e
  simp only [Set.mem_iUnion, exists_prop]
  grind

end Made

end Compiler

/-! ### Layouts -/

/-- How far a compiler has got. -/
@[ext] structure Layout where
  /-- What the instructions come from. -/
  drafts : List Draft := []
  registers : Nat := 0
  depth : Nat := 0
  maxDepth : Nat := 0
  scope : Scope := []
  loops : List Pending := []
  depth_le : depth ≤ maxDepth := by simp
  scope_below : Scope.Below registers scope := by exact nofun

namespace Layout

open Compiler

variable {α : Type} {X : Layout} {a : α} {u : Unit} {c c' : Compiler} {line x y : UInt32}
  {op : Opcode} {d : Draft} {ds es : List Draft} {m n deep target : Nat} {p : Pending}
  {k : Constant}

/-- A compiler that has got this far, with the instructions of a builder. -/
def compiler (X : Layout) (b : Builder) : Compiler where
  toAssembly :=
    { b.indexed with registers := X.registers, depth := X.depth, maxDepth := X.maxDepth }
  scope := X.scope.map fun (name, slot) => (name, .ofNat slot)
  loops := X.loops

/-- The compilers that have got this far: there is one, if all numbers fit. -/
def compilers (X : Layout) : Set Compiler :=
  {c | X.registers < operandLimit ∧
    ∃ b, ({} : Builder).addAll X.drafts = .ok b ∧ c = X.compiler b}

/-- The layout with more code and registers, with loops along collections inside and jumps that are
left pending. -/
def grow (X : Layout) (ds : List Draft) (count : Nat) (deep : Nat := 0) (p : Pending := {}) :
    Layout :=
  { X with
    drafts := X.drafts ++ ds
    registers := X.registers + count
    maxDepth := max X.maxDepth (X.depth + deep)
    loops := p.addTo X.loops
    depth_le := Nat.le_trans X.depth_le (Nat.le_max_left _ _)
    scope_below := fun name slot h => Nat.lt_add_right count (X.scope_below name slot h) }

@[simp] theorem grow_drafts : (X.grow ds n deep p).drafts = X.drafts ++ ds := rfl

@[simp, grind =] theorem grow_registers : (X.grow ds n deep p).registers = X.registers + n := rfl

@[simp] theorem grow_scope : (X.grow ds n deep p).scope = X.scope := rfl

@[simp] theorem grow_grow {deep' : Nat} {q : Pending} : (X.grow ds m deep p).grow es n deep' q =
    X.grow (ds ++ es) (m + n) (max deep deep') (p ++ q) := by
  refine Layout.ext (List.append_assoc ..) (Nat.add_assoc ..) rfl ?_ rfl (Pending.addTo_addTo _)
  simp only [grow]
  omega

@[simp] theorem grow_nil : X.grow [] 0 = X := by
  refine Layout.ext (List.append_nil _) rfl rfl ?_ rfl (Pending.addTo_empty _)
  exact Nat.max_eq_left X.depth_le

theorem compiler_grow (X : Layout) (ds : List Draft) (n : Nat) (b : Builder) :
    (X.grow ds n).compiler b = { X.compiler b with registers := X.registers + n } := by
  simp only [compiler, grow, Pending.addTo_empty, Nat.add_zero, Nat.max_eq_left X.depth_le]

theorem size_eq (h : c ∈ X.compilers) : c.instructions.size = X.drafts.length := by
  obtain ⟨-, b, hb, rfl⟩ := h
  exact (Builder.size_addAll hb).trans (Nat.zero_add _)

/-! ### Instructions -/

theorem after_add {task : Pass Unit}
    (h : ∀ b : Builder, b.indexed.InStep → X.registers < operandLimit → ∀ c',
      Returns task (X.compiler b) u c' ↔ ∃ b', b.add d = .ok b' ∧ c' = X.compiler b') :
    After task X.compilers u = (X.grow [d] 0).compilers := by
  ext c'
  constructor
  · rintro ⟨c, ⟨hroom, b, hb, rfl⟩, hp⟩
    obtain ⟨b', hb', rfl⟩ := (h b (Builder.inStep_addAll .empty hb) hroom c').1 hp
    refine ⟨hroom, b', ?_, (compiler_grow X [d] 0 b').symm⟩
    exact Builder.addAll_append_eq_ok.2 ⟨b, hb, Builder.addAll_singleton.trans hb'⟩
  · rintro ⟨hroom, b', hb', rfl⟩
    obtain ⟨b, hb, hb'⟩ := Builder.addAll_append_eq_ok.1 hb'
    rw [Builder.addAll_singleton] at hb'
    exact ⟨_, ⟨hroom, b, hb, rfl⟩,
      (h b (Builder.inStep_addAll .empty hb) hroom _).2 ⟨b', hb', compiler_grow X [d] 0 b'⟩⟩

/-- The number stands for the operand whatever has been made before. -/
def IsPlain (X : Layout) (o : Operand) (x : UInt32) : Prop :=
  X.registers < operandLimit → ∀ b b' : Builder, ∀ y, b.number o = .ok (b', y) ↔ y = x ∧ b' = b

theorem isPlain_none : X.IsPlain .none 0 := by
  intro _ b b' y
  simp only [Builder.number, Except.ok.injEq, Prod.mk.injEq]
  grind

theorem isPlain_register (h : n < X.registers) : X.IsPlain (.register n) (.ofNat n) := by
  intro hroom b b' y
  have hn : (UInt32.ofNat n).toNat = n :=
    UInt32.toNat_ofNat_of_lt' (Nat.lt_trans h hroom)
  rw [Builder.number_register, ← UInt32.toNat_inj, hn]

theorem isPlain_number (h : n < operandLimit) : X.IsPlain (.number n) (.ofNat n) := by
  intro hroom b b' y
  rw [Builder.number_number, ← UInt32.toNat_inj, UInt32.toNat_ofNat_of_lt' h]

variable {o₁ o₂ : Operand}

theorem after_emit (hx : X.IsPlain o₁ x) (hy : X.IsPlain o₂ y) :
    After (emit line op x y) X.compilers u = (X.grow [⟨op, o₁, o₂, line⟩] 0).compilers := by
  refine after_add fun b _ hroom c' => ?_
  simp only [returns_emit, Builder.add_eq_ok_iff, hx hroom, hy hroom]
  constructor
  · rintro rfl
    exact ⟨_, ⟨b, x, b, y, ⟨rfl, rfl⟩, ⟨rfl, rfl⟩, rfl⟩, rfl⟩
  · rintro ⟨_, ⟨_, _, _, _, ⟨rfl, rfl⟩, ⟨rfl, rfl⟩, rfl⟩, rfl⟩
    rfl

theorem after_emit_one (hm : m < X.registers) : After (emit line op (.ofNat m) 0) X.compilers u =
    (X.grow [.onRegister op m line] 0).compilers :=
  after_emit (isPlain_register hm) isPlain_none

theorem after_emit_two (hm : m < X.registers) (hn : n < X.registers) :
    After (emit line op (.ofNat m) (.ofNat n)) X.compilers u =
      (X.grow [.onRegisters op m n line] 0).compilers :=
  after_emit (isPlain_register hm) (isPlain_register hn)

theorem after_emitRun (hm : m < X.registers) : After (emitRun line op (.ofNat m) n) X.compilers u =
    (X.grow [.onRun op m n line] 0).compilers := by
  refine after_add fun b _ hroom c' => ?_
  simp only [emitRun, returns_bind, returns_lift, returns_emit, Builder.add_eq_ok_iff,
    Draft.onRun, isPlain_register hm hroom, Builder.number_number, Builder.operand_eq_ok_iff]
  constructor
  · rintro ⟨y, _, ⟨hy, rfl⟩, rfl⟩
    exact ⟨_, ⟨b, _, b, y, ⟨rfl, rfl⟩, ⟨hy, rfl⟩, rfl⟩, rfl⟩
  · rintro ⟨_, ⟨_, _, _, y, ⟨rfl, rfl⟩, ⟨hy, rfl⟩, rfl⟩, rfl⟩
    exact ⟨y, _, ⟨hy, rfl⟩, rfl⟩

/-- The place of a constant is looked up in the index as it is found in the pool. -/
theorem returns_constant {b : Builder} (hb : b.indexed.InStep) :
    Returns (constant k) (X.compiler b) x c' ↔
      ∃ b', b.constant k = .ok (b', x) ∧ c' = X.compiler b' := by
  simp only [Compiler.constant, returns_bind, returns_pure, returns_serve (r := .constant k) rfl]
  have hserves := (X.compiler b).toAssembly.serves (.constant k)
  generalize (X.compiler b).toAssembly.serve (.constant k) = out at hserves ⊢
  cases hserves with
  | granted hgrants =>
    cases hgrants with
    | @known _ m hplace =>
      rw [Builder.constant_of_some hb hplace]
      constructor
      · rintro ⟨_, _, ⟨_, ⟨⟩, rfl⟩, rfl, rfl⟩
        exact ⟨b, by rw [UInt32.ofNat_toNat], rfl⟩
      · rintro ⟨_, ⟨⟩, rfl⟩
        exact ⟨_, _, ⟨_, rfl, rfl⟩, UInt32.ofNat_toNat.symm, rfl⟩
    | @new _ m hnone hsize =>
      replace hsize : m.toNat = b.pool.size := hsize
      have hplaces : Pool.places (b.pool.push k) = (k, m) :: Pool.places b.pool := by
        rw [Pool.places_push, ← hsize, UInt32.ofNat_toNat]
      rw [Builder.constant_of_none hb hnone, ← hsize, operand_toNat]
      simp only [compiler, Builder.indexed]
      constructor
      · rintro ⟨_, _, ⟨_, ⟨⟩, rfl⟩, rfl, rfl⟩
        exact ⟨_, by rw [UInt32.ofNat_toNat]; rfl, by rw [hplaces]⟩
      · rintro ⟨_, ⟨⟩, rfl⟩
        exact ⟨_, _, ⟨_, rfl, rfl⟩, UInt32.ofNat_toNat.symm, by rw [hplaces]⟩
  | refused hmuch =>
    cases hmuch with
    | constant hnone hsize =>
      rw [Builder.constant_of_none hb hnone, operand_of_le (n := b.pool.size) hsize]
      exact iff_of_false (by rintro ⟨_, _, ⟨_, ⟨⟩, rfl⟩, -, -⟩) nofun

theorem after_emitTo (hm : m < X.registers) : After (emitTo line op (.ofNat m) k) X.compilers u =
    (X.grow [⟨op, .register m, .const k, line⟩] 0).compilers := by
  refine after_add fun b hb hroom c' => ?_
  simp only [emitTo, returns_bind, returns_constant hb, returns_emit, Builder.add_eq_ok_iff,
    isPlain_register hm hroom]
  constructor
  · rintro ⟨y, _, ⟨b₁, hy, rfl⟩, rfl⟩
    exact ⟨_, ⟨b, _, b₁, y, ⟨rfl, rfl⟩, hy, rfl⟩, rfl⟩
  · rintro ⟨_, ⟨_, _, b₁, y, ⟨rfl, rfl⟩, hy, rfl⟩, rfl⟩
    exact ⟨y, _, ⟨b₁, hy, rfl⟩, rfl⟩

theorem after_emitFrom (hy : X.IsPlain o₂ y) : After (emitFrom line op k y) X.compilers u =
    (X.grow [⟨op, .const k, o₂, line⟩] 0).compilers := by
  refine after_add fun b hb hroom c' => ?_
  simp only [emitFrom, returns_bind, returns_constant hb, returns_emit, Builder.add_eq_ok_iff,
    hy hroom]
  constructor
  · rintro ⟨x, _, ⟨b₁, hx, rfl⟩, rfl⟩
    exact ⟨_, ⟨b₁, x, b₁, y, hx, ⟨rfl, rfl⟩, rfl⟩, rfl⟩
  · rintro ⟨_, ⟨_, x, b₂, _, hx, ⟨rfl, rfl⟩, rfl⟩, rfl⟩
    exact ⟨x, _, ⟨b₂, hx, rfl⟩, rfl⟩

/-! ### Registers, jumps and loops -/

theorem after_lookup {name : String} (go : Option UInt32 → Pass α) :
    After (do go ((← get).scope.lookup name)) X.compilers a =
      After (go ((X.scope.lookup name).map .ofNat)) X.compilers a := by
  have hlookup : ∀ scope : Scope,
      List.lookup name (scope.map fun (other, slot) => (other, UInt32.ofNat slot)) =
        (scope.lookup name).map .ofNat := by
    intro scope
    induction scope with
    | nil => rfl
    | cons p scope ih =>
      rw [List.map_cons, List.lookup_cons, List.lookup_cons, ih]
      split <;> rfl
  ext c'
  simp only [mem_after, returns_bind, returns_get]
  constructor
  · rintro ⟨c, ⟨hroom, b, hb, rfl⟩, _, _, ⟨rfl, rfl⟩, h⟩
    exact ⟨_, ⟨hroom, b, hb, rfl⟩, hlookup X.scope ▸ h⟩
  · rintro ⟨c, ⟨hroom, b, hb, rfl⟩, h⟩
    exact ⟨_, ⟨hroom, b, hb, rfl⟩, _, _, ⟨rfl, rfl⟩, hlookup X.scope ▸ h⟩

theorem after_reserve {go : UInt32 → Pass α} : After (reserve n >>= go) X.compilers a =
    After (go (.ofNat X.registers)) (X.grow [] (max n 1)).compilers a := by
  refine after_answer fun r c' => ?_
  simp only [mem_after, returns_reserve]
  constructor
  · rintro ⟨c, ⟨-, b, hb, rfl⟩, hroom, hr, rfl⟩
    refine ⟨?_, hroom, b, by rwa [grow_drafts, List.append_nil], (compiler_grow X [] _ b).symm⟩
    rw [← UInt32.ofNat_toNat (x := r)]
    exact congrArg _ hr
  · rintro ⟨rfl, hroom, b, hb, rfl⟩
    rw [grow_drafts, List.append_nil] at hb
    have hlt : X.registers < operandLimit := Nat.lt_of_le_of_lt (Nat.le_add_right _ _) hroom
    exact ⟨_, ⟨hlt, b, hb, rfl⟩, hroom, UInt32.toNat_ofNat_of_lt' hlt, compiler_grow X [] _ b⟩

theorem after_register {go : UInt32 → Pass α} : After (register >>= go) X.compilers a =
    After (go (.ofNat X.registers)) (X.grow [] 1).compilers a := after_reserve

theorem after_offset {go : Nat → Pass α} : After (doing Assembly.offset >>= go) X.compilers a =
    After (go X.drafts.length) X.compilers a := by
  refine after_answer fun label c' => ?_
  simp only [mem_after, returns_offset]
  constructor
  · rintro ⟨c, hc, rfl, rfl⟩
    exact ⟨size_eq hc, hc⟩
  · rintro ⟨rfl, hc⟩
    exact ⟨c', hc, (size_eq hc).symm, rfl⟩

theorem after_emitJump {go : Nat → Pass α}
    (hx : op.isTargetFirst = false → n < X.registers ∧ x = .ofNat n) :
    After (emitJump line op x >>= go) X.compilers a =
      After (go X.drafts.length) (X.grow [.jumpOn op n 0 line] 0).compilers a := by
  have hemit : After (emit line op (if op.isTargetFirst then 0 else x) 0) X.compilers () =
      (X.grow [.jumpOn op n 0 line] 0).compilers := by
    refine after_add fun b _ hroom c' => ?_
    simp only [returns_emit, Builder.add_jumpOn]
    constructor
    · rintro rfl
      refine ⟨_, ⟨x, 0, fun hop => ?_, rfl, rfl⟩, by rw [ite_self]; rfl⟩
      obtain ⟨hn, rfl⟩ := hx hop
      exact UInt32.toNat_ofNat_of_lt' (Nat.lt_trans hn hroom)
    · rintro ⟨_, ⟨r, y, hr, hy, rfl⟩, rfl⟩
      obtain rfl : y = 0 := UInt32.toNat_inj.1 hy
      rw [ite_self]
      cases hop : op.isTargetFirst with
      | true => rfl
      | false =>
        obtain ⟨-, rfl⟩ := hx hop
        rw [← hr hop, UInt32.ofNat_toNat]
        rfl
  refine after_answer fun label c' => ?_
  rw [← hemit]
  simp only [mem_after, returns_emit, returns_emitJump]
  constructor
  · rintro ⟨c, hc, rfl, rfl⟩
    exact ⟨size_eq hc, c, hc, rfl⟩
  · rintro ⟨rfl, c, hc, rfl⟩
    exact ⟨c, hc, (size_eq hc).symm, rfl⟩

theorem after_emitJump_branch {go : Nat → Pass α} (op : Opcode) (hop : op.isTargetFirst = false)
    (hn : n < X.registers) : After (emitJump line op (.ofNat n) >>= go) X.compilers a =
      After (go X.drafts.length) (X.grow [.branchTo op n 0 line] 0).compilers a := by
  rw [after_emitJump (n := n) fun _ => ⟨hn, rfl⟩, Draft.branchTo_eq_jumpOn hop]

theorem after_emitJump_jump {go : Nat → Pass α} :
    After (emitJump line .jump 0 >>= go) X.compilers a =
      After (go X.drafts.length) (X.grow [.jumpTo 0 line] 0).compilers a :=
  after_emitJump (n := 0) nofun

theorem after_pointTo (op : Opcode) (n : Nat) (ds es : List Draft) :
    After (doing (Assembly.pointTo (X.drafts.length + ds.length) target))
      (X.grow (ds ++ .jumpOn op n 0 line :: es) m deep p).compilers u =
        (X.grow (ds ++ .jumpOn op n target line :: es) m deep p).compilers := by
  have hiff (b' : Builder) :
      ({} : Builder).addAll (X.drafts ++ (ds ++ .jumpOn op n target line :: es)) = .ok b' ↔
        ∃ b₀ x, ({} : Builder).addAll (X.drafts ++ (ds ++ .jumpOn op n 0 line :: es)) = .ok b₀ ∧
          x.toNat = target ∧ b' = b₀.pointed (X.drafts.length + ds.length) x := by
    rw [← List.append_assoc, ← List.append_assoc, Builder.addAll_jumpOn]
    simp
  ext c'
  simp only [mem_after, returns_pointTo]
  constructor
  · rintro ⟨c, ⟨hroom, b, hb, rfl⟩, x, hx, rfl⟩
    exact ⟨hroom, _, (hiff _).2 ⟨b, x, hb, hx, rfl⟩, rfl⟩
  · rintro ⟨hroom, b, hb, rfl⟩
    obtain ⟨b₀, x, hb₀, hx, rfl⟩ := (hiff _).1 hb
    exact ⟨_, ⟨hroom, b₀, hb₀, rfl⟩, x, hx, rfl⟩

theorem after_pointHere {labels : List Nat} : After (pointHere labels) X.compilers u =
    After (pointAll X.drafts.length labels) X.compilers u := after_offset

theorem after_pointAll_singleton {label : Nat} {before : Set Compiler} :
    After (pointAll target [label]) before u =
      After (doing (Assembly.pointTo label target)) before () := by
  rw [pointAll, pointAll, after_seq, after_done]

theorem after_pointAll_append {ls ms : List Nat} {before : Set Compiler} :
    After (pointAll target (ls ++ ms)) before u =
      After (pointAll target ms) (After (pointAll target ls) before ()) u := by
  induction ls generalizing before with
  | nil => rw [pointAll, after_done]; rfl
  | cons l ls ih => rw [List.cons_append, pointAll, after_seq, ih, pointAll, after_seq]

/-- A jump that is pointed at the next instruction. -/
theorem after_pointHere_jumpOn (op : Opcode) (n : Nat) :
    After (pointHere [X.drafts.length + ds.length])
      (X.grow (ds ++ .jumpOn op n 0 line :: es) m deep p).compilers u =
        (X.grow (ds ++ .jumpOn op n (X.drafts.length + ds.length + 1 + es.length) line :: es)
          m deep p).compilers := by
  have hlength : (X.grow (ds ++ .jumpOn op n 0 line :: es) m deep p).drafts.length =
      X.drafts.length + ds.length + 1 + es.length := by simp; omega
  rw [after_pointHere, after_pointAll_singleton, hlength]
  exact after_pointTo op n _ _

theorem after_pointHere_branch (op : Opcode) (hop : op.isTargetFirst = false) (X : Layout)
    (ds es : List Draft) (n m deep : Nat) (p : Pending) (line : UInt32) :
    After (pointHere [X.drafts.length + ds.length])
      (X.grow (ds ++ .branchTo op n 0 line :: es) m deep p).compilers u =
        (X.grow (ds ++ .branchTo op n (X.drafts.length + ds.length + 1 + es.length) line :: es)
          m deep p).compilers := by
  rw [Draft.branchTo_eq_jumpOn hop, Draft.branchTo_eq_jumpOn hop]
  exact after_pointHere_jumpOn op n

theorem after_pointHere_jump (X : Layout) (ds es : List Draft) (m deep : Nat) (p : Pending)
    (line : UInt32) : After (pointHere [X.drafts.length + ds.length])
      (X.grow (ds ++ .jumpTo 0 line :: es) m deep p).compilers u =
        (X.grow (ds ++ .jumpTo (X.drafts.length + ds.length + 1 + es.length) line :: es)
          m deep p).compilers :=
  after_pointHere_jumpOn .jump 0

/-- The layout inside another loop along a collection. -/
def enter (X : Layout) : Layout :=
  { X with
    depth := X.depth + 1
    maxDepth := max X.maxDepth (X.depth + 1)
    depth_le := Nat.le_max_right _ _ }

@[simp] theorem enter_drafts : X.enter.drafts = X.drafts := rfl

@[simp, grind =] theorem enter_registers : X.enter.registers = X.registers := rfl

@[simp] theorem enter_scope : X.enter.scope = X.scope := rfl

/-- The layout behind a loop along a collection. -/
def exit (X : Layout) : Layout :=
  { X with
    depth := X.depth - 1
    depth_le := Nat.le_trans (Nat.sub_le _ _) X.depth_le }

theorem exit_enter_grow : (X.enter.grow ds n deep p).exit = X.grow ds n (deep + 1) p := by
  refine Layout.ext rfl rfl rfl ?_ rfl rfl
  change max (max X.maxDepth (X.depth + 1)) (X.depth + 1 + deep) =
    max X.maxDepth (X.depth + (deep + 1))
  omega

theorem after_enterLoop : After (doing Assembly.enterLoop) X.compilers u = X.enter.compilers := by
  ext c'
  simp only [mem_after, returns_enterLoop]
  constructor
  · rintro ⟨c, ⟨hroom, b, hb, rfl⟩, rfl⟩
    exact ⟨hroom, b, hb, rfl⟩
  · rintro ⟨hroom, b, hb, rfl⟩
    exact ⟨_, ⟨hroom, b, hb, rfl⟩, rfl⟩

theorem after_exitLoop : After (doing Assembly.exitLoop) X.compilers u = X.exit.compilers := by
  ext c'
  simp only [mem_after, returns_exitLoop]
  constructor
  · rintro ⟨c, ⟨hroom, b, hb, rfl⟩, rfl⟩
    exact ⟨hroom, b, hb, rfl⟩
  · rintro ⟨hroom, b, hb, rfl⟩
    exact ⟨_, ⟨hroom, b, hb, rfl⟩, rfl⟩

/-! ### Jumps that wait for their target -/

/-- Some jumps of code at `pc` wait for their target: they are pointed at it by their labels. -/
def Waits (pc : Nat) (labels : List Nat) (code : Nat → List Draft) : Prop :=
  ∀ (X : Layout) (ds es : List Draft) (count deep : Nat) (p : Pending) (target : Nat) (u : Unit),
    X.drafts.length + ds.length = pc →
    After (pointAll target labels) (X.grow (ds ++ code 0 ++ es) count deep p).compilers u =
      (X.grow (ds ++ code target ++ es) count deep p).compilers

namespace Waits

variable {pc pc' : Nat} {ls ms : List Nat} {code more : Nat → List Draft}

theorem none (pc : Nat) (ds : List Draft) : Waits pc [] fun _ => ds := by
  intro X before after count deep p target u _
  rw [pointAll, after_done]

theorem jumpOn (pc : Nat) (op : Opcode) (n : Nat) (line : UInt32) :
    Waits pc [pc] fun target => [.jumpOn op n target line] := by
  rintro X ds es count deep p target u rfl
  rw [after_pointAll_singleton, List.append_assoc, List.append_assoc]
  exact after_pointTo op n _ _

theorem append (h : Waits pc ls code) (h' : Waits pc' ms more)
    (hpc : ∀ target, pc + (code target).length = pc') :
    Waits pc (ls ++ ms) fun target => code target ++ more target := by
  rintro X ds es count deep p target u hds
  have hfirst := h X ds (more 0 ++ es) count deep p target () hds
  have hsecond := h' X (ds ++ code target) es count deep p target u
    (by rw [List.length_append, ← Nat.add_assoc, hds, hpc])
  simp only [List.append_assoc] at hfirst hsecond ⊢
  rw [after_pointAll_append, hfirst, hsecond]

/-- Code in front of a part that waits. -/
theorem behind (h : Waits pc' ls code) (ds : List Draft) (hpc : pc + ds.length = pc') :
    Waits pc ls fun target => ds ++ code target :=
  (none pc ds).append h fun _ => hpc

/-- Code behind a part that waits. -/
theorem before (h : Waits pc ls code) (es : List Draft) (hn : ∀ target, (code target).length = n) :
    Waits pc ls fun target => code target ++ es := by
  simpa only [List.append_nil] using h.append (none (pc + n) es) fun target => by rw [hn]

end Waits

end Layout

end Stencil
