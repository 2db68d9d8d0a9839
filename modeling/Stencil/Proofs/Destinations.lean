import Stencil.Proofs.Ownership

/-!
# Every node keeps to its destination

The discipline is shown for each kind of node from that of its parts, and then for all nodes. It is
about the pass along a tree as it runs, with pending jumps and a pool; that this pass makes the
program of the template that the tree is read as is `Compiler.program_eq_ok_iff`.

* `Compiler.isDisciplined_binary`, `Compiler.disciplined_foreach`, …: the kinds of nodes;
* `Compiler.isDisciplined_node`: all nodes;
* `Compiler.node_disciplined`: what this comes to.
-/

namespace Stencil

namespace Compiler

variable {s c c' : Compiler} {dest d : Option UInt32} {own : Set Nat} {opened : List Nat}
  {p q : Pending} {k n : Nat} {u : Unit} {line x y base : UInt32} {op : Opcode} {part : Part}
  {ps : List Part}

theorem toNat_add {a b : UInt32} (h : a.toNat + b.toNat < operandLimit) :
    (a + b).toNat = a.toNat + b.toNat := by
  rw [UInt32.toNat_add]
  exact Nat.mod_eq_of_lt h

namespace Works

/-- An instruction on a register that is at hand, and perhaps on another one. -/
theorem emitOn (h : s.Works dest own opened p k c) (hr : Returns (Compiler.emit line op x y) c u c')
    (hjump : ¬op.IsJump) (hx : x.toNat ∈ own)
    (hreads : ∀ r, op.Reads x.toNat y.toNat r → r = x.toNat ∨ r ∈ own) :
    s.Works dest own opened p k c' :=
  h.emit hr hjump (fun _ hr => hr.eq ▸ hx) fun r hr =>
    (hreads r hr).elim (fun hrx => hrx ▸ hx) id

/-- An instruction on registers in a row that are at hand. -/
theorem emitRun {count : Nat} (h : s.Works dest own opened p k c)
    (hr : Returns (emitRun line op base count) c u c') (hjump : ¬op.IsJump)
    (hbase : base.toNat ∈ own) (hreads : ∀ r, op.Reads base.toNat count r → r ∈ own) :
    s.Works dest own opened p k c' := by
  obtain ⟨x, c₁, hcount, hemit⟩ := returns_bind.1 hr
  obtain ⟨hx, rfl⟩ := returns_lift.1 hcount
  refine h.emitOn hemit hjump hbase fun r hr => .inr (hreads r ?_)
  rwa [operand_eq_ok hx] at hr

/-- An instruction with a constant, on a register that is at hand. -/
theorem emitTo {j : Constant} (h : s.Works dest own opened p k c)
    (hr : Returns (emitTo line op x j) c u c') (hjump : ¬op.IsJump) (hx : x.toNat ∈ own)
    (hreads : ∀ b r, ¬op.Reads x.toNat b r) : s.Works dest own opened p k c' := by
  obtain ⟨i, c₁, hi, hr⟩ := returns_bind.1 hr
  exact (h.constant hi).emitOn hr hjump hx fun r hr => (hreads _ r hr).elim

theorem emitFrom {j : Constant} (h : s.Works dest own opened p k c)
    (hr : Returns (emitFrom line op j y) c u c') (hjump : ¬op.IsJump)
    (hwrites : ∀ a r, ¬op.Writes a r) (hreads : ∀ a r, op.Reads a y.toNat r → r ∈ own) :
    s.Works dest own opened p k c' := by
  obtain ⟨i, c₁, hi, hr⟩ := returns_bind.1 hr
  exact (h.constant hi).emit hr hjump (fun r hr => (hwrites _ r hr).elim) (hreads _)

theorem moveResult (h : s.Works dest own opened p k c)
    (hr : Returns (moveResult line d base) c u c') (hd : ∀ r ∈ d.map UInt32.toNat, r ∈ own)
    (hbase : base.toNat ∈ own) : s.Works dest own opened p k c' := by
  cases d with
  | none =>
    obtain ⟨-, rfl⟩ := returns_pure.1 hr
    exact h
  | some d => exact h.emitOn hr (by decide) (hd _ rfl) fun r hr => .inr (hr ▸ hbase)

/-- The registers in a row belong to the parts in a row. -/
theorem row {first : UInt32} (h : s.Works dest own opened p k c)
    (hparts : ∀ part ∈ ps, IsDisciplined part) (hr : Returns (row first ps) c u c')
    (hown : ∀ r, first.toNat ≤ r → r < first.toNat + ps.length → r ∈ own)
    (hroom : first.toNat + ps.length < operandLimit) :
    ∃ q, s.Works dest own opened q k c' := by
  induction ps generalizing first c p with
  | nil =>
    obtain ⟨-, rfl⟩ := returns_pure.1 hr
    exact ⟨p, h⟩
  | cons part rest ih =>
    obtain ⟨_, c₁, h₁, hr⟩ := returns_bind.1 hr
    rw [List.length_cons] at hown hroom
    have hnext : (first + 1).toNat = first.toNat + 1 :=
      toNat_add (Nat.lt_of_le_of_lt (by rw [UInt32.toNat_one]; omega) hroom)
    obtain ⟨q, h⟩ := h.child (hparts part List.mem_cons_self) h₁ fun r hr =>
      hown r (by cases hr; rfl) (by cases hr; omega)
    refine ih h (fun part hp => hparts part (List.mem_cons_of_mem _ hp)) hr ?_ (by omega)
    exact fun r hle hlt => hown r (by omega) (by omega)

theorem sequence (h : s.Works dest own opened p k c)
    (hparts : ∀ part ∈ ps, IsDisciplined part) (hr : Returns (sequence ps) c u c') :
    ∃ q, s.Works dest own opened q k c' := by
  induction ps generalizing c p with
  | nil =>
    obtain ⟨-, rfl⟩ := returns_pure.1 hr
    exact ⟨p, h⟩
  | cons part rest ih =>
    obtain ⟨_, c₁, h₁, hr⟩ := returns_bind.1 hr
    obtain ⟨q, h⟩ := h.child (hparts part List.mem_cons_self) h₁ nofun
    exact ih h (fun part hp => hparts part (List.mem_cons_of_mem _ hp)) hr

/-- With the destination, or else a new register, at hand. -/
theorem scratch (hr : Returns (scratch dest) s x c) :
    ∃ own, x.toNat ∈ own ∧ s.Works dest own [] {} 0 c := by
  cases dest with
  | none => exact ⟨_, Set.mem_insert _ _, (start s none).register hr⟩
  | some d =>
    obtain ⟨rfl, rfl⟩ := returns_pure.1 hr
    exact ⟨{r | r ∈ (some x).map UInt32.toNat}, rfl, start c (some x)⟩

end Works

/-! ### Expressions -/

variable {left right test yes object value body source path : Part} {name : String} {tag : Tag}
  {nameLine : UInt32}

theorem isDisciplined_binary (hleft : IsDisciplined left) (hright : IsDisciplined right)
    (hjump : ¬op.IsJump) (hreads : ∀ {a b r : Nat}, op.Reads a b r → r = a ∨ r = b) :
    IsDisciplined (binary line op left right) := by
  intro dest c c' u hr
  simp only [binary, returns_bind] at hr
  obtain ⟨d, c₁, h₁, _, c₂, h₂, second, c₃, h₃, _, c₄, h₄, h₅⟩ := hr
  obtain ⟨own, hd, h⟩ := Works.scratch h₁
  obtain ⟨_, h⟩ := h.child hleft h₂ (by rintro _ ⟨⟩; exact hd)
  replace h := h.register h₃
  obtain ⟨p, h⟩ := h.child hright h₄ (by rintro _ ⟨⟩; exact .inl rfl)
  refine ⟨p, (h.emitOn h₅ hjump (.inr hd) fun r hr => ?_).disciplined⟩
  exact (hreads hr).imp_right .inl

theorem isDisciplined_logical (hleft : IsDisciplined left) (hright : IsDisciplined right)
    (hjump : op.IsJump) : IsDisciplined (logical line op left right) := by
  intro dest c c' u hr
  simp only [logical, returns_bind] at hr
  obtain ⟨d, c₁, h₁, _, c₂, h₂, skip, c₃, h₃, _, c₄, h₄, h₅⟩ := hr
  obtain ⟨own, hd, h⟩ := Works.scratch h₁
  obtain ⟨_, h⟩ := h.child hleft h₂ (by rintro _ ⟨⟩; exact hd)
  replace h := h.emitJump h₃ hjump (.inr hd)
  obtain ⟨p, h⟩ := h.child hright h₄ (by rintro _ ⟨⟩; exact hd)
  exact ⟨p, (h.pointHere (.refl _) h₅).1.disciplined⟩

theorem isDisciplined_unary (hpart : IsDisciplined part) (hjump : ¬op.IsJump)
    (hreads : ∀ {a b r : Nat}, op.Reads a b r → r = a) : IsDisciplined (unary line op part) := by
  intro dest c c' u hr
  simp only [unary, returns_bind] at hr
  obtain ⟨d, c₁, h₁, _, c₂, h₂, h₃⟩ := hr
  obtain ⟨own, hd, h⟩ := Works.scratch h₁
  obtain ⟨p, h⟩ := h.child hpart h₂ (by rintro _ ⟨⟩; exact hd)
  exact ⟨p, (h.emitOn h₃ hjump hd fun r hr => .inl (hreads hr)).disciplined⟩

theorem isDisciplined_container {count : Nat} (hparts : ∀ part ∈ ps, IsDisciplined part)
    (hjump : ¬op.IsJump) (hreads : ∀ {a r : Nat}, op.Reads a count r →
      a ≤ r ∧ r < a + max ps.length 1) : IsDisciplined (container tag line op count ps) := by
  intro dest c c' u hr
  rw [container, returns_valueDest] at hr
  simp only [returns_bind] at hr
  obtain ⟨d, rfl, base, c₁, h₁, _, c₂, h₂, _, c₃, h₃, h₄⟩ := hr
  obtain ⟨h, hroom⟩ := (Works.start c (some d)).reserve h₁
  obtain ⟨p, h⟩ := h.row hparts h₂ (fun r hle hlt => .inr ⟨hle, by omega⟩) (by omega)
  have hbase : base.toNat ∈ Set.Ico base.toNat (base.toNat + max ps.length 1) :=
    ⟨Nat.le_refl _, by omega⟩
  replace h := h.emitRun h₃ hjump (.inr hbase) fun r hr => .inr (hreads hr)
  replace h := h.emitOn h₄ (by decide) (.inl rfl) (by rintro _ ⟨⟩; exact .inr (.inr hbase))
  exact ⟨p, h.disciplined⟩

theorem isDisciplined_assign (hvalue : IsDisciplined value) :
    IsDisciplined (assign line name value) := by
  intro dest c c' u hr
  simp only [assign, returns_bind] at hr
  obtain ⟨r, c₁, h₁, _, c₂, h₂, h₃⟩ := hr
  obtain ⟨own, hd, h⟩ := Works.scratch h₁
  obtain ⟨p, h⟩ := h.child hvalue h₂ (by rintro _ ⟨⟩; exact hd)
  exact ⟨p, (h.emitFrom h₃ (by decide) nofun fun _ q hq => hq ▸ hd).disciplined⟩

theorem isDisciplined_format (hparts : ∀ part ∈ ps, IsDisciplined part) :
    IsDisciplined (format nameLine line ps) := by
  intro dest c c' u hr
  simp only [format, returns_bind] at hr
  obtain ⟨base, c₁, h₁, _, c₂, h₂, _, c₃, h₃, h₄⟩ := hr
  obtain ⟨h, hroom⟩ := (Works.start c dest).reserve h₁
  obtain ⟨p, h⟩ := h.row hparts h₂ (fun r hle hlt => .inr ⟨hle, by omega⟩) (by omega)
  have hown : ∀ r, base.toNat ≤ r ∧ r < base.toNat + 1 + (ps.length - 1) →
      r ∈ Set.Ico base.toNat (base.toNat + max ps.length 1) := fun r hr => ⟨hr.1, by omega⟩
  have hbase := hown base.toNat ⟨Nat.le_refl _, by omega⟩
  replace h := h.emitRun h₃ (by decide) (.inr hbase) fun r hr => .inr (hown r hr)
  exact ⟨p, (h.moveResult h₄ (fun r hr => .inl hr) (.inr hbase)).disciplined⟩

theorem isDisciplined_callFunction (hparts : ∀ part ∈ ps, IsDisciplined part) :
    IsDisciplined (callFunction nameLine line name ps) := by
  intro dest c c' u hr
  simp only [callFunction, returns_bind] at hr
  obtain ⟨base, c₁, h₁, _, c₂, h₂, _, c₃, h₃, _, c₄, h₄, h₅⟩ := hr
  obtain ⟨h, hroom⟩ := (Works.start c dest).reserve h₁
  rw [Nat.max_eq_left (Nat.le_add_left _ _)] at h hroom
  have hown : ∀ r, base.toNat ≤ r ∧ r < base.toNat + 1 + ps.length →
      r ∈ Set.Ico base.toNat (base.toNat + (ps.length + 1)) := fun r hr => ⟨hr.1, by omega⟩
  have hbase := hown base.toNat ⟨Nat.le_refl _, by omega⟩
  have hnext : (base + 1).toNat = base.toNat + 1 :=
    toNat_add (Nat.lt_of_le_of_lt (by rw [UInt32.toNat_one]; omega) hroom)
  replace h := h.emitTo h₂ (by decide) (.inr hbase) nofun
  obtain ⟨p, h⟩ := h.row hparts h₃ (fun r hle hlt => .inr (hown r ⟨by omega, by omega⟩)) (by omega)
  replace h := h.emitRun h₄ (by decide) (.inr hbase) fun r hr => .inr (hown r hr)
  exact ⟨p, (h.moveResult h₅ (fun r hr => .inl hr) (.inr hbase)).disciplined⟩

theorem isDisciplined_callMethod (hobject : IsDisciplined object)
    (hparts : ∀ part ∈ ps, IsDisciplined part) :
    IsDisciplined (callMethod nameLine line object name ps) := by
  intro dest c c' u hr
  simp only [callMethod, returns_bind] at hr
  obtain ⟨base, c₁, h₁, _, c₂, h₂, _, c₃, h₃, _, c₄, h₄, _, c₅, h₅, h₆⟩ := hr
  obtain ⟨h, hroom⟩ := (Works.start c dest).reserve h₁
  rw [Nat.max_eq_left (by omega)] at h hroom
  have hown : ∀ r, base.toNat ≤ r ∧ r < base.toNat + 2 + ps.length →
      r ∈ Set.Ico base.toNat (base.toNat + (ps.length + 2)) := fun r hr => ⟨hr.1, by omega⟩
  have hbase := hown base.toNat ⟨Nat.le_refl _, by omega⟩
  have hnext : (base + 1).toNat = base.toNat + 1 :=
    toNat_add (Nat.lt_of_le_of_lt (by rw [UInt32.toNat_one]; omega) hroom)
  have hfirst : (base + 2).toNat = base.toNat + 2 :=
    toNat_add (Nat.lt_of_le_of_lt (by rw [show (2 : UInt32).toNat = 2 from rfl]; omega) hroom)
  obtain ⟨_, h⟩ := h.child hobject h₂ (by rintro _ ⟨⟩; exact .inr hbase)
  replace h := h.emitTo h₃ (by decide) (.inr (hown _ ⟨by omega, by omega⟩)) nofun
  obtain ⟨p, h⟩ := h.row hparts h₄ (fun r hle hlt => .inr (hown r ⟨by omega, by omega⟩)) (by omega)
  replace h := h.emitRun h₅ (by decide) (.inr hbase) fun r hr => .inr (hown r hr)
  exact ⟨p, (h.moveResult h₆ (fun r hr => .inl hr) (.inr hbase)).disciplined⟩

theorem isDisciplined_callName (hparts : ∀ part ∈ ps, IsDisciplined part) :
    IsDisciplined (callName nameLine line name ps) := by
  intro dest c c' u hr
  unfold callName at hr
  split at hr
  · next op _ =>
    split at hr
    · refine isDisciplined_unary (hparts _ (by simp)) ?_ ?_ hr <;> cases op
      · decide
      · decide
      · decide
      all_goals exact id
    · exact (returns_throw.1 hr).elim
  · split at hr
    · split at hr
      · exact (returns_throw.1 hr).elim
      · exact isDisciplined_format hparts hr
    · exact isDisciplined_callFunction hparts hr

theorem isDisciplined_callMember {memberLine : UInt32} {names : List Node} {args : List Part}
    (hparts : ∀ part ∈ ps, IsDisciplined part) (hargs : ∀ part ∈ args, IsDisciplined part) :
    IsDisciplined (callMember line memberLine names ps args) := by
  intro dest c c' u hr
  unfold callMember at hr
  split at hr
  · split at hr
    · exact isDisciplined_callMethod (hparts _ List.mem_cons_self) hargs hr
    · exact (returns_unsupported.1 hr).elim
  · exact (returns_unsupported.1 hr).elim
  · exact (returns_unsupported.1 hr).elim

theorem isDisciplined_choice {no? : Option Part} (htest : IsDisciplined test)
    (hyes : IsDisciplined yes) (hno : ∀ no ∈ no?, IsDisciplined no) :
    IsDisciplined (choice line test yes no?) := by
  intro dest c c' u hr
  simp only [choice, returns_bind] at hr
  obtain ⟨cond, c₁, h₁, _, c₂, h₂, skip, c₃, h₃, _, c₄, h₄, hr⟩ := hr
  have h := (Works.start c dest).register h₁
  obtain ⟨_, h⟩ := h.child htest h₂ (by rintro _ ⟨⟩; exact .inl rfl)
  replace h := h.emitJump h₃ (by decide) (.inr (.inl rfl))
  obtain ⟨p, h⟩ := h.child hyes h₄ fun r hr => .inr hr
  cases no? with
  | some no =>
    simp only [returns_bind] at hr
    obtain ⟨done, c₅, h₅, _, c₆, h₆, _, c₇, h₇, h₈⟩ := hr
    replace h := h.emitJump h₅ (by decide) (.inl rfl)
    replace h := (h.pointHere (.swap _ _ _) h₆).1
    obtain ⟨p, h⟩ := h.child (hno no rfl) h₇ fun r hr => .inr hr
    exact ⟨p, (h.pointHere (.refl _) h₈).1.disciplined⟩
  | none =>
    cases dest with
    | some d =>
      simp only [returns_bind] at hr
      obtain ⟨done, c₅, h₅, _, c₆, h₆, _, c₇, h₇, h₈⟩ := hr
      replace h := h.emitJump h₅ (by decide) (.inl rfl)
      replace h := (h.pointHere (.swap _ _ _) h₆).1
      replace h := h.emitOn h₇ (by decide) (.inr rfl) nofun
      exact ⟨p, (h.pointHere (.refl _) h₈).1.disciplined⟩
    | none => exact ⟨p, (h.pointHere (.refl _) hr).1.disciplined⟩

/-! ### Statements -/

theorem disciplined_output (hvalue : IsDisciplined value)
    (hr : Returns (output line value) c u c') : ∃ p, c.Disciplined none p c' := by
  simp only [output, returns_bind] at hr
  obtain ⟨r, c₁, h₁, _, c₂, h₂, h₃⟩ := hr
  have h := (Works.start c none).register h₁
  obtain ⟨p, h⟩ := h.child hvalue h₂ (by rintro _ ⟨⟩; exact .inl rfl)
  exact ⟨p, (h.emitOn h₃ (by decide) (.inl rfl) fun q hq => .inl hq).disciplined⟩

/-- An arm of a switch works with the registers of the subject and the test, and leaves the jump at
its end open. -/
def IsDisciplinedArm (arm : UInt32 → UInt32 → Pass Nat) : Prop :=
  ∀ ⦃s c c' : Compiler⦄ ⦃dest : Option UInt32⦄ ⦃own : Set Nat⦄ ⦃opened : List Nat⦄ ⦃p : Pending⦄
    ⦃k l : Nat⦄ ⦃x y : UInt32⦄, s.Works dest own opened p k c → Returns (arm x y) c l c' →
    x.toNat ∈ own → y.toNat ∈ own → ∃ q, s.Works dest own (l :: opened) q k c'

theorem Works.guarded {l : Nat} (h : s.Works dest own opened p k c) (hbody : IsDisciplined body)
    (hr : Returns (guarded line x body) c l c') (hx : x.toNat ∈ own) :
    ∃ q, s.Works dest own (l :: opened) q k c' := by
  simp only [Compiler.guarded, returns_bind, returns_pure] at hr
  obtain ⟨skip, c₁, h₁, _, c₂, h₂, done, c₃, h₃, _, c₄, h₄, rfl, rfl⟩ := hr
  replace h := h.emitJump h₁ (by decide) (.inr hx)
  obtain ⟨q, h⟩ := h.child hbody h₂ (by simp)
  replace h := h.emitJump h₃ (by decide) (.inl rfl)
  exact ⟨q, (h.pointHere (.swap _ _ _) h₄).1⟩

theorem isDisciplinedArm_armTest (hvalue : IsDisciplined value) (hbody : IsDisciplined body) :
    IsDisciplinedArm (armTest line value body) := by
  intro s c c' dest own opened p k l x y h hr hx hy
  simp only [armTest, returns_bind] at hr
  obtain ⟨r, c₁, h₁, _, c₂, h₂, _, c₃, h₃, _, c₄, h₄, h₅⟩ := hr
  replace h := h.register h₁
  obtain ⟨_, h⟩ := h.child hvalue h₂ (by rintro _ ⟨⟩; exact .inl rfl)
  replace h := h.emitOn h₃ (by decide) (.inr hy) (by rintro _ ⟨⟩; exact .inr (.inr hx))
  replace h := h.emitOn h₄ (by decide) (.inr hy) fun q hq => hq.imp_right fun hq => .inl hq
  obtain ⟨q, h⟩ := h.guarded hbody h₅ (.inr hy)
  exact ⟨q, h.forget fun _ => .inr⟩

theorem isDisciplinedArm_armAlways (hbody : IsDisciplined body) :
    IsDisciplinedArm (armAlways line body) := by
  intro s c c' dest own opened p k l x y h hr hx hy
  simp only [armAlways, returns_bind] at hr
  obtain ⟨_, c₁, h₁, h₂⟩ := hr
  exact (h.emitOn h₁ (by decide) hy nofun).guarded hbody h₂ hy

theorem isDisciplinedArm_arm (hparts : ∀ part ∈ ps, IsDisciplined part) :
    IsDisciplinedArm (arm tag line ps) := by
  have hrefused {tag : Tag} {line : UInt32} {reason : Reason} :
      IsDisciplinedArm fun _ _ => unsupported tag line reason :=
    fun _ _ _ _ _ _ _ _ _ _ _ _ hr => (returns_unsupported.1 hr).elim
  unfold arm
  split
  · split
    · exact isDisciplinedArm_armTest (hparts _ (by simp)) (hparts _ (by simp))
    · exact isDisciplinedArm_armAlways (hparts _ (by simp))
    · exact hrefused
  · exact hrefused

theorem Works.armRow {arms : List (UInt32 → UInt32 → Pass Nat)} {ls : List Nat}
    (h : s.Works dest own opened p k c) (harms : ∀ arm ∈ arms, IsDisciplinedArm arm)
    (hr : Returns (armRow x y arms) c ls c') (hx : x.toNat ∈ own) (hy : y.toNat ∈ own) :
    ∃ q, s.Works dest own (ls ++ opened) q k c' := by
  induction arms generalizing c p opened ls with
  | nil =>
    obtain ⟨rfl, rfl⟩ := returns_pure.1 hr
    exact ⟨p, h⟩
  | cons arm rest ih =>
    simp only [Compiler.armRow, returns_bind, returns_pure] at hr
    obtain ⟨l, c₁, h₁, ls, c₂, h₂, rfl, rfl⟩ := hr
    obtain ⟨q, h⟩ := harms arm List.mem_cons_self h h₁ hx hy
    obtain ⟨q, h⟩ := ih h (fun arm ha => harms arm (List.mem_cons_of_mem _ ha)) h₂
    exact ⟨q, h.perm List.perm_middle⟩

theorem disciplined_switch {arms : List (UInt32 → UInt32 → Pass Nat)} {subject : Part}
    (hsubject : IsDisciplined subject) (harms : ∀ arm ∈ arms, IsDisciplinedArm arm)
    (hr : Returns (switch subject arms) c u c') : ∃ p, c.Disciplined none p c' := by
  simp only [switch, returns_bind] at hr
  obtain ⟨r, c₁, h₁, test, c₂, h₂, _, c₃, h₃, ls, c₄, h₄, h₅⟩ := hr
  have h := ((Works.start c none).register h₁).register h₂
  have hr : r.toNat ∈ insert test.toNat (insert r.toNat {r | r ∈ none.map UInt32.toNat}) :=
    .inr (.inl rfl)
  obtain ⟨_, h⟩ := h.child hsubject h₃ (by rintro _ ⟨⟩; exact hr)
  obtain ⟨p, h⟩ := h.armRow harms h₄ hr (.inl rfl)
  exact ⟨p, (h.pointHere (.refl _) h₅).1.disciplined⟩

theorem disciplined_foreach (hsource : IsDisciplined source) (hbody : IsDisciplined body)
    (hr : Returns (foreach line name source body) c u c') : ∃ p, c.Disciplined none p c' := by
  simp only [foreach, returns_bind, returns_offset] at hr
  obtain ⟨item, c₁, h₁, _, c₂, h₂, start, _, h₃, _, c₃, ⟨rfl, rfl⟩, _, c₄, h₄, q, c₅, h₅, _, c₆, h₆,
    again, c₇, h₇, _, c₈, h₈, _, c₉, h₉, _, c₁₀, h₁₀, _, c₁₁, h₁₁, h₁₂⟩ := hr
  have h := (Works.start c none).register h₁
  obtain ⟨p, h⟩ := h.child hsource h₂ (by rintro _ ⟨⟩; exact .inl rfl)
  replace h := h.emitJump h₃ (by decide) (.inr (.inl rfl))
  -- The body begins behind the jump that enters the loop, so its place is known from that jump.
  have hfirst : c₃.instructions.size = start + 1 := by
    obtain ⟨rfl, rfl⟩ := returns_emitJump.1 h₃
    exact Array.size_push _
  have hle := h.size_le
  replace h := (h.enterLoop h₄).inLoop hbody h₅ fun l hl => .inl (List.mem_singleton.1 hl ▸ rfl)
  replace h := (h.pointHere (.of_eq (List.append_assoc ..)) h₆).1
  replace h := h.emitJump h₇ (by decide) (.inr (.inl rfl))
  have hstart := h.lt_size (l := start) (by simp)
  replace h := h.pointTo h₈ hle (by omega)
  replace h := (h.pointHere (.refl _) h₉).1
  replace h := h.emit h₁₀ (by decide) nofun nofun
  exact ⟨p, ((h.exitLoop h₁₁).pointHere (.refl _) h₁₂).1.disciplined⟩

theorem disciplined_loop (htest : IsDisciplined test) (hbody : IsDisciplined body)
    (hr : Returns (loop line test body) c u c') : ∃ p, c.Disciplined none p c' := by
  simp only [loop, returns_bind, returns_offset] at hr
  obtain ⟨_, c, ⟨rfl, rfl⟩, cond, c₁, h₁, _, c₂, h₂, exit, c₃, h₃, q, c₄, h₄, back, c₅, h₅, _, c₆,
    h₆, _, c₇, h₇, _, c₈, h₈, h₉⟩ := hr
  have h := (Works.start c none).register h₁
  obtain ⟨p, h⟩ := h.child htest h₂ (by rintro _ ⟨⟩; exact .inl rfl)
  replace h := h.emitJump h₃ (by decide) (.inr (.inl rfl))
  replace h := h.inLoop hbody h₄ nofun
  replace h := h.emitJump h₅ (by decide) (.inl rfl)
  replace h := h.pointTo h₆ (Nat.le_refl _) h.size_le
  replace h := (h.perm (.of_eq (List.append_assoc ..))).pointAll h₇ (Nat.le_refl _) h.size_le
  replace h := (h.1.pointHere List.perm_append_comm h₈).1
  exact ⟨p, (h.pointHere (.of_eq (List.append_nil _).symm) h₉).1.disciplined⟩

theorem disciplined_leave {pending : Nat → Pending} (hpending : ∀ l, (pending l).labels = [l])
    (hr : Returns (leave tag line pending) c u c') : ∃ p, c.Disciplined none p c' := by
  simp only [leave, returns_bind, returns_suspend] at hr
  obtain ⟨l, c₁, h₁, q, outer, hloops, rfl⟩ := hr
  have h := (Works.start c none).emitJump h₁ (by decide) (.inl rfl)
  rw [← hpending l, ← List.append_nil (pending l).labels] at h
  have hc : { c₁ with loops := (q ++ pending l) :: outer } =
      { c₁ with loops := (pending l).addTo c₁.loops } := by rw [hloops]; rfl
  rw [hc]
  exact ⟨_, (h.suspend fun hnil => nomatch hloops.symm.trans hnil).disciplined⟩

theorem disciplined_inclusion (hpath : IsDisciplined path)
    (hparts : ∀ part ∈ ps, IsDisciplined part)
    (hr : Returns (inclusion tag line path ps) c u c') : ∃ p, c.Disciplined none p c' := by
  simp only [inclusion, returns_bind] at hr
  obtain ⟨r, c₁, h₁, _, c₂, h₂, hr⟩ := hr
  have h := (Works.start c none).register h₁
  obtain ⟨p, h⟩ := h.child hpath h₂ (by rintro _ ⟨⟩; exact .inl rfl)
  split at hr
  · obtain ⟨_, c₃, h₃, h₄⟩ := returns_bind.1 hr
    replace h := h.emitOn h₃ (by decide) (.inl rfl) fun q hq => .inl hq
    exact ⟨p, (h.emitOn h₄ (by decide) (.inl rfl) fun q hq => .inl hq).disciplined⟩
  split at hr
  · next hpaired =>
    simp only [returns_bind] at hr
    obtain ⟨base, c₃, h₃, _, c₄, h₄, _, c₅, h₅, _, c₆, h₆, h₇⟩ := hr
    obtain ⟨h, hroom⟩ := h.reserve h₃
    obtain ⟨p, h⟩ := h.row hparts h₄ (fun q hle hlt => .inr ⟨hle, by omega⟩) (by omega)
    have hbase : base.toNat ∈ Set.Ico base.toNat (base.toNat + max ps.length 1) :=
      ⟨Nat.le_refl _, by omega⟩
    have hmap : ∀ q, Opcode.map.Reads base.toNat (ps.length / 2) q →
        q ∈ Set.Ico base.toNat (base.toNat + max ps.length 1) := by
      rintro q ⟨hle, hlt⟩
      exact ⟨hle, by omega⟩
    replace h := h.emitRun h₅ (by decide) (.inr hbase) fun q hq => .inr (hmap q hq)
    replace h := h.emitOn h₆ (by decide) (.inl (.inl rfl)) (by
      rintro q (rfl | rfl)
      · exact .inl rfl
      · exact .inr (.inr hbase))
    exact ⟨p, (h.emitOn h₇ (by decide) (.inl (.inl rfl)) fun q hq => .inl hq).disciplined⟩
  · obtain ⟨_, c₃, h₃, -⟩ := returns_bind.1 hr
    exact (returns_unsupported.1 h₃).elim

theorem disciplined_wrapper (hpath : IsDisciplined path) (hbody : IsDisciplined body)
    (hr : Returns (wrapper line path body) c u c') : ∃ p, c.Disciplined none p c' := by
  simp only [wrapper, returns_bind] at hr
  obtain ⟨mark, c₁, h₁, _, c₂, h₂, _, c₃, h₃, r, c₄, h₄, _, c₅, h₅, h₆⟩ := hr
  have h := (Works.start c none).register h₁
  replace h := h.emitOn h₂ (by decide) (.inl rfl) nofun
  obtain ⟨_, h⟩ := h.child hbody h₃ nofun
  replace h := h.register h₄
  obtain ⟨p, h⟩ := h.child hpath h₅ (by rintro _ ⟨⟩; exact .inl rfl)
  refine ⟨p, (h.emitOn h₆ (by decide) (.inl rfl) ?_).disciplined⟩
  rintro q (rfl | rfl)
  · exact .inl rfl
  · exact .inr (.inr (.inl rfl))

/-! ### Nodes -/

theorem disciplined_emit (hr : Returns (emit line op x y) c u c') (hjump : ¬op.IsJump)
    (hwrites : ∀ r, op.Writes x.toNat r → r ∈ dest.map UInt32.toNat)
    (hreads : ∀ r, ¬op.Reads x.toNat y.toNat r) : ∃ p, c.Disciplined dest p c' :=
  ⟨{}, ((Works.start c dest).emit hr hjump hwrites fun r hr => (hreads r hr).elim).disciplined⟩

theorem disciplined_loadConst {j : Constant} (hr : Returns (emitTo line .loadConst x j) c u c') :
    ∃ p, c.Disciplined (some x) p c' :=
  ⟨{}, ((Works.start c (some x)).emitTo hr (by decide) rfl nofun).disciplined⟩

theorem disciplined_loadInteger {n : Int64} (hr : Returns (loadInteger line x n) c u c') :
    ∃ p, c.Disciplined (some x) p c' := by
  unfold loadInteger at hr
  split at hr
  · exact disciplined_emit hr (by decide) (by rintro _ ⟨⟩; rfl) nofun
  · exact disciplined_loadConst hr

theorem disciplined_loadVariable (hr : Returns (loadVariable line x name) c u c') :
    ∃ p, c.Disciplined (some x) p c' := by
  simp only [loadVariable, returns_bind, returns_get] at hr
  obtain ⟨_, _, ⟨rfl, rfl⟩, hr⟩ := hr
  split at hr
  · next slot hslot =>
    obtain rfl := returns_emit.1 hr
    refine ⟨{}, ((Works.start _ (some x)).push [] ?_ ?_ ?_).disciplined⟩
    · rintro _ ⟨⟩
      rfl
    · rintro _ ⟨⟩
      exact .inr ⟨name, slot, hslot, rfl⟩
    · simp [Opcode.IsJump, Opcode.kinds]
  · exact ⟨{}, ((Works.start _ (some x)).emitTo hr (by decide) rfl nofun).disciplined⟩

theorem isDisciplined_child (tag : Tag) (line : UInt32) (hparts : ∀ part ∈ ps, IsDisciplined part)
    (index : Nat) : IsDisciplined (child tag line ps index) := by
  intro dest c c' u hr
  unfold child at hr
  split at hr
  · next part hpart => exact hparts part (List.mem_of_getElem? hpart) hr
  · exact (returns_unsupported.1 hr).elim

mutual

theorem isDisciplined_node : (n : Node) → IsDisciplined fun dest => node dest n
  | ⟨tag, text?, children, line⟩ => by
    intro dest c c' u hr
    have hparts := isDisciplined_parts children
    have hchild := isDisciplined_child tag line hparts
    replace hr : Returns (node dest ⟨tag, text?, children, line⟩) c u c' := hr
    cases tag
    case block =>
      simp only [node, returns_expectVoid] at hr
      obtain ⟨rfl, hr⟩ := hr
      obtain ⟨p, h⟩ := (Works.start c none).sequence hparts hr
      exact ⟨p, h.disciplined⟩
    case literalText =>
      simp only [node, returns_expectVoid] at hr
      obtain ⟨rfl, hr⟩ := hr
      exact ⟨{}, ((Works.start c none).emitFrom hr (by decide) nofun nofun).disciplined⟩
    case output =>
      cases children with
      | nil =>
        simp only [node, returns_expectVoid, returns_unsupported, and_false] at hr
      | cons value rest =>
        simp only [node, returns_expectVoid] at hr
        obtain ⟨rfl, hr⟩ := hr
        split at hr
        · exact isDisciplined_node value hr
        · exact disciplined_output (isDisciplined_node value) hr
    case integer | double =>
      simp only [node, returns_valueDest] at hr
      obtain ⟨d, rfl, hr⟩ := hr
      split at hr
      · first | exact disciplined_loadInteger hr | exact disciplined_loadConst hr
      · exact (returns_unsupported.1 hr).elim
    case string =>
      simp only [node, returns_valueDest] at hr
      obtain ⟨d, rfl, hr⟩ := hr
      exact disciplined_loadConst hr
    case yes | no | nothing | loopCount | loopIndex | loopHasNext =>
      simp only [node, returns_valueDest] at hr
      obtain ⟨d, rfl, hr⟩ := hr
      exact disciplined_emit hr (by decide) (by rintro _ ⟨⟩; rfl) nofun
    case ident | dollarVar =>
      simp only [node, returns_valueDest] at hr
      obtain ⟨d, rfl, hr⟩ := hr
      exact disciplined_loadVariable hr
    case andAnd | orOr =>
      simp only [node] at hr
      exact isDisciplined_logical (hchild 0) (hchild 1) (by decide) hr
    case negation =>
      simp only [node] at hr
      exact isDisciplined_unary (hchild 0) (by decide) id hr
    case array =>
      simp only [node] at hr
      refine isDisciplined_container hparts (by decide) ?_ hr
      rintro a r ⟨hle, hlt⟩
      have := length_parts children
      exact ⟨hle, by omega⟩
    case map =>
      simp only [node] at hr
      split at hr
      · refine isDisciplined_container (isDisciplined_pairs children) (by decide) ?_ hr
        rintro a r ⟨hle, hlt⟩
        have := length_pairs children
        exact ⟨hle, by omega⟩
      · simp only [returns_valueDest, returns_unsupported, and_false, exists_false] at hr
    case call =>
      cases children with
      | nil => simp only [node, returns_unsupported] at hr
      | cons callee args =>
        obtain ⟨calleeTag, name?, names, calleeLine⟩ := callee
        have hargs := isDisciplined_parts args
        simp only [node] at hr
        split at hr
        · exact isDisciplined_callName hargs hr
        split at hr
        · exact isDisciplined_callMember (isDisciplined_parts names) hargs hr
        · exact (returns_unsupported.1 hr).elim
    case assignment =>
      cases children with
      | nil => simp only [node, returns_unsupported] at hr
      | cons target rest =>
        simp only [node] at hr
        exact isDisciplined_assign (hchild 1) hr
    case choice =>
      simp only [node] at hr
      exact isDisciplined_choice (hchild 0) (hchild 1)
        (fun no hno => hparts no (List.mem_of_getElem? hno)) hr
    case switch =>
      cases children with
      | nil =>
        simp only [node, returns_expectVoid] at hr
        obtain ⟨rfl, hr⟩ := hr
        exact disciplined_switch (hchild 0) (List.forall_mem_nil _) hr
      | cons subject cases =>
        simp only [node, returns_expectVoid] at hr
        obtain ⟨rfl, hr⟩ := hr
        exact disciplined_switch (hchild 0) (isDisciplinedArm_arms cases) hr
    case foreach =>
      cases children with
      | nil => simp only [node, returns_expectVoid, returns_unsupported, and_false] at hr
      | cons var rest =>
        simp only [node, returns_expectVoid] at hr
        obtain ⟨rfl, hr⟩ := hr
        exact disciplined_foreach (hchild 1) (hchild 2) hr
    case loop =>
      simp only [node, returns_expectVoid] at hr
      obtain ⟨rfl, hr⟩ := hr
      exact disciplined_loop (hchild 0) (hchild 1) hr
    case last | next =>
      simp only [node, returns_expectVoid] at hr
      obtain ⟨rfl, hr⟩ := hr
      exact disciplined_leave (fun _ => rfl) hr
    case inclusion =>
      cases children with
      | nil =>
        simp only [node, returns_expectVoid] at hr
        obtain ⟨rfl, hr⟩ := hr
        exact disciplined_inclusion (hchild 0) (List.forall_mem_nil _) hr
      | cons path bindings =>
        simp only [node, returns_expectVoid] at hr
        obtain ⟨rfl, hr⟩ := hr
        exact disciplined_inclusion (hchild 0) (isDisciplined_pairs bindings) hr
    case wrapper =>
      simp only [node, returns_expectVoid] at hr
      obtain ⟨rfl, hr⟩ := hr
      exact disciplined_wrapper (hchild 0) (hchild 1) hr
    case arm => simp only [node, returns_unsupported] at hr
    -- All others are operators with two operands.
    all_goals
      simp only [node, BinaryOp.ofTag?] at hr
      exact isDisciplined_binary (hchild 0) (hchild 1) (by decide) id hr

theorem isDisciplined_parts : (ns : List Node) → ∀ part ∈ parts ns, IsDisciplined part
  | [] => List.forall_mem_nil _
  | n :: rest => List.forall_mem_cons.2 ⟨isDisciplined_node n, isDisciplined_parts rest⟩

theorem isDisciplined_pairs : (ns : List Node) → ∀ part ∈ pairs ns, IsDisciplined part
  | [] => List.forall_mem_nil _
  | [key] => List.forall_mem_singleton.2 (isDisciplined_node key)
  | key :: value :: rest => by
    refine List.forall_mem_cons.2 ⟨?_, List.forall_mem_cons.2
      ⟨isDisciplined_node value, isDisciplined_pairs rest⟩⟩
    split
    · intro dest c c' u hr
      obtain ⟨d, rfl, hr⟩ := returns_valueDest.1 hr
      exact disciplined_loadConst hr
    · exact isDisciplined_node key

theorem isDisciplinedArm_arms : (ns : List Node) → ∀ arm ∈ arms ns, IsDisciplinedArm arm
  | [] => List.forall_mem_nil _
  | ⟨_, _, children, _⟩ :: rest => List.forall_mem_cons.2
    ⟨isDisciplinedArm_arm (isDisciplined_parts children), isDisciplinedArm_arms rest⟩

end

/-- A node that is compiled for a destination leaves alone what was there. Its code writes only the
destination and new registers, reads only these and the variables of loops around it, and jumps
only inside itself, but for the jumps that it leaves pending for the innermost loop around it. -/
theorem node_disciplined (n : Node) (dest : Option UInt32) (c c' : Compiler)
    (h : (node dest n).run c = (.ok (), c')) : ∃ p, c.Disciplined dest p c' :=
  isDisciplined_node n h

/-- Inside a loop along a collection, whose variable is in register one: the jump out of the loop,
if the variable is true, stays pending. -/
theorem node_disciplined_leaving : ∃ c' p,
    (node none (.branch .choice [.leaf .ident "x", .bare .last])).run
      { registers := 3, depth := 1, scope := [("x", 1)], loops := [{}] } = (.ok (), c') ∧
    c'.loops = [{ last := [2] }] ∧
    Disciplined { registers := 3, depth := 1, scope := [("x", 1)], loops := [{}] } none p c' := by
  have hok : ((node none (.branch .choice [.leaf .ident "x", .bare .last])).run
      { registers := 3, depth := 1, scope := [("x", 1)], loops := [{}] }).1.isOk := by
    decide +kernel
  have hloops : ((node none (.branch .choice [.leaf .ident "x", .bare .last])).run
      { registers := 3, depth := 1, scope := [("x", 1)], loops := [{}] }).2.loops =
        [{ last := [2] }] := by
    decide +kernel
  generalize hrun : (node none (.branch .choice [.leaf .ident "x", .bare .last])).run _ = out
    at hok hloops
  obtain ⟨_ | u, c'⟩ := out
  · cases hok
  · obtain ⟨p, hp⟩ := node_disciplined _ _ _ _ hrun
    exact ⟨c', p, rfl, hloops, hp⟩

end Compiler

end Stencil
