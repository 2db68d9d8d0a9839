import Stencil.Proofs.ExprPass

/-!
# The passes of statements

A pass for no value adds the code of a statement, whose jumps to the ends of loops around it have no
target yet. They are left pending, and get their target where the loop ends.

* `Stmt.exits`: the jumps that a statement leaves pending;
* `Layout.code_waits`: they are all that is still to be done for its code;
* `Compiler.Performs`: a part adds the code of the statement that it stands for;
* `Compiler.performs_switch`, `Compiler.performs_foreach`, …: the kinds of nodes.
-/

namespace Stencil

/-! ### Jumps out of statements -/

mutual

/-- The jumps of a statement at `pc` to the end of the loop around it and to its next round. -/
def Stmt.exits (pc : Nat) : Stmt → Pending
  | .block body => Stmt.exitsAll pc body
  | .when test body _ => body.exits (pc + test.size + 1)
  | .choice test yes no _ =>
    yes.exits (pc + test.size + 1) ++ no.exits (pc + test.size + 1 + yes.size + 1)
  | .switch subject arms => Arm.exitsAll (pc + subject.size) arms
  | .wrapper _ body _ => body.exits (pc + 1)
  | .last _ => { last := [pc] }
  | .next _ => { next := [pc] }
  | .text _ _ | .output _ _ | .eval _ | .foreach _ _ _ _ | .loop _ _ _ | .inclusion _ _
  | .inclusionWith _ _ _ => {}

/-- The same of statements in a row. -/
def Stmt.exitsAll (pc : Nat) : List Stmt → Pending
  | [] => {}
  | s :: rest => s.exits pc ++ Stmt.exitsAll (pc + s.size) rest

/-- The same of an arm. -/
def Arm.exits (pc : Nat) : Arm → Pending
  | .test value body _ => body.exits (pc + value.size + 3)
  | .always body _ => body.exits (pc + 2)

/-- The same of arms in a row. -/
def Arm.exitsAll (pc : Nat) : List Arm → Pending
  | [] => {}
  | a :: rest => a.exits pc ++ Arm.exitsAll (pc + a.size) rest

end

/-- The jump at the end of an arm at `pc`. -/
def Arm.done (pc : Nat) : Arm → Nat
  | .test value body _ => pc + value.size + 3 + body.size
  | .always body _ => pc + 2 + body.size

/-- The jumps at the ends of arms in a row. -/
def Arm.ends (pc : Nat) : List Arm → List Nat
  | [] => []
  | a :: rest => a.done pc :: Arm.ends (pc + a.size) rest

theorem Scope.Below.append {bound : Nat} {inner outer : Scope} (h : Scope.Below bound inner)
    (h' : Scope.Below bound outer) : Scope.Below bound (inner ++ outer) := by
  intro name slot hslot
  rw [List.lookup_append, Option.or_eq_some_iff] at hslot
  exact hslot.elim (h name slot) fun hslot => h' name slot hslot.2

namespace Layout

/-- The pending jumps of one kind, and what code is for if these jumps have a target. -/
structure OneKind (labels : Pending → List Nat) (jumps : Nat → Jumps) : Prop where
  empty : labels {} = []
  append : ∀ p q, labels (p ++ q) = labels p ++ labels q
  last : ∀ pc line, Waits pc (labels { last := [pc] }) fun t => [.jumpTo (jumps t).last line]
  next : ∀ pc line, Waits pc (labels { next := [pc] }) fun t => [.jumpTo (jumps t).next line]

theorem oneKind_last (next : Nat) : OneKind Pending.last fun t => ⟨t, next⟩ where
  empty := rfl
  append _ _ := rfl
  last pc line := .jumpOn pc .jump 0 line
  next pc line := .none pc [.jumpTo next line]

theorem oneKind_next (last : Nat) : OneKind Pending.next fun t => ⟨last, t⟩ where
  empty := rfl
  append _ _ := rfl
  last pc line := .none pc [.jumpTo last line]
  next pc line := .jumpOn pc .jump 0 line

variable {labels : Pending → List Nat} {jumps : Nat → Jumps}

mutual

/-- The code of a statement waits for the targets of the jumps that it leaves pending. -/
theorem code_waits (h : OneKind labels jumps) (scope : Scope) (free pc : Nat) : (s : Stmt) →
    Waits pc (labels (s.exits pc)) fun t => s.code scope (jumps t) free pc
  | .block body => codes_waits h scope free pc body
  | .when test body _ => by
    simp only [Stmt.exits, Stmt.code]
    exact (code_waits h _ _ _ body).behind _ (by simp [Nat.add_assoc])
  | .choice test yes no line => by
    simp only [Stmt.exits, Stmt.code, h.append, List.append_assoc]
    have hyes := code_waits h scope (free + 1 + test.registers) (pc + test.size + 1) yes
    have hno := (code_waits h scope (free + 1 + test.registers + yes.registers)
      (pc + test.size + 1 + yes.size + 1) no).behind
        [.jumpTo (pc + test.size + 1 + yes.size + 1 + no.size) line] rfl
    exact .behind ((hyes.append hno fun t => by simp).behind _ rfl) _ (by simp)
  | .switch subject arms => by
    simp only [Stmt.exits, Stmt.code]
    exact (armCodes_waits h _ _ _ _ _ arms).behind _ (by simp)
  | .wrapper path body _ => by
    simp only [Stmt.exits, Stmt.code, List.append_assoc]
    exact .behind ((code_waits h _ _ _ body).before _ fun t => body.length_code _ _ _ _) _ rfl
  | .last line => h.last pc line
  | .next line => h.next pc line
  | .text _ _ | .output _ _ | .eval _ | .foreach _ _ _ _ | .loop _ _ _ | .inclusion _ _
  | .inclusionWith _ _ _ => h.empty ▸ .none pc _

theorem codes_waits (h : OneKind labels jumps) (scope : Scope) (free pc : Nat) :
    (body : List Stmt) →
    Waits pc (labels (Stmt.exitsAll pc body)) fun t => Stmt.codes scope (jumps t) free pc body
  | [] => h.empty ▸ .none pc []
  | s :: rest => by
    simp only [Stmt.exitsAll, Stmt.codes, h.append]
    exact (code_waits h _ _ _ s).append (codes_waits h _ _ _ rest) fun t => by simp

theorem armCode_waits (h : OneKind labels jumps) (scope : Scope) (subject done free pc : Nat) :
    (a : Arm) →
    Waits pc (labels (a.exits pc)) fun t => a.code scope (jumps t) subject done free pc
  | .test value body line => by
    simp only [Arm.exits, Arm.code, List.append_assoc]
    have hbody := (code_waits h scope (free + 1 + value.registers) (pc + value.size + 3)
      body).before [.jumpTo done line] fun t => body.length_code _ _ _ _
    have htest : Waits (pc + value.size) _ _ := hbody.behind
      [.onRegisters .move (subject + 1) subject line, .onRegisters .test (subject + 1) free line,
        .branchTo .jumpIfFalse (subject + 1) (pc + value.size + 3 + body.size + 1) line] rfl
    exact htest.behind _ (by simp)
  | .always body _ => by
    simp only [Arm.exits, Arm.code, List.append_assoc]
    exact ((code_waits h _ _ _ body).before _ fun t => body.length_code _ _ _ _).behind _ rfl

theorem armCodes_waits (h : OneKind labels jumps) (scope : Scope) (subject done free pc : Nat) :
    (arms : List Arm) → Waits pc (labels (Arm.exitsAll pc arms)) fun t =>
      Arm.codes scope (jumps t) subject done free pc arms
  | [] => h.empty ▸ .none pc []
  | a :: rest => by
    simp only [Arm.exitsAll, Arm.codes, h.append]
    exact (armCode_waits h _ _ _ _ _ a).append (armCodes_waits h _ _ _ _ _ rest) fun t => by simp

end

/-- The code of an arm waits for what comes behind the last arm. -/
theorem armCode_waits_done {scope : Scope} {jumps : Jumps} {subject free pc : Nat} : (a : Arm) →
    Waits pc [a.done pc] fun t => a.code scope jumps subject t free pc
  | .test value body line => .behind (.jumpOn _ .jump 0 line) _ (by simp [Arm.done]; omega)
  | .always body line => .behind (.jumpOn _ .jump 0 line) _ (by simp [Arm.done]; omega)

theorem armCodes_waits_ends (scope : Scope) (jumps : Jumps) (subject free pc : Nat) :
    (arms : List Arm) →
    Waits pc (Arm.ends pc arms) fun t => Arm.codes scope jumps subject t free pc arms
  | [] => .none pc []
  | a :: rest =>
    (armCode_waits_done a).append (armCodes_waits_ends _ _ _ _ _ rest) fun t => by simp

/-! ### Layouts around statements -/

/-- Whether a compiler that has got this far is in a loop. -/
def inLoop (X : Layout) : Bool := !X.loops.isEmpty

@[simp] theorem inLoop_grow (X : Layout) (ds : List Draft) (n deep : Nat) (p : Pending) :
    (X.grow ds n deep p).inLoop = X.inLoop := by
  obtain ⟨_, _, _, _, _, _ | _⟩ := X <;> rfl

/-- The layout with the code of a statement, whose jumps out of it are left pending. -/
@[simp, grind =] def perform (X : Layout) (s : Stmt) : Layout :=
  X.grow (s.code X.scope {} X.registers X.drafts.length) s.registers s.loopDepth
    (s.exits X.drafts.length)

theorem inLoop_perform (X : Layout) (s : Stmt) : (X.perform s).inLoop = X.inLoop :=
  inLoop_grow ..

theorem inLoop_put (X : Layout) (e : Expr) (n : Nat) : (X.put e n).inLoop = X.inLoop :=
  inLoop_grow ..

theorem inLoop_tested (X : Layout) (op : Opcode) (e : Expr) (target : Nat) (line : UInt32) :
    (X.tested op e target line).inLoop = X.inLoop :=
  ((inLoop_grow ..).trans (inLoop_grow ..)).trans (inLoop_grow ..)

/-- The same of an arm. -/
@[simp] def performArm (X : Layout) (subject : Nat) (a : Arm) : Layout :=
  X.grow (a.code X.scope {} subject 0 X.registers X.drafts.length) a.registers a.loopDepth
    (a.exits X.drafts.length)

/-- The same of arms in a row. -/
@[simp] def performArms (X : Layout) (subject : Nat) (arms : List Arm) : Layout :=
  X.grow (Arm.codes X.scope {} subject 0 X.registers X.drafts.length arms)
    (Arm.registersAll arms) (Arm.loopDepths arms) (Arm.exitsAll X.drafts.length arms)

/-- The layout with the code of the body of a loop. -/
@[simp] def repeated (X : Layout) (locals : Scope) (jumps : Jumps) (s : Stmt) : Layout :=
  X.grow (s.code (locals ++ X.scope) jumps X.registers X.drafts.length) s.registers s.loopDepth

/-- The layout inside another loop. -/
def inside (X : Layout) (locals : Scope) (h : Scope.Below X.registers locals) : Layout :=
  { X with
    scope := locals ++ X.scope
    loops := {} :: X.loops
    scope_below := h.append X.scope_below }

/-- The layout with the body of an arm and the jumps around it. -/
@[simp] def guard (X : Layout) (test : Nat) (line : UInt32) (s : Stmt) : Layout :=
  X.grow
    (.branchTo .jumpIfFalse test (X.drafts.length + 1 + s.size + 1) line ::
      s.code X.scope {} X.registers (X.drafts.length + 1) ++ [.jumpTo 0 line])
    s.registers s.loopDepth (s.exits (X.drafts.length + 1))

/-- The layout with the rounds of a loop along the collection in a register. -/
@[simp] def rounds (X : Layout) (var : String) (item : Nat) (line : UInt32) (s : Stmt) : Layout :=
  let again := X.drafts.length + s.size
  X.grow (s.code ((var, item) :: X.scope) ⟨again + 1, again⟩ X.registers X.drafts.length ++
    [.branchTo .iterNext item X.drafts.length line, ⟨.loopPop, .none, .none, line⟩])
    s.registers (s.loopDepth + 1)

end Layout

namespace Compiler

open Layout

variable {α : Type} {X : Layout} {u : Unit} {a : α} {line : UInt32} {tag : Tag}
  {test path : Part} {pass body yes no : Pass Unit} {ps : List Part} {P Q : Expr → Prop}
  {S : List Expr → Prop} {A B : Bool → Stmt → Prop} {T : Bool → List Stmt → Prop}

/-- A pass makes the code of the statement that fulfils the predicate, or fails if there is none.
What the statement can be depends on whether it is in a loop. -/
def Performs (pass : Pass Unit) (A : Bool → Stmt → Prop) : Prop :=
  ∀ (X : Layout) (u : Unit),
    After pass X.compilers u = ⋃ s, ⋃ _ : A X.inLoop s, (X.perform s).compilers

theorem Performs.congr (h : Performs pass A) (hAB : ∀ b s, A b s ↔ B b s) : Performs pass B := by
  rwa [← funext fun b => funext fun s => propext (hAB b s)]

theorem performs_fails (hpass : ∀ before, After pass before () = ∅) (hA : ∀ b s, ¬A b s) :
    Performs pass A := by
  intro X u
  rw [hpass, iUnion_empty (hA _)]

/-- What follows a pass with one answer for each of some things. -/
theorem after_answers {ι β : Type} {p : Pass β} {k : β → Pass α} {before : Set Compiler}
    {Q : ι → Prop} {f : ι → β} {left : ι → Set Compiler}
    (h : ∀ b, After p before b = ⋃ i, ⋃ _ : Q i, ⋃ _ : b = f i, left i) :
    After (p >>= k) before a = ⋃ i, ⋃ _ : Q i, After (k (f i)) (left i) a := by
  simp only [after_bind, h, after_iUnion]
  ext c'
  simp only [Set.mem_iUnion, exists_prop]
  grind

/-! ### Straight statements -/

theorem performs_output (hpart : Expresses path P) :
    Performs (output line path) fun _ s => ∃ e, P e ∧ s = .output e line := by
  intro X u
  have hperform : ∀ e : Expr, ((X.grow [] 1).put e X.registers).grow
      [.onRegister .append X.registers line] 0 = X.perform (.output e line) := by
    intro e
    simp [Stmt.code, Stmt.registers, Stmt.loopDepth, Stmt.exits]
  simp (disch := grind) only [output, after_register, after_seq, after_iUnion, hpart.after,
    after_emit_one, hperform]
  exact iUnion_made fun s => (X.perform s).compilers

theorem Makes.eval {part : Part} (h : Makes part P) :
    Performs (part none) fun _ s => ∃ e, P e ∧ s = .eval e := by
  intro X u
  have hmake := h X none u nofun
  rw [Option.map_none] at hmake
  have hperform : ∀ e : Expr, X.make e none = X.perform (.eval e) := fun _ => rfl
  simp only [hmake, hperform]
  exact iUnion_made fun s => (X.perform s).compilers

theorem performs_text (s : String) :
    Performs (emitFrom line .appendText (.str s) 0) fun _ t => t = .text s line := by
  intro X u
  rw [after_emitFrom isPlain_none, Set.iUnion_iUnion_eq_left]
  rfl

theorem performs_sequence_nil : Performs (sequence []) fun _ s => s = .block [] := by
  intro X u
  rw [sequence, after_done, Set.iUnion_iUnion_eq_left]
  exact congrArg compilers grow_nil.symm

theorem performs_sequence_cons (part : Part) (hpart : Performs (part none) A)
    (hrest : Performs (sequence ps) fun b s => ∃ body, T b body ∧ s = .block body) :
    Performs (sequence (part :: ps))
      fun b s => ∃ t body, A b t ∧ T b body ∧ s = .block (t :: body) := by
  intro X u
  have hperform : ∀ t body,
      (X.perform t).perform (.block body) = X.perform (.block (t :: body)) := by
    intro t body
    simp [Stmt.code, Stmt.codes, Stmt.registers, Stmt.registersAll, Stmt.loopDepth, Stmt.loopDepths,
      Stmt.exits, Stmt.exitsAll]
  rw [sequence, after_seq, hpart X ()]
  simp only [after_iUnion, hrest _ u, inLoop_perform]
  ext c'
  simp only [Set.mem_iUnion, exists_prop]
  grind

/-! ### Choices -/

theorem performs_when {yes : Part} (htest : Expresses test P) (hyes : Performs (yes none) A) :
    Performs (choice line test yes none none)
      fun b s => ∃ e t, P e ∧ A b t ∧ s = .when e t line := by
  intro X u
  have hperform : ∀ (e : Expr) (t : Stmt), After (pointHere [X.drafts.length + e.size])
      ((X.tested .jumpIfFalse e 0 line).perform t).compilers u =
        (X.perform (.when e t line)).compilers := by
    intro e t
    rw [perform, after_pointHere_tested rfl]
    simp [tested, Stmt.code, Stmt.registers, Stmt.loopDepth, Stmt.exits, Nat.add_assoc]
  simp only [choice, after_tested .jumpIfFalse rfl htest, after_seq, after_iUnion,
    hyes _ (), inLoop_tested, hperform]
  exact iUnion_made_two fun s => (X.perform s).compilers

theorem performs_choice {yes no : Part} (htest : Expresses test P) (hyes : Performs (yes none) A)
    (hno : Performs (no none) B) : Performs (choice line test yes (some no) none)
      fun b s => ∃ e t t', P e ∧ A b t ∧ B b t' ∧ s = .choice e t t' line := by
  intro X u
  -- The layout before the second branch, where the jump behind it has no target yet.
  have hskip : ∀ (e : Expr) (t : Stmt), After (pointHere [X.drafts.length + e.size])
      (((X.tested .jumpIfFalse e 0 line).perform t).grow [.jumpTo 0 line] 0).compilers () =
        (((X.tested .jumpIfFalse e (X.drafts.length + e.size + 1 + t.size + 1) line).perform
          t).grow [.jumpTo 0 line] 0).compilers := by
    intro e t
    rw [perform, grow_grow, after_pointHere_tested rfl]
    simp [Nat.add_assoc]
  have hperform : ∀ (e : Expr) (t t' : Stmt),
      After (pointHere [((X.tested .jumpIfFalse e 0 line).perform t).drafts.length])
        ((((X.tested .jumpIfFalse e (X.drafts.length + e.size + 1 + t.size + 1) line).perform
          t).grow [.jumpTo 0 line] 0).perform t').compilers u =
            (X.perform (.choice e t t' line)).compilers := by
    intro e t t'
    have hpoint := after_pointHere_jump (u := u)
      (X.tested .jumpIfFalse e (X.drafts.length + e.size + 1 + t.size + 1) line)
      (t.code X.scope {} (X.registers + 1 + e.registers) (X.drafts.length + e.size + 1))
      (t'.code X.scope {} (X.registers + 1 + e.registers + t.registers)
        (X.drafts.length + e.size + 1 + t.size + 1))
      (t.registers + t'.registers) (max t.loopDepth t'.loopDepth)
      (t.exits (X.drafts.length + e.size + 1) ++
        t'.exits (X.drafts.length + e.size + 1 + t.size + 1)) line
    simpa [tested, Stmt.code, Stmt.registers, Stmt.loopDepth, Stmt.exits, Nat.add_assoc,
      Nat.add_comm, Nat.add_left_comm] using hpoint
  simp only [choice, after_tested .jumpIfFalse rfl htest, after_seq, after_iUnion,
    hyes _ (), after_emitJump_jump, hskip, hno _ (), inLoop_tested, inLoop_perform, inLoop_grow,
    hperform]
  exact iUnion_made_three fun s => (X.perform s).compilers

/-! ### Switches -/

theorem after_guarded {m label : Nat} {body : Part} (hbody : Performs (body none) A)
    (hm : m < X.registers) : After (guarded line (.ofNat m) body) X.compilers label =
      ⋃ s, ⋃ _ : A X.inLoop s, ⋃ _ : label = X.drafts.length + 1 + s.size,
        (X.guard m line s).compilers := by
  have hguard : ∀ s : Stmt, After (pointHere [X.drafts.length])
      (((X.grow [.branchTo .jumpIfFalse m 0 line] 0).perform s).grow [.jumpTo 0 line] 0).compilers
        () = (X.guard m line s).compilers := by
    intro s
    have hpoint := after_pointHere_branch (u := ()) .jumpIfFalse rfl X []
      (s.code X.scope {} X.registers (X.drafts.length + 1) ++ [.jumpTo 0 line])
      m s.registers s.loopDepth (s.exits (X.drafts.length + 1)) line
    simpa [Nat.add_assoc] using hpoint
  have hlabel : ∀ s : Stmt, ((X.grow [.branchTo .jumpIfFalse m 0 line] 0).perform s).drafts.length =
      X.drafts.length + 1 + s.size := fun s => by simp [Nat.add_assoc, Nat.add_comm 1]
  simp (disch := grind) only [guarded, after_seq, after_iUnion,
    after_emitJump_branch .jumpIfFalse rfl, hbody _ (), after_emitJump_jump,
    inLoop_grow, hguard, after_pure, hlabel]

/-- The same of what stands for an arm, for a subject whose register the test's comes after. -/
def PerformsArm (arm : UInt32 → UInt32 → Pass Nat) (A : Bool → Arm → Prop) : Prop :=
  ∀ (X : Layout) (m label : Nat), m + 1 < X.registers →
    After (arm (.ofNat m) (.ofNat (m + 1))) X.compilers label =
      ⋃ a, ⋃ _ : A X.inLoop a, ⋃ _ : label = a.done X.drafts.length, (X.performArm m a).compilers

theorem PerformsArm.congr {arm : UInt32 → UInt32 → Pass Nat} {C D : Bool → Arm → Prop}
    (h : PerformsArm arm C) (hCD : ∀ b a, C b a ↔ D b a) : PerformsArm arm D := by
  rwa [← funext fun b => funext fun a => propext (hCD b a)]

theorem performsArm_test (value body : Part) (hvalue : Expresses value P)
    (hbody : Performs (body none) A) : PerformsArm (armTest line value body)
      fun b a => ∃ e s, P e ∧ A b s ∧ a = .test e s line := by
  intro X m label hm
  have hperform : ∀ (e : Expr) (s : Stmt), ((((X.grow [] 1).put e X.registers).grow
      [.onRegisters .move (m + 1) m line] 0).grow
        [.onRegisters .test (m + 1) X.registers line] 0).guard (m + 1) line s =
          X.performArm m (.test e s line) := by
    intro e s
    simp [Arm.code, Arm.registers, Arm.loopDepth, Arm.exits, Nat.add_assoc]
  have hdone : ∀ (e : Expr) (s : Stmt), ((((X.grow [] 1).put e X.registers).grow
      [.onRegisters .move (m + 1) m line] 0).grow
        [.onRegisters .test (m + 1) X.registers line] 0).drafts.length + 1 + s.size =
          (Arm.test e s line).done X.drafts.length := by
    intro e s
    simp [Arm.done, Nat.add_assoc]
  simp (disch := grind) only [armTest, after_register, after_seq, after_iUnion, hvalue.after,
    after_emit_two, after_guarded hbody, hperform, hdone, inLoop_grow,
    inLoop_put]
  ext c'
  simp only [Set.mem_iUnion, exists_prop]
  grind

theorem performsArm_always (body : Part) (hbody : Performs (body none) A) :
    PerformsArm (armAlways line body) fun b a => ∃ s, A b s ∧ a = .always s line := by
  intro X m label hm
  have hperform : ∀ s : Stmt,
      (X.grow [.onRegister .loadTrue (m + 1) line] 0).guard (m + 1) line s =
        X.performArm m (.always s line) := by
    intro s
    simp [Arm.code, Arm.registers, Arm.loopDepth, Arm.exits, Nat.add_assoc]
  have hdone : ∀ s : Stmt, (X.grow [.onRegister .loadTrue (m + 1) line] 0).drafts.length + 1 +
      s.size = (Arm.always s line).done X.drafts.length := by
    intro s
    simp [Arm.done, Nat.add_assoc]
  simp (disch := grind) only [armAlways, after_seq, after_emit_one,
    after_guarded hbody, hperform, hdone, inLoop_grow]
  ext c'
  simp only [Set.mem_iUnion, exists_prop]
  grind

/-- The same of arms in a row. -/
def PerformsArms (arms : List (UInt32 → UInt32 → Pass Nat)) (A : Bool → List Arm → Prop) : Prop :=
  ∀ (X : Layout) (m : Nat) (labels : List Nat), m + 1 < X.registers →
    After (armRow (.ofNat m) (.ofNat (m + 1)) arms) X.compilers labels =
      ⋃ as, ⋃ _ : A X.inLoop as, ⋃ _ : labels = Arm.ends X.drafts.length as,
        (X.performArms m as).compilers

theorem PerformsArms.congr {arms : List (UInt32 → UInt32 → Pass Nat)} {C D : Bool → List Arm → Prop}
    (h : PerformsArms arms C) (hCD : ∀ b as, C b as ↔ D b as) : PerformsArms arms D := by
  rwa [← funext fun b => funext fun as => propext (hCD b as)]

theorem performsArms_nil : PerformsArms [] fun _ as => as = [] := by
  intro X m labels hm
  rw [armRow, after_pure, Set.iUnion_iUnion_eq_left]
  have hnil : X.performArms m [] = X := grow_nil
  rw [hnil]
  rfl

theorem performsArms_cons {arm : UInt32 → UInt32 → Pass Nat}
    {arms : List (UInt32 → UInt32 → Pass Nat)} {C : Bool → Arm → Prop} {D : Bool → List Arm → Prop}
    (harm : PerformsArm arm C) (harms : PerformsArms arms D) :
    PerformsArms (arm :: arms) fun b as => ∃ a rest, C b a ∧ D b rest ∧ as = a :: rest := by
  intro X m labels hm
  have hperform : ∀ a rest,
      (X.performArm m a).performArms m rest = X.performArms m (a :: rest) := by
    intro a rest
    simp [Arm.codes, Arm.registersAll, Arm.loopDepths, Arm.exitsAll]
  have hends : ∀ a rest, a.done X.drafts.length :: Arm.ends (X.performArm m a).drafts.length rest =
      Arm.ends X.drafts.length (a :: rest) := by
    intro a rest
    simp [Arm.ends]
  have hroom : ∀ a : Arm, m + 1 < (X.performArm m a).registers := fun a => by
    simpa using Nat.lt_add_right _ hm
  have hloop : ∀ a : Arm, (X.performArm m a).inLoop = X.inLoop := fun a => inLoop_grow ..
  simp only [armRow, after_bind, after_pure, harm X m _ hm, after_iUnion, harms _ m _ (hroom _),
    hloop, hperform]
  ext c'
  simp only [Set.mem_iUnion, exists_prop]
  grind

theorem performs_switch {arms : List (UInt32 → UInt32 → Pass Nat)} {D : Bool → List Arm → Prop}
    (hsubject : Expresses test P) (harms : PerformsArms arms D) :
    Performs (switch test arms) fun b s => ∃ e as, P e ∧ D b as ∧ s = .switch e as := by
  intro X u
  have hperform : ∀ (e : Expr) (as : List Arm), After
      (pointHere (Arm.ends (((X.grow [] 1).grow [] 1).put e X.registers).drafts.length as))
        ((((X.grow [] 1).grow [] 1).put e X.registers).performArms X.registers as).compilers u =
          (X.perform (.switch e as)).compilers := by
    intro e as
    have hpoint := armCodes_waits_ends X.scope {} X.registers (X.registers + 2 + e.registers) _ as X
      (e.code X.scope X.registers (X.registers + 2) X.drafts.length) []
      (2 + e.registers + Arm.registersAll as) (Arm.loopDepths as)
      (Arm.exitsAll (X.drafts.length + e.size) as) (X.drafts.length + e.size + Arm.sizes as) u rfl
    rw [after_pointHere]
    simpa [Stmt.code, Stmt.registers, Stmt.loopDepth, Stmt.exits, Nat.add_assoc] using hpoint
  simp (disch := grind) only [switch, after_register, after_seq, after_iUnion, hsubject.after,
    grow_registers, after_answers fun labels => harms _ _ labels _, inLoop_grow, inLoop_put,
    hperform]
  exact iUnion_made_two fun s => (X.perform s).compilers

/-! ### Loops -/

theorem compiler_suspend (X : Layout) (p : Pending) (b : Builder) :
    (X.grow [] 0 0 p).compiler b = { X.compiler b with loops := p.addTo X.loops } := by
  simp [compiler, grow, X.depth_le]

theorem after_suspend {p : Pending} : After (suspend tag line p) X.compilers u =
    ⋃ _ : X.inLoop, (X.grow [] 0 0 p).compilers := by
  ext c'
  simp only [mem_after, returns_suspend, Set.mem_iUnion, exists_prop]
  constructor
  · rintro ⟨c, ⟨hroom, b, hb, rfl⟩, q, outer, hloops, rfl⟩
    replace hloops : X.loops = q :: outer := hloops
    refine ⟨by rw [Layout.inLoop, hloops]; rfl, hroom, b, by simpa using hb, ?_⟩
    rw [compiler_suspend, hloops]
    rfl
  · rintro ⟨hloop, hroom, b, hb, rfl⟩
    obtain ⟨q, outer, hloops⟩ : ∃ q outer, X.loops = q :: outer := by
      refine List.exists_cons_of_ne_nil fun hnil => ?_
      rw [Layout.inLoop, hnil] at hloop
      cases hloop
    refine ⟨_, ⟨hroom, b, by simpa using hb, rfl⟩, q, outer, hloops, ?_⟩
    rw [compiler_suspend, hloops]
    rfl

theorem performs_leave {pending : Nat → Pending} (leaving : Stmt)
    (hexits : ∀ pc, leaving.exits pc = pending pc)
    (hcode : ∀ scope free pc, leaving.code scope {} free pc = [.jumpTo 0 line])
    (hregisters : leaving.registers = 0) (hdepth : leaving.loopDepth = 0) :
    Performs (leave tag line pending) fun b s => b ∧ s = leaving := by
  intro X u
  have hperform : (X.grow [.jumpTo 0 line] 0).grow [] 0 0 (pending X.drafts.length) =
      X.perform leaving := by
    simp [hexits, hcode, hregisters, hdepth]
  simp only [leave, after_emitJump_jump, after_suspend, inLoop_grow, hperform]
  ext c'
  simp only [Set.mem_iUnion, exists_prop]
  grind

/-- What follows the body of a loop, with the jumps in it that are pending. -/
theorem after_inLoop (go : Pending → Pass α) (hbody : Performs body A) (locals : Scope)
    (hlocals : Scope.Below X.registers locals) :
    After (Compiler.inLoop (locals.map fun (name, slot) => (name, .ofNat slot)) body >>= go)
        X.compilers a =
      ⋃ s, ⋃ _ : A true s,
        After (go (s.exits X.drafts.length)) (X.repeated locals {} s).compilers a := by
  have hinside : ∀ b, { X.compiler b with
      scope := (locals.map fun (name, slot) => (name, .ofNat slot)) ++ (X.compiler b).scope
      loops := {} :: (X.compiler b).loops } = (X.inside locals hlocals).compiler b := fun b => by
    simp [compiler, inside]
  have hbehind : ∀ s b, (X.repeated locals {} s).compiler b =
      { ((X.inside locals hlocals).perform s).compiler b with
        scope := (((X.inside locals hlocals).perform s).compiler b).scope.drop
          (locals.map fun (name, slot) => (name, UInt32.ofNat slot)).length
        loops := X.loops } := fun s b => by
    simp [compiler, inside, grow, Pending.addTo_empty]
  have hafter := hbody (X.inside locals hlocals) ()
  refine after_answers fun p => ?_
  ext c'
  simp only [mem_after, returns_inLoop, Set.mem_iUnion, exists_prop]
  constructor
  · rintro ⟨c, ⟨hroom, b, hb, rfl⟩, c₁, hc₁, rfl, rfl⟩
    have hmem : c₁ ∈ After body (X.inside locals hlocals).compilers () :=
      ⟨_, ⟨hroom, b, hb, rfl⟩, hinside b ▸ hc₁⟩
    simp only [hafter, Set.mem_iUnion, exists_prop] at hmem
    obtain ⟨s, hs, hroom', b', hb', rfl⟩ := hmem
    exact ⟨s, hs, rfl, hroom', b', hb', (hbehind s b').symm⟩
  · rintro ⟨s, hs, rfl, hroom', b', hb', rfl⟩
    have hmem : ((X.inside locals hlocals).perform s).compiler b' ∈
        After body (X.inside locals hlocals).compilers () := by
      rw [hafter]
      simp only [Set.mem_iUnion, exists_prop]
      exact ⟨s, hs, hroom', b', hb', rfl⟩
    obtain ⟨_, ⟨hroom, b, hb, rfl⟩, hc₁⟩ := hmem
    exact ⟨_, ⟨hroom, b, hb, rfl⟩, _, hinside b ▸ hc₁, rfl, hbehind s b'⟩

variable {s : Stmt} {locals : Scope} {last next target m n : Nat} {op : Opcode} {ds es : List Draft}

theorem after_pointNext (X : Layout) (s : Stmt) (locals : Scope) (last target m : Nat)
    (es : List Draft) : After (pointAll target (s.exits X.drafts.length).next)
      ((X.repeated locals ⟨last, 0⟩ s).grow es m).compilers u =
        ((X.repeated locals ⟨last, target⟩ s).grow es m).compilers := by
  have hpoint := code_waits (oneKind_next last) (locals ++ X.scope) X.registers _ s X [] es
    (s.registers + m) s.loopDepth {} target u rfl
  simpa using hpoint

theorem after_pointLast (X : Layout) (s : Stmt) (locals : Scope) (next target m : Nat)
    (es : List Draft) : After (pointAll target (s.exits X.drafts.length).last)
      ((X.repeated locals ⟨0, next⟩ s).grow es m).compilers u =
        ((X.repeated locals ⟨target, next⟩ s).grow es m).compilers := by
  have hpoint := code_waits (oneKind_last next) (locals ++ X.scope) X.registers _ s X [] es
    (s.registers + m) s.loopDepth {} target u rfl
  simpa using hpoint

/-- A jump that has just been added can be pointed at an earlier instruction. -/
theorem after_pointBack (op : Opcode) (n : Nat) :
    After (doing (Assembly.pointTo X.drafts.length target))
      (X.grow [.jumpOn op n 0 line] 0).compilers u =
        (X.grow [.jumpOn op n target line] 0).compilers :=
  after_pointTo op n [] []

theorem after_pointBack_branch (op : Opcode) (hop : op.isTargetFirst = false) :
    After (doing (Assembly.pointTo X.drafts.length target))
      (X.grow [.branchTo op n 0 line] 0).compilers u =
        (X.grow [.branchTo op n target line] 0).compilers := by
  rw [Draft.branchTo_eq_jumpOn hop, Draft.branchTo_eq_jumpOn hop]
  exact after_pointBack op n

theorem after_pointBack_jump : After (doing (Assembly.pointTo X.drafts.length target))
    (X.grow [.jumpTo 0 line] 0).compilers u = (X.grow [.jumpTo target line] 0).compilers :=
  after_pointBack .jump 0

theorem after_rounds {body : Part} {var : String} {go : Pass α} (hbody : Performs (body none) A)
    (hm : m < X.registers) :
    After (do
      doing Assembly.enterLoop
      let pending ← Compiler.inLoop [(var, .ofNat m)] (body none)
      pointHere pending.next
      let again ← emitJump line .iterNext (.ofNat m)
      doing (Assembly.pointTo again X.drafts.length)
      pointHere pending.last
      emit line .loopPop 0 0
      doing Assembly.exitLoop
      go) X.compilers a = ⋃ s, ⋃ _ : A true s, After go (X.rounds var m line s).compilers a := by
  have hlocals : Scope.Below X.enter.registers [(var, m)] := by
    refine .cons ?_ hm var
    exact nofun
  have hinLoop (go : Pending → Pass α) := after_inLoop (a := a) go hbody [(var, m)] hlocals
  rw [after_seq, after_enterLoop]
  refine (hinLoop _).trans (Set.iUnion₂_congr fun s _ => ?_)
  have hroom (jumps : Jumps) : m < (X.enter.repeated [(var, m)] jumps s).registers :=
    Nat.lt_add_right _ hm
  have hnext (target : Nat) := after_pointNext (u := ()) X.enter s [(var, m)] 0 target 0 []
  simp only [grow_nil] at hnext
  rw [after_seq, after_pointHere, hnext, after_emitJump_branch .iterNext rfl (hroom _), after_seq,
    after_pointBack_branch .iterNext rfl, after_seq, after_pointHere, after_pointLast, after_seq,
    after_emit isPlain_none isPlain_none, after_seq, after_exitLoop]
  simp [exit_enter_grow, Nat.add_assoc]

theorem performs_foreach {body : Part} (var : String) (hsource : Expresses test P)
    (hbody : Performs (body none) A) : Performs (foreach line var test body)
      fun _ s => ∃ e t, P e ∧ A true t ∧ s = .foreach var e t line := by
  intro X u
  have hperform : ∀ (e : Expr) (t : Stmt), After (pointHere [X.drafts.length + e.size])
      ((X.tested .iterStart e 0 line).rounds var X.registers line t).compilers u =
        (X.perform (.foreach var e t line)).compilers := by
    intro e t
    rw [rounds, after_pointHere_tested rfl]
    simp [tested, Stmt.code, Stmt.registers, Stmt.loopDepth, Stmt.exits, Nat.add_assoc]
  simp (disch := grind) only [foreach, after_tested .iterStart rfl hsource, after_offset,
    after_rounds hbody, hperform]
  exact iUnion_made_two fun s => (X.perform s).compilers

theorem performs_loop {body : Part} (htest : Expresses test P) (hbody : Performs (body none) A) :
    Performs (loop line test body) fun _ s => ∃ e t, P e ∧ A true t ∧ s = .loop e t line := by
  intro X u
  have hinLoop (X : Layout) (go : Pending → Pass Unit) :
      After (Compiler.inLoop [] (body none) >>= go) X.compilers u = ⋃ s, ⋃ _ : A true s,
        After (go (s.exits X.drafts.length)) (X.repeated [] {} s).compilers u :=
    after_inLoop go hbody [] (by exact nofun)
  have hexit : ∀ (e : Expr) (t : Stmt), After (pointHere [X.drafts.length + e.size])
      (((X.tested .jumpIfFalse e 0 line).repeated [] ⟨0, X.drafts.length⟩ t).grow
        [.jumpTo X.drafts.length line] 0).compilers () =
          (((X.tested .jumpIfFalse e (X.drafts.length + e.size + 1 + t.size + 1) line).repeated []
            ⟨0, X.drafts.length⟩ t).grow [.jumpTo X.drafts.length line] 0).compilers := by
    intro e t
    rw [repeated, grow_grow, after_pointHere_tested rfl]
    simp [Nat.add_assoc]
  have hperform : ∀ (e : Expr) (t : Stmt),
      After (pointHere (t.exits (X.tested .jumpIfFalse e 0 line).drafts.length).last)
        (((X.tested .jumpIfFalse e (X.drafts.length + e.size + 1 + t.size + 1) line).repeated []
          ⟨0, X.drafts.length⟩ t).grow [.jumpTo X.drafts.length line] 0).compilers u =
            (X.perform (.loop e t line)).compilers := by
    intro e t
    have hpoint := after_pointLast (u := u)
      (X.tested .jumpIfFalse e (X.drafts.length + e.size + 1 + t.size + 1) line) t []
      X.drafts.length (X.drafts.length + e.size + 1 + t.size + 1) 0 [.jumpTo X.drafts.length line]
    rw [after_pointHere]
    simp only [grow_drafts, repeated, List.length_append, length_tested, Stmt.length_code,
      List.length_singleton] at hpoint ⊢
    rw [hpoint]
    simp [tested, Stmt.code, Stmt.registers, Stmt.loopDepth, Stmt.exits, Nat.add_assoc]
  simp only [loop, after_offset, after_tested .jumpIfFalse rfl htest, after_seq,
    hinLoop, after_emitJump_jump, after_pointBack_jump, after_pointNext, hexit, hperform]
  exact iUnion_made_two fun s => (X.perform s).compilers

/-! ### Other templates -/

theorem performs_inclusion (hpath : Expresses path P) :
    Performs (inclusion tag line path []) fun _ s => ∃ e, P e ∧ s = .inclusion e line := by
  intro X u
  have hperform : ∀ e : Expr, ((((X.grow [] 1).put e X.registers).grow
      [.onRegister .inclusion X.registers line] 0).grow [.onRegister .append X.registers line] 0) =
        X.perform (.inclusion e line) := by
    intro e
    simp [Stmt.code, Stmt.registers, Stmt.loopDepth, Stmt.exits]
  simp (disch := grind) only [inclusion, List.isEmpty_nil, if_true, after_register, after_seq,
    after_iUnion, hpath.after, after_emit_one, hperform]
  exact iUnion_made fun s => (X.perform s).compilers

theorem performs_inclusionWith (hpath : Expresses path P) (hps : ExpressesAll ps S) (hne : ps ≠ [])
    (heven : ps.length % 2 = 0) : Performs (inclusion tag line path ps)
      fun _ s => ∃ e es, P e ∧ S es ∧ s = .inclusionWith e es line := by
  intro X u
  have hperform : ∀ e es, S es → ((((((X.grow [] 1).put e X.registers).grow []
      (max ps.length 1)).putAll es ((X.grow [] 1).put e X.registers).registers).grow [.onRun .map
        ((X.grow [] 1).put e X.registers).registers (ps.length / 2) line] 0).grow
          [.onRegisters .inclusionWith X.registers ((X.grow [] 1).put e X.registers).registers line]
            0).grow [.onRegister .append X.registers line] 0 =
              X.perform (.inclusionWith e es line) := by
    intro e es hes
    have hlength := hps.length es hes
    simp [Stmt.code, Stmt.registers, Stmt.loopDepth, Stmt.exits, hlength, Nat.add_assoc]
  simp (disch := grind) only [inclusion, List.isEmpty_iff, hne, if_false, heven, if_true,
    after_register, after_seq, after_iUnion, hpath.after, after_reserve, hps.after, after_emitRun,
    after_emit_two, after_emit_one]
  refine (Set.iUnion₂_congr fun e _ => Set.iUnion₂_congr fun es hes => ?_).trans
    (iUnion_made_two fun s => (X.perform s).compilers)
  rw [hperform e es hes]

theorem performs_inclusion_odd (hps : ps ≠ []) (hodd : ps.length % 2 ≠ 0) :
    Performs (inclusion tag line path ps) fun _ _ => False := by
  refine performs_fails (fun before => ?_) nofun
  simp only [inclusion, List.isEmpty_iff, hps, if_false, hodd, after_bind, after_unsupported,
    after_empty, Set.iUnion_empty]

theorem performs_wrapper {body : Part} (hpath : Expresses path P) (hbody : Performs (body none) A) :
    Performs (wrapper line path body) fun b s => ∃ t e, A b t ∧ P e ∧ s = .wrapper e t line := by
  intro X u
  have hperform : ∀ (e : Expr) (t : Stmt), (((((X.grow [] 1).grow
      [.onRegister .markOutput X.registers line] 0).perform t).grow [] 1).put e (((X.grow [] 1).grow
        [.onRegister .markOutput X.registers line] 0).perform t).registers).grow
          [.onRegisters .wrap (((X.grow [] 1).grow
            [.onRegister .markOutput X.registers line] 0).perform t).registers X.registers line] 0 =
              X.perform (.wrapper e t line) := by
    intro e t
    simp [Stmt.code, Stmt.registers, Stmt.loopDepth, Stmt.exits, Nat.add_assoc,
      Nat.add_comm 1 t.size]
  simp (disch := grind) only [wrapper, after_register, after_seq, after_iUnion, after_emit_one,
    hbody _ (), hpath.after, after_emit_two, inLoop_grow, hperform]
  exact iUnion_made_two fun s => (X.perform s).compilers

end Compiler

end Stencil
