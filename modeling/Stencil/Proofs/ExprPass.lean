import Stencil.Proofs.Grammar
import Stencil.Proofs.Placing

/-!
# The passes of expressions

A pass for a value adds the code of an expression: of the one that the node is read as. It fails if
the node is not read as any, or if a number does not fit.

* `Layout.put`, `Layout.make`: the layout with the code of an expression;
* `Compiler.Expresses`, `Compiler.Makes`: a part adds the code of the expression that it stands for,
  with its value or whether the value is needed or not;
* `Compiler.makes_binary`, `Compiler.expresses_choice`, …: the kinds of nodes.
-/

namespace Stencil

namespace Layout

variable {X : Layout}

/-- The layout with the code of an expression, whose value ends up in the register `dst`. -/
@[simp, grind =] def put (X : Layout) (e : Expr) (dst : Nat) : Layout :=
  X.grow (e.code X.scope dst X.registers X.drafts.length) e.registers

/-- The layout with the code of expressions, whose values end up in the registers from `dst` on. -/
@[simp, grind =] def putAll (X : Layout) (es : List Expr) (dst : Nat) : Layout :=
  X.grow (Expr.codeRun X.scope dst X.registers X.drafts.length es) (Expr.registersAll es)

/-- The layout with the code of an expression whose value may not be needed. -/
@[simp] def make (X : Layout) (e : Expr) : Option Nat → Layout
  | some dst => X.put e dst
  | none => X.grow (e.effect X.scope X.registers X.drafts.length) e.effectRegisters

/-- The layout with the code of an expression whose value goes to a new register, and of an
instruction on it that may go to a target. -/
def tested (X : Layout) (op : Opcode) (e : Expr) (target : Nat) (line : UInt32) : Layout :=
  ((X.grow [] 1).put e X.registers).grow [.branchTo op X.registers target line] 0

variable {op : Opcode} {e : Expr} {target : Nat} {line : UInt32}

@[simp, grind =] theorem tested_registers :
    (X.tested op e target line).registers = X.registers + 1 + e.registers := rfl

@[simp] theorem tested_scope : (X.tested op e target line).scope = X.scope := rfl

@[simp] theorem length_tested :
    (X.tested op e target line).drafts.length = X.drafts.length + e.size + 1 := by
  simp [tested, Nat.add_assoc]

end Layout

namespace Compiler

open Layout

variable {X : Layout} {u : Unit} {line nameLine x y : UInt32} {op : Opcode} {tag : Tag}
  {name : String} {part left right test yes no object value : Part} {ps : List Part}
  {P Q R : Expr → Prop} {S : List Expr → Prop} {m n : Nat}

/-- A part makes the code of the expression that fulfils `P`, or fails if there is none. -/
def Expresses (part : Part) (P : Expr → Prop) : Prop :=
  ∀ (X : Layout) (n : Nat) (u : Unit), n < X.registers →
    After (part (some (.ofNat n))) X.compilers u = ⋃ e, ⋃ _ : P e, (X.put e n).compilers

/-- The same of a part whose value may not be needed. -/
def Makes (part : Part) (P : Expr → Prop) : Prop :=
  ∀ (X : Layout) (dest : Option Nat) (u : Unit), (∀ n ∈ dest, n < X.registers) →
    After (part (dest.map .ofNat)) X.compilers u = ⋃ e, ⋃ _ : P e, (X.make e dest).compilers

/-- The same of parts in a row. -/
structure ExpressesAll (ps : List Part) (P : List Expr → Prop) : Prop where
  length : ∀ es, P es → es.length = ps.length
  after : ∀ {X : Layout} {n : Nat} {u : Unit}, n + ps.length ≤ X.registers →
    After (row (.ofNat n) ps) X.compilers u = ⋃ es, ⋃ _ : P es, (X.putAll es n).compilers

theorem Expresses.after (h : Expresses part P) (hn : n < X.registers) :
    After (part (some (.ofNat n))) X.compilers u = ⋃ e, ⋃ _ : P e, (X.put e n).compilers :=
  h X n u hn

theorem Makes.expresses (h : Makes part P) : Expresses part P :=
  fun X n u hn => h X (some n) u (by rintro _ ⟨⟩; exact hn)

theorem Expresses.congr (h : Expresses part P) (hPQ : ∀ e, P e ↔ Q e) : Expresses part Q := by
  rwa [← funext fun e => propext (hPQ e)]

theorem Makes.congr (h : Makes part P) (hPQ : ∀ e, P e ↔ Q e) : Makes part Q := by
  rwa [← funext fun e => propext (hPQ e)]

theorem ExpressesAll.congr (h : ExpressesAll ps S) {T : List Expr → Prop}
    (hST : ∀ es, S es ↔ T es) : ExpressesAll ps T := by
  rwa [← funext fun es => propext (hST es)]

/-! ### Parts in a row -/

theorem ofNat_add_one (n : Nat) : UInt32.ofNat n + 1 = .ofNat (n + 1) := (UInt32.ofNat_add n 1).symm

theorem ofNat_add_two (n : Nat) : UInt32.ofNat n + 2 = .ofNat (n + 2) := (UInt32.ofNat_add n 2).symm

theorem expressesAll_nil : ExpressesAll [] (· = []) where
  length := by
    rintro _ rfl
    rfl
  after {X n u} _ := by
    rw [row, after_done]
    simp [Expr.codeRun, Expr.registersAll]

theorem Expresses.cons (hpart : Expresses part P) (h : ExpressesAll ps S) :
    ExpressesAll (part :: ps) fun es => ∃ x xs, P x ∧ S xs ∧ es = x :: xs where
  length := by
    rintro _ ⟨x, xs, -, hxs, rfl⟩
    rw [List.length_cons, List.length_cons, h.length xs hxs]
  after {X n u} hn := by
    have hput : ∀ x xs, (X.put x n).putAll xs (n + 1) = X.putAll (x :: xs) n := by
      intro x xs
      simp [Expr.codeRun, Expr.registersAll]
    rw [List.length_cons] at hn
    simp (disch := grind) only [row, ofNat_add_one,
      after_seq, after_iUnion, hpart.after, h.after, hput]
    exact iUnion_made_two fun es => (X.putAll es n).compilers

/-! ### Values in a destination or a new register -/

theorem makes_of_scratch {go : UInt32 → Pass Unit} (hcall : ∀ e, P e → e.isCall = false)
    (h : ∀ (X : Layout) (n : Nat) (u : Unit), n < X.registers →
      After (go (.ofNat n)) X.compilers u = ⋃ e, ⋃ _ : P e, (X.put e n).compilers) :
    Makes (fun dest => do go (← scratch dest)) P := by
  intro X dest u hdest
  cases dest with
  | some n =>
    simp only [Option.map_some, scratch, pure_bind]
    rw [h X n u (hdest n rfl)]
    rfl
  | none =>
    have hmake : ∀ e, P e → (X.grow [] 1).put e X.registers = X.make e none := by
      intro e he
      simp [Expr.effect, Expr.effectRegisters, hcall e he, Nat.add_comm]
    simp only [Option.map_none, scratch, after_register]
    rw [h _ _ u (Nat.lt_succ_self _)]
    exact Set.iUnion₂_congr fun e he => by rw [hmake e he]

theorem makes_binary (hleft : Expresses left P) (hright : Expresses right Q) (op : BinaryOp) :
    Makes (binary line op.opcode left right)
      fun e => ∃ x y, P x ∧ Q y ∧ e = .binary op x y line := by
  refine makes_of_scratch (by rintro _ ⟨x, y, -, -, rfl⟩; rfl) fun X n u hn => ?_
  have hput : ∀ x y : Expr, (((X.put x n).grow [] 1).put y (X.put x n).registers).grow
      [.onRegisters op.opcode n (X.put x n).registers line] 0 =
        X.put (.binary op x y line) n := by
    intro x y
    simp [Expr.code, Expr.registers, Nat.add_assoc]
  simp (disch := grind) only [after_seq, after_iUnion,
    hleft.after, hright.after, after_register, after_emit_two, hput]
  exact iUnion_made_two fun e => (X.put e n).compilers

/-- Both operators that may pass over their second operand. -/
theorem makes_logical (logical : Expr → Expr → Expr) (hleft : Expresses left P)
    (hright : Expresses right Q) (hop : op.isTargetFirst = false)
    (hcall : ∀ x y, (logical x y).isCall = false)
    (hregisters : ∀ x y, (logical x y).registers = x.registers + y.registers)
    (hcode : ∀ x y scope dst free pc, (logical x y).code scope dst free pc =
      x.code scope dst free pc ++ [.branchTo op dst (pc + x.size + 1 + y.size) line]
        ++ y.code scope dst (free + x.registers) (pc + x.size + 1)) :
    Makes (Compiler.logical line op left right) fun e => ∃ x y, P x ∧ Q y ∧ e = logical x y := by
  refine makes_of_scratch (by rintro _ ⟨x, y, -, -, rfl⟩; exact hcall x y) fun X n u hn => ?_
  have hput : ∀ x y : Expr, After (pointHere [(X.put x n).drafts.length])
      (((X.put x n).grow [.branchTo op n 0 line] 0).put y n).compilers u =
        (X.put (logical x y) n).compilers := by
    intro x y
    have hpoint := after_pointHere_branch (u := u) op hop X
      (x.code X.scope n X.registers X.drafts.length)
      (y.code X.scope n (X.registers + x.registers) (X.drafts.length + x.size + 1))
      n (x.registers + y.registers) 0 {} line
    simpa [hcode, hregisters, Nat.add_assoc] using hpoint
  simp (disch := grind) only [after_seq, after_iUnion,
    hleft.after, hright.after, after_emitJump_branch op hop, hput]
  exact iUnion_made_two fun e => (X.put e n).compilers

/-- An operator, or a function that is an operator on texts. -/
theorem makes_unary (unary : Expr → Expr) (hpart : Expresses part P)
    (hcall : ∀ x, (unary x).isCall = false)
    (hregisters : ∀ x, (unary x).registers = x.registers)
    (hcode : ∀ x scope dst free pc, (unary x).code scope dst free pc =
      x.code scope dst free pc ++ [.onRegister op dst line]) :
    Makes (Compiler.unary line op part) fun e => ∃ x, P x ∧ e = unary x := by
  refine makes_of_scratch (by rintro _ ⟨x, -, rfl⟩; exact hcall x) fun X n u hn => ?_
  have hput : ∀ x : Expr, (X.put x n).grow [.onRegister op n line] 0 = X.put (unary x) n := by
    intro x
    simp [hcode, hregisters]
  simp (disch := grind) only [after_seq, after_iUnion,
    hpart.after, after_emit_one, hput]
  exact iUnion_made fun e => (X.put e n).compilers

theorem makes_assign (hvalue : Expresses value P) :
    Makes (assign line name value) fun e => ∃ x, P x ∧ e = .assign name x line := by
  refine makes_of_scratch (by rintro _ ⟨x, -, rfl⟩; rfl) fun X n u hn => ?_
  have hput : ∀ x : Expr, (X.put x n).grow [⟨.setVar, .const (.str name), .register n, line⟩] 0 =
      X.put (.assign name x line) n := by
    intro x
    simp [Expr.code, Expr.registers]
  simp (disch := grind) only [after_seq, after_iUnion,
    hvalue.after]
  have hplain : ∀ x : Expr, (X.put x n).IsPlain (.register n) (.ofNat n) := by
    intro x
    exact isPlain_register (by dsimp only [put, grow_registers]; omega)
  simp only [after_emitFrom (hplain _), hput]
  exact iUnion_made fun e => (X.put e n).compilers

/-! ### Calls and containers -/

theorem after_valueDest {α : Type} {go : UInt32 → Pass α} {before : Set Compiler} {d : UInt32}
    {a : α} : After (do go (← valueDest tag line (some d))) before a = After (go d) before a := rfl

theorem expresses_container {count : Nat} (container : List Expr → Expr) (hps : ExpressesAll ps S)
    (hregisters : ∀ xs, (container xs).registers = max xs.length 1 + Expr.registersAll xs)
    (hcode : ∀ xs scope dst free pc, xs.length = ps.length → (container xs).code scope dst free pc =
      Expr.codeRun scope free (free + max xs.length 1) pc xs
        ++ [.onRun op free count line, .onRegisters .move dst free line]) :
    Expresses (Compiler.container tag line op count ps) fun e => ∃ xs, S xs ∧ e = container xs := by
  intro X n u hn
  have hput : ∀ xs, S xs → (((X.grow [] (max ps.length 1)).putAll xs X.registers).grow
      [.onRun op X.registers count line] 0).grow [.onRegisters .move n X.registers line] 0 =
        X.put (container xs) n := by
    intro xs hxs
    have hlength := hps.length xs hxs
    simp [hcode xs _ _ _ _ hlength, hregisters, hlength]
  simp (disch := grind) only [Compiler.container,
    after_valueDest, after_reserve, after_seq, after_iUnion, hps.after, after_emitRun,
    after_emit_two]
  refine (Set.iUnion₂_congr fun xs hxs => ?_).trans
    (iUnion_made fun e => (X.put e n).compilers)
  rw [hput xs hxs]

/-- The move of an answer to where it is needed. -/
def moves (dest : Option Nat) (base : Nat) (line : UInt32) : List Draft :=
  match dest with
  | some d => [.onRegisters .move d base line]
  | none => []

theorem after_moveResult {dest : Option Nat} (hdest : ∀ n ∈ dest, n < X.registers)
    (hm : m < X.registers) : After (moveResult line (dest.map .ofNat) (.ofNat m)) X.compilers u =
      (X.grow (moves dest m line) 0).compilers := by
  cases dest with
  | some d => exact after_emit_two (hdest d rfl) hm
  | none =>
    rw [Option.map_none, moveResult, after_done]
    simp [moves]

theorem makes_format (hps : ExpressesAll ps S) (hne : ps ≠ []) :
    Makes (format nameLine line ps)
      fun e => ∃ t xs, S (t :: xs) ∧ e = .format t xs nameLine line := by
  intro X dest u hdest
  have hmake : ∀ t xs, S (t :: xs) →
      (((X.grow [] (max ps.length 1)).putAll (t :: xs) X.registers).grow
        [.onRun .format X.registers (ps.length - 1) nameLine] 0).grow
          (moves dest X.registers line) 0 = X.make (.format t xs nameLine line) dest := by
    intro t xs hxs
    have hlength : ps.length = xs.length + 1 := (hps.length _ hxs).symm
    cases dest <;> simp [moves, hlength, Expr.code, Expr.codeRun, Expr.effect,
      Expr.effectRegisters, Expr.isCall, Expr.registers, Expr.registersAll, Nat.add_assoc]
  have hcons : ∀ es, S es → ∃ t xs, es = t :: xs := by
    intro es hes
    refine List.exists_cons_of_ne_nil fun hnil => hne (List.length_eq_zero_iff.1 ?_)
    rw [← hps.length es hes, hnil, List.length_nil]
  simp (disch := grind) only [format, after_reserve, after_seq, after_iUnion, hps.after,
    after_emitRun, after_moveResult]
  ext c'
  simp only [Set.mem_iUnion, exists_prop]
  grind

theorem makes_callFunction (hps : ExpressesAll ps S) :
    Makes (callFunction nameLine line name ps)
      fun e => ∃ xs, S xs ∧ e = .call name xs nameLine line := by
  intro X dest u hdest
  have hmake : ∀ xs, S xs →
      ((((X.grow [] (max (ps.length + 1) 1)).grow
        [⟨.loadConst, .register X.registers, .const (.str name), nameLine⟩] 0).putAll xs
          (X.registers + 1)).grow [.onRun .call X.registers ps.length line] 0).grow
            (moves dest X.registers line) 0 = X.make (.call name xs nameLine line) dest := by
    intro xs hxs
    have hlength := hps.length xs hxs
    cases dest <;> simp [moves, ← hlength, Expr.code, Draft.loadConst, Expr.effect,
      Expr.effectRegisters, Expr.isCall, Expr.registers, List.dropLast_cons_of_ne_nil,
      Nat.add_assoc]
  simp (disch := grind) only [callFunction, ofNat_add_one, after_reserve, after_seq, after_iUnion,
    after_emitTo, hps.after, after_emitRun, after_moveResult]
  refine (Set.iUnion₂_congr fun xs hxs => ?_).trans
    (iUnion_made fun e => (X.make e dest).compilers)
  rw [hmake xs hxs]

theorem makes_callMethod (hobject : Expresses object P) (hps : ExpressesAll ps S) :
    Makes (callMethod nameLine line object name ps)
      fun e => ∃ x xs, P x ∧ S xs ∧ e = .method x name xs nameLine line := by
  intro X dest u hdest
  have hmake : ∀ x xs, S xs →
      (((((X.grow [] (max (ps.length + 2) 1)).put x X.registers).grow
        [⟨.loadConst, .register (X.registers + 1), .const (.str name), nameLine⟩] 0).putAll xs
          (X.registers + 2)).grow [.onRun .method X.registers ps.length line] 0).grow
            (moves dest X.registers line) 0 = X.make (.method x name xs nameLine line) dest := by
    intro x xs hxs
    have hlength := hps.length xs hxs
    cases dest <;> simp [moves, ← hlength, Expr.code, Draft.loadConst, Expr.effect,
      Expr.effectRegisters, Expr.isCall, Expr.registers, List.dropLast_cons_of_ne_nil,
      Nat.add_assoc]
  simp (disch := grind) only [callMethod, ofNat_add_one, ofNat_add_two, after_reserve, after_seq,
    after_iUnion, hobject.after, after_emitTo, hps.after, after_emitRun, after_moveResult]
  refine (Set.iUnion₂_congr fun x _ => Set.iUnion₂_congr fun xs hxs => ?_).trans
    (iUnion_made_two fun e => (X.make e dest).compilers)
  rw [hmake x xs hxs]

/-! ### Choices -/

theorem after_tested {α : Type} {a : α} {go : UInt32 → Nat → Pass α} (op : Opcode)
    (hop : op.isTargetFirst = false) (htest : Expresses test P) :
    After (do
      let r ← register
      test (some r)
      let skip ← emitJump line op r
      go r skip) X.compilers a = ⋃ e, ⋃ _ : P e,
        After (go (.ofNat X.registers) (X.drafts.length + e.size))
          (X.tested op e 0 line).compilers a := by
  simp (disch := grind) only [after_register, after_seq, after_iUnion, htest.after,
    after_emitJump_branch op hop, tested]
  simp

/-- The jump behind a test is pointed at the next instruction. -/
theorem after_pointHere_tested {e : Expr} {es : List Draft} {deep : Nat} {p : Pending}
    (hop : op.isTargetFirst = false) : After (pointHere [X.drafts.length + e.size])
      ((X.tested op e 0 line).grow es m deep p).compilers u =
        ((X.tested op e (X.drafts.length + e.size + 1 + es.length) line).grow es m deep
          p).compilers := by
  have hpoint := after_pointHere_branch (u := u) op hop X
    (e.code X.scope X.registers (X.registers + 1) X.drafts.length) es X.registers
    (1 + e.registers + m) deep p line
  simpa [tested] using hpoint

theorem expresses_choice (htest : Expresses test P) (hyes : Expresses yes Q)
    (hno : Expresses no R) : Expresses (choice line test yes (some no))
      fun e => ∃ x y z, P x ∧ Q y ∧ R z ∧ e = .choice x y z line := by
  intro X n u hn
  -- The layout before the second branch, where the jump behind it has no target yet.
  have hskip : ∀ x y : Expr, After (pointHere [X.drafts.length + x.size])
      (((X.tested .jumpIfFalse x 0 line).put y n).grow [.jumpTo 0 line] 0).compilers () =
        (((X.tested .jumpIfFalse x (X.drafts.length + x.size + 1 + y.size + 1) line).put y n).grow
          [.jumpTo 0 line] 0).compilers := by
    intro x y
    rw [put, grow_grow, after_pointHere_tested rfl]
    simp [Nat.add_assoc]
  have hput : ∀ x y z : Expr,
      After (pointHere [((X.tested .jumpIfFalse x 0 line).put y n).drafts.length])
        ((((X.tested .jumpIfFalse x (X.drafts.length + x.size + 1 + y.size + 1) line).put y n).grow
          [.jumpTo 0 line] 0).put z n).compilers u = (X.put (.choice x y z line) n).compilers := by
    intro x y z
    have hpoint := after_pointHere_jump (u := u)
      (X.tested .jumpIfFalse x (X.drafts.length + x.size + 1 + y.size + 1) line)
      (y.code X.scope n (X.registers + 1 + x.registers) (X.drafts.length + x.size + 1))
      (z.code X.scope n (X.registers + 1 + x.registers + y.registers)
        (X.drafts.length + x.size + 1 + y.size + 1)) (y.registers + z.registers) 0 {} line
    simpa [tested, Expr.code, Expr.registers, Nat.add_assoc, Nat.add_comm, Nat.add_left_comm]
      using hpoint
  simp (disch := grind) only [choice, after_tested .jumpIfFalse rfl htest, after_seq,
    after_iUnion, hyes.after, after_emitJump_jump, hskip, hno.after, hput]
  exact iUnion_made_three fun e => (X.put e n).compilers

/-- A choice without a second branch has the value null there. -/
theorem expresses_choice_null (htest : Expresses test P) (hyes : Expresses yes Q) :
    Expresses (choice line test yes none)
      fun e => ∃ x y, P x ∧ Q y ∧ e = .choice x y (.null line) line := by
  have hnull : Expresses (fun dest => emit line .loadNull (dest.getD 0) 0) (· = .null line) := by
    intro X n u hn
    simp (disch := grind) only [Option.getD_some, after_emit_one, Set.iUnion_iUnion_eq_left]
    simp [Expr.code, Expr.registers]
  intro X n u hn
  have hchoice : choice line test yes none (some (.ofNat n)) =
      choice line test yes (some fun dest => emit line .loadNull (dest.getD 0) 0)
        (some (.ofNat n)) := rfl
  rw [hchoice, (expresses_choice htest hyes hnull).after hn]
  ext c'
  simp only [Set.mem_iUnion, exists_prop]
  grind

/-! ### Literals and variables -/

theorem after_loadInteger {k : Int64} (hn : n < X.registers) :
    After (loadInteger line (.ofNat n) k) X.compilers u =
      (X.put (.int k line) n).compilers := by
  unfold loadInteger
  simp only [put, Expr.code, Expr.registers, Draft.loadInteger]
  split
  · next hk =>
    exact after_emit (isPlain_register hn) (isPlain_number ((Int.toNat_lt hk.1).2 hk.2))
  · exact after_emitTo hn

theorem after_loadVariable (hn : n < X.registers) :
    After (loadVariable line (.ofNat n) name) X.compilers u =
      (X.put (.var name line) n).compilers := by
  let go (found : Option UInt32) : Pass Unit :=
    found.elim (emitTo line .loadVar (.ofNat n) (.str name)) (emit line .move (.ofNat n))
  have hgo : loadVariable line (.ofNat n) name =
      (do go ((← get).scope.lookup name)) := by
    unfold loadVariable
    congr 1
    funext c
    cases c.scope.lookup name <;> rfl
  rw [hgo, after_lookup go]
  simp only [put, Expr.code, Expr.registers, Draft.loadVariable]
  cases hslot : X.scope.lookup name with
  | some slot => exact after_emit_two hn (X.scope_below name slot hslot)
  | none => exact after_emitTo hn

/-! ### Nodes -/

/-- What the node at some place in a row is read as. -/
def IsAt {α : Type} (read : Node → Except CompileError α) (ns : List Node) (index : Nat) (x : α) :
    Prop :=
  ∃ n, ns[index]? = some n ∧ read n = .ok x

section IsAt

variable {α : Type} {read : Node → Except CompileError α} {n : Node} {ns : List Node} {index : Nat}
  {x : α}

@[simp] theorem isAt_zero : IsAt read (n :: ns) 0 x ↔ read n = .ok x := by
  simp [IsAt]

@[simp] theorem isAt_succ : IsAt read (n :: ns) (index + 1) x ↔ IsAt read ns index x := by
  simp [IsAt]

theorem isAt_of_some (hn : ns[index]? = some n) : IsAt read ns index x ↔ read n = .ok x := by
  simp [IsAt, hn]

theorem not_isAt (hn : ns[index]? = none) : ¬IsAt read ns index x := by
  simp [IsAt, hn]

theorem isAt_nil : ¬IsAt read [] index x := not_isAt List.getElem?_nil

end IsAt

theorem after_throw {α : Type} (e : CompileError) (before : Set Compiler) (a : α) :
    After (throw e : Pass α) before a = ∅ := by
  refine Set.eq_empty_of_forall_notMem fun c' => ?_
  rintro ⟨c, -, h⟩
  exact returns_throw.1 h

theorem after_unsupported {α : Type} (reason : Reason) (before : Set Compiler) (a : α) :
    After (liftM (unsupported tag line reason : Except CompileError α) : Pass α) before a = ∅ :=
  after_throw _ before a

theorem after_empty {α : Type} (p : Pass α) (a : α) : After p ∅ a = ∅ := by
  refine Set.eq_empty_of_forall_notMem fun c' => ?_
  rintro ⟨c, ⟨⟩, -⟩

theorem iUnion_empty {ι : Type} {P : ι → Prop} (hP : ∀ i, ¬P i) (f : ι → Set Compiler) :
    ⋃ i, ⋃ _ : P i, f i = ∅ :=
  Set.iUnion_eq_empty.2 fun i => Set.iUnion_eq_empty.2 fun hi => absurd hi (hP i)

theorem expresses_fails (hpart : ∀ d before, After (part (some d)) before () = ∅)
    (hP : ∀ e, ¬P e) : Expresses part P := by
  intro X n u _
  rw [hpart, iUnion_empty hP]

theorem makes_fails (hpart : ∀ dest before, After (part dest) before () = ∅) (hP : ∀ e, ¬P e) :
    Makes part P := by
  intro X dest u _
  rw [hpart, iUnion_empty hP]

/-- The nodes in a row make the code of what they are read as. -/
def ExpressNodes (ns : List Node) : Prop :=
  ∀ n ∈ ns, Expresses (fun dest => node dest n) (Expr.ofNode n = .ok ·)

variable {ns children args : List Node} {text? : Option String}

theorem expresses_child (tag : Tag) (line : UInt32) (h : ExpressNodes ns) (index : Nat) :
    Expresses (child tag line (parts ns) index) (IsAt Expr.ofNode ns index) := by
  unfold child
  rw [getElem?_parts]
  cases hn : ns[index]? with
  | none =>
    exact expresses_fails (fun d before => after_unsupported _ before ()) fun e => not_isAt hn
  | some n => exact (h n (List.mem_of_getElem? hn)).congr fun e => (isAt_of_some hn).symm

theorem expressesAll_parts (h : ExpressNodes ns) :
    ExpressesAll (parts ns) (Expr.ofNodes ns = .ok ·) := by
  induction ns with
  | nil => exact expressesAll_nil.congr fun es => by simp [Expr.ofNodes, eq_comm]
  | cons n ns ih =>
    obtain ⟨hn, hns⟩ := List.forall_mem_cons.1 h
    refine (hn.cons (ih hns)).congr fun es => ?_
    simp only [Expr.ofNodes, bind_eq_ok, pure_eq_ok]
    grind

theorem expresses_key {key : Node}
    (h : Expresses (fun dest => node dest key) (Expr.ofNode key = .ok ·)) :
    Expresses (if key.tag = .ident then fun dest => do
        emitTo key.line .loadConst (← valueDest key.tag key.line dest) (.str key.text)
      else fun dest => node dest key) (Expr.ofKey key = .ok ·) := by
  unfold Expr.ofKey
  split
  · intro X n u hn
    simp (disch := grind) only [after_valueDest, after_emitTo]
    simp [Expr.code, Expr.registers, Draft.loadConst]
  · exact h

theorem expressesAll_pairs (ns : List Node) (hns : ns.length % 2 = 0) (h : ExpressNodes ns) :
    ExpressesAll (pairs ns) (Expr.ofPairs ns = .ok ·) := by
  match ns, hns with
  | [], _ => exact expressesAll_nil.congr fun es => by simp [Expr.ofPairs, eq_comm]
  | key :: value :: rest, heven =>
    have hkey := expresses_key (h key (by simp))
    rw [List.length_cons, List.length_cons] at heven
    have hrest := expressesAll_pairs rest (by omega) fun n hn => h n (by simp [hn])
    refine (hkey.cons ((h value (by simp)).cons hrest)).congr fun es => ?_
    simp only [Expr.ofPairs_cons, bind_eq_ok, pure_eq_ok]
    grind

theorem ofOperands_eq_ok {line : UInt32} {x y : Expr} :
    Expr.ofOperands tag line ns = .ok (x, y) ↔
      IsAt Expr.ofNode ns 0 x ∧ IsAt Expr.ofNode ns 1 y := by
  rcases ns with _ | ⟨l, _ | ⟨r, rest⟩⟩
  · simp [Expr.ofOperands, unsupported, isAt_nil]
  · simp [Expr.ofOperands, unsupported, bind_eq_ok, isAt_nil]
  · simp only [Expr.ofOperands, bind_eq_ok, pure_eq_ok, isAt_zero, isAt_succ, Prod.mk.injEq]
    grind

theorem node_binary {op : BinaryOp} (h : BinaryOp.ofTag? tag = some op) (text? : Option String)
    (children : List Node) (line : UInt32) :
    (fun dest => node dest ⟨tag, text?, children, line⟩) = binary line op.opcode
      (child tag line (parts children) 0) (child tag line (parts children) 1) := by
  funext dest
  cases tag <;> cases h <;> simp only [node, BinaryOp.ofTag?]

theorem makes_callName (hargs : ExpressNodes args) (name? text? : Option String)
    (names : List Node) : Makes (callName nameLine line (name?.getD "") (parts args))
      (Expr.ofNode ⟨.call, text?, ⟨.ident, name?, names, nameLine⟩ :: args, line⟩ = .ok ·) := by
  cases hop : TextOp.ofName? (name?.getD "") with
  | some op =>
    rcases args with _ | ⟨arg, _ | ⟨other, rest⟩⟩
    case cons.nil =>
      have hunary : callName nameLine line (name?.getD "") (parts [arg]) =
          unary nameLine op.opcode fun dest => node dest arg := by
        funext dest
        simp only [callName, hop, parts]
      rw [hunary]
      refine (makes_unary (.textCall op · nameLine) (hargs arg (by simp)) (fun _ => rfl)
        (fun _ => rfl) fun _ _ _ _ _ => rfl).congr fun e => ?_
      simp only [Expr.ofNode, hop, bind_eq_ok, pure_eq_ok]
      grind
    all_goals
      refine makes_fails (fun dest before => ?_) fun e => ?_
      · simp only [callName, hop, parts]
        exact after_throw _ before ()
      · simp [Expr.ofNode, hop]
  | none =>
    by_cases hname : name?.getD "" = "sprintf"
    · cases args with
      | nil =>
        refine makes_fails (fun dest before => ?_) fun e => ?_
        · simp only [callName, hname]
          exact after_throw _ before ()
        · rw [hname] at hop
          simp [Expr.ofNode, hop, hname]
      | cons template rest =>
        have hformat : callName nameLine line (name?.getD "") (parts (template :: rest)) =
            format nameLine line (parts (template :: rest)) := by
          funext dest
          rw [hname] at hop
          simp [callName, hop, hname, parts]
        rw [hformat]
        refine (makes_format (expressesAll_parts hargs) nofun).congr fun e => ?_
        rw [hname] at hop
        simp only [Expr.ofNode, hop, hname, Expr.ofNodes, bind_eq_ok, pure_eq_ok, if_true]
        grind
    · have hcall : callName nameLine line (name?.getD "") (parts args) =
          callFunction nameLine line (name?.getD "") (parts args) := by
        funext dest
        simp only [callName, hop, if_neg hname]
      rw [hcall]
      refine (makes_callFunction (expressesAll_parts hargs)).congr fun e => ?_
      unfold Expr.ofNode
      simp only [hop, if_neg hname, bind_eq_ok, pure_eq_ok]
      grind

theorem makes_callMember {names : List Node} {memberLine : UInt32} {memberText? : Option String}
    (hnames : ExpressNodes names) (hargs : ExpressNodes args) (text? : Option String) :
    Makes (callMember line memberLine names (parts names) (parts args))
      (Expr.ofNode ⟨.call, text?, ⟨.member, memberText?, names, memberLine⟩ :: args, line⟩ =
        .ok ·) := by
  match names, hnames with
  | [], _ | [_], _ =>
    refine makes_fails (fun dest before => ?_) fun e => ?_
    · exact after_unsupported _ before ()
    · simp [Expr.ofNode, unsupported]
  | object :: key :: rest, hnames =>
    by_cases hkey : key.tag = .string ∨ key.tag = .ident
    · have hmethod : callMember line memberLine (object :: key :: rest)
          (parts (object :: key :: rest)) (parts args) =
            callMethod key.line line (fun dest => node dest object) key.text (parts args) := by
        funext dest
        simp only [callMember, parts, if_pos hkey]
      rw [hmethod]
      refine (makes_callMethod (hnames object (by simp)) (expressesAll_parts hargs)).congr
        fun e => ?_
      simp only [Expr.ofNode, if_pos hkey, bind_eq_ok, pure_eq_ok]
      grind
    · refine makes_fails (fun dest before => ?_) fun e => ?_
      · simp only [callMember, parts, if_neg hkey]
        exact after_unsupported _ before ()
      · simp [Expr.ofNode, unsupported, if_neg hkey]

/-- A value that may stand as a statement. -/
theorem makes_action (kind : tag ∈ Tag.actions) (hchildren : ExpressNodes children)
    (hnames : ∀ callee ∈ children, ExpressNodes callee.children) (text? : Option String) :
    Makes (fun dest => node dest ⟨tag, text?, children, line⟩)
      (Expr.ofNode ⟨tag, text?, children, line⟩ = .ok ·) := by
  have hchild (index : Nat) := expresses_child tag line hchildren index
  simp only [Tag.actions, List.mem_append, List.mem_cons, List.not_mem_nil, or_false] at kind
  rcases kind with kind | rfl | rfl | rfl
  · rcases Tag.operator_cases kind with ⟨op, hop⟩ | rfl | rfl
    · rw [node_binary hop]
      refine (makes_binary (hchild 0) (hchild 1) op).congr fun e => ?_
      simp only [Expr.ofNode_binary hop, bind_eq_ok, pure_eq_ok, Prod.exists, ofOperands_eq_ok]
      grind
    · simp only [node]
      refine (makes_logical (.and · · line) (hchild 0) (hchild 1) rfl (fun _ _ => rfl)
        (fun _ _ => rfl) fun _ _ _ _ _ _ => rfl).congr fun e => ?_
      simp only [Expr.ofNode, bind_eq_ok, pure_eq_ok, Prod.exists, ofOperands_eq_ok]
      grind
    · simp only [node]
      refine (makes_logical (.or · · line) (hchild 0) (hchild 1) rfl (fun _ _ => rfl)
        (fun _ _ => rfl) fun _ _ _ _ _ _ => rfl).congr fun e => ?_
      simp only [Expr.ofNode, bind_eq_ok, pure_eq_ok, Prod.exists, ofOperands_eq_ok]
      grind
  · simp only [node]
    refine (makes_unary (.not · line) (hchild 0) (fun _ => rfl) (fun _ => rfl)
      fun _ _ _ _ _ => rfl).congr fun e => ?_
    cases children with
    | nil => simp [Expr.ofNode, unsupported, isAt_nil]
    | cons n rest =>
      simp only [Expr.ofNode, isAt_zero, bind_eq_ok, pure_eq_ok]
      grind
  · cases children with
    | nil =>
      simp only [node]
      exact makes_fails (fun dest before => after_unsupported _ before ()) fun e he => by cases he
    | cons target rest =>
      simp only [node]
      refine (makes_assign (hchild 1)).congr fun e => ?_
      cases rest with
      | nil => simp [Expr.ofNode, unsupported, isAt_nil]
      | cons n rest =>
        simp only [Expr.ofNode, isAt_zero, isAt_succ, bind_eq_ok, pure_eq_ok]
        grind
  · rcases children with _ | ⟨⟨calleeTag, name?, names, calleeLine⟩, args⟩
    · simp only [node]
      exact makes_fails (fun dest before => after_unsupported _ before ()) fun e he => by cases he
    · have hargs : ExpressNodes args := fun n hn => hchildren n (by simp [hn])
      simp only [node]
      by_cases hident : calleeTag = .ident
      · subst hident
        exact makes_callName hargs name? text? names
      by_cases hmember : calleeTag = .member
      · subst hmember
        exact makes_callMember (hnames _ List.mem_cons_self) hargs text?
      · simp only [if_neg hident, if_neg hmember]
        refine makes_fails (fun dest before => after_unsupported _ before ()) fun e he => ?_
        cases calleeTag <;>
          first | exact absurd rfl hident | exact absurd rfl hmember | cases he

mutual

/-- The pass of a node for a value makes the code of the expression that the node is read as. -/
theorem expresses_node : (n : Node) →
    Expresses (fun dest => node dest n) (Expr.ofNode n = .ok ·)
  | ⟨tag, text?, children, line⟩ => by
    have hchildren := expresses_nodes children
    have hchild (index : Nat) := expresses_child tag line hchildren index
    by_cases kind : tag ∈ Tag.actions
    · exact (makes_action kind hchildren (expresses_names children) text?).expresses
    cases tag
    case add | subtract | multiply | divide | modulo | concat | equals | notEquals | gt | ge | lt
        | le | range | member | andAnd | orOr | negation | assignment | call =>
      exact absurd (by decide) kind
    case block | literalText | loop | last | next | wrapper | arm =>
      refine expresses_fails (fun d before => ?_) nofun
      simp only [node]
      exact after_throw _ before ()
    case output | switch | foreach | inclusion =>
      cases children <;>
      · refine expresses_fails (fun d before => ?_) nofun
        simp only [node]
        exact after_throw _ before ()
    case integer =>
      simp only [node, Expr.ofNode, integerLiteral]
      cases Decimal.integer? (text?.getD "") with
      | some k =>
        intro X n u hn
        simp [after_valueDest, after_loadInteger hn]
      | none => exact expresses_fails (fun d before => after_unsupported _ before ()) nofun
    case double =>
      simp only [node, Expr.ofNode, doubleLiteral]
      cases Decimal.double? (text?.getD "") with
      | some bits =>
        intro X n u hn
        simp (disch := grind) only [after_valueDest, after_emitTo]
        simp [Expr.code, Expr.registers, Draft.loadConst]
      | none => exact expresses_fails (fun d before => after_unsupported _ before ()) nofun
    case string =>
      intro X n u hn
      simp (disch := grind) only [node, after_valueDest, after_emitTo]
      simp [Expr.ofNode, Expr.code, Expr.registers, Draft.loadConst]
    case yes | no | nothing | loopCount | loopIndex | loopHasNext =>
      intro X n u hn
      simp (disch := grind) only [node, after_valueDest, after_emit_one]
      simp [Expr.ofNode, Expr.code, Expr.registers, LoopFact.opcode]
    case ident | dollarVar =>
      intro X n u hn
      simp only [node, after_valueDest, after_loadVariable hn, Expr.ofNode]
      simp
    case array =>
      simp only [node]
      refine (expresses_container (.array · line) (expressesAll_parts hchildren)
        (fun _ => rfl) ?_).congr fun e => ?_
      · rintro xs scope dst free pc hlength
        rw [← length_parts, ← hlength]
        rfl
      · simp only [Expr.ofNode, bind_eq_ok, pure_eq_ok]
        grind
    case map =>
      by_cases heven : children.length % 2 = 0
      · simp only [node, if_pos heven]
        refine (expresses_container (.map · line) (expressesAll_pairs children heven hchildren)
          (fun _ => rfl) ?_).congr fun e => ?_
        · rintro xs scope dst free pc hlength
          rw [← length_pairs, ← hlength]
          rfl
        · simp only [Expr.ofNode, if_pos heven, bind_eq_ok, pure_eq_ok]
          grind
      · refine expresses_fails (fun d before => ?_) fun e => ?_
        · simp only [node, if_neg heven]
          exact after_throw _ before ()
        · simp only [Expr.ofNode, if_neg heven]
          exact nofun
    case choice =>
      simp only [node, getElem?_parts]
      cases hno : children[2]? with
      | none =>
        refine (expresses_choice_null (hchild 0) (hchild 1)).congr fun e => ?_
        match children, hno with
        | [], _ => simp [Expr.ofNode, unsupported, isAt_nil]
        | [_], _ => simp [Expr.ofNode, unsupported, bind_eq_ok, isAt_nil]
        | [test, yes], _ =>
          simp only [Expr.ofNode, isAt_zero, isAt_succ, bind_eq_ok, pure_eq_ok]
          grind
      | some no =>
        refine (expresses_choice (hchild 0) (hchild 1)
          (hchildren no (List.mem_of_getElem? hno))).congr fun e => ?_
        match children, hno with
        | test :: yes :: no :: rest, rfl =>
          simp only [Expr.ofNode, isAt_zero, isAt_succ, bind_eq_ok, pure_eq_ok]
          grind

theorem expresses_nodes : (ns : List Node) → ExpressNodes ns
  | [] => List.forall_mem_nil _
  | n :: rest => List.forall_mem_cons.2 ⟨expresses_node n, expresses_nodes rest⟩

theorem expresses_names : (ns : List Node) → ∀ callee ∈ ns, ExpressNodes callee.children
  | [] => List.forall_mem_nil _
  | ⟨_, _, names, _⟩ :: rest =>
    List.forall_mem_cons.2 ⟨expresses_nodes names, expresses_names rest⟩

end

end Compiler

end Stencil
