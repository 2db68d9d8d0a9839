import Stencil.Bytecode.Validity
import Stencil.Proofs.Extent
import Stencil.Proofs.Numbering

/-!
# Compiled programs are valid

Every draft that the compiler writes down suits the program it becomes a part of: its operands are
of the kinds that its operation asks for, its registers and targets are there, and so are all
registers of the run that it reads.

* `Draft.Suits`: a draft suits a program with the given numbers of registers and instructions;
* `Expr.code_suits`, `Stmt.code_suits`: all drafts do;
* `Program.IsSound`, `Program.compile_isSound`: what this means for a compiled program.
-/

namespace Stencil

/-! ### Drafts that suit a program -/

/-- An operand is of the given kind and in the range that a program with `registers` registers and
`instructions` instructions has for it. -/
def Operand.Suits (registers instructions : Nat) : OperandKind → Operand → Prop
  | .unused, .none => True
  | .register, .register r => r < registers
  | .pool, .const _ => True
  | .target, .target pc => pc < instructions
  | .immediate, .number _ => True
  | _, _ => False

@[simp] theorem Operand.suits_register {R N r : Nat} :
    Operand.Suits R N .register (.register r) ↔ r < R := Iff.rfl

@[simp] theorem Operand.suits_target {R N pc : Nat} :
    Operand.Suits R N .target (.target pc) ↔ pc < N := Iff.rfl

@[simp] theorem Operand.suits_unused {R N : Nat} : Operand.Suits R N .unused .none := trivial

@[simp] theorem Operand.suits_immediate {R N n : Nat} :
    Operand.Suits R N .immediate (.number n) := trivial

theorem Operand.Suits.eq_register {R N : Nat} {o : Operand} (h : o.Suits R N .register) :
    ∃ r, o = .register r := by
  cases o with
  | register r => exact ⟨r, rfl⟩
  | _ => cases h

theorem Operand.Suits.eq_number {R N : Nat} {o : Operand} (h : o.Suits R N .immediate) :
    ∃ n, o = .number n := by
  cases o with
  | number n => exact ⟨n, rfl⟩
  | _ => cases h

/-- A draft does not end the program and suits one with `registers` registers and `instructions`
instructions. -/
structure Draft.Suits (registers instructions : Nat) (d : Draft) : Prop where
  goesOn : d.op ≠ .finish
  first : d.a.Suits registers instructions d.op.kinds.1
  second : d.b.Suits registers instructions d.op.kinds.2
  run : ∀ a n, d.a = .register a → d.b = .number n → a + d.op.extent n < registers
  read : d.op = .loadVar → ∃ s, d.b = .const (.str s)
  write : d.op = .setVar ∨ d.op = .appendText → ∃ s, d.a = .const (.str s)

/-- All drafts of a list suit a program. -/
def Draft.AllSuit (registers instructions : Nat) (ds : List Draft) : Prop :=
  ∀ d ∈ ds, d.Suits registers instructions

@[simp] theorem Draft.allSuit_nil {R N : Nat} : Draft.AllSuit R N [] := List.forall_mem_nil _

@[simp] theorem Draft.allSuit_singleton {R N : Nat} {d : Draft} :
    Draft.AllSuit R N [d] ↔ d.Suits R N := List.forall_mem_singleton

@[simp] theorem Draft.allSuit_cons {R N : Nat} {d e : Draft} {ds : List Draft} :
    Draft.AllSuit R N (d :: e :: ds) ↔ d.Suits R N ∧ Draft.AllSuit R N (e :: ds) :=
  List.forall_mem_cons

@[simp] theorem Draft.allSuit_append {R N : Nat} {ds es : List Draft} :
    Draft.AllSuit R N (ds ++ es) ↔ Draft.AllSuit R N ds ∧ Draft.AllSuit R N es :=
  List.forall_mem_append

/-- The registers of all variables of loops are below a bound. -/
def Scope.Below (bound : Nat) (scope : Scope) : Prop :=
  ∀ name slot, scope.lookup name = some slot → slot < bound

theorem Scope.Below.cons {bound slot : Nat} {scope : Scope} (h : Scope.Below bound scope)
    (hslot : slot < bound) (name : String) : Scope.Below bound ((name, slot) :: scope) := by
  intro other r hr
  rw [List.lookup_cons] at hr
  split at hr
  · exact Option.some.inj hr ▸ hslot
  · exact h other r hr

namespace Draft
variable {R N : Nat} {line : UInt32}

/-- An operation without constants makes no demands besides those on its operands. -/
theorem Suits.plain {d : Draft} (hfirst : d.op.kinds.1 = .register ∨ d.op.kinds.1 = .target)
    (hsecond : d.op.kinds.2 ≠ .pool) (first : d.a.Suits R N d.op.kinds.1)
    (second : d.b.Suits R N d.op.kinds.2)
    (run : ∀ a n, d.a = .register a → d.b = .number n → a + d.op.extent n < R) :
    d.Suits R N where
  goesOn h := by rw [h] at hfirst; rcases hfirst with h | h <;> cases h
  first := first
  second := second
  run := run
  read h := by rw [h] at hsecond; exact absurd rfl hsecond
  write h := by rcases h with h | h <;> rw [h] at hfirst <;> rcases hfirst with h | h <;> cases h

theorem onRegister_suits {op : Opcode} {a : Nat} (h : op.kinds = (.register, .unused))
    (ha : a < R) : (onRegister op a line).Suits R N := by
  refine .plain (.inl ?_) ?_ ?_ ?_ ?_
  · exact congrArg Prod.fst h
  · simp [onRegister, h]
  · simpa [onRegister, h] using ha
  · simp [onRegister, h]
  · rintro _ _ _ ⟨⟩

theorem onRegisters_suits {op : Opcode} {a b : Nat} (h : op.kinds = (.register, .register))
    (ha : a < R) (hb : b < R) : (onRegisters op a b line).Suits R N := by
  refine .plain (.inl ?_) ?_ ?_ ?_ ?_
  · exact congrArg Prod.fst h
  · simp [onRegisters, h]
  · simpa [onRegisters, h] using ha
  · simpa [onRegisters, h] using hb
  · rintro _ _ _ ⟨⟩

theorem onRun_suits {op : Opcode} {a n : Nat} (h : op.kinds = (.register, .immediate))
    (ha : a + op.extent n < R) : (onRun op a n line).Suits R N := by
  refine .plain (.inl ?_) ?_ ?_ ?_ ?_
  · exact congrArg Prod.fst h
  · simp [onRun, h]
  · simpa [onRun, h] using Nat.lt_of_le_of_lt (Nat.le_add_right a _) ha
  · simp [onRun, h]
  · rintro _ _ ⟨⟩ ⟨⟩
    exact ha

theorem branchTo_suits {op : Opcode} {a target : Nat} (h : op.kinds = (.register, .target))
    (ha : a < R) (htarget : target < N) : (branchTo op a target line).Suits R N := by
  refine .plain (.inl ?_) ?_ ?_ ?_ ?_
  · exact congrArg Prod.fst h
  · simp [branchTo, h]
  · simpa [branchTo, h] using ha
  · simpa [branchTo, h] using htarget
  · rintro _ _ _ ⟨⟩

theorem jumpTo_suits {target : Nat} (h : target < N) : (jumpTo target line).Suits R N :=
  .plain (.inr rfl) nofun h trivial (by rintro _ _ ⟨⟩)

theorem loadConst_suits {dst : Nat} (h : dst < R) (c : Constant) :
    (loadConst dst c line).Suits R N :=
  ⟨nofun, h, trivial, by rintro _ _ _ ⟨⟩, by rintro ⟨⟩, by rintro (h | h) <;> cases h⟩

theorem loadInteger_suits {dst : Nat} (h : dst < R) (n : Int64) :
    (loadInteger dst n line).Suits R N := by
  unfold loadInteger
  split
  · exact .plain (.inl rfl) nofun h trivial (by rintro _ _ ⟨⟩ ⟨⟩; exact h)
  · exact loadConst_suits h _

theorem loadVariable_suits {scope : Scope} {dst : Nat} (hscope : Scope.Below R scope)
    (h : dst < R) (name : String) : (loadVariable scope dst name line).Suits R N := by
  unfold loadVariable
  split
  · next slot hslot => exact onRegisters_suits rfl h (hscope name slot hslot)
  · exact ⟨nofun, h, trivial, by rintro _ _ _ ⟨⟩, fun _ => ⟨name, rfl⟩,
      by rintro (h | h) <;> cases h⟩

theorem setVar_suits {r : Nat} (h : r < R) (name : String) :
    (⟨.setVar, .const (.str name), .register r, line⟩ : Draft).Suits R N :=
  ⟨nofun, trivial, h, by rintro _ _ ⟨⟩, by rintro ⟨⟩, fun _ => ⟨name, rfl⟩⟩

theorem appendText_suits (s : String) :
    (⟨.appendText, .const (.str s), .none, line⟩ : Draft).Suits R N :=
  ⟨nofun, trivial, trivial, by rintro _ _ ⟨⟩, by rintro ⟨⟩, fun _ => ⟨s, rfl⟩⟩

theorem loopPop_suits : (⟨.loopPop, .none, .none, line⟩ : Draft).Suits R N :=
  ⟨nofun, trivial, trivial, by rintro _ _ ⟨⟩, by rintro ⟨⟩, by rintro (h | h) <;> cases h⟩

end Draft

theorem BinaryOp.kinds_opcode (op : BinaryOp) : op.opcode.kinds = (.register, .register) := by
  cases op with
  | arith op => cases op <;> rfl
  | order test => cases test <;> rfl
  | _ => rfl

theorem TextOp.kinds_opcode (op : TextOp) : op.opcode.kinds = (.register, .unused) := by
  cases op <;> rfl

theorem LoopFact.kinds_opcode (fact : LoopFact) : fact.opcode.kinds = (.register, .unused) := by
  cases fact <;> rfl

theorem Opcode.extent_map_le (n : Nat) : Opcode.map.extent n ≤ 2 * n - 1 :=
  Nat.sub_le_sub_right (Nat.min_le_left _ _) 1

theorem Opcode.extent_method_le (n : Nat) : Opcode.method.extent n ≤ n + 1 := Nat.min_le_left _ _

/-- Only operations on runs of registers read registers behind their own. -/
theorem Opcode.kinds_of_extent_pos {op : Opcode} {n : Nat} (h : 0 < op.extent n) :
    op.kinds = (.register, .immediate) := by
  cases op <;> first | rfl | exact absurd h (Nat.lt_irrefl 0)

/-! ### The code of expressions -/

section Code
variable {R N : Nat} {scope : Scope}

namespace Expr

theorem effectSize_le (e : Expr) : e.effectSize ≤ e.size := by
  unfold effectSize
  split <;> omega

mutual

/-- The drafts of an expression suit every program that has room for its registers and goes on
behind its code. Nothing leads behind the last move of a call. -/
theorem code_suits (hscope : Scope.Below R scope) {dst free pc : Nat} :
    (e : Expr) → dst < R → free + e.registers ≤ R → pc + e.effectSize < N →
      Draft.AllSuit R N (e.code scope dst free pc)
  | null _, hd, _, _ => by
    simpa only [code, Draft.allSuit_singleton] using Draft.onRegister_suits rfl hd
  | bool b _, hd, _, _ => by
    simp only [code, Draft.allSuit_singleton]
    exact Draft.onRegister_suits (by cases b <;> rfl) hd
  | int n _, hd, _, _ => by
    simpa only [code, Draft.allSuit_singleton] using Draft.loadInteger_suits hd n
  | float bits _, hd, _, _ => by
    simpa only [code, Draft.allSuit_singleton] using Draft.loadConst_suits hd _
  | str s _, hd, _, _ => by
    simpa only [code, Draft.allSuit_singleton] using Draft.loadConst_suits hd _
  | var name _, hd, _, _ => by
    simpa only [code, Draft.allSuit_singleton] using Draft.loadVariable_suits hscope hd name
  | loopFact fact _, hd, _, _ => by
    simpa only [code, Draft.allSuit_singleton] using
      Draft.onRegister_suits fact.kinds_opcode hd
  | binary op left right _, hd, hr, hp => by
    have hleft := left.effectSize_le
    have hright := right.effectSize_le
    simp only [registers, effectSize, isCall, size, Bool.false_eq_true, if_false] at hr hp
    simp only [code, Draft.allSuit_append, Draft.allSuit_singleton]
    exact ⟨⟨code_suits hscope left hd (by omega) (by omega),
      code_suits hscope right (by omega) (by omega) (by omega)⟩,
      Draft.onRegisters_suits op.kinds_opcode hd (by omega)⟩
  | and left right _, hd, hr, hp | or left right _, hd, hr, hp => by
    have hleft := left.effectSize_le
    have hright := right.effectSize_le
    simp only [registers, effectSize, isCall, size, Bool.false_eq_true, if_false] at hr hp
    simp only [code, Draft.allSuit_append, Draft.allSuit_singleton]
    exact ⟨⟨code_suits hscope left hd (by omega) (by omega),
      Draft.branchTo_suits rfl hd (by omega)⟩,
      code_suits hscope right hd (by omega) (by omega)⟩
  | not operand _, hd, hr, hp => by
    have hoperand := operand.effectSize_le
    simp only [registers, effectSize, isCall, size, Bool.false_eq_true, if_false] at hr hp
    simp only [code, Draft.allSuit_append, Draft.allSuit_singleton]
    exact ⟨code_suits hscope operand hd hr (by omega), Draft.onRegister_suits rfl hd⟩
  | array items _, hd, hr, hp => by
    simp only [registers, effectSize, isCall, size, Bool.false_eq_true, if_false] at hr hp
    simp only [code, Draft.allSuit_append, Draft.allSuit_cons, Draft.allSuit_singleton]
    exact ⟨codeRun_suits hscope items (by omega) (by omega) (by omega),
      Draft.onRun_suits rfl (by simp only [Opcode.extent]; omega),
      Draft.onRegisters_suits rfl hd (by omega)⟩
  | map pairs _, hd, hr, hp => by
    simp only [registers, effectSize, isCall, size, Bool.false_eq_true, if_false] at hr hp
    simp only [code, Draft.allSuit_append, Draft.allSuit_cons, Draft.allSuit_singleton]
    exact ⟨codeRun_suits hscope pairs (by omega) (by omega) (by omega),
      Draft.onRun_suits rfl (by have := Opcode.extent_map_le (pairs.length / 2); omega),
      Draft.onRegisters_suits rfl hd (by omega)⟩
  | choice test yes no _, hd, hr, hp => by
    have htest := test.effectSize_le
    have hyes := yes.effectSize_le
    have hno := no.effectSize_le
    simp only [registers, effectSize, isCall, size, Bool.false_eq_true, if_false] at hr hp
    simp only [code, Draft.allSuit_append, Draft.allSuit_singleton]
    exact ⟨⟨⟨⟨code_suits hscope test (by omega) (by omega) (by omega),
      Draft.branchTo_suits rfl (by omega) (by omega)⟩,
      code_suits hscope yes hd (by omega) (by omega)⟩,
      Draft.jumpTo_suits (by omega)⟩,
      code_suits hscope no hd (by omega) (by omega)⟩
  | assign name value _, hd, hr, hp => by
    have hvalue := value.effectSize_le
    simp only [registers, effectSize, isCall, size, Bool.false_eq_true, if_false] at hr hp
    simp only [code, Draft.allSuit_append, Draft.allSuit_singleton]
    exact ⟨code_suits hscope value hd hr (by omega), Draft.setVar_suits hd name⟩
  | textCall op arg _, hd, hr, hp => by
    have harg := arg.effectSize_le
    simp only [registers, effectSize, isCall, size, Bool.false_eq_true, if_false] at hr hp
    simp only [code, Draft.allSuit_append, Draft.allSuit_singleton]
    exact ⟨code_suits hscope arg hd hr (by omega), Draft.onRegister_suits op.kinds_opcode hd⟩
  | format template args _ _, hd, hr, hp => by
    have htemplate := template.effectSize_le
    simp only [registers, effectSize, isCall, size, if_true] at hr hp
    simp only [code, Draft.allSuit_append, Draft.allSuit_cons, Draft.allSuit_singleton]
    exact ⟨⟨code_suits hscope template (by omega) (by omega) (by omega),
      codeRun_suits hscope args (by omega) (by omega) (by omega)⟩,
      Draft.onRun_suits rfl (by simp only [Opcode.extent]; omega),
      Draft.onRegisters_suits rfl hd (by omega)⟩
  | call name args _ _, hd, hr, hp => by
    simp only [registers, effectSize, isCall, size, if_true] at hr hp
    simp only [code, Draft.allSuit_append, Draft.allSuit_cons, Draft.allSuit_singleton]
    exact ⟨⟨Draft.loadConst_suits (by omega) _,
      codeRun_suits hscope args (by omega) (by omega) (by omega)⟩,
      Draft.onRun_suits rfl (by simp only [Opcode.extent]; omega),
      Draft.onRegisters_suits rfl hd (by omega)⟩
  | method object name args _ _, hd, hr, hp => by
    have hobject := object.effectSize_le
    simp only [registers, effectSize, isCall, size, if_true] at hr hp
    simp only [code, Draft.allSuit_append, Draft.allSuit_cons, Draft.allSuit_singleton]
    exact ⟨⟨⟨code_suits hscope object (by omega) (by omega) (by omega),
      Draft.loadConst_suits (by omega) _⟩,
      codeRun_suits hscope args (by omega) (by omega) (by omega)⟩,
      Draft.onRun_suits rfl (by have := Opcode.extent_method_le args.length; omega),
      Draft.onRegisters_suits rfl hd (by omega)⟩

/-- The same for expressions in a row. -/
theorem codeRun_suits (hscope : Scope.Below R scope) {dst free pc : Nat} :
    (es : List Expr) → dst + es.length ≤ R → free + registersAll es ≤ R → pc + sizes es < N →
      Draft.AllSuit R N (codeRun scope dst free pc es)
  | [], _, _, _ => by simp [codeRun]
  | e :: rest, hd, hr, hp => by
    have he := e.effectSize_le
    simp only [registersAll, sizes, List.length_cons] at hd hr hp
    simp only [codeRun, Draft.allSuit_append]
    exact ⟨code_suits hscope e (by omega) (by omega) (by omega),
      codeRun_suits hscope rest (by omega) (by omega) (by omega)⟩

end

/-- The same for an expression whose value is not needed. -/
theorem effect_suits (hscope : Scope.Below R scope) {free pc : Nat} (e : Expr)
    (hr : free + e.effectRegisters ≤ R) (hp : pc + e.effectSize < N) :
    Draft.AllSuit R N (e.effect scope free pc) := by
  unfold effect
  unfold effectRegisters at hr
  split
  · next h =>
    rw [if_pos h] at hr
    have hpos := e.registers_pos h
    intro d hd
    exact code_suits hscope e (by omega) hr hp d (List.dropLast_subset _ hd)
  · next h =>
    rw [if_neg h] at hr
    exact code_suits hscope e (by omega) (by omega) hp

end Expr

/-! ### The code of statements -/

/-- The jumps out of the innermost loop stay inside the program. -/
def Jumps.Below (N : Nat) (jumps : Jumps) : Prop := jumps.last < N ∧ jumps.next < N

theorem Jumps.below_mk {N last next : Nat} :
    Jumps.Below N ⟨last, next⟩ ↔ last < N ∧ next < N := Iff.rfl

mutual

/-- The drafts of a statement suit every program that has room for its registers and goes on
behind its code, if the jumps out of the loop around it lead into the program. -/
theorem Stmt.code_suits {scope : Scope} (hscope : Scope.Below R scope) {jumps : Jumps}
    (hjumps : jumps.Below N) {free pc : Nat} :
    (s : Stmt) → free + s.registers ≤ R → pc + s.size < N →
      Draft.AllSuit R N (s.code scope jumps free pc)
  | .block body, hr, hp => Stmt.codes_suits hscope hjumps body hr hp
  | .text s _, _, _ => by
    simpa only [Stmt.code, Draft.allSuit_singleton] using Draft.appendText_suits s
  | .output value _, hr, hp => by
    have hvalue := value.effectSize_le
    simp only [Stmt.registers, Stmt.size] at hr hp
    simp only [Stmt.code, Draft.allSuit_append, Draft.allSuit_singleton]
    exact ⟨value.code_suits hscope (by omega) (by omega) (by omega),
      Draft.onRegister_suits rfl (by omega)⟩
  | .eval e, hr, hp => e.effect_suits hscope hr hp
  | .when test body _, hr, hp => by
    have htest := test.effectSize_le
    simp only [Stmt.registers, Stmt.size] at hr hp
    simp only [Stmt.code, Draft.allSuit_append, Draft.allSuit_singleton]
    exact ⟨⟨test.code_suits hscope (by omega) (by omega) (by omega),
      Draft.branchTo_suits rfl (by omega) (by omega)⟩,
      Stmt.code_suits hscope hjumps body (by omega) (by omega)⟩
  | .choice test yes no _, hr, hp => by
    have htest := test.effectSize_le
    simp only [Stmt.registers, Stmt.size] at hr hp
    simp only [Stmt.code, Draft.allSuit_append, Draft.allSuit_singleton]
    exact ⟨⟨⟨⟨test.code_suits hscope (by omega) (by omega) (by omega),
      Draft.branchTo_suits rfl (by omega) (by omega)⟩,
      Stmt.code_suits hscope hjumps yes (by omega) (by omega)⟩,
      Draft.jumpTo_suits (by omega)⟩,
      Stmt.code_suits hscope hjumps no (by omega) (by omega)⟩
  | .switch subject arms, hr, hp => by
    have hsubject := subject.effectSize_le
    simp only [Stmt.registers, Stmt.size] at hr hp
    simp only [Stmt.code, Draft.allSuit_append]
    exact ⟨subject.code_suits hscope (by omega) (by omega) (by omega),
      Arm.codes_suits hscope hjumps (by omega) (by omega) arms (by omega) (by omega)⟩
  | .foreach var source body _, hr, hp => by
    have hsource := source.effectSize_le
    simp only [Stmt.registers, Stmt.size] at hr hp
    simp only [Stmt.code, Draft.allSuit_append, Draft.allSuit_cons, Draft.allSuit_singleton]
    exact ⟨⟨⟨source.code_suits hscope (by omega) (by omega) (by omega),
      Draft.branchTo_suits rfl (by omega) (by omega)⟩,
      Stmt.code_suits (hscope.cons (by omega) var) (Jumps.below_mk.2 ⟨by omega, by omega⟩) body
        (by omega) (by omega)⟩,
      Draft.branchTo_suits rfl (by omega) (by omega), Draft.loopPop_suits⟩
  | .loop test body _, hr, hp => by
    have htest := test.effectSize_le
    simp only [Stmt.registers, Stmt.size] at hr hp
    simp only [Stmt.code, Draft.allSuit_append, Draft.allSuit_singleton]
    exact ⟨⟨⟨test.code_suits hscope (by omega) (by omega) (by omega),
      Draft.branchTo_suits rfl (by omega) (by omega)⟩,
      Stmt.code_suits hscope (Jumps.below_mk.2 ⟨by omega, by omega⟩) body (by omega) (by omega)⟩,
      Draft.jumpTo_suits (by omega)⟩
  | .last _, _, _ => by
    simpa only [Stmt.code, Draft.allSuit_singleton] using Draft.jumpTo_suits hjumps.1
  | .next _, _, _ => by
    simpa only [Stmt.code, Draft.allSuit_singleton] using Draft.jumpTo_suits hjumps.2
  | .inclusion path _, hr, hp => by
    have hpath := path.effectSize_le
    simp only [Stmt.registers, Stmt.size] at hr hp
    simp only [Stmt.code, Draft.allSuit_append, Draft.allSuit_cons, Draft.allSuit_singleton]
    exact ⟨path.code_suits hscope (by omega) (by omega) (by omega),
      Draft.onRegister_suits rfl (by omega), Draft.onRegister_suits rfl (by omega)⟩
  | .inclusionWith path bindings _, hr, hp => by
    have hpath := path.effectSize_le
    have hextent := Opcode.extent_map_le (bindings.length / 2)
    simp only [Stmt.registers, Stmt.size] at hr hp
    simp only [Stmt.code, Draft.allSuit_append, Draft.allSuit_cons, Draft.allSuit_singleton]
    exact ⟨⟨path.code_suits hscope (by omega) (by omega) (by omega),
      Expr.codeRun_suits hscope bindings (by omega) (by omega) (by omega)⟩,
      Draft.onRun_suits rfl (by omega), Draft.onRegisters_suits rfl (by omega) (by omega),
      Draft.onRegister_suits rfl (by omega)⟩
  | .wrapper path body _, hr, hp => by
    have hpath := path.effectSize_le
    simp only [Stmt.registers, Stmt.size] at hr hp
    simp only [Stmt.code, Draft.allSuit_append, Draft.allSuit_singleton]
    exact ⟨⟨⟨Draft.onRegister_suits rfl (by omega),
      Stmt.code_suits hscope hjumps body (by omega) (by omega)⟩,
      path.code_suits hscope (by omega) (by omega) (by omega)⟩,
      Draft.onRegisters_suits rfl (by omega) (by omega)⟩

/-- The same for statements in a row. -/
theorem Stmt.codes_suits {scope : Scope} (hscope : Scope.Below R scope) {jumps : Jumps}
    (hjumps : jumps.Below N) {free pc : Nat} :
    (body : List Stmt) → free + Stmt.registersAll body ≤ R → pc + Stmt.sizes body < N →
      Draft.AllSuit R N (Stmt.codes scope jumps free pc body)
  | [], _, _ => by simp [Stmt.codes]
  | s :: rest, hr, hp => by
    simp only [Stmt.registersAll, Stmt.sizes] at hr hp
    simp only [Stmt.codes, Draft.allSuit_append]
    exact ⟨Stmt.code_suits hscope hjumps s (by omega) (by omega),
      Stmt.codes_suits hscope hjumps rest (by omega) (by omega)⟩

/-- The same for an arm, which needs the registers of the subject and of the test besides. -/
theorem Arm.code_suits {scope : Scope} (hscope : Scope.Below R scope) {jumps : Jumps}
    (hjumps : jumps.Below N) {subject done : Nat} (hsubject : subject + 1 < R) (hdone : done < N)
    {free pc : Nat} :
    (a : Arm) → free + a.registers ≤ R → pc + a.size < N →
      Draft.AllSuit R N (a.code scope jumps subject done free pc)
  | .test value body _, hr, hp => by
    have hvalue := value.effectSize_le
    simp only [Arm.registers, Arm.size] at hr hp
    simp only [Arm.code, Draft.allSuit_append, Draft.allSuit_cons, Draft.allSuit_singleton]
    exact ⟨⟨⟨value.code_suits hscope (by omega) (by omega) (by omega),
      Draft.onRegisters_suits rfl hsubject (by omega),
      Draft.onRegisters_suits rfl hsubject (by omega),
      Draft.branchTo_suits rfl hsubject (by omega)⟩,
      Stmt.code_suits hscope hjumps body (by omega) (by omega)⟩,
      Draft.jumpTo_suits hdone⟩
  | .always body _, hr, hp => by
    simp only [Arm.registers, Arm.size] at hr hp
    simp only [Arm.code, Draft.allSuit_append, Draft.allSuit_cons, Draft.allSuit_singleton]
    exact ⟨⟨⟨Draft.onRegister_suits rfl hsubject, Draft.branchTo_suits rfl hsubject (by omega)⟩,
      Stmt.code_suits hscope hjumps body (by omega) (by omega)⟩,
      Draft.jumpTo_suits hdone⟩

/-- The same for arms in a row. -/
theorem Arm.codes_suits {scope : Scope} (hscope : Scope.Below R scope) {jumps : Jumps}
    (hjumps : jumps.Below N) {subject done : Nat} (hsubject : subject + 1 < R) (hdone : done < N)
    {free pc : Nat} :
    (arms : List Arm) → free + Arm.registersAll arms ≤ R → pc + Arm.sizes arms < N →
      Draft.AllSuit R N (Arm.codes scope jumps subject done free pc arms)
  | [], _, _ => by simp [Arm.codes]
  | a :: rest, hr, hp => by
    simp only [Arm.registersAll, Arm.sizes] at hr hp
    simp only [Arm.codes, Draft.allSuit_append]
    exact ⟨Arm.code_suits hscope hjumps hsubject hdone a (by omega) (by omega),
      Arm.codes_suits hscope hjumps hsubject hdone rest (by omega) (by omega)⟩

end

end Code

/-! ### Compiled programs -/

/-- The instruction that an instruction may lead to besides the next one. -/
def Instruction.target? (i : Instruction) : Option Nat :=
  match i.op.kinds with
  | (.target, _) => some i.a.toNat
  | (_, .target) => some i.b.toNat
  | _ => none

/-- The place of the constant that an instruction needs as a text. -/
def Instruction.text? (i : Instruction) : Option Nat :=
  match i.op with
  | .loadVar => some i.b.toNat
  | .setVar | .appendText => some i.a.toNat
  | _ => none

/-- The structure that a compiled program has: it passes the check of programs from outside, every
jump leads to an instruction, every constant that has to be a text is one, only the last instruction
ends the program, and the number of registers is an operand. -/
structure Program.IsSound (p : Program) : Prop where
  valid : p.validate = .ok ()
  targets : ∀ i ∈ p.instructions, ∀ t ∈ i.target?, t < p.instructions.size
  texts : ∀ i ∈ p.instructions, ∀ n ∈ i.text?, ∃ s, p.pool[n]? = some (.str s)
  finish : ∀ n i, p.instructions[n]? = some i → (i.op = .finish ↔ n + 1 = p.instructions.size)
  registers : p.registerCount.toNat < operandLimit

namespace Program

theorem checkOperand_eq_ok {p : Program} {N : Nat} (hN : N ≤ p.instructions.size)
    {kind : OperandKind} {o : Operand} {x : UInt32} (ho : o.Suits p.registerCount.toNat N kind)
    (hx : o.IsNumber p.pool x) : p.checkOperand kind x.toNat = .ok () := by
  cases kind <;> cases o <;> simp only [Operand.Suits] at ho <;> simp only [Operand.IsNumber] at hx
  case unused.none => subst hx; rfl
  case register.register r => simp [checkOperand, hx, ho]
  case pool.const c => simp [checkOperand, (Array.getElem?_eq_some_iff.1 hx).1]
  case target.target pc =>
    have hle : pc ≤ p.instructions.size := by omega
    simp [checkOperand, hx, hle]
  case immediate.number n => rfl

/-- An instruction that carries out a suitable draft passes the check. -/
theorem checkInstruction_eq_ok {p : Program} {N : Nat} (hN : N ≤ p.instructions.size)
    (hR : p.registerCount.toNat < operandLimit) {d : Draft} {x y : UInt32}
    (hd : d.Suits p.registerCount.toNat N) (hx : d.a.IsNumber p.pool x)
    (hy : d.b.IsNumber p.pool y) : p.checkInstruction ⟨d.op, x, y⟩ = .ok () := by
  have hrun : 0 < d.op.extent y.toNat →
      x.toNat + d.op.extent y.toNat < p.registerCount.toNat := by
    intro hpos
    have hkinds := Opcode.kinds_of_extent_pos hpos
    have hfirst := hd.first
    have hsecond := hd.second
    rw [hkinds] at hfirst hsecond
    obtain ⟨r, hr⟩ := hfirst.eq_register
    obtain ⟨n, hn⟩ := hsecond.eq_number
    rw [hr] at hx
    rw [hn] at hy
    rw [show x.toNat = r from hx, show y.toNat = n from hy]
    exact hd.run r n hr hn
  -- The check cuts the end of the run down to an operand, which this one is already.
  simp only [checkInstruction, checkOperand_eq_ok hN hd.first hx,
    checkOperand_eq_ok hN hd.second hy, bind, Except.bind]
  split
  · next hpos =>
    have hlt := hrun hpos
    rw [Nat.min_eq_left (by omega)]
    simp [checkOperand, hlt]
  · rfl

theorem checkFrom_eq_ok {p : Program} (is : List Instruction)
    (h : ∀ i ∈ is, p.checkInstruction i = .ok ()) (pc : Nat) : p.checkFrom pc is = .ok () := by
  induction is generalizing pc with
  | nil => rfl
  | cons i is ih =>
    rw [List.forall_mem_cons] at h
    rw [checkFrom, h.1]
    exact ih h.2 (pc + 1)

end Program

/-- The target of an instruction that carries out a suitable draft is inside the program. -/
theorem Draft.Suits.target_lt {R N : Nat} {d : Draft} (hd : d.Suits R N) {pool : Array Constant}
    {x y : UInt32} (hx : d.a.IsNumber pool x) (hy : d.b.IsNumber pool y) {t : Nat}
    (ht : t ∈ (⟨d.op, x, y⟩ : Instruction).target?) : t < N := by
  have target_lt : ∀ {o : Operand} {z : UInt32},
      o.Suits R N .target → o.IsNumber pool z → z.toNat < N := by
    intro o z ho hz
    cases o with
    | target pc => exact (show z.toNat = pc from hz) ▸ ho
    | _ => cases ho
  have hfirst := hd.first
  have hsecond := hd.second
  simp only [Instruction.target?] at ht
  split at ht
  · next h =>
    rw [h] at hfirst
    cases ht
    exact target_lt hfirst hx
  · next h =>
    rw [h] at hsecond
    cases ht
    exact target_lt hsecond hy
  · cases ht

/-- The constant that such an instruction needs as a text is one. -/
theorem Draft.Suits.text_getElem? {R N : Nat} {d : Draft} (hd : d.Suits R N)
    {pool : Array Constant} {x y : UInt32} (hx : d.a.IsNumber pool x) (hy : d.b.IsNumber pool y)
    {n : Nat} (hn : n ∈ (⟨d.op, x, y⟩ : Instruction).text?) : ∃ s, pool[n]? = some (.str s) := by
  simp only [Instruction.text?] at hn
  split at hn
  · next h =>
    obtain ⟨s, hs⟩ := hd.read h
    rw [hs] at hy
    cases hn
    exact ⟨s, hy⟩
  · next h =>
    obtain ⟨s, hs⟩ := hd.write (.inl h)
    rw [hs] at hx
    cases hn
    exact ⟨s, hx⟩
  · next h =>
    obtain ⟨s, hs⟩ := hd.write (.inr h)
    rw [hs] at hx
    cases hn
    exact ⟨s, hx⟩
  · cases hn

/-- All drafts of a template but the last suit its program. -/
theorem Stmt.drafts_suits (s : Stmt) :
    Draft.AllSuit s.registers s.drafts.length (s.code [] {} 0 0) := by
  have hlength : s.drafts.length = s.size + 1 := by simp [Stmt.drafts]
  rw [hlength]
  exact s.code_suits (by rintro _ _ ⟨⟩) (Jumps.below_mk.2 ⟨by omega, by omega⟩) (by omega)
    (by omega)

/-- An instruction of a template's program carries out a suitable draft or is the end. -/
theorem Stmt.IsProgram.instruction {s : Stmt} {source : Source} {p : Program}
    (h : s.IsProgram source p) {n : Nat} {i : Instruction} (hi : p.instructions[n]? = some i) :
    (n + 1 < p.instructions.size ∧ ∃ (d : Draft) (x y : UInt32),
      i = ⟨d.op, x, y⟩ ∧ d.Suits p.registerCount.toNat p.instructions.size ∧
        d.a.IsNumber p.pool x ∧ d.b.IsNumber p.pool y) ∨
      (n + 1 = p.instructions.size ∧ i = ⟨.finish, 0, 0⟩) := by
  obtain ⟨hn, -⟩ := Array.getElem?_eq_some_iff.1 hi
  have hlength : s.drafts.length = (s.code [] {} 0 0).length + 1 := by simp [Stmt.drafts]
  rw [h.size] at hn ⊢
  obtain ⟨x, y, hi', hx, hy, -⟩ := h.code.getElem? (List.getElem?_eq_getElem hn)
  rw [Nat.zero_add, hi] at hi'
  have hi' := Option.some.inj hi'
  -- The drafts of the program are the code and one draft behind it, which ends the program.
  by_cases hlast : n < (s.code [] {} 0 0).length
  · have hd : s.drafts[n] ∈ s.code [] {} 0 0 := by
      simp only [Stmt.drafts, List.getElem_append_left hlast, List.getElem_mem]
    have hsuits := s.drafts_suits _ hd
    rw [← h.registers] at hsuits
    exact .inl ⟨by omega, _, x, y, hi', hsuits, hx, hy⟩
  · have hd : s.drafts[n] = ⟨.finish, .none, .none, s.drafts[n].line⟩ := by
      simp [Stmt.drafts, List.getElem_append_right (Nat.le_of_not_lt hlast)]
    rw [hd] at hi' hx hy
    cases hx
    cases hy
    exact .inr ⟨by omega, hi'⟩

theorem Stmt.IsProgram.isSound {s : Stmt} {source : Source} {p : Program}
    (h : s.IsProgram source p) : p.IsSound := by
  have hlimit : p.registerCount.toNat < operandLimit := h.registers ▸ h.limit
  have hpos : 0 < p.instructions.size := by
    rw [h.size]
    simp [Stmt.drafts]
  have hfinish : ∀ (n : Nat) (i : Instruction), p.instructions[n]? = some i →
      (i.op = .finish ↔ n + 1 = p.instructions.size) := by
    intro n i hi
    rcases h.instruction hi with ⟨hn, d, x, y, rfl, hd, -, -⟩ | ⟨hn, rfl⟩
    · exact ⟨fun hop => absurd hop hd.goesOn, fun hn' => by omega⟩
    · exact ⟨fun _ => hn, fun _ => rfl⟩
  have hall : ∀ {P : Instruction → Prop},
      (∀ (n : Nat) (i : Instruction), p.instructions[n]? = some i → P i) →
        ∀ i ∈ p.instructions, P i := by
    intro P hP i hi
    obtain ⟨n, hn⟩ := Array.getElem?_of_mem hi
    exact hP n i hn
  refine ⟨?_, hall fun n i hi => ?_, hall fun n i hi => ?_, hfinish, hlimit⟩
  · have hback : p.instructions.back?.map (·.op) = some .finish := by
      rw [Array.back?_eq_getElem?, Array.getElem?_eq_getElem (by omega)]
      exact congrArg some ((hfinish _ _ (Array.getElem?_eq_getElem (by omega))).2 (by omega))
    rw [Program.validate, if_neg (by simp [h.lines]), if_neg (by simp [hback])]
    refine Program.checkFrom_eq_ok _ (fun i hi => ?_) 0
    obtain ⟨n, hn⟩ := List.getElem?_of_mem hi
    rw [Array.getElem?_toList] at hn
    rcases h.instruction hn with ⟨-, d, x, y, rfl, hd, hx, hy⟩ | ⟨-, rfl⟩
    · exact Program.checkInstruction_eq_ok (Nat.le_refl _) hlimit hd hx hy
    · rfl
  · rcases h.instruction hi with ⟨-, d, x, y, rfl, hd, hx, hy⟩ | ⟨-, rfl⟩
    · exact fun t ht => hd.target_lt hx hy ht
    · exact nofun
  · rcases h.instruction hi with ⟨-, d, x, y, rfl, hd, hx, hy⟩ | ⟨-, rfl⟩
    · exact fun k hk => hd.text_getElem? hx hy hk
    · exact nofun

/-- Every compiled program is sound. -/
theorem Program.compile_isSound {tree : Node} {source : Source} {p : Program}
    (h : Program.compile tree source = .ok p) : p.IsSound := by
  obtain ⟨s, -, hs⟩ := Program.compile_eq_ok h
  exact (Stmt.program_spec hs).isSound

/-- A loop that is left before its end, with a choice, text and a value in its body. -/
def Node.counting : Node :=
  .template [.foreach "n" (.binary .range (.int 1) (.int 3)) (.template [
    .ifElse (.binary .equals (.ident "n") (.int 3)) (.bare .last) none,
    .rawText "n = ", .expression (.ident "n")])]

theorem Program.compile_counting_isSound :
    ∃ p, Program.compile .counting .anonymous = .ok p ∧ p.IsSound := by
  have hok : (Program.compile .counting .anonymous).isOk := by decide +kernel
  match h : Program.compile .counting .anonymous with
  | .ok p => exact ⟨p, rfl, Program.compile_isSound h⟩
  | .error e =>
    rw [h] at hok
    cases hok

end Stencil
