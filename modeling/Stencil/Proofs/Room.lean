import Mathlib.Algebra.Group.Nat.Defs
import Stencil.Proofs.Validity

/-!
# Room for the numbers of a program

The operands of instructions are numbers of 32 bits. The code of a template becomes a program unless
one of its numbers is larger, which cannot happen as long as there are few instructions and
registers.

* `Operand.IsNarrow`: an operand of a draft fits into an instruction;
* `Expr.code_keepsShort`, `Stmt.code_keepsShort`: the integers that need no constant fit;
* `Builder.exists_addAll`: drafts with operands that fit become instructions;
* `Stmt.exists_program`: a small template has a program;
* `Stmt.program_eq_error`: nothing else can be wrong with a template.
-/

namespace Stencil

/-! ### Integers in instructions -/

/-- An operand fits into an instruction. Constants do if the pool has a place for them. -/
def Operand.IsNarrow : Operand → Prop
  | .none | .const _ => True
  | .register n | .target n | .number n => n < operandLimit

/-- Drafts hold an integer in place of a constant only if it fits. -/
def Draft.KeepShort (ds : List Draft) : Prop := ∀ d ∈ ds, d.op = .loadInt → d.b.IsNarrow

namespace Draft

@[simp] theorem keepShort_nil : KeepShort [] := List.forall_mem_nil _

@[simp] theorem keepShort_cons {d : Draft} {ds : List Draft} :
    KeepShort (d :: ds) ↔ (d.op = .loadInt → d.b.IsNarrow) ∧ KeepShort ds := List.forall_mem_cons

@[simp] theorem keepShort_append {ds es : List Draft} :
    KeepShort (ds ++ es) ↔ KeepShort ds ∧ KeepShort es := List.forall_mem_append

theorem loadInteger_narrow (dst : Nat) (n : Int64) (line : UInt32) :
    (loadInteger dst n line).b.IsNarrow := by
  unfold loadInteger
  split
  · next h => exact (Int.toNat_lt h.1).2 h.2
  · trivial

theorem loadVariable_op_ne (scope : Scope) (dst : Nat) (name : String) (line : UInt32) :
    (loadVariable scope dst name line).op ≠ .loadInt := by
  unfold loadVariable
  split <;> exact nofun

end Draft

theorem BinaryOp.opcode_ne_loadInt (op : BinaryOp) : op.opcode ≠ .loadInt := by
  intro h
  have hkinds := op.kinds_opcode
  rw [h] at hkinds
  cases hkinds

theorem TextOp.opcode_ne_loadInt (op : TextOp) : op.opcode ≠ .loadInt := by
  cases op <;> exact nofun

theorem LoopFact.opcode_ne_loadInt (fact : LoopFact) : fact.opcode ≠ .loadInt := by
  cases fact <;> exact nofun

namespace Expr

mutual

theorem code_keepsShort {scope : Scope} {dst free pc : Nat} :
    (e : Expr) → Draft.KeepShort (e.code scope dst free pc)
  | null _ | float _ _ | str _ _ => by simp [code, Draft.onRegister, Draft.loadConst]
  | bool b _ => by cases b <;> simp [code, Draft.onRegister]
  | int n line => by simp [code, Draft.loadInteger_narrow]
  | var name _ => by simp [code, Draft.loadVariable_op_ne]
  | loopFact fact _ => by simp [code, Draft.onRegister, fact.opcode_ne_loadInt]
  | binary op left right _ => by
    simp [code, code_keepsShort left, code_keepsShort right, Draft.onRegisters,
      op.opcode_ne_loadInt]
  | and left right _ | or left right _ => by
    simp [code, code_keepsShort left, code_keepsShort right, Draft.branchTo]
  | not operand _ => by simp [code, code_keepsShort operand, Draft.onRegister]
  | array items _ | map items _ => by
    simp [code, codeRun_keepsShort items, Draft.onRun, Draft.onRegisters]
  | choice test yes no _ => by
    simp [code, code_keepsShort test, code_keepsShort yes, code_keepsShort no, Draft.branchTo,
      Draft.jumpTo]
  | assign _ value _ => by simp [code, code_keepsShort value]
  | textCall op arg _ => by
    simp [code, code_keepsShort arg, Draft.onRegister, op.opcode_ne_loadInt]
  | format template args _ _ => by
    simp [code, code_keepsShort template, codeRun_keepsShort args, Draft.onRun, Draft.onRegisters]
  | call _ args _ _ => by
    simp [code, codeRun_keepsShort args, Draft.loadConst, Draft.onRun, Draft.onRegisters]
  | method object _ args _ _ => by
    simp [code, code_keepsShort object, codeRun_keepsShort args, Draft.loadConst, Draft.onRun,
      Draft.onRegisters]

theorem codeRun_keepsShort {scope : Scope} {dst free pc : Nat} :
    (es : List Expr) → Draft.KeepShort (codeRun scope dst free pc es)
  | [] => by simp [codeRun]
  | e :: rest => by simp [codeRun, code_keepsShort e, codeRun_keepsShort rest]

end

theorem effect_keepsShort {scope : Scope} {free pc : Nat} (e : Expr) :
    Draft.KeepShort (e.effect scope free pc) := by
  unfold effect
  split
  · exact fun d hd => code_keepsShort e d (List.dropLast_subset _ hd)
  · exact code_keepsShort e

end Expr

mutual

theorem Stmt.code_keepsShort {scope : Scope} {jumps : Jumps} {free pc : Nat} :
    (s : Stmt) → Draft.KeepShort (s.code scope jumps free pc)
  | .block body => by simpa [Stmt.code] using Stmt.codes_keepsShort body
  | .text _ _ => by simp [Stmt.code]
  | .last _ | .next _ => by simp [Stmt.code, Draft.jumpTo]
  | .output value _ => by simp [Stmt.code, value.code_keepsShort, Draft.onRegister]
  | .eval e => e.effect_keepsShort
  | .when test body _ => by
    simp [Stmt.code, test.code_keepsShort, Stmt.code_keepsShort body, Draft.branchTo]
  | .choice test yes no _ => by
    simp [Stmt.code, test.code_keepsShort, Stmt.code_keepsShort yes, Stmt.code_keepsShort no,
      Draft.branchTo, Draft.jumpTo]
  | .switch subject arms => by
    simp [Stmt.code, subject.code_keepsShort, Arm.codes_keepsShort arms]
  | .foreach _ source body _ => by
    simp [Stmt.code, source.code_keepsShort, Stmt.code_keepsShort body, Draft.branchTo]
  | .loop test body _ => by
    simp [Stmt.code, test.code_keepsShort, Stmt.code_keepsShort body, Draft.branchTo,
      Draft.jumpTo]
  | .inclusion path _ => by simp [Stmt.code, path.code_keepsShort, Draft.onRegister]
  | .inclusionWith path bindings _ => by
    simp [Stmt.code, path.code_keepsShort, Expr.codeRun_keepsShort bindings, Draft.onRun,
      Draft.onRegister, Draft.onRegisters]
  | .wrapper path body _ => by
    simp [Stmt.code, path.code_keepsShort, Stmt.code_keepsShort body, Draft.onRegister,
      Draft.onRegisters]

theorem Stmt.codes_keepsShort {scope : Scope} {jumps : Jumps} {free pc : Nat} :
    (body : List Stmt) → Draft.KeepShort (Stmt.codes scope jumps free pc body)
  | [] => by simp [Stmt.codes]
  | s :: rest => by simp [Stmt.codes, Stmt.code_keepsShort s, Stmt.codes_keepsShort rest]

theorem Arm.codes_keepsShort {scope : Scope} {jumps : Jumps} {subject done free pc : Nat} :
    (arms : List Arm) → Draft.KeepShort (Arm.codes scope jumps subject done free pc arms)
  | [] => by simp [Arm.codes]
  | .test value body _ :: rest => by
    simp [Arm.codes, Arm.code, value.code_keepsShort, Stmt.code_keepsShort body,
      Arm.codes_keepsShort rest, Draft.onRegisters, Draft.branchTo, Draft.jumpTo]
  | .always body _ :: rest => by
    simp [Arm.codes, Arm.code, Stmt.code_keepsShort body, Arm.codes_keepsShort rest,
      Draft.onRegister, Draft.branchTo, Draft.jumpTo]

end

/-! ### Operands of suitable drafts -/

theorem Operand.Suits.isNarrow {R N : Nat} (hR : R ≤ operandLimit) (hN : N ≤ operandLimit)
    {kind : OperandKind} (hkind : kind ≠ .immediate) {o : Operand} (ho : o.Suits R N kind) :
    o.IsNarrow := by
  cases o with
  | none | const _ => trivial
  | register r =>
    cases kind <;> first | exact Nat.lt_of_lt_of_le ho hR | cases ho
  | target pc =>
    cases kind <;> first | exact Nat.lt_of_lt_of_le ho hN | cases ho
  | number n => cases kind <;> first | exact absurd rfl hkind | cases ho

theorem Opcode.kinds_fst_ne (op : Opcode) : op.kinds.1 ≠ .immediate := by
  cases op <;> exact nofun

theorem Opcode.kinds_of_immediate {op : Opcode} (h : op.kinds.2 = .immediate) :
    op.kinds.1 = .register := by
  cases op <;> first | rfl | cases h

/-- A count is small if the run of registers that it belongs to is short. -/
theorem Opcode.lt_of_extent_lt {op : Opcode} (h : op.kinds.2 = .immediate) (hop : op ≠ .loadInt)
    {n : Nat} (hn : op.extent n < 2 ^ 31) : n < operandLimit := by
  have hlimit : operandLimit = 2 ^ 32 := rfl
  cases op with
  | array | map | call | method | format => simp only [extent] at hn; omega
  | loadInt => exact absurd rfl hop
  | _ => cases h

theorem Draft.Suits.isNarrow {R N : Nat} {d : Draft} (hd : d.Suits R N) (hR : R ≤ 2 ^ 31)
    (hN : N ≤ operandLimit) (hshort : d.op = .loadInt → d.b.IsNarrow) :
    d.a.IsNarrow ∧ d.b.IsNarrow := by
  have hR' : R ≤ operandLimit := Nat.le_trans hR (by decide)
  refine ⟨hd.first.isNarrow hR' hN d.op.kinds_fst_ne, ?_⟩
  by_cases hkind : d.op.kinds.2 = .immediate
  · by_cases hop : d.op = .loadInt
    · exact hshort hop
    · have hfirst := hd.first
      have hsecond := hd.second
      rw [Opcode.kinds_of_immediate hkind] at hfirst
      rw [hkind] at hsecond
      obtain ⟨r, hr⟩ := hfirst.eq_register
      obtain ⟨n, hn⟩ := hsecond.eq_number
      have hrun := hd.run r n hr hn
      rw [hn]
      exact Opcode.lt_of_extent_lt hkind hop (by omega)
  · exact hd.second.isNarrow hR' hN hkind

/-! ### Builders with room -/

theorem Pool.size_intern (pool : Array Constant) (c : Constant) :
    (intern pool c).2 ≤ pool.size ∧ (intern pool c).1.size ≤ pool.size + 1 := by
  unfold intern
  split
  · next n h =>
    rw [Array.idxOf?_eq_map_finIdxOf?_val, Option.map_eq_some_iff] at h
    obtain ⟨i, -, rfl⟩ := h
    exact ⟨Nat.le_of_lt i.isLt, Nat.le_succ _⟩
  · simp

namespace Builder

theorem exists_number {b : Builder} {o : Operand} (ho : o.IsNarrow)
    (hb : b.pool.size < operandLimit) :
    ∃ c x, b.number o = .ok (c, x) ∧ c.pool.size ≤ b.pool.size + 1 := by
  have plain : ∀ {what : Extent} {n : Nat}, n < operandLimit →
      ∃ c x, (do return (b, ← operand what n) : Except CompileError (Builder × UInt32)) =
        .ok (c, x) ∧ c.pool.size ≤ b.pool.size + 1 := by
    intro what n hn
    obtain ⟨x, hx, -⟩ := exists_operand what hn
    exact ⟨b, x, by rw [hx]; rfl, Nat.le_succ _⟩
  cases o with
  | none => exact ⟨b, 0, rfl, Nat.le_succ _⟩
  | register r => exact plain ho
  | target pc => exact plain ho
  | number n => exact plain ho
  | const k =>
    obtain ⟨hplace, hsize⟩ := Pool.size_intern b.pool k
    obtain ⟨x, hx, -⟩ := exists_operand .pool (Nat.lt_of_le_of_lt hplace hb)
    exact ⟨{ b with pool := (Pool.intern b.pool k).1 }, x, by simp [number, constant, hx],
      hsize⟩

theorem exists_add {b : Builder} {d : Draft} (hd : d.a.IsNarrow ∧ d.b.IsNarrow)
    (hb : b.pool.size + 2 ≤ operandLimit) :
    ∃ c, b.add d = .ok c ∧ c.pool.size ≤ b.pool.size + 2 := by
  obtain ⟨b₁, x, hx, h₁⟩ := exists_number hd.1 (Nat.lt_of_succ_lt hb)
  obtain ⟨b₂, y, hy, h₂⟩ := exists_number (b := b₁) hd.2 (by omega)
  refine ⟨(b₂.setLine d.line).emit d.op x y, ?_, ?_⟩
  · simp [add, hx, hy, bind, Except.bind, pure, Except.pure]
  · exact Nat.le_trans h₂ (by omega)

/-- Drafts with operands that fit become instructions. Each of them makes at most two constants. -/
theorem exists_addAll {b : Builder} {ds : List Draft} (h : ∀ d ∈ ds, d.a.IsNarrow ∧ d.b.IsNarrow)
    (hb : b.pool.size + 2 * ds.length ≤ operandLimit) : ∃ c, b.addAll ds = .ok c := by
  induction ds generalizing b with
  | nil => exact ⟨b, rfl⟩
  | cons d ds ih =>
    rw [List.forall_mem_cons] at h
    rw [List.length_cons] at hb
    obtain ⟨b₁, hd, hsize⟩ := exists_add (b := b) h.1 (by omega)
    obtain ⟨c, hc⟩ := ih (b := b₁) h.2 (by omega)
    exact ⟨c, by rw [addAll, hd]; exact hc⟩

end Builder

/-! ### Programs of templates -/

/-- A template with few instructions and registers has a program. -/
theorem Stmt.exists_program {s : Stmt} (hsize : s.size + 1 ≤ 2 ^ 31)
    (hregisters : s.registers ≤ 2 ^ 31) (source : Source) : ∃ p, s.program source = .ok p := by
  have hlimit : operandLimit = 2 ^ 32 := rfl
  have hlength : s.drafts.length = s.size + 1 := by simp [Stmt.drafts]
  have hnarrow : ∀ d ∈ s.drafts, d.a.IsNarrow ∧ d.b.IsNarrow := by
    intro d hd
    rcases List.mem_append.1 hd with hd | hd
    · exact (s.drafts_suits d hd).isNarrow hregisters (by omega) (s.code_keepsShort d hd)
    · rw [List.mem_singleton.1 hd]
      exact ⟨trivial, trivial⟩
  obtain ⟨b, hb⟩ := Builder.exists_addAll
    (b := { registers := s.registers, maxDepth := s.loopDepth }) hnarrow (by simp; omega)
  refine ⟨b.build source, ?_⟩
  simp [Stmt.program, show ¬operandLimit ≤ s.registers by omega, hb]

/-! ### What can go wrong -/

theorem bind_eq_error {ε α β : Type} {x : Except ε α} {k : α → Except ε β} {e : ε} :
    x >>= k = .error e ↔ x = .error e ∨ ∃ a, x = .ok a ∧ k a = .error e := by
  cases x with
  | error e' => simp [bind, Except.bind]
  | ok a => simp [bind, Except.bind]

theorem operand_eq_error {what : Extent} {n : Nat} {e : CompileError}
    (h : operand what n = .error e) : e = .tooLarge what := by
  unfold operand at h
  split at h <;> cases h
  rfl

namespace Builder
variable {b : Builder} {e : CompileError}

theorem number_eq_error {o : Operand} (h : b.number o = .error e) : ∃ what, e = .tooLarge what := by
  cases o with
  | none => cases h
  | register _ | target _ | number _ =>
    rcases bind_eq_error.1 h with h | ⟨_, _, ⟨⟩⟩
    exact ⟨_, operand_eq_error h⟩
  | const c =>
    simp only [number, constant, bind_eq_error] at h
    rcases h with h | ⟨_, _, ⟨⟩⟩
    exact ⟨_, operand_eq_error h⟩

theorem addAll_eq_error {ds : List Draft} (h : b.addAll ds = .error e) :
    ∃ what, e = .tooLarge what := by
  induction ds generalizing b with
  | nil => cases h
  | cons d ds ih =>
    rw [addAll, bind_eq_error] at h
    rcases h with h | ⟨b₁, _, h⟩
    · simp only [add, bind_eq_error] at h
      rcases h with h | ⟨_, _, h | ⟨_, _, ⟨⟩⟩⟩ <;> exact number_eq_error h
    · exact ih h

end Builder

/-- The only thing that can be wrong with a template is that there is too much of something. -/
theorem Stmt.program_eq_error {s : Stmt} {source : Source} {e : CompileError}
    (h : s.program source = .error e) : ∃ what, e = .tooLarge what := by
  unfold Stmt.program at h
  split at h
  · cases h
    exact ⟨_, rfl⟩
  · rcases bind_eq_error.1 h with h | ⟨_, _, ⟨⟩⟩
    exact Builder.addAll_eq_error h

end Stencil
