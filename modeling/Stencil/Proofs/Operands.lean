import Stencil.Bytecode.Validity
import Stencil.Proofs.Ways

/-!
# The operands of valid programs

The check of a program looks at the kinds of operands and at the last register of a run; the
machine looks at registers, runs and constants. What passes the check has all that the machine looks
for, whether it was compiled, decoded or put together by hand.

* `Program.Covers`: a program has all that an instruction touches;
* `Program.covers_of_validate`: valid programs do, unless they have more registers than operands;
* `Frame.step_not_isMissing`: no step of a frame misses anything then;
* `Program.validate_operands`: no instruction of a valid program misses anything.
-/

namespace Stencil

variable {σ : Type}

/-! ### What the check of a program covers -/

/-- A program has all that an instruction touches: its registers, its run of registers, whose
positions are no larger than operands can be, and its constants. -/
structure Program.Covers (p : Program) (i : Instruction) : Prop where
  registers : ∀ r, i.op.Touches i.a.toNat i.b.toNat r → r < p.registerCount.toNat
  run : ∀ first count, i.op.run? i.a.toNat i.b.toNat = some (first, count) →
    first + count ≤ p.registerCount.toNat ∧ first + count < operandLimit
  constants : ∀ n, i.op.Names i.a.toNat i.b.toNat n → n < p.pool.size

namespace Program

variable {p : Program}

theorem checkOperand_register {n : Nat} :
    p.checkOperand .register n = .ok () ↔ n < p.registerCount.toNat := by
  simp [checkOperand]

theorem checkOperand_pool {n : Nat} : p.checkOperand .pool n = .ok () ↔ n < p.pool.size := by
  simp [checkOperand]

theorem checkInstruction_of_checkFrom {is : List Instruction} {pc : Nat}
    (h : p.checkFrom pc is = .ok ()) : ∀ i ∈ is, p.checkInstruction i = .ok () := by
  induction is generalizing pc with
  | nil => exact List.forall_mem_nil _
  | cons i is ih =>
    unfold checkFrom at h
    split at h
    · cases h
    · next hi => exact List.forall_mem_cons.2 ⟨hi, ih h⟩

theorem checkInstruction_of_validate (hp : p.validate = .ok ()) :
    ∀ i ∈ p.instructions, p.checkInstruction i = .ok () := by
  unfold validate at hp
  split at hp
  · cases hp
  · split at hp
    · cases hp
    · exact fun i hi => checkInstruction_of_checkFrom hp i (Array.mem_toList_iff.2 hi)

/-- What the check of an instruction says about its operands. -/
theorem checkOperand_of_checkInstruction {i : Instruction} (h : p.checkInstruction i = .ok ()) :
    p.checkOperand i.op.kinds.1 i.a.toNat = .ok () ∧
      p.checkOperand i.op.kinds.2 i.b.toNat = .ok () ∧
      (0 < i.op.extent i.b.toNat → p.checkOperand .register
        (min (i.a.toNat + i.op.extent i.b.toNat) (operandLimit - 1)) = .ok ()) := by
  simp only [checkInstruction, bind_eq_ok] at h
  obtain ⟨⟨⟩, hfirst, ⟨⟩, hsecond, hrun⟩ := h
  exact ⟨hfirst, hsecond, fun hpos => by rwa [if_pos hpos] at hrun⟩

/-- A program has all that its instructions touch if they pass the check. The check cuts the end of
a run down to the largest operand, which therefore must not name a register itself. -/
theorem covers_of_checkInstruction (hcount : p.registerCount.toNat < operandLimit - 1)
    {i : Instruction} (hi : p.checkInstruction i = .ok ()) : p.Covers i := by
  obtain ⟨hfirst, hsecond, hrun⟩ := checkOperand_of_checkInstruction hi
  have hfirst' (h : i.op.kinds.1 = .register) : i.a.toNat < p.registerCount.toNat := by
    rw [h] at hfirst
    exact checkOperand_register.1 hfirst
  have hsecond' (h : i.op.kinds.2 = .register) : i.b.toNat < p.registerCount.toNat := by
    rw [h] at hsecond
    exact checkOperand_register.1 hsecond
  have hend (h : i.op.kinds.1 = .register) :
      i.a.toNat + i.op.extent i.b.toNat < p.registerCount.toNat := by
    by_cases hpos : 0 < i.op.extent i.b.toNat
    · have := checkOperand_register.1 (hrun hpos)
      omega
    · have := hfirst' h
      omega
  have hlimit : p.registerCount.toNat < operandLimit := by omega
  obtain ⟨op, x, y⟩ := i
  refine ⟨fun r hr => ?_, fun first count hr => ?_, fun n hn => ?_⟩
  · rcases hr with hr | ⟨hkind, rfl⟩
    · cases op
      case array | map | call | format | method =>
        have := hend rfl
        simp only [Opcode.Reads, Opcode.extent] at hr this
        omega
      case append | not | jumpIfFalse | jumpIfTrue | iterStart | inclusion | lower | upper
          | form =>
        exact hr ▸ hfirst' rfl
      case setVar | move => exact hr ▸ hsecond' rfl
      case add | subtract | multiply | divide | modulo | concat | equals | notEquals | gt | ge | lt
          | le | test | range | member | inclusionWith | wrap =>
        exact hr.elim (fun h => h ▸ hfirst' rfl) fun h => h ▸ hsecond' rfl
      all_goals exact hr.elim
    · exact hfirst' hkind
  · cases op
    case array | map | call | format | method =>
      have := hend rfl
      simp only [Opcode.run?, Opcode.extent, Option.some.injEq, Prod.mk.injEq] at hr this
      omega
    all_goals cases hr
  · rcases hn with ⟨hkind, rfl⟩ | ⟨hkind, rfl⟩
    · rw [hkind] at hfirst
      exact checkOperand_pool.1 hfirst
    · rw [hkind] at hsecond
      exact checkOperand_pool.1 hsecond

/-- Valid programs have all that their instructions touch, if operands can name more than their
registers. -/
theorem covers_of_validate (hp : p.validate = .ok ())
    (hcount : p.registerCount.toNat < operandLimit - 1) : ∀ i ∈ p.instructions, p.Covers i :=
  fun i hi => covers_of_checkInstruction hcount (checkInstruction_of_validate hp i hi)

end Program

/-! ### Nothing is missing -/

/-- All frames on the way have the registers that their programs say. -/
theorem Frame.Reaches.size_registers {ctx : Context σ} {f g : Frame} {w v : World σ}
    (h : f.Reaches ctx w g v) (hf : f.registers.size = f.program.registerCount.toNat) :
    g.registers.size = g.program.registerCount.toNat := by
  refine h.invariant (P := fun f => f.registers.size = f.program.registerCount.toNat) ?_ ?_ ?_ hf
  · exact fun q depth => Array.size_replicate
  · intro f f' w w' hf hs
    have hgoes := continues_of_next hs
    rw [hgoes.program, hgoes.size, hf]
  · intro f f' w w' q kept resume hf hs output
    have hgoes := continues_of_render hs
    have hresumes := f'.resume_continues ctx output resume
    rw [hresumes.program, hresumes.size, hgoes.program, hgoes.size, hf]

/-- A register, a run of registers or a constant is not there. -/
def Fault.IsMissing : Fault → Prop
  | .internal (.register _) | .internal (.run _ _) | .internal (.pool _) => True
  | _ => False

/-- No step misses anything if the program has all that its instructions touch. -/
theorem Frame.step_not_isMissing {ctx : Context σ} {f : Frame} {w v : World σ} {fault : Fault}
    {p : Program} {pc : Nat} (hcovers : ∀ i ∈ f.program.instructions, f.program.Covers i)
    (hsize : f.registers.size = f.program.registerCount.toNat)
    (h : f.step ctx w = .fault fault p pc v) : ¬fault.IsMissing := by
  intro hmissing
  unfold step at h
  split at h
  · cases h
    exact hmissing
  · next i hi =>
    have hi := hcovers i (Array.mem_of_getElem? hi)
    dsimp only at h
    split at h
    · next a ha =>
      -- The action of an inclusion looks at the register of its variables only now.
      have hreads := action_follows (P := fun _ _ => True) (f := f)
        (S := ⟨0, {r | i.op.Reads i.a.toNat i.b.toNat r}⟩) (fun _ _ _ _ => id) (fun _ hr => hr)
        (fun _ _ => trivial) (fun _ => rfl) a ha
      cases fault with
      | internal fault =>
        obtain ⟨r, bindings, name, rfl, rfl | hr⟩ := internal_of_perform h
        · exact hmissing
        · have : bindings < f.registers.size := hsize ▸ hi.registers _ (.inl hreads.1)
          simp [register, this] at hr
      | _ => exact hmissing
    · next ha =>
      cases h
      cases fault with
      | internal fault =>
        have hmay := action_confined _ ha
        cases fault with
        | register r => exact absurd (hi.registers r hmay.1) (by have := hmay.2; omega)
        | run first count => exact absurd (hi.run first count hmay.1).1 (by have := hmay.2; omega)
        | pool n => exact absurd (hi.constants n hmay.1) (by have := hmay.2; omega)
        | _ => exact hmissing
      | _ => exact hmissing

/-- A valid program that has fewer registers than operands can name has all that its instructions
touch, and no position of a run of registers that they read is too large for an operand. So no frame
of it misses a register, a run of registers or a constant, in any render of any program around
it. -/
theorem Program.validate_operands {p : Program} (hp : p.validate = .ok ())
    (hcount : p.registerCount.toNat < operandLimit - 1) :
    (∀ i ∈ p.instructions, p.Covers i) ∧
      ∀ {ctx : Context σ} {q : Program} {depth : Nat} {f : Frame} {w v : World σ},
        (Frame.start q depth).Reaches ctx w f v → f.program = p →
        ∀ {fault p' pc v'}, f.step ctx v = .fault fault p' pc v' → ¬fault.IsMissing := by
  have hcovers := covers_of_validate hp hcount
  refine ⟨hcovers, ?_⟩
  rintro ctx q depth f w v h rfl fault p' pc v' hs
  exact Frame.step_not_isMissing hcovers (h.size_registers Array.size_replicate) hs

/-- A program that calls a function with all its registers. -/
def Program.calling : Program where
  instructions := #[⟨.loadConst, 0, 0⟩, ⟨.loadInt, 1, 7⟩, ⟨.call, 0, 1⟩, ⟨.append, 0, 0⟩,
    ⟨.finish, 0, 0⟩]
  pool := #[.str "double"]
  lines := #[1, 1, 1, 1, 1]
  registerCount := 2
  loopDepth := 0
  source := .anonymous

theorem Program.validate_calling : Program.calling.validate = .ok () ∧
    (∀ i ∈ Program.calling.instructions, Program.calling.Covers i) ∧
      ∀ {ctx : Context Unit} {q : Program} {depth : Nat} {f : Frame} {w v : World Unit},
        (Frame.start q depth).Reaches ctx w f v → f.program = Program.calling →
        ∀ {fault p' pc v'}, f.step ctx v = .fault fault p' pc v' → ¬fault.IsMissing :=
  ⟨by decide, Program.validate_operands (by decide) (by decide)⟩

end Stencil
