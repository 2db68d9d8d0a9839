import Stencil.Bytecode.Codec
import Stencil.Proofs.Operands
import Stencil.Proofs.Validity

/-!
# Where valid programs go

An instruction leads to the next one or to the target of its jump. The last instruction of a valid
program ends it, so that no frame goes on from there; but the check of a program lets a jump lead
right behind the last instruction. That is the only way out of a valid program.

* `Opcode.ways_pc`: the places that an instruction leads to;
* `Frame.step_lands`: the place that a frame is at after a step;
* `Program.IsPlace`: the instructions of a program, and the place behind them if a jump leads
  there;
* `Program.isPlace_of_validate`: the frames of a valid program are at such places;
* `Program.validate_stays`: a valid program without a jump behind its end stays inside it;
* `Program.leaping`: a valid program that does not.
-/

namespace Stencil

variable {σ : Type}

/-! ### The place after a step -/

/-- An instruction leads to the next one, unless it is the end, or to the target of its jump. -/
theorem Opcode.ways_pc {i : Instruction} {pc : Nat} {S : Shape} :
    ∀ way ∈ i.op.ways i.a.toNat i.b.toNat pc S,
      i.op ≠ .finish ∧ way.1 = pc + 1 ∨ way.1 ∈ i.target? := by
  obtain ⟨op, a, b⟩ := i
  cases op <;> simp [ways, Instruction.target?, Opcode.kinds]

/-- After a step a frame is at a place as `P` says, also when it first waits for the output of a
template inside it. -/
def Step.Lands (P : Nat → Prop) : Step σ → Prop
  | .next f _ => P f.pc
  | .render _ _ f resume _ => ∀ (ctx : Context σ) output, P (f.resume ctx output resume).pc
  | .finish _ _ | .fault _ _ _ _ => True

namespace Frame

variable {P : Nat → Prop} {f : Frame} {ctx : Context σ} {w : World σ}

theorem descend_lands {program : Program} {scope : Option Vars} {resume : Resume}
    (h : P (f.pc + 1)) : (f.descend ctx w program scope resume).Lands P := by
  unfold descend
  split
  · trivial
  · split <;> intro ctx output <;> cases resume <;> exact h

theorem load_lands (name : String) {go : Program → World σ → Step σ}
    (hgo : ∀ p v, (go p v).Lands P) : (f.load ctx w name go).Lands P := by
  unfold load
  split
  · exact hgo _ _
  · trivial

/-- The place after an action is one that the action leads to. -/
theorem perform_lands {S : Shape} {a : Action} (ha : f.Follows (fun pc _ => P pc) S a) :
    (f.perform ctx w a).Lands P := by
  cases a with
  | append v => cases v <;> exact ha
  | next r item record pc => exact ha.2
  | exhaust record => exact ha.2
  | call r name function args =>
    simp only [perform]
    split
    · exact ha
    · trivial
  | inclusion r name =>
    rw [perform]
    exact load_lands name fun _ _ => descend_lands ha
  | inclusionWith r bindings name =>
    rw [perform]
    refine load_lands name fun _ _ => ?_
    split
    · exact descend_lands ha.2
    · trivial
    · trivial
  | wrap name before content =>
    rw [perform]
    exact load_lands name fun _ _ => descend_lands ha
  | finish => trivial
  | _ => exact ha

/-- The place after a step is the next instruction, unless the step was the end, or the target of
the jump that the frame was at. -/
theorem step_lands (h : ∀ i, f.program.instructions[f.pc]? = some i →
    (i.op ≠ .finish → P (f.pc + 1)) ∧ ∀ t ∈ i.target?, P t) : (f.step ctx w).Lands P := by
  unfold step
  split
  · trivial
  · next i hi =>
    obtain ⟨hon, htarget⟩ := h i hi
    dsimp only
    split
    · next a ha =>
      -- Only the places matter here, and not what is known there.
      refine perform_lands (action_follows (S := ⟨0, Set.univ⟩) (fun _ _ _ _ => id)
        (fun _ _ => Set.mem_univ _) (fun way hway => ?_) (fun _ => rfl) a ha)
      rcases Opcode.ways_pc way hway with ⟨hop, hpc⟩ | hpc
      · exact hpc ▸ hon hop
      · exact htarget _ hpc
    · trivial

end Frame

/-! ### Valid programs -/

namespace Program

variable {p : Program}

theorem checkOperand_target {n : Nat} :
    p.checkOperand .target n = .ok () ↔ n ≤ p.instructions.size := by
  simp [checkOperand]

/-- No jump of a valid program leads farther than right behind the last instruction. -/
theorem target_le_of_validate (hp : p.validate = .ok ()) :
    ∀ i ∈ p.instructions, ∀ t ∈ i.target?, t ≤ p.instructions.size := by
  intro i hi t ht
  obtain ⟨hfirst, hsecond, -⟩ :=
    checkOperand_of_checkInstruction (checkInstruction_of_validate hp i hi)
  unfold Instruction.target? at ht
  split at ht
  · next hkinds =>
    rw [hkinds] at hfirst
    exact Option.some.inj ht ▸ checkOperand_target.1 hfirst
  · next hkinds =>
    rw [hkinds] at hsecond
    exact Option.some.inj ht ▸ checkOperand_target.1 hsecond
  · cases ht

/-- The last instruction of a valid program is its end. -/
theorem finish_of_validate (hp : p.validate = .ok ()) :
    ∃ i, p.instructions[p.instructions.size - 1]? = some i ∧ i.op = .finish := by
  unfold validate at hp
  split at hp
  · cases hp
  · split at hp
    · cases hp
    · next hback =>
      rw [not_not, Option.map_eq_some_iff, Array.back?_eq_getElem?] at hback
      exact hback

/-- A place that a frame of the program may be at: an instruction, or the place behind the last one
if a jump leads there. -/
def IsPlace (p : Program) (pc : Nat) : Prop :=
  pc < p.instructions.size ∨
    pc = p.instructions.size ∧ ∃ i ∈ p.instructions, p.instructions.size ∈ i.target?

/-- All frames of a valid program are at its places, in every render of any program around it. -/
theorem isPlace_of_validate (hp : p.validate = .ok ()) {ctx : Context σ} {q : Program}
    {depth : Nat} {f : Frame} {w v : World σ} (h : (Frame.start q depth).Reaches ctx w f v)
    (hf : f.program = p) : p.IsPlace f.pc := by
  obtain ⟨last, hlast, hfinish⟩ := finish_of_validate hp
  have hpos : 0 < p.instructions.size := by
    have := (Array.getElem?_eq_some_iff.1 hlast).1
    omega
  have hstep {g : Frame} (hg : g.program = p) (w : World σ) : (g.step ctx w).Lands p.IsPlace := by
    refine Frame.step_lands fun i hi => ⟨fun hop => .inl ?_, fun t ht => ?_⟩
    · rw [hg] at hi
      have hlt := (Array.getElem?_eq_some_iff.1 hi).1
      -- The instruction is not the last one, which is the end.
      by_contra hbehind
      rw [show g.pc = p.instructions.size - 1 by omega, hlast] at hi
      exact hop (Option.some.inj hi ▸ hfinish)
    · rw [hg] at hi
      have hmem := Array.mem_of_getElem? hi
      rcases Nat.lt_or_eq_of_le (target_le_of_validate hp i hmem t ht) with hlt | rfl
      · exact .inl hlt
      · exact .inr ⟨rfl, i, hmem, ht⟩
  refine h.invariant (P := fun f => f.program = p → p.IsPlace f.pc) ?_ ?_ ?_ ?_ hf
  · rintro q depth rfl
    exact .inl hpos
  · intro g g' w w' _ hs hg'
    have hlands := hstep ((Frame.continues_of_next hs).program.symm.trans hg') w
    rwa [hs] at hlands
  · intro g g' w w' q kept resume _ hs output hg'
    rw [(Frame.resume_continues _ _ _ _).program, (Frame.continues_of_render hs).program] at hg'
    have hlands := hstep hg' w
    rw [hs] at hlands
    exact hlands ctx output
  · rintro rfl
    exact .inl hpos

/-- A valid program stays inside its instructions if none of its jumps leads right behind the last
one: each of its frames is at an instruction, in every render of any program around it, and no step
of it is past its end. -/
theorem validate_stays (hp : p.validate = .ok ())
    (hjumps : ∀ i ∈ p.instructions, p.instructions.size ∉ i.target?) {ctx : Context σ}
    {q : Program} {depth : Nat} {f : Frame} {w v : World σ}
    (h : (Frame.start q depth).Reaches ctx w f v) (hf : f.program = p) :
    f.pc < p.instructions.size ∧
      ∀ {n p' pc v'}, f.step ctx v ≠ .fault (.internal (.pastEnd n)) p' pc v' := by
  have hpc : f.pc < p.instructions.size := by
    refine (isPlace_of_validate hp h hf).resolve_right ?_
    rintro ⟨-, i, hi, ht⟩
    exact hjumps i hi ht
  refine ⟨hpc, fun {n p' pc v'} hs => ?_⟩
  subst hf
  unfold Frame.step at hs
  rw [Array.getElem?_eq_getElem hpc] at hs
  dsimp only at hs
  split at hs
  · obtain ⟨_, bindings, _, -, hfault | hfault⟩ := Frame.internal_of_perform hs
    · cases hfault
    · unfold Frame.register at hfault
      split at hfault <;> cases hfault
  · next ha =>
    cases hs
    exact Frame.action_confined _ ha

end Program

/-! ### A program that stays inside and one that does not -/

/-- The context of a template that stands alone: no other can be loaded. -/
def Context.alone : Context Unit where
  load name _ := (.error (.notFound name []), ())

namespace Program

/-- A program that writes a text again and again. -/
def repeating : Program where
  instructions := #[⟨.loadTrue, 0, 0⟩, ⟨.jumpIfFalse, 0, 4⟩, ⟨.appendText, 0, 0⟩, ⟨.jump, 1, 0⟩,
    ⟨.finish, 0, 0⟩]
  pool := #[.str "again "]
  lines := #[1, 1, 1, 1, 1]
  registerCount := 1
  loopDepth := 0
  source := .anonymous

/-- At its jump back the program stays inside. -/
theorem repeating_stays : ∃ f v,
    repeating.validate = .ok () ∧
      (∀ i ∈ repeating.instructions, repeating.instructions.size ∉ i.target?) ∧
      (Frame.start repeating 0).Reaches .alone { loader := () } f v ∧ f.program = repeating ∧
      f.pc = 3 ∧ f.pc < repeating.instructions.size ∧
      ∀ {n p' pc v'}, f.step .alone v ≠ .fault (.internal (.pastEnd n)) p' pc v' := by
  have hvalid : repeating.validate = .ok () := by decide
  have hjumps : ∀ i ∈ repeating.instructions, repeating.instructions.size ∉ i.target? := by decide
  obtain ⟨f, v, hreach, hf, hpc⟩ : ∃ f v,
      (Frame.start repeating 0).Reaches .alone { loader := () } f v ∧ f.program = repeating ∧
        f.pc = 3 := ⟨_, _, .next rfl (.next rfl (.next rfl (.refl _ _))), rfl, rfl⟩
  exact ⟨f, v, hvalid, hjumps, hreach, hf, hpc, validate_stays hvalid hjumps hreach hf⟩

/-- A program whose only jump leads right behind its end. -/
def leaping : Program where
  instructions := #[⟨.jump, 2, 0⟩, ⟨.finish, 0, 0⟩]
  pool := #[]
  lines := #[0, 0]
  registerCount := 0
  loopDepth := 0
  source := .anonymous

/-- The jump passes the check when the program is read, and the render ends in a fault behind the
last instruction. -/
theorem leaping_pastEnd :
    ofBytes [0x02, 0x1C, 0x02, 0x00, 0x2F, 0x00, 0x00, 0x00, 0x02, 0x00, 0x00, 0x02, 0x00, 0x00] =
      .ok leaping ∧
      (∃ f v, (Frame.start leaping 0).Reaches .alone { loader := () } f v ∧ f.program = leaping ∧
        f.pc = leaping.instructions.size) ∧
      ∃ v, leaping.render .alone 2 { loader := () } =
        some (.error ⟨⟨.internal (.pastEnd 2), leaping, 2⟩, []⟩, v) :=
  ⟨by decide +kernel, ⟨_, _, .next rfl (.refl _ _), rfl, rfl⟩, _, rfl⟩

end Program

end Stencil
