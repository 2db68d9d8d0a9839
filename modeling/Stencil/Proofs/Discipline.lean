import Stencil.Proofs.Safety
import Stencil.Proofs.Tracks
import Stencil.Proofs.Visits

/-!
# What compiled programs keep to

At each instruction of a compiled program a frame is in a fixed number of loops, whatever the way
that led there, and the instruction reads no register that has not been written before.

* `Frame.exec_alike`: frames that differ in registers that have not been written end alike;
* `Program.KeepsLoops`: the numbers of loops at the instructions of a program;
* `Program.exists_keepsLoops`: compiled programs have such numbers;
* `Program.exec_registers`: the registers of a compiled program may start with any values.
-/

namespace Stencil

variable {σ : Type}

/-! ### Frames that differ in registers -/

namespace Frame

variable {shape : Nat → Shape} {p : Program}

/-- A frame before the first instruction is as the shapes say, whatever is in its registers. -/
theorem start_alike (hp : p.HasShapes shape) (depth : Nat) {registers : Array Value}
    (hsize : registers.size = p.registerCount.toNat) :
    (Frame.start p depth).Alike shape { Frame.start p depth with registers } := by
  refine ⟨⟨registers, rfl⟩, hp.start.1.symm, ?_, fun r hr => absurd (hp.start.2 hr) id⟩
  rw [hsize]
  exact Array.size_replicate.symm

/-- Every frame of a program on the way is in as many loops as the shape of its place says. -/
theorem Reaches.loops_eq (hp : p.HasShapes shape) {ctx : Context σ} {f g : Frame} {w v : World σ}
    (h : f.Reaches ctx w g v) (hf : f.program = p → f.loops.length = (shape f.pc).loops) :
    g.program = p → g.loops.length = (shape g.pc).loops := by
  refine h.invariant (P := fun f => f.program = p → f.loops.length = (shape f.pc).loops)
    ?_ ?_ ?_ hf
  · rintro q depth rfl
    exact hp.start.1.symm
  · intro f f' w w' hf hs hp'
    have hfp : f.program = p := (continues_of_next hs).program.symm.trans hp'
    have hstep := step_alike ctx w (hfp ▸ hp) (.refl (hf hfp))
    rw [hs] at hstep
    cases hstep with
    | next _ halike => exact halike.loops
  · intro f f' w w' q kept resume hf hs output hp'
    have hfp : f.program = p := by
      rwa [(resume_continues _ _ _ _).program, (continues_of_render hs).program] at hp'
    have hstep := step_alike ctx w (hfp ▸ hp) (.refl (hf hfp))
    rw [hs] at hstep
    cases hstep with
    | render _ _ _ _ hresume => exact (hresume ctx output).loops

/-- Frames of a program that differ in registers that have not been written end alike. -/
theorem exec_alike (hp : p.HasShapes shape) (ctx : Context σ) (fuel : Nat) {f g : Frame}
    (hf : f.program = p) (h : f.Alike shape g) (w : World σ) :
    Frame.exec ctx fuel g w = Frame.exec ctx fuel f w := by
  induction fuel generalizing f g w with
  | zero => rfl
  | succ fuel ih =>
    have hstep := step_alike ctx w (hf ▸ hp) h
    rw [exec, exec]
    generalize hs : f.step ctx w = s at hstep
    generalize g.step ctx w = t at hstep
    cases hstep with
    | next w' halike => exact ih ((continues_of_next hs).program.trans hf) halike w'
    | finish output w' => rfl
    | fault fault q pc w' => rfl
    | @render f' g' q kept resume w' halike hresume =>
      have hf' : f'.program = p := (continues_of_render hs).program.trans hf
      obtain ⟨registers, rfl⟩ := halike.same
      dsimp only
      split
      · rfl
      · next output _ _ =>
        exact ih ((resume_continues _ _ _ _).program.trans hf') (hresume ctx output) _
      · rfl

end Frame

/-! ### Loops -/

/-- The program of a statement has room for the loops that are nested in it. -/
theorem Stmt.loopDepth_of_program {s : Stmt} {source : Source} {p : Program}
    (h : s.program source = .ok p) : p.loopDepth.toNat = s.loopDepth := by
  have hlimit := (Stmt.program_spec h).limit
  have hle := s.loopDepth_le_registers
  simp only [Stmt.program, bind, Except.bind] at h
  split at h
  · cases h
  · split at h
    · cases h
    · next b hb =>
      cases h
      obtain ⟨hgrows, -⟩ := Builder.addAll_eq_ok hb rfl source
      show (UInt64.ofNat b.maxDepth).toNat = s.loopDepth
      rw [hgrows.maxDepth, UInt64.toNat_ofNat']
      exact Nat.mod_eq_of_lt (Nat.lt_trans (Nat.lt_of_le_of_lt hle hlimit) (by decide))

/-- The places of a compiled program have shapes, with no more loops than the program has room
for. -/
theorem Program.exists_shapes {tree : Node} {source : Source} {p : Program}
    (hp : Program.compile tree source = .ok p) :
    ∃ shape : Nat → Shape, p.HasShapes shape ∧
      ∀ n < p.instructions.size, (shape n).loops ≤ p.loopDepth.toNat := by
  obtain ⟨s, hs, hprogram⟩ := Program.compile_eq_ok hp
  rw [Stmt.loopDepth_of_program hprogram]
  exact (Stmt.program_spec hprogram).exists_shapes (Stmt.ofNode_behaves tree tree.hasTexts_any hs)

/-- Each instruction of a program has a number of loops: a frame of the program is in so many when
it is there, in every render of any program around it. These are at most as many as the program has
room for, and none at an end, so that a frame that ends has left all its loops. -/
structure Program.KeepsLoops (p : Program) (level : Nat → Nat) : Prop where
  loops : ∀ {σ : Type} {ctx : Context σ} {q : Program} {depth : Nat} {f : Frame} {w v : World σ},
    (Frame.start q depth).Reaches ctx w f v → f.program = p → f.loops.length = level f.pc
  bound : ∀ n < p.instructions.size, level n ≤ p.loopDepth.toNat
  finish : ∀ {n : Nat} {i : Instruction},
    p.instructions[n]? = some i → i.op = .finish → level n = 0
  left : ∀ {σ : Type} {ctx : Context σ} {q : Program} {depth : Nat} {f : Frame} {w v v' : World σ}
    {output : String}, (Frame.start q depth).Reaches ctx w f v → f.program = p →
      f.step ctx v = .finish output v' → f.loops = []

/-- Every compiled program keeps to fixed numbers of loops, and the depth of loops that it says is
that of the visited loops along collections in its tree. -/
theorem Program.exists_keepsLoops {tree : Node} {source : Source} {p : Program}
    (hp : Program.compile tree source = .ok p) :
    p.loopDepth.toNat = tree.nesting .foreach ∧ ∃ level, p.KeepsLoops level := by
  obtain ⟨shape, hshape, hbound⟩ := Program.exists_shapes hp
  have hloops {σ : Type} {ctx : Context σ} {q : Program} {depth : Nat} {f : Frame} {w v : World σ}
      (h : (Frame.start q depth).Reaches ctx w f v) (hf : f.program = p) :
      f.loops.length = (shape f.pc).loops := by
    refine h.loops_eq hshape ?_ hf
    rintro rfl
    exact hshape.start.1.symm
  refine ⟨?_, fun n => (shape n).loops, hloops, hbound, hshape.finish, ?_⟩
  · obtain ⟨s, hs, hprogram⟩ := Program.compile_eq_ok hp
    rw [Stmt.loopDepth_of_program hprogram, Stmt.ofNode_nesting rfl tree hs, Stmt.nesting_foreach]
  · rintro σ ctx q depth f w v v' output h rfl hs
    exact Frame.loops_of_finish hshape (hloops h rfl) hs

theorem Program.counting_keepsLoops :
    ∃ p, Program.compile .counting .anonymous = .ok p ∧ p.loopDepth.toNat = 1 ∧
      ∃ level, p.KeepsLoops level := by
  have hok : (Program.compile .counting .anonymous).isOk := by decide +kernel
  match h : Program.compile .counting .anonymous with
  | .ok p => exact ⟨p, rfl, Program.exists_keepsLoops h⟩
  | .error e =>
    rw [h] at hok
    cases hok

/-! ### Registers -/

/-- A frame of a compiled program ends in the same way whatever values its registers start with:
with the same output or error, the same variables, and the same record of warnings, calls and
steps. -/
theorem Program.exec_registers {tree : Node} {source : Source} {p : Program}
    (hp : Program.compile tree source = .ok p) {registers : Array Value}
    (hsize : registers.size = p.registerCount.toNat) (ctx : Context σ) (fuel depth : Nat)
    (w : World σ) :
    Frame.exec ctx fuel { Frame.start p depth with registers } w =
      Frame.exec ctx fuel (.start p depth) w := by
  obtain ⟨shape, hshape, -⟩ := Program.exists_shapes hp
  exact Frame.exec_alike hshape ctx fuel rfl (Frame.start_alike hshape depth hsize) w

theorem Program.exec_counting_registers :
    ∃ p, Program.compile .counting .anonymous = .ok p ∧
      Frame.exec (.ofTemplate .failing) 100 { Frame.start p 0 with
        registers := Array.replicate p.registerCount.toNat (.raw "<unset>") } { loader := () } =
      Frame.exec (.ofTemplate .failing) 100 (.start p 0) { loader := () } := by
  have hok : (Program.compile .counting .anonymous).isOk := by decide +kernel
  match h : Program.compile .counting .anonymous with
  | .ok p => exact ⟨p, rfl, Program.exec_registers h Array.size_replicate _ _ _ _⟩
  | .error e =>
    rw [h] at hok
    cases hok

end Stencil
