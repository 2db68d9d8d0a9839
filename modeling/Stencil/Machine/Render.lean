import Stencil.Machine.Step
import Stencil.Machine.RenderError

/-!
# Renders

A program is rendered step by step. A template inside another one is rendered in a frame of its
own, one deeper, and the outer one goes on with its output.

* `Frame.exec`: the steps of a frame, bounded by a number that every step uses up one of;
* `Program.render`: the render of a program, from entering it to leaving it.
-/

namespace Stencil

variable {σ : Type}

/-- The outcome of a render: its output or its error, and the world after it. -/
abbrev Outcome (σ : Type) := Except RenderError String × World σ

/-- The world after a template inside another one, which goes on with the variables that were kept
for it. -/
def World.outer (w : World σ) (kept : Option Vars) (depth : Nat) : World σ :=
  let w := w.note (.leave depth)
  match kept with
  | some vars => { w with vars }
  | none => w

/-- The steps of a frame up to its end; nothing if they are more than `fuel`, counting those of
the templates inside it as one. -/
def Frame.exec (ctx : Context σ) : (fuel : Nat) → Frame → World σ → Option (Outcome σ)
  | 0, _, _ => none
  | fuel + 1, f, w =>
    match f.step ctx w with
    | .next f w => exec ctx fuel f w
    | .finish output w => some (.ok output, w)
    | .fault fault program pc w => some (.error ⟨⟨fault, program, pc⟩, []⟩, w)
    | .render program kept f resume w =>
      let depth := f.depth + 1
      let w := w.note (.enter program.source.name depth)
      match exec ctx fuel (.start program depth) w with
      | none => none
      | some (.ok output, w) => exec ctx fuel (f.resume ctx output resume) (w.outer kept depth)
      | some (.error e, w) => some (.error (e.under f.program f.pc), w.outer kept depth)

/-- Renders a program, bounded by `fuel`. -/
def Program.render (ctx : Context σ) (fuel : Nat) (p : Program) (w : World σ) :
    Option (Outcome σ) :=
  match Frame.exec ctx fuel (.start p 0) (w.note (.enter p.source.name 0)) with
  | none => none
  | some (result, w) => some (result, w.note (.leave 0))

end Stencil
