import Stencil.Machine.Render
import Stencil.Template.Code
import Stencil.Text.Escape

/-!
# Rendering

The ways to render: a program, a tree, or a template by its name.

* `TemplateError`: the errors of all stages;
* `Context.renderTree`, `Context.renderNamed`: rendering from the beginning;
* `Program.hinted`: a program that remembers how long its last output was.
-/

namespace Stencil

/-- Why a template gives no output. -/
inductive TemplateError
  | compile (error : CompileError)
  | load (error : LoadError)
  | render (error : RenderError)
  deriving DecidableEq

/-- How many errors lie behind one another. -/
def TemplateError.depth : TemplateError → Nat
  | compile _ => 1
  | load error => if error.cause?.isSome then 2 else 1
  | render error => error.links.length

/-- How texts are made safe for the place they are written to. -/
inductive Escaper
  | markup
  | none
  deriving DecidableEq

/-- Escapes a text. -/
def Escaper.escape : Escaper → String → String
  | markup, s => Text.escapeMarkup s
  | none, s => s

/-- The program with the length of its last successful output. -/
def Program.hinted (p : Program) : Except RenderError String → Program
  | .ok output => { p with outputHint := output.utf8ByteSize }
  | .error _ => p

namespace Context
variable {σ : Type}

/-- Renders a program with a copy of the variables. -/
def renderCopy (ctx : Context σ) (fuel : Nat) (p : Program) (w : World σ) :
    Option (Except TemplateError String × World σ) := do
  let (result, after) ← p.render ctx fuel w
  return (result.mapError .render, { after with vars := w.vars })

/-- Compiles a tree and renders it with a copy of the variables. -/
def renderTree (ctx : Context σ) (fuel : Nat) (tree : Node) (w : World σ) :
    Option (Except TemplateError String × World σ) :=
  match Program.compile tree .anonymous with
  | .error e => some (.error (.compile e), w)
  | .ok p => ctx.renderCopy fuel p w

/-- Loads a template and renders it with a copy of the variables. -/
def renderNamed (ctx : Context σ) (fuel : Nat) (name : String) (w : World σ) :
    Option (Except TemplateError String × World σ) :=
  match ctx.load name w.loader with
  | (.error e, loader) => some (.error (.load e), { w with loader })
  | (.ok p, loader) => ctx.renderCopy fuel p { w with loader }

end Context

end Stencil
