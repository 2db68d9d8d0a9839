import Stencil.Machine.Fault

/-!
# Errors of renders

A render that stops tells where: the fault and the instruction, and the same again for every
template that was being rendered inside another one.

* `Link`: a fault at an instruction of a program;
* `RenderError`: the links from the outermost template to the innermost one;
* `RenderError.display`: the error with the lines of the templates around it.
-/

namespace Stencil

/-- A fault at an instruction of a program. -/
structure Link where
  fault : Fault
  program : Program
  pc : Nat
  deriving DecidableEq

namespace Link

/-- The line of the template at which the fault arose. -/
def line (l : Link) : UInt32 := l.program.lineAt l.pc

/-- The operation at which the fault arose. -/
def op? (l : Link) : Option Opcode := l.program.instructions[l.pc]?.map (·.op)

/-- The lines of the template around the fault. -/
def context (read : String → Option String) (l : Link) : Option String :=
  l.program.source.context read l.line

/-- The link with the lines around it, each display ending in a line feed. -/
def display (read : String → Option String) (l : Link) : String :=
  s!"{l.fault.message} at {l.program.source.name}:{l.line.toNat}\n"
    ++ (match l.context read with
      | some lines => "----\n" ++ lines ++ "----\n"
      | none => "")

end Link

/-- Why a render stopped. -/
structure RenderError where
  head : Link
  /-- The links inside the first one, the innermost last. -/
  causes : List Link
  deriving DecidableEq

namespace RenderError

/-- All links, the outermost first. -/
def links (e : RenderError) : List Link := e.head :: e.causes

/-- The innermost link. -/
def root (e : RenderError) : Link := e.causes.getLast?.getD e.head

/-- The error as an outer template reports it that stands at the given instruction. -/
def under (e : RenderError) (program : Program) (pc : Nat) : RenderError :=
  ⟨⟨e.head.fault, program, pc⟩, e.links⟩

/-- The error with the lines of all templates. -/
def display (read : String → Option String) (e : RenderError) : String :=
  "  included from here; inner error:\n".intercalate (e.links.map (·.display read))

end RenderError

end Stencil
