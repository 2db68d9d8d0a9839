import Stencil.Bytecode.Program
import Stencil.Text.Basic

/-!
# Validity of programs

A program is checked before it is run from outside: one line for each instruction, operands in
range, and an end.

* `Defect`: what can be wrong;
* `Program.validate`: the first defect, if there is one.
-/

namespace Stencil

/-- What is wrong with one operand. -/
inductive OperandDefect
  | register (n count : Nat)
  | pool (n : Nat)
  | target (n : Nat)
  | unused
  deriving DecidableEq

/-- What is wrong with a program. -/
inductive Defect
  | lineCount (lines instructions : Nat)
  | noFinish
  | operand (pc : Nat) (op : Opcode) (defect : OperandDefect)
  deriving DecidableEq

/-- The text of a defect of an operand. -/
def OperandDefect.message : OperandDefect → String
  | register n count => s!"register {n} out of range ({count})"
  | pool n => s!"pool index {n} out of range"
  | target n => s!"jump target {n} out of range"
  | unused => "unused operand is not zero"

/-- The text of a defect. -/
def Defect.message : Defect → String
  | lineCount lines instructions =>
    s!"line table has {lines} entries for {instructions} instructions"
  | noFinish => "program does not end with RETURN"
  | operand pc op defect => s!"{Text.zeroPadded 6 pc} {op.name}: {defect.message}"

namespace Program

/-- Checks a number against the kind of operand it stands for. A jump may go right behind the last
instruction. -/
def checkOperand (p : Program) (kind : OperandKind) (n : Nat) : Except OperandDefect Unit :=
  match kind with
  | .register =>
    if n < p.registerCount.toNat then .ok () else .error (.register n p.registerCount.toNat)
  | .pool => if n < p.pool.size then .ok () else .error (.pool n)
  | .target => if n ≤ p.instructions.size then .ok () else .error (.target n)
  | .unused => if n = 0 then .ok () else .error .unused
  | .immediate => .ok ()

/-- Checks both operands of an instruction, and the last register of the run that it reads. -/
def checkInstruction (p : Program) (i : Instruction) : Except OperandDefect Unit := do
  p.checkOperand i.op.kinds.1 i.a.toNat
  p.checkOperand i.op.kinds.2 i.b.toNat
  let extent := i.op.extent i.b.toNat
  if 0 < extent then p.checkOperand .register (min (i.a.toNat + extent) (operandLimit - 1))

/-- Checks the instructions from number `pc` on. -/
def checkFrom (p : Program) (pc : Nat) : List Instruction → Except Defect Unit
  | [] => .ok ()
  | i :: rest =>
    match p.checkInstruction i with
    | .error defect => .error (.operand pc i.op defect)
    | .ok () => p.checkFrom (pc + 1) rest

/-- Checks a program and gives the first defect. -/
def validate (p : Program) : Except Defect Unit :=
  if p.instructions.size ≠ p.lines.size then
    .error (.lineCount p.lines.size p.instructions.size)
  else if p.instructions.back?.map (·.op) ≠ some .finish then .error .noFinish
  else p.checkFrom 0 p.instructions.toList

end Program

end Stencil
