import Stencil.Bytecode.Program
import Stencil.Template.CompileError

/-!
# Programs in the making

A `Builder` collects the instructions, constants and registers of a program. Every constant has one
place in its pool.

* `Pool.intern`: the place of a constant in a pool, at the end if there was none;
* `Builder.emit`: the next instruction;
* `Builder.constant`: the place of a constant in the pool;
* `Builder.build`: the program.
-/

namespace Stencil

/-- The pool with a place for the constant, and the number of that place. -/
def Pool.intern (pool : Array Constant) (c : Constant) : Array Constant × Nat :=
  match pool.idxOf? c with
  | some n => (pool, n)
  | none => (pool.push c, pool.size)

/-- A number as an operand, if it fits. -/
def operand (what : Extent) (n : Nat) : Except CompileError UInt32 :=
  if n < operandLimit then .ok (UInt32.ofNat n) else .error (.tooLarge what)

/-- A program in the making. -/
structure Builder where
  instructions : Array Instruction := #[]
  lines : Array UInt32 := #[]
  pool : Array Constant := #[]
  /-- The line of the instructions to come. -/
  line : UInt32 := 0
  /-- How many registers have been reserved. -/
  registers : Nat := 0
  /-- How many loops are open. -/
  depth : Nat := 0
  /-- How many loops have been open at once. -/
  maxDepth : Nat := 0

namespace Builder

/-- Sets the line of the instructions to come. -/
def setLine (b : Builder) (line : UInt32) : Builder := { b with line }

/-- Adds an instruction. -/
def emit (b : Builder) (op : Opcode) (x y : UInt32) : Builder :=
  { b with instructions := b.instructions.push ⟨op, x, y⟩, lines := b.lines.push b.line }

/-- The place of a constant in the pool. -/
def constant (b : Builder) (c : Constant) : Except CompileError (Builder × UInt32) := do
  let (pool, n) := Pool.intern b.pool c
  let index ← operand .pool n
  return ({ b with pool }, index)

/-- The finished program. -/
def build (b : Builder) (source : Source) : Program where
  instructions := b.instructions
  pool := b.pool
  lines := b.lines
  source := source
  registerCount := UInt64.ofNat b.registers
  loopDepth := UInt64.ofNat b.maxDepth

end Builder

end Stencil
