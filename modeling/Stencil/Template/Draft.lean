import Stencil.Bytecode.Builder

/-!
# Draft instructions

Instructions as the compiler writes them down: constants stand for themselves and have no places
in a pool yet. `Builder.add` gives a draft its final form.
-/

namespace Stencil

/-- An operand of a draft. -/
inductive Operand
  | none
  | register (r : Nat)
  | const (c : Constant)
  | target (pc : Nat)
  | number (n : Nat)
  deriving DecidableEq

/-- An instruction before its constants have places. -/
structure Draft where
  op : Opcode
  a : Operand
  b : Operand
  line : UInt32
  deriving DecidableEq

namespace Builder

/-- The number of an operand; a constant gets a place in the pool. -/
def number (b : Builder) : Operand → Except CompileError (Builder × UInt32)
  | .none => .ok (b, 0)
  | .register r => do return (b, ← operand .registers r)
  | .const c => b.constant c
  | .target pc => do return (b, ← operand .target pc)
  | .number n => do return (b, ← operand .count n)

/-- Adds a draft. -/
def add (b : Builder) (d : Draft) : Except CompileError Builder := do
  let (b, x) ← b.number d.a
  let (b, y) ← b.number d.b
  return (b.setLine d.line).emit d.op x y

/-- Adds drafts in order. -/
def addAll : Builder → List Draft → Except CompileError Builder
  | b, [] => .ok b
  | b, d :: rest => do
    let b ← b.add d
    addAll b rest

end Builder

end Stencil
