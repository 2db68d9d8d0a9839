import Stencil.Bytecode.Builder

/-!
# Building programs by hand

An `Assembly` is a builder that is asked for one thing after the other. It keeps an index of its
pool, so that the place of a constant is looked up and not searched for. Jumps can be emitted before
their target is known and are pointed at it later, by the label that they were given.

What asks for too much is refused. A task that is given up half way leaves the assembly as it is at
that moment.

* `Task`: what is done with an assembly;
* `Assembly.emit`, `Assembly.pointTo`, `Assembly.reserve`, `Assembly.constant`, …: the tasks;
* `Request`, `Assembly.serve`: what can be asked for, and the answer;
* `Assembly.serveAll`: the record of requests in order.
-/

namespace Stencil

/-- A builder with an index of its pool. -/
structure Assembly extends Builder where
  /-- The places of the constants in the pool. -/
  places : List (Constant × UInt32) := []

/-- What is done with an assembly. It can fail, and leaves an assembly even then. -/
abbrev Task := ExceptT CompileError (StateM Assembly)

namespace Assembly

/-- Changes the builder and not the index. -/
def change (f : Builder → Builder) : Task Unit :=
  modify fun s => { s with toBuilder := f s.toBuilder }

/-- The number of the next instruction. -/
def offset : Task Nat := do return (← get).instructions.size

/-- Adds an instruction and gives its number. -/
def emit (op : Opcode) (x y : UInt32) : Task Nat := do
  let n ← offset
  change (·.emit op x y)
  return n

/-- Adds a jump that has no target yet and gives its label, which is its number. -/
def emitJump (op : Opcode) (register : UInt32) : Task Nat :=
  emit op (if op.isTargetFirst then 0 else register) 0

/-- The instruction with another target. -/
def withTarget (i : Instruction) (target : UInt32) : Instruction :=
  if i.op.isTargetFirst then { i with a := target } else { i with b := target }

/-- Points the jump with the label at a target. -/
def pointTo (label target : Nat) : Task Unit := do
  let target ← operand .target target
  change fun b => { b with instructions := b.instructions.modify label (withTarget · target) }

/-- Points the jump with the label at the next instruction. -/
def pointHere (label : Nat) : Task Unit := do pointTo label (← offset)

/-- Reserves `count` registers in a row, but at least one, and gives the first. -/
def reserve (count : Nat) : Task Nat := do
  let first := (← get).registers
  let count ← operand .registers (max count 1)
  let after ← operand .registers (first + count.toNat)
  change fun b => { b with registers := after.toNat }
  return first

/-- The place of a constant in the pool, which is made at the end if there is none. -/
def constant (c : Constant) : Task Nat := do
  match (← get).places.lookup c with
  | some n => return n.toNat
  | none =>
    let n ← operand .pool (← get).pool.size
    change fun b => { b with pool := b.pool.push c }
    modify fun s => { s with places := (c, n) :: s.places }
    return n.toNat

/-- Enters a loop along a collection. -/
def enterLoop : Task Unit :=
  change fun b => { b with depth := b.depth + 1, maxDepth := max b.maxDepth (b.depth + 1) }

/-- Leaves a loop, if one is open. -/
def exitLoop : Task Unit := change fun b => { b with depth := b.depth - 1 }

end Assembly

/-- What can be asked of an assembly. -/
inductive Request
  | setLine (line : UInt32)
  | emit (op : Opcode) (x y : UInt32)
  | emitJump (op : Opcode) (register : UInt32)
  | offset
  | pointTo (label target : Nat)
  | pointHere (label : Nat)
  | reserve (count : Nat)
  | constant (c : Constant)
  | enterLoop
  | exitLoop

/-- What is done for a request, and the number that it is answered with. -/
def Request.task : Request → Task (Option Nat)
  | setLine line => do Assembly.change (·.setLine line); return none
  | emit op x y => some <$> Assembly.emit op x y
  | emitJump op register => some <$> Assembly.emitJump op register
  | offset => some <$> Assembly.offset
  | pointTo label target => do Assembly.pointTo label target; return none
  | pointHere label => do Assembly.pointHere label; return none
  | reserve count => some <$> Assembly.reserve count
  | constant c => some <$> Assembly.constant c
  | enterLoop => do Assembly.enterLoop; return none
  | exitLoop => do Assembly.exitLoop; return none

/-- The answer to a request. -/
abbrev Answer := Except CompileError (Option Nat)

namespace Assembly

/-- The answer to a request, and the assembly after it. -/
def serve (s : Assembly) (r : Request) : Answer × Assembly := r.task.run s

/-- The requests with their answers, and the assembly after them. -/
def serveAll : Assembly → List Request → List (Request × Answer) × Assembly
  | s, [] => ([], s)
  | s, r :: rest =>
    let (answer, s) := s.serve r
    let (log, s) := serveAll s rest
    ((r, answer) :: log, s)

end Assembly

end Stencil
