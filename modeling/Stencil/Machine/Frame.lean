import Stencil.Machine.World

/-!
# Frames

The state of one program while it is rendered: where it is, its registers, the loops it is in, and
the output so far.

* `Frame.start`: the frame before the first instruction;
* `Frame.register`, `Frame.run`, `Frame.constant`, `Frame.name`: what an instruction reads;
* `Frame.put`, `Frame.goto`: what it writes.
-/

namespace Stencil

/-- A loop along a collection: the position of the current item and the items after it. -/
structure LoopRecord where
  index : Nat
  rest : List Value

/-- The state of one program while it is rendered. -/
structure Frame where
  program : Program
  /-- How many templates this one is nested in. -/
  depth : Nat
  pc : Nat
  registers : Array Value
  /-- The loops, the innermost first. -/
  loops : List LoopRecord
  output : String

namespace Frame

/-- The frame before the first instruction. -/
def start (program : Program) (depth : Nat) : Frame where
  program
  depth
  pc := 0
  registers := Array.replicate program.registerCount.toNat .null
  loops := []
  output := ""

/-- The value of a register. -/
def register (f : Frame) (r : Nat) : Except Fault Value :=
  match f.registers[r]? with
  | some v => .ok v
  | none => .error (.internal (.register r))

/-- The values of the `count` registers from `first` on. -/
def run (f : Frame) (first count : Nat) : Except Fault (List Value) :=
  if first + count ≤ f.registers.size then
    .ok (f.registers.extract first (first + count)).toList
  else .error (.internal (.run first count))

/-- A constant of the program. -/
def constant (f : Frame) (n : Nat) : Except Fault Constant :=
  match f.program.pool[n]? with
  | some c => .ok c
  | none => .error (.internal (.pool n))

/-- A constant that has to be a text. -/
def name (f : Frame) (n : Nat) : Except Fault String := do
  match ← f.constant n with
  | .str s => return s
  | c => throw (.internal (.notText n c))

/-- Writes a register, if it is there. -/
def put (f : Frame) (r : Nat) (v : Value) : Frame :=
  { f with registers := f.registers.setIfInBounds r v }

/-- Goes to an instruction. -/
def goto (f : Frame) (pc : Nat) : Frame := { f with pc }

/-- Goes to the next instruction. -/
def advance (f : Frame) : Frame := { f with pc := f.pc + 1 }

/-- Adds to the output. -/
def write (f : Frame) (s : String) : Frame := { f with output := f.output ++ s }

end Frame

end Stencil
