import Stencil.Bytecode.Opcode
import Stencil.Value.Basic
import Stencil.Decimal.Layout
import Stencil.Text.Basic
import Stencil.Source

/-!
# Programs

What a template is compiled to: instructions with two operands each, the constants they name, and
the line of the template that each instruction belongs to.

* `Instruction`, `Constant`, `Program`: the parts and the whole;
* `Constant.value`, `Constant.listing`: a constant at work and in a listing;
* `Program.lineAt`: the line of an instruction;
* `Program.agrees`: equality of two programs as far as they do the same.
-/

namespace Stencil

/-- One instruction. -/
structure Instruction where
  op : Opcode
  a : UInt32
  b : UInt32
  deriving DecidableEq, Inhabited

/-- A constant of a program. Doubles are kept as bit patterns, so that the two zeros and all
not-a-numbers stay apart. -/
inductive Constant
  | str (s : String)
  | int (n : Int64)
  | float (bits : UInt64)
  deriving DecidableEq, Inhabited

namespace Constant

/-- The value that a constant stands for. -/
def value : Constant → Value
  | str s => .str s
  | int n => .int n
  | float bits => .float (Float.ofBits bits)

/-- The text of a text constant. -/
def text? : Constant → Option String
  | str s => some s
  | _ => none

/-- A constant as listings show it. -/
def listing : Constant → String
  | str s => Text.quoted s
  | int n => toString n.toInt
  | float bits => Decimal.Layout.short.text bits

/-- Are two constants equal as values? Not-a-number is not, and the two zeros are. -/
def agrees : Constant → Constant → Bool
  | float x, float y => Float.ofBits x == Float.ofBits y
  | c, d => c == d

end Constant

/-- A compiled template. -/
structure Program where
  instructions : Array Instruction
  pool : Array Constant
  /-- The line of each instruction. -/
  lines : Array UInt32
  source : Source
  registerCount : UInt64
  /-- How deep loops along collections are nested. -/
  loopDepth : UInt64
  /-- The length in bytes of the output that the program made last. -/
  outputHint : Nat := 0
  deriving DecidableEq, Inhabited

namespace Program

/-- The line of an instruction, zero if there is none. -/
def lineAt (p : Program) (pc : Nat) : UInt32 := p.lines[pc]?.getD 0

/-- Do two programs have equal instructions, constants, lines and sources? -/
def agrees (p q : Program) : Bool :=
  p.instructions == q.instructions
    && p.pool.size == q.pool.size
    && (p.pool.toList.zip q.pool.toList).all (fun c => c.1.agrees c.2)
    && p.lines == q.lines
    && p.source == q.source

end Program

end Stencil
