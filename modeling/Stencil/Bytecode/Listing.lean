import Stencil.Bytecode.Program
import Stencil.Text.Basic

/-!
# Listings

A program written out, one line for each instruction and one for each constant.
-/

namespace Stencil.Program

/-- An operand as the comment of an instruction shows it. -/
def operandText (p : Program) (kind : OperandKind) (n : UInt32) : String :=
  match kind with
  | .pool =>
    match p.pool[n.toNat]? with
    | some c => c.listing
    | none => "<bad pool index>"
  | .register => s!"r{n.toNat}"
  | .target => s!"-> {Text.zeroPadded 6 n.toNat}"
  | .immediate => toString n.toNat
  | .unused => ""

/-- The comment of an instruction: its line and the meaning of its operands. -/
def comment (p : Program) (pc : Nat) (i : Instruction) : String :=
  let parts := [p.operandText i.op.kinds.1 i.a, p.operandText i.op.kinds.2 i.b]
  let line := Text.padRight 4 ' ' (toString (p.lineAt pc).toNat)
  "line " ++ line ++ " " ++ " ".intercalate (parts.filter (· ≠ ""))

/-- One instruction of a listing; a star marks the current one. -/
def listingLine (p : Program) (current : Option Nat) (pc : Nat) (i : Instruction) : String :=
  let mark := if current = some pc then "*" else " "
  let op := Text.padRight 15 ' ' i.op.name
  let a := Text.padRight 4 ' ' (toString i.a.toNat)
  let b := Text.padRight 4 ' ' (toString i.b.toNat)
  s!"  {mark} {Text.zeroPadded 6 pc} {op} {a},{b} {p.comment pc i}\n"

/-- The program written out, one instruction of it marked. -/
def listing (p : Program) (current : Option Nat) : String :=
  let code := p.instructions.toList.mapIdx (p.listingLine current)
  let pool := p.pool.toList.mapIdx fun n c => s!"  {Text.zeroPadded 4 n} {c.listing}\n"
  String.join code ++ "Pool:\n" ++ String.join pool

end Stencil.Program
