import Stencil.Bytecode.Bytes
import Stencil.Bytecode.Validity

/-!
# Programs as bytes

* `Program.toBytes`: instructions, constants, lines, source, register count and loop depth, one
  after the other; the hint is left out;
* `Program.ofBytes`: reads them back and checks the program; bytes behind it are passed over.
-/

namespace Stencil

open Bytes

/-- Why bytes are no program. -/
inductive DecodeError
  | read (error : ReadError)
  | invalid (defect : Defect)
  deriving DecidableEq

/-- The text of the error. -/
def DecodeError.message : DecodeError → String
  | read error => error.message
  | invalid defect => defect.message

namespace Instruction

/-- An instruction as bytes. -/
def toBytes (i : Instruction) : List UInt8 :=
  writeNat i.op.index ++ writeNat i.a.toNat ++ writeNat i.b.toNat

/-- Reads an instruction. -/
def read : Reader Instruction := fun bytes => do
  let (n, rest) ← readNat32 bytes
  match Opcode.ofIndex? n with
  | none => throw .unknownVariant
  | some op =>
    let (a, rest) ← readNat32 rest
    let (b, rest) ← readNat32 rest
    return (⟨op, UInt32.ofNat a, UInt32.ofNat b⟩, rest)

end Instruction

namespace Constant

/-- A constant as bytes. -/
def toBytes : Constant → List UInt8
  | str s => 0 :: writeText s
  | int n => 1 :: writeNat (zigzag n.toInt)
  | float bits => 2 :: writeWord bits

/-- Reads a constant. -/
def read : Reader Constant := fun bytes => do
  let (n, rest) ← readNat32 bytes
  match n with
  | 0 =>
    let (s, rest) ← readText rest
    return (str s, rest)
  | 1 =>
    let (z, rest) ← readNat64 rest
    return (int (Int64.ofInt (unzigzag z)), rest)
  | 2 =>
    let (w, rest) ← readWord rest
    return (float w, rest)
  | _ => throw .unknownVariant

end Constant

namespace Source

/-- A source as bytes. -/
def toBytes : Source → List UInt8
  | text s => 0 :: writeText s
  | file path => 1 :: writeText path
  | anonymous => [2]

/-- Reads a source. -/
def read : Reader Source := fun bytes => do
  let (n, rest) ← readNat32 bytes
  match n with
  | 0 =>
    let (s, rest) ← readText rest
    return (text s, rest)
  | 1 =>
    let (path, rest) ← readText rest
    return (file path, rest)
  | 2 => return (anonymous, rest)
  | _ => throw .unknownVariant

end Source

namespace Program

/-- A program as bytes. -/
def toBytes (p : Program) : List UInt8 :=
  writeList Instruction.toBytes p.instructions.toList
    ++ writeList Constant.toBytes p.pool.toList
    ++ writeList (fun n : UInt32 => writeNat n.toNat) p.lines.toList
    ++ p.source.toBytes
    ++ writeNat p.registerCount.toNat
    ++ writeNat p.loopDepth.toNat

/-- Reads a line number. -/
def readLine : Reader UInt32 := fun bytes => do
  let (n, rest) ← readNat32 bytes
  return (UInt32.ofNat n, rest)

/-- Reads a program, whether or not it is valid. -/
def read : Reader Program := fun bytes => do
  let (instructions, rest) ← readList Instruction.read bytes
  let (pool, rest) ← readList Constant.read rest
  let (lines, rest) ← readList readLine rest
  let (source, rest) ← Source.read rest
  let (registers, rest) ← readNat64 rest
  let (depth, rest) ← readNat64 rest
  return ({
    instructions := instructions.toArray
    pool := pool.toArray
    lines := lines.toArray
    source
    registerCount := UInt64.ofNat registers
    loopDepth := UInt64.ofNat depth }, rest)

/-- The valid program that the bytes begin with. -/
def ofBytes (bytes : List UInt8) : Except DecodeError Program :=
  match read bytes with
  | .error e => .error (.read e)
  | .ok (p, _) =>
    match p.validate with
    | .error defect => .error (.invalid defect)
    | .ok () => .ok p

end Program

end Stencil
