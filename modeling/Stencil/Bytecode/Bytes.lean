/-!
# Numbers and texts as bytes

A natural number is written in groups of seven bits, the lowest first; all groups but the last
have their high bit set. A text is written as the length of its UTF-8 form and that form.

* `ReadError`: why bytes cannot be read;
* `writeNat`, `readNat`: numbers, where a reader is limited in the number of bytes and in the last
  of them;
* `zigzag`, `unzigzag`: signed numbers as natural ones, whose lowest bit is the sign;
* `writeWord`, `readWord`: the eight bytes of a word, the lowest first;
* `writeText`, `readText`, `writeList`, `readList`: texts and lists behind their lengths.
-/

namespace Stencil.Bytes

/-- Why bytes cannot be read. -/
inductive ReadError
  | endOfBytes
  | longNumber
  | unknownVariant
  | notText
  deriving DecidableEq

/-- The text of the error. -/
def ReadError.message : ReadError → String
  | endOfBytes => "Hit the end of buffer, expected more data"
  | longNumber =>
    "Found a varint that didn't terminate. Is the usize too big for this platform?"
  | unknownVariant => "Serde Deserialization Error"
  | notText => "Tried to parse invalid utf-8"

/-- A reader takes bytes off the front. -/
abbrev Reader (α : Type) := List UInt8 → Except ReadError (α × List UInt8)

/-- A natural number in groups of seven bits. -/
def writeNat (n : Nat) : List UInt8 :=
  if n < 128 then [UInt8.ofNat n] else UInt8.ofNat (n % 128 + 128) :: writeNat (n / 128)

/-- Reads a natural number of at most `count` groups, the last of which is at most `top` if it is
also the last one allowed. -/
def readNat (top : Nat) : (count : Nat) → Reader Nat
  | 0, _ => .error .longNumber
  | _ + 1, [] => .error .endOfBytes
  | count + 1, b :: rest =>
    if b.toNat < 128 then
      if count = 0 ∧ top < b.toNat then .error .longNumber else .ok (b.toNat, rest)
    else
      match readNat top count rest with
      | .ok (n, rest) => .ok (b.toNat - 128 + 128 * n, rest)
      | .error e => .error e

/-- Reads a number of 32 bits. -/
def readNat32 : Reader Nat := readNat 15 5

/-- Reads a number of 64 bits. -/
def readNat64 : Reader Nat := readNat 1 10

/-- The natural number that stands for a signed one: twice its size, and one less if it is
negative. -/
def zigzag (n : Int) : Nat := if 0 ≤ n then 2 * n.toNat else 2 * n.natAbs - 1

/-- The signed number that a natural one stands for. -/
def unzigzag (n : Nat) : Int := if n % 2 = 0 then (n / 2 : Nat) else -((n / 2 : Nat) : Int) - 1

/-- The first `count` bytes of a number, the lowest first. -/
def lowBytes : (count : Nat) → Nat → List UInt8
  | 0, _ => []
  | count + 1, n => UInt8.ofNat (n % 256) :: lowBytes count (n / 256)

/-- The number with the given bytes, the lowest first. -/
def ofLowBytes : List UInt8 → Nat
  | [] => 0
  | b :: rest => b.toNat + 256 * ofLowBytes rest

/-- The eight bytes of a word. -/
def writeWord (w : UInt64) : List UInt8 := lowBytes 8 w.toNat

/-- Takes `count` bytes off the front. -/
def take (count : Nat) : Reader (List UInt8) := fun bytes =>
  if count ≤ bytes.length then .ok (bytes.take count, bytes.drop count) else .error .endOfBytes

/-- Reads the eight bytes of a word. -/
def readWord : Reader UInt64 := fun bytes => do
  let (w, rest) ← take 8 bytes
  return (UInt64.ofNat (ofLowBytes w), rest)

/-- A text behind its length. -/
def writeText (s : String) : List UInt8 :=
  let bytes := s.toUTF8.data.toList
  writeNat bytes.length ++ bytes

/-- Reads a text behind its length. -/
def readText : Reader String := fun bytes => do
  let (count, rest) ← readNat64 bytes
  let (text, rest) ← take count rest
  match String.fromUTF8? ⟨text.toArray⟩ with
  | some s => return (s, rest)
  | none => throw .notText

/-- A list behind its length. -/
def writeList {α : Type} (write : α → List UInt8) (items : List α) : List UInt8 :=
  writeNat items.length ++ items.flatMap write

/-- Reads `count` items, one after the other. -/
def readItems {α : Type} (read : Reader α) : (count : Nat) → Reader (List α)
  | 0, bytes => .ok ([], bytes)
  | count + 1, bytes => do
    let (item, rest) ← read bytes
    let (items, rest) ← readItems read count rest
    return (item :: items, rest)

/-- Reads a list behind its length. -/
def readList {α : Type} (read : Reader α) : Reader (List α) := fun bytes => do
  let (count, rest) ← readNat64 bytes
  readItems read count rest

end Stencil.Bytes
