/-!
# Texts of stored data

Texts stand between quotes. The quote, the backslash and control characters are written with a
backslash; any character may be written by its number in four hexadecimal digits, and one that
needs more digits by two numbers, a high and a low half.

* `encode`: the written form of a text;
* `Piece`, `scan`: the pieces between two quotes;
* `join`: the text of the pieces.
-/

namespace Stencil.Json.Quoted

/-- Four hexadecimal digits. -/
def fourDigits (n : Nat) : List Char := (Nat.toDigits 16 n).leftpad 4 '0'

/-- The written form of a character between quotes. -/
def encodeChar (c : Char) : List Char :=
  match c with
  | '"' => ['\\', '"']
  | '\\' => ['\\', '\\']
  | '\x08' => ['\\', 'b']
  | '\t' => ['\\', 't']
  | '\n' => ['\\', 'n']
  | '\x0c' => ['\\', 'f']
  | '\r' => ['\\', 'r']
  | c => if c.toNat < 0x20 then '\\' :: 'u' :: fourDigits c.toNat else [c]

/-- The written form of a text, with its quotes. -/
def encode (s : String) : List Char := '"' :: s.toList.flatMap encodeChar ++ ['"']

/-- A piece of a written text: a character, or a number of four digits. -/
inductive Piece
  | char (c : Char)
  | number (n : Nat)
  deriving DecidableEq

/-- The value of a hexadecimal digit. -/
def digitValue? (c : Char) : Option Nat :=
  if c.isDigit then some (c.toNat - '0'.toNat)
  else if 'a' ≤ c ∧ c ≤ 'f' then some (c.toNat - 'a'.toNat + 10)
  else if 'A' ≤ c ∧ c ≤ 'F' then some (c.toNat - 'A'.toNat + 10)
  else none

/-- The value of four hexadecimal digits. -/
def fourValue? (a b c d : Char) : Option Nat := do
  return ((← digitValue? a) * 16 + (← digitValue? b)) * 256
    + ((← digitValue? c) * 16 + (← digitValue? d))

/-- The character that a letter after a backslash stands for. -/
def letter? : Char → Option Char
  | '"' => some '"'
  | '\\' => some '\\'
  | '/' => some '/'
  | 'b' => some '\x08'
  | 'f' => some '\x0c'
  | 'n' => some '\n'
  | 'r' => some '\r'
  | 't' => some '\t'
  | _ => none

/-- The pieces up to the closing quote, and what follows it. -/
def scan : List Char → Option (List Piece × List Char)
  | [] => none
  | '"' :: rest => some ([], rest)
  | '\\' :: 'u' :: a :: b :: c :: d :: rest => do
    let n ← fourValue? a b c d
    let (pieces, rest) ← scan rest
    return (.number n :: pieces, rest)
  | '\\' :: c :: rest => do
    let c ← letter? c
    let (pieces, rest) ← scan rest
    return (.char c :: pieces, rest)
  | c :: rest => do
    guard (0x20 ≤ c.toNat)
    let (pieces, rest) ← scan rest
    return (.char c :: pieces, rest)

/-- Is the number the high half of a character? -/
def isHigh (n : Nat) : Bool := 0xD800 ≤ n && n < 0xDC00

/-- Is the number the low half of a character? -/
def isLow (n : Nat) : Bool := 0xDC00 ≤ n && n < 0xE000

/-- The text of the pieces; nothing if a half is without the other. -/
def join : List Piece → Option (List Char)
  | [] => some []
  | .char c :: rest => (c :: ·) <$> join rest
  | .number n :: rest =>
    if isHigh n then
      match rest with
      | .number m :: rest =>
        if isLow m then
          (Char.ofNat (0x10000 + (n - 0xD800) * 0x400 + (m - 0xDC00)) :: ·) <$> join rest
        else none
      | _ => none
    else if isLow n then none
    else (Char.ofNat n :: ·) <$> join rest

end Stencil.Json.Quoted
