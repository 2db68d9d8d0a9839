import Stencil.Json.Basic

/-!
# Reading stored data

The reader is strict: nothing but blanks may stand between the parts, no comma may follow the last
of them, and nothing but blanks may follow the whole.

* `Json.numeral`: the numeral that a text begins with;
* `Json.value`: the tree that a text begins with, bounded by the length of the text;
* `Json.parse`: the tree of a whole text.
-/

namespace Stencil.Json

/-- Blanks between the parts. -/
def isBlank (c : Char) : Bool := c == ' ' || c == '\n' || c == '\t' || c == '\r'

/-- The text without the blanks it begins with. -/
def skipBlanks (cs : List Char) : List Char := cs.dropWhile isBlank

/-- Digits at the beginning, at least one, and what follows them. -/
def digits (cs : List Char) : Option (List Char × List Char) :=
  if (cs.takeWhile Char.isDigit).isEmpty then none
  else some (cs.takeWhile Char.isDigit, cs.dropWhile Char.isDigit)

/-- The point and the digits behind it, if there is a point. -/
def fraction : List Char → Option (Option (List Char) × List Char)
  | '.' :: cs => do
    let (ds, rest) ← digits cs
    return (some ds, rest)
  | cs => some (none, cs)

/-- The power of ten, if there is one. -/
def exponent : List Char → Option (Option (Bool × List Char) × List Char)
  | c :: cs =>
    if c = 'e' ∨ c = 'E' then do
      let (negative, cs) := match cs with
        | '-' :: cs => (true, cs)
        | '+' :: cs => (false, cs)
        | cs => (false, cs)
      let (ds, rest) ← digits cs
      return (some (negative, ds), rest)
    else some (none, c :: cs)
  | [] => some (none, [])

/-- The numeral at the beginning and what follows it. Only a single zero may stand in front of the
point. -/
def numeral (cs : List Char) : Option (Numeral × List Char) := do
  let (negative, cs) := match cs with
    | '-' :: cs => (true, cs)
    | cs => (false, cs)
  let (whole, cs) ← digits cs
  guard (whole.head? ≠ some '0' ∨ whole.length = 1)
  let (fraction, cs) ← fraction cs
  let (exponent, cs) ← exponent cs
  return (⟨negative, whole, fraction, exponent⟩, cs)

/-- The text behind an opening quote and what follows it. -/
def quoted (cs : List Char) : Option (Option String × List Char) := do
  let (pieces, rest) ← Quoted.scan cs
  return ((Quoted.join pieces).map String.ofList, rest)

mutual

/-- The tree at the beginning and what follows it. -/
def value : (fuel : Nat) → List Char → Option (Json × List Char)
  | 0, _ => none
  | fuel + 1, cs =>
    match skipBlanks cs with
    | 'n' :: 'u' :: 'l' :: 'l' :: rest => some (.null, rest)
    | 't' :: 'r' :: 'u' :: 'e' :: rest => some (.bool true, rest)
    | 'f' :: 'a' :: 'l' :: 's' :: 'e' :: rest => some (.bool false, rest)
    | '"' :: rest => do
      let (s, rest) ← quoted rest
      return (.text s, rest)
    | '[' :: rest =>
      match skipBlanks rest with
      | ']' :: rest => some (.array [], rest)
      | rest => do
        let (items, rest) ← items fuel rest
        return (.array items, rest)
    | '\x7b' :: rest =>
      match skipBlanks rest with
      | '\x7d' :: rest => some (.object [], rest)
      | rest => do
        let (fields, rest) ← fields fuel rest
        return (.object fields, rest)
    | cs => do
      let (n, rest) ← numeral cs
      return (.number n, rest)

/-- The items of an array up to its closing bracket, and what follows it. -/
def items : (fuel : Nat) → List Char → Option (List Json × List Char)
  | 0, _ => none
  | fuel + 1, cs => do
    let (item, rest) ← value fuel cs
    match skipBlanks rest with
    | ']' :: rest => return ([item], rest)
    | ',' :: rest =>
      let (others, rest) ← items fuel rest
      return (item :: others, rest)
    | _ => none

/-- The fields of an object up to its closing brace, and what follows it. -/
def fields : (fuel : Nat) → List Char → Option (List (Option String × Json) × List Char)
  | 0, _ => none
  | fuel + 1, cs =>
    match skipBlanks cs with
    | '"' :: rest => do
      let (key, rest) ← quoted rest
      match skipBlanks rest with
      | ':' :: rest =>
        let (item, rest) ← value fuel rest
        match skipBlanks rest with
        | '\x7d' :: rest => return ([(key, item)], rest)
        | ',' :: rest =>
          let (others, rest) ← fields fuel rest
          return ((key, item) :: others, rest)
        | _ => none
      | _ => none
    | _ => none

end

/-- The tree of a whole text. -/
def parse (s : String) : Option Json := do
  let cs := s.toList
  let (v, rest) ← value (2 * cs.length + 1) cs
  guard (skipBlanks rest).isEmpty
  return v

end Stencil.Json
