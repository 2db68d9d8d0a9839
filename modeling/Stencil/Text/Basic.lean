import Stencil.Text.CharacterTables

/-!
# Texts

Texts are filled up, cut, taken apart and put between quotes.

* `padLeft`, `padRight`, `zeroPadded`: texts filled up to a width that counts characters;
* `cut`: the parts of a text before and behind a number of bytes;
* `lines`: the lines of a text;
* `quoted`: a text between double quotes, as listings show it;
* `nameList`: names as descriptions of tables show them.
-/

namespace Stencil.Text

/-! ### Padding -/

/-- `s` with `fill` put in front of it, up to `width` characters. -/
def padLeft (width : Nat) (fill : Char) (s : String) : String :=
  String.ofList (s.toList.leftpad width fill)

/-- `s` with `fill` put behind it, up to `width` characters. -/
def padRight (width : Nat) (fill : Char) (s : String) : String :=
  String.ofList (s.toList.rightpad width fill)

/-- `n` in decimal, with zeros in front up to `width` digits. -/
def zeroPadded (width n : Nat) : String := padLeft width '0' (toString n)

/-! ### Cutting -/

/-- The characters before and behind the first `n` bytes; nothing if that place lies inside a
character or behind the end. -/
def cutChars : Nat → List Char → Option (List Char × List Char)
  | 0, cs => some ([], cs)
  | _ + 1, [] => none
  | n + 1, c :: cs =>
    if c.utf8Size ≤ n + 1 then
      (cutChars (n + 1 - c.utf8Size) cs).map fun p => (c :: p.1, p.2)
    else none

/-- The parts of a text before and behind its first `n` bytes. -/
def cut (n : Nat) (s : String) : Option (String × String) :=
  (cutChars n s.toList).map fun p => (String.ofList p.1, String.ofList p.2)

example : cut 3 "aéb" = some ("aé", "b") := by decide +kernel
example : cut 2 "aéb" = none := by decide +kernel

/-! ### Lines -/

/-- The lines of `cs`, where `line` holds the characters of the current line, the last one first. -/
def linesFrom : List Char → List Char → List String
  | [], [] => []
  | line, [] => [String.ofList line.reverse]
  | '\r' :: line, '\n' :: rest => String.ofList line.reverse :: linesFrom [] rest
  | line, '\n' :: rest => String.ofList line.reverse :: linesFrom [] rest
  | line, c :: rest => linesFrom (c :: line) rest

/-- The lines of a text, without their ends. -/
def lines (s : String) : List String := linesFrom [] s.toList

example : lines "a\r\n\nb\r" = ["a", "", "b\r"] := by decide +kernel

/-! ### Quotes -/

/-- How one character is written between quotes. -/
def quotedChar (c : Char) : List Char :=
  match c with
  | '"' => ['\\', '"']
  | '\\' => ['\\', '\\']
  | '\n' => ['\\', 'n']
  | '\r' => ['\\', 'r']
  | '\t' => ['\\', 't']
  | '\x00' => ['\\', '0']
  | c =>
    if isVisible c then [c]
    else ['\\', 'u', '\x7b'] ++ Nat.toDigits 16 c.toNat ++ ['\x7d']

/-- The text between double quotes. -/
def quoted (s : String) : String :=
  String.ofList ('"' :: s.toList.flatMap quotedChar ++ ['"'])

example : quoted "a\"\n\x7f" = "\"a\\\"\\n\\u\x7b7f\x7d\"" := by decide +kernel

/-- The names, sorted and quoted, between brackets. -/
def nameList (names : List String) : String :=
  "[" ++ ", ".intercalate ((names.mergeSort (· ≤ ·)).map quoted) ++ "]"

end Stencil.Text
