import Stencil.Json.Quoted

/-!
# Stored data

A tree of data as it is stored in a text: null, truth values, numerals, texts, arrays and objects.
Nothing is lost between the text and the tree that its reader may care about: numerals keep their
digits, objects the order and the repetition of their keys, and a text that holds half a character
is known as such.

* `Numeral`: a numeral by its digits;
* `Json`: the trees;
* `Json.print`: the text of a tree, without any blanks.
-/

namespace Stencil

/-- A numeral by its digits. -/
structure Numeral where
  negative : Bool
  whole : List Char
  /-- The digits behind the point, if there is one. -/
  fraction : Option (List Char)
  /-- The power of ten, if there is one: is it negative, and its digits. -/
  exponent : Option (Bool × List Char)
  deriving DecidableEq, Inhabited

/-- A tree of stored data. -/
inductive Json
  | null
  | bool (b : Bool)
  | number (n : Numeral)
  /-- A text; nothing if it holds half a character. -/
  | text (s : Option String)
  | array (items : List Json)
  | object (fields : List (Option String × Json))
  deriving Inhabited

/-! ### Writing trees -/

/-- The characters of a numeral. -/
def Numeral.chars (n : Numeral) : List Char :=
  (if n.negative then ['-'] else [])
    ++ n.whole
    ++ (match n.fraction with
      | some ds => '.' :: ds
      | none => [])
    ++ (match n.exponent with
      | some (negative, ds) => 'e' :: (if negative then ['-'] else []) ++ ds
      | none => [])

/-- The numeral of a natural number. -/
def Numeral.ofNat (n : Nat) : Numeral := ⟨false, Nat.toDigits 10 n, none, none⟩

namespace Json

mutual

/-- The characters of a tree. -/
def chars : Json → List Char
  | null => ['n', 'u', 'l', 'l']
  | bool true => ['t', 'r', 'u', 'e']
  | bool false => ['f', 'a', 'l', 's', 'e']
  | number n => n.chars
  | text s => Quoted.encode (s.getD "")
  | array [] => ['[', ']']
  | array (item :: rest) => '[' :: item.chars ++ charsAfter rest
  | object [] => ['\x7b', '\x7d']
  | object ((key, item) :: rest) =>
    '\x7b' :: Quoted.encode (key.getD "") ++ ':' :: item.chars ++ fieldsAfter rest

/-- The characters of the items after the first, with the closing bracket. -/
def charsAfter : List Json → List Char
  | [] => [']']
  | item :: rest => ',' :: item.chars ++ charsAfter rest

/-- The characters of the fields after the first, with the closing brace. -/
def fieldsAfter : List (Option String × Json) → List Char
  | [] => ['\x7d']
  | (key, item) :: rest =>
    ',' :: Quoted.encode (key.getD "") ++ ':' :: item.chars ++ fieldsAfter rest

end

/-- The text of a tree. -/
def print (j : Json) : String := String.ofList j.chars

end Json

end Stencil
