import Stencil.Tree.Node
import Stencil.Json.Parse

/-!
# Stored trees

A node is stored as an object with the fields `tag`, `text`, `children` and `line`. A text that is
absent and a list of children that is empty are left out; a line that is left out is zero.

* `Node.toJson`, `Node.stored`: the stored form of a tree;
* `Node.ofJson`: the tree of a stored form, which may also be an array of the four fields;
* `Node.parse`: the tree of a text.
-/

namespace Stencil.Node

mutual

/-- The stored form of a tree. -/
def toJson : Node → Json
  | ⟨tag, text?, children, line⟩ =>
    .object
      ((some "tag", .text (some tag.name))
        :: (match text? with
          | some s => [(some "text", .text (some s))]
          | none => [])
        ++ (match children with
          | [] => []
          | n :: rest => [(some "children", .array (n.toJson :: listToJson rest))])
        ++ [(some "line", .number (.ofNat line.toNat))])

/-- The stored forms of trees. -/
def listToJson : List Node → List Json
  | [] => []
  | n :: rest => n.toJson :: listToJson rest

end

/-- The text in which a tree is stored. -/
def stored (n : Node) : String := n.toJson.print

/-! ### Reading -/

/-- How deep arrays and objects may be nested. -/
def maxNesting : Nat := 127

/-- The kind of a node: a name, or an object whose only key is the name. -/
def tagOf (room : Nat) : Json → Option Tag
  | .text (some s) => Tag.ofName? s
  | .object [(some s, .null)] => if 0 < room then Tag.ofName? s else none
  | _ => none

/-- The text of a node. -/
def textOf : Json → Option (Option String)
  | .null => some none
  | .text (some s) => some (some s)
  | _ => none

/-- The line of a node: digits alone, in range. -/
def lineOf : Json → Option UInt32
  | .number ⟨false, whole, none, none⟩ =>
    let n := Nat.ofDigitChars 10 whole 0
    if n < UInt32.size then some (UInt32.ofNat n) else none
  | _ => none

/-- The value of a key that may be given at most once. -/
def only (key : String) (fields : List (Option String × Json)) : Option (Option Json) :=
  match fields.filter (·.1 == some key) with
  | [] => some none
  | [(_, v)] => some (some v)
  | _ => none

/-- Reads a value that may be left out. -/
def orElse {α : Type} (read : Json → Option α) (default : α) : Option Json → Option α
  | none => some default
  | some v => read v

mutual

/-- The tree of a stored form whose arrays and objects are nested at most `room` deep. -/
def ofJson : (room : Nat) → Json → Option Node
  | 0, _ => none
  | room + 1, .object fields => do
    guard (fields.all (·.1.isSome))
    let tag ← (← only "tag" fields) >>= tagOf room
    let text? ← orElse textOf none (← only "text" fields)
    let children ← orElse (childrenOf room) [] (← only "children" fields)
    let line ← orElse lineOf 0 (← only "line" fields)
    return ⟨tag, text?, children, line⟩
  | room + 1, .array (tag :: rest) => do
    guard (rest.length ≤ 3)
    let tag ← tagOf room tag
    let text? ← orElse textOf none rest[0]?
    let children ← orElse (childrenOf room) [] rest[1]?
    let line ← orElse lineOf 0 rest[2]?
    return ⟨tag, text?, children, line⟩
  | _, _ => none

/-- The children of a node. -/
def childrenOf : (room : Nat) → Json → Option (List Node)
  | 0, _ => none
  | room + 1, .array items => items.mapM (ofJson room)
  | _, _ => none

end

/-- The tree of a text. -/
def parse (s : String) : Option Node := Json.parse s >>= ofJson maxNesting

end Stencil.Node
