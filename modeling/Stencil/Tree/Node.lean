import Stencil.Tree.Tag
import Stencil.Decimal.Layout

/-!
# Syntax trees

The trees that parsers hand over: nodes of a kind, with an optional text, children and the line
they stand on.

* `Node`: a node with everything below it;
* `Node.leaf`, `Node.branch`, `Node.template`, …: nodes of the usual shapes, all on line one;
* `Node.shown`: the tree in parentheses.
-/

namespace Stencil

/-- A node of a syntax tree. -/
structure Node where
  tag : Tag
  text? : Option String := none
  children : List Node := []
  line : UInt32 := 0
  deriving Inhabited

namespace Node

/-- The text of a node, empty if it has none. -/
def text (n : Node) : String := n.text?.getD ""

mutual

/-- Are two trees the same? -/
def same : Node → Node → Bool
  | ⟨tag, text, children, line⟩, ⟨tag', text', children', line'⟩ =>
    tag == tag' && text == text' && sameAll children children' && line == line'

/-- Are two lists of trees the same? -/
def sameAll : List Node → List Node → Bool
  | [], [] => true
  | a :: as, b :: bs => same a b && sameAll as bs
  | _, _ => false

end

mutual

/-- The tree in parentheses: kind, text and children. -/
def shown : Node → String
  | ⟨tag, text, children, _⟩ =>
    "(" ++ tag.name ++ (match text with
      | some s => " " ++ s
      | none => "") ++ shownAll children ++ ")"

/-- The trees in parentheses, a blank before each. -/
def shownAll : List Node → String
  | [] => ""
  | n :: rest => " " ++ n.shown ++ shownAll rest

end

/-! ### Shapes of nodes -/

/-- A node without text and children. -/
def bare (tag : Tag) : Node := { tag, line := 1 }

/-- A node with a text. -/
def leaf (tag : Tag) (text : String) : Node := { tag, text? := some text, line := 1 }

/-- A node with children. -/
def branch (tag : Tag) (children : List Node) : Node := { tag, children, line := 1 }

/-- The same node on another line. -/
def onLine (n : Node) (line : UInt32) : Node := { n with line }

/-- A list of statements. -/
def template (body : List Node) : Node := branch .block body

/-- Text of the template itself. -/
def rawText (text : String) : Node := leaf .literalText text

/-- A value that is written out. -/
def expression (value : Node) : Node := branch .output [value]

/-- An integer literal. -/
def int (n : Int64) : Node := leaf .integer (toString n.toInt)

/-- Literals of doubles have no exponent and no zero behind the point of a whole number; of two
equally near decimals they take the upper one. -/
def doubles : Decimal.Layout := ⟨.up, fun _ => true, false⟩

/-- The literal of the double with the given bit pattern. -/
def double (bits : UInt64) : Node := leaf .double (doubles.text bits)

/-- A text literal. -/
def string (s : String) : Node := leaf .string s

/-- A truth value. -/
def bool (b : Bool) : Node := bare (if b then .yes else .no)

/-- The null literal. -/
def null : Node := bare .nothing

/-- A variable. -/
def ident (name : String) : Node := leaf .ident name

/-- A variable with a dollar sign. -/
def dollarVar (name : String) : Node := leaf .dollarVar name

/-- A node with two operands. -/
def binary (tag : Tag) (left right : Node) : Node := branch tag [left, right]

/-- The negation of a truth value. -/
def not (operand : Node) : Node := branch .negation [operand]

/-- An array literal. -/
def array (items : List Node) : Node := branch .array items

/-- Pairs of nodes in a row. -/
def inTurn (pairs : List (Node × Node)) : List Node := pairs.flatMap fun p => [p.1, p.2]

/-- A map literal. -/
def map (pairs : List (Node × Node)) : Node := branch .map (inTurn pairs)

/-- A member of a container. -/
def member (container key : Node) : Node := branch .member [container, key]

/-- A call of a function or a method. -/
def call (callee : Node) (args : List Node) : Node := branch .call (callee :: args)

/-- An assignment to a variable. -/
def set (name : String) (value : Node) : Node := branch .assignment [ident name, value]

/-- A choice between two branches, the second of which may be missing. -/
def ifElse (test yes : Node) (no : Option Node) : Node := branch .choice (test :: yes :: no.toList)

/-- A choice by the value of a subject. -/
def switch (subject : Node) (arms : List Node) : Node := branch .switch (subject :: arms)

/-- An arm of a switch; without a test it always matches. -/
def case (test : Option Node) (body : Node) : Node := branch .arm (test.toList ++ [body])

/-- A loop along a collection. -/
def foreach (var : String) (source body : Node) : Node :=
  branch .foreach [ident var, source, body]

/-- A loop with a test. -/
def loop (test body : Node) : Node := branch .loop [test, body]

/-- Another template in this place. -/
def inclusion (path : Node) : Node := branch .inclusion [path]

/-- Another template in this place, with variables of its own. -/
def inclusionWith (path : Node) (bindings : List (String × Node)) : Node :=
  branch .inclusion (path :: inTurn (bindings.map fun p => (ident p.1, p.2)))

/-- A body inside another template. -/
def wrapper (path body : Node) : Node := branch .wrapper [path, body]

end Node

end Stencil
