/-!
# Kinds of syntax nodes

* `Tag`: the kinds of nodes of a template's tree;
* `Tag.name`, `Tag.ofName?`: the name of a kind in stored trees, and back;
* `Tag.title`: the name in capitalised words.
-/

namespace Stencil

/-- The kind of a syntax node. -/
inductive Tag
  | block
  | literalText
  | output
  | add
  | subtract
  | multiply
  | divide
  | modulo
  | concat
  | equals
  | notEquals
  | gt
  | ge
  | lt
  | le
  | andAnd
  | orOr
  | negation
  | integer
  | double
  | string
  | yes
  | no
  | nothing
  | array
  | map
  | ident
  | dollarVar
  | member
  | range
  | call
  | assignment
  | choice
  | switch
  | arm
  | foreach
  | loop
  | last
  | next
  | inclusion
  | wrapper
  | loopCount
  | loopIndex
  | loopHasNext
  deriving DecidableEq, Inhabited

namespace Tag

/-- All kinds of nodes. -/
def all : List Tag :=
  [.block, .literalText, .output, .add, .subtract, .multiply, .divide, .modulo, .concat, .equals,
   .notEquals, .gt, .ge, .lt, .le, .andAnd, .orOr, .negation, .integer, .double, .string, .yes,
   .no, .nothing, .array, .map, .ident, .dollarVar, .member, .range, .call, .assignment,
   .choice, .switch, .arm, .foreach, .loop, .last, .next, .inclusion, .wrapper, .loopCount,
   .loopIndex, .loopHasNext]

/-- The name of a kind in stored trees and in messages. -/
def name : Tag → String
  | block => "template"
  | literalText => "raw_string"
  | output => "expression"
  | add => "add"
  | subtract => "subtract"
  | multiply => "multiply"
  | divide => "divide"
  | modulo => "modulo"
  | concat => "concat"
  | equals => "equals"
  | notEquals => "not_equals"
  | gt => "gt"
  | ge => "ge"
  | lt => "lt"
  | le => "le"
  | andAnd => "and_and"
  | orOr => "or_or"
  | negation => "not"
  | integer => "integer"
  | double => "double"
  | string => "string"
  | yes => "true"
  | no => "false"
  | nothing => "null"
  | array => "array"
  | map => "map"
  | ident => "ident"
  | dollarVar => "dollar_var"
  | member => "attribute"
  | range => "range"
  | call => "fun_call"
  | assignment => "set"
  | choice => "if"
  | switch => "switch"
  | arm => "case"
  | foreach => "foreach"
  | loop => "while"
  | last => "last"
  | next => "next"
  | inclusion => "include"
  | wrapper => "wrapper"
  | loopCount => "loop_count"
  | loopIndex => "loop_index"
  | loopHasNext => "loop_has_next"

/-- The kind with the given name. -/
def ofName? (s : String) : Option Tag := all.find? (·.name == s)

/-- Every word of a name with a capital, and no bars between them. -/
def capitalised : Bool → List Char → List Char
  | _, [] => []
  | _, '_' :: rest => capitalised true rest
  | true, c :: rest => c.toUpper :: capitalised false rest
  | false, c :: rest => c :: capitalised false rest

/-- The name in capitalised words. -/
def title (t : Tag) : String := String.ofList (capitalised true t.name.toList)

@[simp] theorem ofName?_name (t : Tag) : ofName? t.name = some t := by cases t <;> decide

end Tag

end Stencil
