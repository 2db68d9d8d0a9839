import Stencil.Value.Arithmetic

/-!
# Templates

Expressions are the parts of a template that have a value. Statements are the parts that act: they
write output, assign variables, choose and repeat. Every part keeps the line that the instructions
made from it carry.

* `BinaryOp`, `TextOp`, `LoopFact`: the operators, the built-in functions on texts, and what an
  expression can ask about the loop around it;
* `Expr`: the expressions;
* `Stmt`, `Arm`: the statements, and the arms of those that choose by a value.
-/

namespace Stencil

/-! ### Expressions -/

/-- The operators that always evaluate both operands. -/
inductive BinaryOp
  | arith (op : ArithOp)
  | concat
  | equals
  | notEquals
  | order (test : OrderTest)
  | range
  | member
  deriving DecidableEq

/-- The built-in functions from text to text. -/
inductive TextOp
  | lower
  | upper
  | form
  deriving DecidableEq

/-- What can be asked about the innermost loop along a collection. -/
inductive LoopFact
  | count
  | index
  | hasNext
  deriving DecidableEq

/-- An expression. -/
inductive Expr
  | null (line : UInt32)
  | bool (b : Bool) (line : UInt32)
  | int (n : Int64) (line : UInt32)
  /-- A double, given by its bit pattern. -/
  | float (bits : UInt64) (line : UInt32)
  | str (s : String) (line : UInt32)
  | var (name : String) (line : UInt32)
  | loopFact (fact : LoopFact) (line : UInt32)
  | binary (op : BinaryOp) (left right : Expr) (line : UInt32)
  | and (left right : Expr) (line : UInt32)
  | or (left right : Expr) (line : UInt32)
  | not (operand : Expr) (line : UInt32)
  | array (items : List Expr) (line : UInt32)
  /-- Keys and values, which take turns. -/
  | map (pairs : List Expr) (line : UInt32)
  | choice (test yes no : Expr) (line : UInt32)
  | assign (name : String) (value : Expr) (line : UInt32)
  /-- A built-in function on a text; the line is that of its name. -/
  | textCall (op : TextOp) (arg : Expr) (line : UInt32)
  /-- A filled format: the line of the name, and the line of the call. -/
  | format (template : Expr) (args : List Expr) (nameLine line : UInt32)
  /-- A call of a function of the host application. -/
  | call (name : String) (args : List Expr) (nameLine line : UInt32)
  /-- A call of a method. -/
  | method (object : Expr) (name : String) (args : List Expr) (nameLine line : UInt32)
  deriving Inhabited

/-! ### Statements -/

mutual

/-- A statement. -/
inductive Stmt
  | block (body : List Stmt)
  | text (s : String) (line : UInt32)
  /-- Writes the value of an expression out. -/
  | output (value : Expr) (line : UInt32)
  /-- Evaluates an expression for what it does besides having a value. -/
  | eval (e : Expr)
  | when (test : Expr) (body : Stmt) (line : UInt32)
  | choice (test : Expr) (yes no : Stmt) (line : UInt32)
  | switch (subject : Expr) (arms : List Arm)
  | foreach (var : String) (source : Expr) (body : Stmt) (line : UInt32)
  | loop (test : Expr) (body : Stmt) (line : UInt32)
  /-- Leaves the innermost loop. -/
  | last (line : UInt32)
  /-- Goes on with the innermost loop. -/
  | next (line : UInt32)
  | inclusion (path : Expr) (line : UInt32)
  /-- Another template, with variables of its own: names and values, which take turns. -/
  | inclusionWith (path : Expr) (bindings : List Expr) (line : UInt32)
  | wrapper (path : Expr) (body : Stmt) (line : UInt32)

/-- An arm of a switch. -/
inductive Arm
  | test (value : Expr) (body : Stmt) (line : UInt32)
  | always (body : Stmt) (line : UInt32)

end

instance : Inhabited Stmt := ⟨.block []⟩

instance : Inhabited Arm := ⟨.always (.block []) 0⟩

end Stencil
