import Stencil.Template.Syntax

/-!
# How much code and how many registers a template takes

* `Expr.size`, `Stmt.size`: the number of instructions;
* `Expr.registers`, `Stmt.registers`: the number of registers, the one for the value of an
  expression aside;
* `Stmt.loopDepth`: how deep loops along collections are nested.
-/

namespace Stencil

namespace Expr

/-- Is the expression a call that leaves its answer where its arguments were? -/
def isCall : Expr → Bool
  | format .. | call .. | method .. => true
  | _ => false

mutual

/-- The number of instructions of an expression. -/
def size : Expr → Nat
  | null _ | bool _ _ | int _ _ | float _ _ | str _ _ | var _ _ | loopFact _ _ => 1
  | binary _ left right _ => left.size + right.size + 1
  | and left right _ => left.size + 1 + right.size
  | or left right _ => left.size + 1 + right.size
  | not operand _ => operand.size + 1
  | array items _ => sizes items + 2
  | map pairs _ => sizes pairs + 2
  | choice test yes no _ => test.size + 1 + yes.size + 1 + no.size
  | assign _ value _ => value.size + 1
  | textCall _ arg _ => arg.size + 1
  | format template args _ _ => template.size + sizes args + 2
  | call _ args _ _ => 1 + sizes args + 2
  | method object _ args _ _ => object.size + 1 + sizes args + 2

/-- The number of instructions of expressions in a row. -/
def sizes : List Expr → Nat
  | [] => 0
  | e :: rest => e.size + sizes rest

end

mutual

/-- The number of registers of an expression besides the one for its value. -/
def registers : Expr → Nat
  | null _ | bool _ _ | int _ _ | float _ _ | str _ _ | var _ _ | loopFact _ _ => 0
  | binary _ left right _ => left.registers + 1 + right.registers
  | and left right _ => left.registers + right.registers
  | or left right _ => left.registers + right.registers
  | not operand _ => operand.registers
  | array items _ => max items.length 1 + registersAll items
  | map pairs _ => max pairs.length 1 + registersAll pairs
  | choice test yes no _ => 1 + test.registers + yes.registers + no.registers
  | assign _ value _ => value.registers
  | textCall _ arg _ => arg.registers
  | format template args _ _ => (args.length + 1) + template.registers + registersAll args
  | call _ args _ _ => (args.length + 1) + registersAll args
  | method object _ args _ _ => (args.length + 2) + object.registers + registersAll args

/-- The number of registers of expressions besides those for their values. -/
def registersAll : List Expr → Nat
  | [] => 0
  | e :: rest => e.registers + registersAll rest

end

/-- The number of instructions of an expression whose value is not needed. -/
def effectSize (e : Expr) : Nat := if e.isCall then e.size - 1 else e.size

/-- The number of registers of an expression whose value is not needed. -/
def effectRegisters (e : Expr) : Nat := if e.isCall then e.registers else e.registers + 1

end Expr

mutual

/-- The number of instructions of a statement. -/
def Stmt.size : Stmt → Nat
  | .block body => Stmt.sizes body
  | .text _ _ => 1
  | .output value _ => value.size + 1
  | .eval e => e.effectSize
  | .when test body _ => test.size + 1 + body.size
  | .choice test yes no _ => test.size + 1 + yes.size + 1 + no.size
  | .switch subject arms => subject.size + Arm.sizes arms
  | .foreach _ source body _ => source.size + 1 + body.size + 2
  | .loop test body _ => test.size + 1 + body.size + 1
  | .last _ | .next _ => 1
  | .inclusion path _ => path.size + 2
  | .inclusionWith path bindings _ => path.size + Expr.sizes bindings + 3
  | .wrapper path body _ => 1 + body.size + path.size + 1

/-- The number of instructions of statements in a row. -/
def Stmt.sizes : List Stmt → Nat
  | [] => 0
  | s :: rest => s.size + Stmt.sizes rest

/-- The number of instructions of an arm. -/
def Arm.size : Arm → Nat
  | .test value body _ => value.size + 3 + body.size + 1
  | .always body _ => 2 + body.size + 1

/-- The number of instructions of arms in a row. -/
def Arm.sizes : List Arm → Nat
  | [] => 0
  | a :: rest => a.size + Arm.sizes rest

end

mutual

/-- The number of registers of a statement. -/
def Stmt.registers : Stmt → Nat
  | .block body => Stmt.registersAll body
  | .text _ _ => 0
  | .output value _ => 1 + value.registers
  | .eval e => e.effectRegisters
  | .when test body _ => 1 + test.registers + body.registers
  | .choice test yes no _ => 1 + test.registers + yes.registers + no.registers
  | .switch subject arms => 2 + subject.registers + Arm.registersAll arms
  | .foreach _ source body _ => 1 + source.registers + body.registers
  | .loop test body _ => 1 + test.registers + body.registers
  | .last _ | .next _ => 0
  | .inclusion path _ => 1 + path.registers
  | .inclusionWith path bindings _ =>
    1 + path.registers + (max bindings.length 1 + Expr.registersAll bindings)
  | .wrapper path body _ => 1 + body.registers + (1 + path.registers)

/-- The number of registers of statements in a row. -/
def Stmt.registersAll : List Stmt → Nat
  | [] => 0
  | s :: rest => s.registers + Stmt.registersAll rest

/-- The number of registers of an arm. -/
def Arm.registers : Arm → Nat
  | .test value body _ => 1 + value.registers + body.registers
  | .always body _ => body.registers

/-- The number of registers of arms in a row. -/
def Arm.registersAll : List Arm → Nat
  | [] => 0
  | a :: rest => a.registers + Arm.registersAll rest

end

mutual

/-- How deep loops along collections are nested in a statement. -/
def Stmt.loopDepth : Stmt → Nat
  | .block body => Stmt.loopDepths body
  | .when _ body _ => body.loopDepth
  | .choice _ yes no _ => max yes.loopDepth no.loopDepth
  | .switch _ arms => Arm.loopDepths arms
  | .foreach _ _ body _ => body.loopDepth + 1
  | .loop _ body _ => body.loopDepth
  | .wrapper _ body _ => body.loopDepth
  | .text _ _ | .output _ _ | .eval _ | .last _ | .next _ | .inclusion _ _
  | .inclusionWith _ _ _ => 0

/-- How deep loops along collections are nested in statements. -/
def Stmt.loopDepths : List Stmt → Nat
  | [] => 0
  | s :: rest => max s.loopDepth (Stmt.loopDepths rest)

/-- How deep loops along collections are nested in an arm. -/
def Arm.loopDepth : Arm → Nat
  | .test _ body _ => body.loopDepth
  | .always body _ => body.loopDepth

/-- How deep loops along collections are nested in arms. -/
def Arm.loopDepths : List Arm → Nat
  | [] => 0
  | a :: rest => max a.loopDepth (Arm.loopDepths rest)

end

end Stencil
