import Stencil.Template.Draft
import Stencil.Template.Extent
import Stencil.Template.OfNode

/-!
# The code of a template

Registers are handed out in ascending order and never used for anything else, so that no part of a
template disturbs the values of another. The code of a part depends on where it stands: `free` is
the first register that nothing uses yet, and `pc` the number of the part's first instruction.

* `Expr.code`: the code that leaves the value of an expression in the register `dst`;
* `Expr.effect`: the code of an expression whose value is not needed;
* `Stmt.code`: the code of a statement;
* `Stmt.program`: all code of a template, with its end;
* `Program.compile`: the program of a tree.
-/

namespace Stencil

/-- The variables of the loops around a part, the innermost first, and the registers that hold
them. -/
abbrev Scope := List (String × Nat)

/-- Where the innermost loop around a part is left and where it goes on. -/
structure Jumps where
  last : Nat := 0
  next : Nat := 0

/-- The operation code of an operator. -/
def BinaryOp.opcode : BinaryOp → Opcode
  | .arith .add => .add
  | .arith .subtract => .subtract
  | .arith .multiply => .multiply
  | .arith .divide => .divide
  | .arith .modulo => .modulo
  | .concat => .concat
  | .equals => .equals
  | .notEquals => .notEquals
  | .order .gt => .gt
  | .order .ge => .ge
  | .order .lt => .lt
  | .order .le => .le
  | .range => .range
  | .member => .member

/-- The operation code of a built-in function on texts. -/
def TextOp.opcode : TextOp → Opcode
  | .lower => .lower
  | .upper => .upper
  | .form => .form

/-- The operation code of a question about a loop. -/
def LoopFact.opcode : LoopFact → Opcode
  | .count => .loopCount
  | .index => .loopIndex
  | .hasNext => .loopHasNext

namespace Draft

/-- An instruction on two registers. -/
def onRegisters (op : Opcode) (a b : Nat) (line : UInt32) : Draft :=
  ⟨op, .register a, .register b, line⟩

/-- An instruction on one register. -/
def onRegister (op : Opcode) (a : Nat) (line : UInt32) : Draft := ⟨op, .register a, .none, line⟩

/-- An instruction on the `count` registers that belong to register `a`. -/
def onRun (op : Opcode) (a count : Nat) (line : UInt32) : Draft :=
  ⟨op, .register a, .number count, line⟩

/-- Puts a constant into a register. -/
def loadConst (dst : Nat) (c : Constant) (line : UInt32) : Draft :=
  ⟨.loadConst, .register dst, .const c, line⟩

/-- Goes to another instruction. -/
def jumpTo (target : Nat) (line : UInt32) : Draft := ⟨.jump, .target target, .none, line⟩

/-- An instruction on a register that may go to another instruction. -/
def branchTo (op : Opcode) (a target : Nat) (line : UInt32) : Draft :=
  ⟨op, .register a, .target target, line⟩

/-- Puts an integer into a register; small ones need no constant. -/
def loadInteger (dst : Nat) (n : Int64) (line : UInt32) : Draft :=
  if 0 ≤ n.toInt ∧ n.toInt < operandLimit then
    ⟨.loadInt, .register dst, .number n.toInt.toNat, line⟩
  else loadConst dst (.int n) line

/-- Puts a variable into a register. The variables of loops hide others of the same name. -/
def loadVariable (scope : Scope) (dst : Nat) (name : String) (line : UInt32) : Draft :=
  match scope.lookup name with
  | some slot => onRegisters .move dst slot line
  | none => ⟨.loadVar, .register dst, .const (.str name), line⟩

end Draft

namespace Expr

mutual

/-- The code that leaves the value of an expression in the register `dst`. -/
def code (scope : Scope) (dst free pc : Nat) : Expr → List Draft
  | null line => [.onRegister .loadNull dst line]
  | bool b line => [.onRegister (if b then .loadTrue else .loadFalse) dst line]
  | int n line => [.loadInteger dst n line]
  | float bits line => [.loadConst dst (.float bits) line]
  | str s line => [.loadConst dst (.str s) line]
  | var name line => [.loadVariable scope dst name line]
  | loopFact fact line => [.onRegister fact.opcode dst line]
  | binary op left right line =>
    let second := free + left.registers
    left.code scope dst free pc
      ++ right.code scope second (second + 1) (pc + left.size)
      ++ [.onRegisters op.opcode dst second line]
  | and left right line =>
    left.code scope dst free pc
      ++ [.branchTo .jumpIfFalse dst (pc + left.size + 1 + right.size) line]
      ++ right.code scope dst (free + left.registers) (pc + left.size + 1)
  | or left right line =>
    left.code scope dst free pc
      ++ [.branchTo .jumpIfTrue dst (pc + left.size + 1 + right.size) line]
      ++ right.code scope dst (free + left.registers) (pc + left.size + 1)
  | not operand line => operand.code scope dst free pc ++ [.onRegister .not dst line]
  | array items line =>
    codeRun scope free (free + max items.length 1) pc items
      ++ [.onRun .array free items.length line, .onRegisters .move dst free line]
  | map pairs line =>
    codeRun scope free (free + max pairs.length 1) pc pairs
      ++ [.onRun .map free (pairs.length / 2) line, .onRegisters .move dst free line]
  | choice test yes no line =>
    let second := pc + test.size + 1
    let third := second + yes.size + 1
    let free' := free + 1 + test.registers
    test.code scope free (free + 1) pc
      ++ [.branchTo .jumpIfFalse free third line]
      ++ yes.code scope dst free' second
      ++ [.jumpTo (third + no.size) line]
      ++ no.code scope dst (free' + yes.registers) third
  | assign name value line =>
    value.code scope dst free pc ++ [⟨.setVar, .const (.str name), .register dst, line⟩]
  | textCall op arg line => arg.code scope dst free pc ++ [.onRegister op.opcode dst line]
  | format template args nameLine line =>
    let free' := free + (args.length + 1)
    template.code scope free free' pc
      ++ codeRun scope (free + 1) (free' + template.registers) (pc + template.size) args
      ++ [.onRun .format free args.length nameLine, .onRegisters .move dst free line]
  | call name args nameLine line =>
    [.loadConst free (.str name) nameLine]
      ++ codeRun scope (free + 1) (free + (args.length + 1)) (pc + 1) args
      ++ [.onRun .call free args.length line, .onRegisters .move dst free line]
  | method object name args nameLine line =>
    let free' := free + (args.length + 2)
    object.code scope free free' pc
      ++ [.loadConst (free + 1) (.str name) nameLine]
      ++ codeRun scope (free + 2) (free' + object.registers) (pc + object.size + 1) args
      ++ [.onRun .method free args.length line, .onRegisters .move dst free line]

/-- The code that leaves the values of expressions in the registers from `dst` on. -/
def codeRun (scope : Scope) (dst free pc : Nat) : List Expr → List Draft
  | [] => []
  | e :: rest =>
    e.code scope dst free pc
      ++ codeRun scope (dst + 1) (free + e.registers) (pc + e.size) rest

end

/-- The code of an expression whose value is not needed. A call then does not move its answer. -/
def effect (scope : Scope) (free pc : Nat) (e : Expr) : List Draft :=
  if e.isCall then (e.code scope free free pc).dropLast
  else e.code scope free (free + 1) pc

end Expr

mutual

/-- The code of a statement. -/
def Stmt.code (scope : Scope) (jumps : Jumps) (free pc : Nat) : Stmt → List Draft
  | .block body => Stmt.codes scope jumps free pc body
  | .text s line => [⟨.appendText, .const (.str s), .none, line⟩]
  | .output value line =>
    value.code scope free (free + 1) pc ++ [.onRegister .append free line]
  | .eval e => e.effect scope free pc
  | .when test body line =>
    let second := pc + test.size + 1
    test.code scope free (free + 1) pc
      ++ [.branchTo .jumpIfFalse free (second + body.size) line]
      ++ body.code scope jumps (free + 1 + test.registers) second
  | .choice test yes no line =>
    let second := pc + test.size + 1
    let third := second + yes.size + 1
    let free' := free + 1 + test.registers
    test.code scope free (free + 1) pc
      ++ [.branchTo .jumpIfFalse free third line]
      ++ yes.code scope jumps free' second
      ++ [.jumpTo (third + no.size) line]
      ++ no.code scope jumps (free' + yes.registers) third
  | .switch subject arms =>
    let second := pc + subject.size
    subject.code scope free (free + 2) pc
      ++ Arm.codes scope jumps free (second + Arm.sizes arms) (free + 2 + subject.registers)
        second arms
  | .foreach var source body line =>
    let start := pc + source.size + 1
    let again := start + body.size
    source.code scope free (free + 1) pc
      ++ [.branchTo .iterStart free (again + 2) line]
      ++ body.code ((var, free) :: scope) ⟨again + 1, again⟩ (free + 1 + source.registers) start
      ++ [.branchTo .iterNext free start line, ⟨.loopPop, .none, .none, line⟩]
  | .loop test body line =>
    let start := pc + test.size + 1
    let after := start + body.size + 1
    test.code scope free (free + 1) pc
      ++ [.branchTo .jumpIfFalse free after line]
      ++ body.code scope ⟨after, pc⟩ (free + 1 + test.registers) start
      ++ [.jumpTo pc line]
  | .last line => [.jumpTo jumps.last line]
  | .next line => [.jumpTo jumps.next line]
  | .inclusion path line =>
    path.code scope free (free + 1) pc
      ++ [.onRegister .inclusion free line, .onRegister .append free line]
  | .inclusionWith path bindings line =>
    let first := free + 1 + path.registers
    path.code scope free (free + 1) pc
      ++ Expr.codeRun scope first (first + max bindings.length 1) (pc + path.size) bindings
      ++ [.onRun .map first (bindings.length / 2) line,
        .onRegisters .inclusionWith free first line, .onRegister .append free line]
  | .wrapper path body line =>
    let second := free + 1 + body.registers
    [.onRegister .markOutput free line]
      ++ body.code scope jumps (free + 1) (pc + 1)
      ++ path.code scope second (second + 1) (pc + 1 + body.size)
      ++ [.onRegisters .wrap second free line]

/-- The code of statements, one after the other. -/
def Stmt.codes (scope : Scope) (jumps : Jumps) (free pc : Nat) : List Stmt → List Draft
  | [] => []
  | s :: rest =>
    s.code scope jumps free pc ++ Stmt.codes scope jumps (free + s.registers) (pc + s.size) rest

/-- The code of an arm. The subject is in the register `subject`, the next register is used for
the test, and after its body the arm goes to `done`. -/
def Arm.code (scope : Scope) (jumps : Jumps) (subject done free pc : Nat) : Arm → List Draft
  | .test value body line =>
    let start := pc + value.size + 3
    value.code scope free (free + 1) pc
      ++ [.onRegisters .move (subject + 1) subject line, .onRegisters .test (subject + 1) free line,
        .branchTo .jumpIfFalse (subject + 1) (start + body.size + 1) line]
      ++ body.code scope jumps (free + 1 + value.registers) start
      ++ [.jumpTo done line]
  | .always body line =>
    let start := pc + 2
    [.onRegister .loadTrue (subject + 1) line,
        .branchTo .jumpIfFalse (subject + 1) (start + body.size + 1) line]
      ++ body.code scope jumps free start
      ++ [.jumpTo done line]

/-- The code of arms, one after the other. -/
def Arm.codes (scope : Scope) (jumps : Jumps) (subject done free pc : Nat) :
    List Arm → List Draft
  | [] => []
  | a :: rest =>
    a.code scope jumps subject done free pc
      ++ Arm.codes scope jumps subject done (free + a.registers) (pc + a.size) rest

end

namespace Stmt

/-- All instructions of a template; the end stands on the line of the instruction before it. -/
def drafts (s : Stmt) : List Draft :=
  let code := s.code [] {} 0 0
  code ++ [⟨.finish, .none, .none, (code.getLast?.map (·.line)).getD 0⟩]

/-- The program of a template. -/
def program (s : Stmt) (source : Source) : Except CompileError Program := do
  if operandLimit ≤ s.registers then throw (.tooLarge .registers)
  let start : Builder := { registers := s.registers, maxDepth := s.loopDepth }
  let b ← start.addAll s.drafts
  return b.build source

end Stmt

/-- The program of a tree: the tree is read as a statement, whose code is numbered. -/
def Program.compile (tree : Node) (source : Source) : Except CompileError Program := do
  let s ← Stmt.ofNode false tree
  s.program source

end Stencil
