import Stencil.Tree.Node
import Stencil.Template.CompileError
import Stencil.Template.Syntax

/-!
# From trees to templates

A tree of nodes is read as a statement, and its parts as statements or expressions according to
where they stand. Children beyond those that a kind of node needs are passed over.

* `Expr.ofNode`: the expression of a node whose value is needed;
* `Stmt.ofNode`: the statement of a node whose value, if any, is not needed.
-/

namespace Stencil

/-- An error about the node of the given kind and line. -/
def unsupported {α : Type} (tag : Tag) (line : UInt32) (reason : Reason) :
    Except CompileError α :=
  .error (.unsupported tag reason line)

/-- The integer of a literal. -/
def integerLiteral (text : String) (line : UInt32) : Except CompileError Expr :=
  match Decimal.integer? text with
  | some n => .ok (.int n line)
  | none => unsupported .integer line (.badInteger text)

/-- The double of a literal. -/
def doubleLiteral (text : String) (line : UInt32) : Except CompileError Expr :=
  match Decimal.double? text with
  | some bits => .ok (.float bits line)
  | none => unsupported .double line (.badDouble text)

/-- The operator of a kind of node with two operands. -/
def BinaryOp.ofTag? : Tag → Option BinaryOp
  | .add => some (.arith .add)
  | .subtract => some (.arith .subtract)
  | .multiply => some (.arith .multiply)
  | .divide => some (.arith .divide)
  | .modulo => some (.arith .modulo)
  | .concat => some .concat
  | .equals => some .equals
  | .notEquals => some .notEquals
  | .gt => some (.order .gt)
  | .ge => some (.order .ge)
  | .lt => some (.order .lt)
  | .le => some (.order .le)
  | .range => some .range
  | .member => some .member
  | _ => none

/-- The built-in function on texts with the given name. -/
def TextOp.ofName? : String → Option TextOp
  | "lc" => some .lower
  | "uc" => some .upper
  | "uri" => some .form
  | "url" => some .form
  | _ => none

mutual

/-- The expression of a node whose value is needed. -/
def Expr.ofNode : Node → Except CompileError Expr
  | ⟨tag, text?, children, line⟩ =>
    let text := text?.getD ""
    match tag with
    | .integer => integerLiteral text line
    | .double => doubleLiteral text line
    | .string => .ok (.str text line)
    | .yes => .ok (.bool true line)
    | .no => .ok (.bool false line)
    | .nothing => .ok (.null line)
    | .ident | .dollarVar => .ok (.var text line)
    | .loopCount => .ok (.loopFact .count line)
    | .loopIndex => .ok (.loopFact .index line)
    | .loopHasNext => .ok (.loopFact .hasNext line)
    | .andAnd => do
      let (left, right) ← Expr.ofOperands tag line children
      return .and left right line
    | .orOr => do
      let (left, right) ← Expr.ofOperands tag line children
      return .or left right line
    | .negation =>
      match children with
      | [] => unsupported tag line (.missingChild 0)
      | operand :: _ => do return .not (← Expr.ofNode operand) line
    | .array => do return .array (← Expr.ofNodes children) line
    | .map =>
      if children.length % 2 = 0 then do return .map (← Expr.ofPairs children) line
      else unsupported tag line .unpairedMap
    | .choice =>
      match children with
      | [] => unsupported tag line (.missingChild 0)
      | test :: branches => do
        let test ← Expr.ofNode test
        match branches with
        | [] => unsupported tag line (.missingChild 1)
        | [yes] => return .choice test (← Expr.ofNode yes) (.null line) line
        | yes :: no :: _ => return .choice test (← Expr.ofNode yes) (← Expr.ofNode no) line
    | .assignment =>
      match children with
      | [] => unsupported tag line (.missingChild 0)
      | [_] => unsupported tag line (.missingChild 1)
      | target :: value :: _ => do return .assign target.text (← Expr.ofNode value) line
    | .call =>
      match children with
      | [] => unsupported tag line (.missingChild 0)
      | ⟨.ident, name?, _, nameLine⟩ :: args =>
        let name := name?.getD ""
        match TextOp.ofName? name with
        | some op =>
          match args with
          | [arg] => do return .textCall op (← Expr.ofNode arg) nameLine
          | _ => .error (.arity name .one args.length nameLine)
        | none =>
          if name = "sprintf" then
            match args with
            | [] => .error (.arity name .atLeastOne 0 nameLine)
            | template :: args => do
              return .format (← Expr.ofNode template) (← Expr.ofNodes args) nameLine line
          else do return .call name (← Expr.ofNodes args) nameLine line
      | ⟨.member, _, parts, memberLine⟩ :: args =>
        match parts with
        | [] => unsupported .member memberLine (.missingChild 0)
        | [_] => unsupported .member memberLine (.missingChild 1)
        | object :: key :: _ =>
          if key.tag = .string ∨ key.tag = .ident then do
            return .method (← Expr.ofNode object) key.text (← Expr.ofNodes args) key.line line
          else unsupported .member memberLine .methodName
      | callee :: _ => unsupported tag line (.notCallable callee.tag)
    | .arm => unsupported tag line .armOutsideSwitch
    | .block | .literalText | .output | .switch | .foreach | .loop | .last | .next | .inclusion
    | .wrapper => unsupported tag line .statementAsValue
    | tag =>
      match BinaryOp.ofTag? tag with
      | some op => do
        let (left, right) ← Expr.ofOperands tag line children
        return .binary op left right line
      | none => unsupported tag line .statementAsValue

/-- The two operands of a node of the given kind and line. -/
def Expr.ofOperands (tag : Tag) (line : UInt32) : List Node → Except CompileError (Expr × Expr)
  | [] => unsupported tag line (.missingChild 0)
  | left :: rest => do
    let left ← Expr.ofNode left
    match rest with
    | [] => unsupported tag line (.missingChild 1)
    | right :: _ => return (left, ← Expr.ofNode right)

/-- The expressions of nodes whose values are needed. -/
def Expr.ofNodes : List Node → Except CompileError (List Expr)
  | [] => .ok []
  | n :: rest => do return (← Expr.ofNode n) :: (← Expr.ofNodes rest)

/-- The expressions of keys and values that take turns; a key that is a bare name stands for that
name. -/
def Expr.ofPairs : List Node → Except CompileError (List Expr)
  | key :: value :: rest => do
    let key ← if key.tag = .ident then pure (.str key.text key.line) else Expr.ofNode key
    let value ← Expr.ofNode value
    return key :: value :: (← Expr.ofPairs rest)
  | _ => .ok []

end

mutual

/-- The statement of a node; `inLoop` says whether it stands in the body of a loop. -/
def Stmt.ofNode (inLoop : Bool) : Node → Except CompileError Stmt
  | ⟨tag, text?, children, line⟩ =>
    match tag with
    | .block => do return .block (← Stmt.ofNodes inLoop children)
    | .literalText => .ok (.text (text?.getD "") line)
    | .output =>
      match children with
      | [] => unsupported tag line (.missingChild 0)
      | value :: _ => do
        let e ← Expr.ofNode value
        return if value.tag = .assignment then .eval e else .output e line
    | .choice =>
      match children with
      | [] => unsupported tag line (.missingChild 0)
      | test :: branches => do
        let test ← Expr.ofNode test
        match branches with
        | [] => unsupported tag line (.missingChild 1)
        | [body] => return .when test (← Stmt.ofNode inLoop body) line
        | yes :: no :: _ =>
          return .choice test (← Stmt.ofNode inLoop yes) (← Stmt.ofNode inLoop no) line
    | .switch =>
      match children with
      | [] => unsupported tag line (.missingChild 0)
      | subject :: arms => do
        let subject ← Expr.ofNode subject
        return .switch subject (← Arm.ofNodes inLoop arms)
    | .foreach =>
      match children with
      | [] => unsupported tag line (.missingChild 0)
      | [_] => unsupported tag line (.missingChild 1)
      | var :: source :: rest => do
        let source ← Expr.ofNode source
        match rest with
        | [] => unsupported tag line (.missingChild 2)
        | body :: _ => return .foreach var.text source (← Stmt.ofNode true body) line
    | .loop =>
      match children with
      | [] => unsupported tag line (.missingChild 0)
      | test :: rest => do
        let test ← Expr.ofNode test
        match rest with
        | [] => unsupported tag line (.missingChild 1)
        | body :: _ => return .loop test (← Stmt.ofNode true body) line
    | .last => if inLoop then .ok (.last line) else unsupported tag line .jumpOutsideLoop
    | .next => if inLoop then .ok (.next line) else unsupported tag line .jumpOutsideLoop
    | .inclusion =>
      match children with
      | [] => unsupported tag line (.missingChild 0)
      | path :: bindings => do
        let path ← Expr.ofNode path
        if bindings.isEmpty then return .inclusion path line
        else if bindings.length % 2 = 0 then
          return .inclusionWith path (← Expr.ofPairs bindings) line
        else unsupported tag line .unpairedBindings
    | .wrapper =>
      match children with
      | path :: body :: _ => do
        let body ← Stmt.ofNode inLoop body
        return .wrapper (← Expr.ofNode path) body line
      | _ => unsupported tag line (.missingChild 1)
    | .arm => unsupported tag line .armOutsideSwitch
    | .integer | .double | .string | .yes | .no | .nothing | .ident | .dollarVar | .array | .map
    | .loopCount | .loopIndex | .loopHasNext => .error (.voidContext tag line)
    | _ => do return .eval (← Expr.ofNode ⟨tag, text?, children, line⟩)

/-- The statements of nodes. -/
def Stmt.ofNodes (inLoop : Bool) : List Node → Except CompileError (List Stmt)
  | [] => .ok []
  | n :: rest => do return (← Stmt.ofNode inLoop n) :: (← Stmt.ofNodes inLoop rest)

/-- The arms of a switch. -/
def Arm.ofNodes (inLoop : Bool) : List Node → Except CompileError (List Arm)
  | [] => .ok []
  | ⟨tag, _, parts, line⟩ :: rest => do
    if tag = .arm then
      let arm ← match parts with
        | [value, body] => do
          let value ← Expr.ofNode value
          pure (.test value (← Stmt.ofNode inLoop body) line)
        | [body] => do pure (.always (← Stmt.ofNode inLoop body) line)
        | _ => unsupported tag line .armShape
      return arm :: (← Arm.ofNodes inLoop rest)
    else unsupported tag line .notAnArm

end

end Stencil
