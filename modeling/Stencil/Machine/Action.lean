import Stencil.Machine.Frame
import Stencil.Value.Method
import Stencil.Text.Basic
import Stencil.Text.Escape

/-!
# Actions

What an instruction is going to do. The action of an instruction depends on the frame and the
variables alone and changes neither; a fault that arises here leaves everything as it was.

* `Action`: the things that instructions do;
* `Frame.action`: the action of an instruction.
-/

namespace Stencil

/-- What an instruction is going to do. -/
inductive Action
  /-- Warns and writes a register. -/
  | store (cautions : List Caution) (r : Nat) (v : Value)
  /-- Adds a text to the output as it is. -/
  | write (s : String)
  /-- Adds a value to the output. -/
  | append (v : Value)
  | assign (name : String) (v : Value)
  | skip
  | goto (pc : Nat)
  /-- Enters a loop with a first item and the items after it. -/
  | enter (r : Nat) (first : Value) (rest : List Value)
  /-- Goes on with the next item of the innermost loop. -/
  | next (r : Nat) (item : Value) (record : LoopRecord) (pc : Nat)
  /-- Finds the innermost loop at its end. -/
  | exhaust (record : LoopRecord)
  | leave
  /-- Calls a function of the host application. -/
  | call (r : Nat) (name : String) (function : Function) (args : List Value)
  /-- Renders another template; its output becomes the value of a register. -/
  | inclusion (r : Nat) (name : String)
  /-- The same with a copy of the variables, extended by the map in the register `bindings`. -/
  | inclusionWith (r bindings : Nat) (name : String)
  /-- Renders another template around a part of the output. -/
  | wrap (name before content : String)
  | finish

/-- A fault of values. -/
def typeFault {α : Type} (fault : TypeFault) : Except Fault α := .error (.type fault)

/-- A fault of the program. -/
def internalFault {α : Type} (fault : InternalFault) : Except Fault α := .error (.internal fault)

/-- The operator behind an operation code. -/
def Opcode.arithOp? : Opcode → Option ArithOp
  | .add => some .add
  | .subtract => some .subtract
  | .multiply => some .multiply
  | .divide => some .divide
  | .modulo => some .modulo
  | _ => none

/-- The test behind an operation code. -/
def Opcode.orderTest? : Opcode → Option OrderTest
  | .gt => some .gt
  | .ge => some .ge
  | .lt => some .lt
  | .le => some .le
  | _ => none

namespace Value

/-- The text that two values make together, and a caution for each that is null. -/
def concat (a b : Value) : List Caution × Value :=
  (([a, b].filter isNull).map fun _ => .nullOperand, .str (a.text ++ b.text))

/-- The member of a container that a key names, and cautions about nulls. -/
def member (hosts : HostTypes) : (container key : Value) → Except Fault (List Caution × Value)
  | .map entries, key =>
    if key.isNull then .ok ([.nullKey], .null)
    else .ok ([], (Bindings.get? entries key.text).getD .null)
  | .array items, .int index => .ok ([], Value.item items index)
  | .array _, key => typeFault (.collection (.arrayIndex key.typeName))
  | .host type _ _ state, key =>
    match key.text? with
    | none => .error (.member (.fieldName key.typeName))
    | some name =>
      match hosts.field type state name with
      | .ok v => .ok ([], v)
      | .error e => .error (.member e)
  | .null, _ => .ok ([.nullContainer], .null)
  | container, _ => typeFault (.collection (.notIndexable container.typeName))

/-- The answer of a value to a method. -/
def answer (hosts : HostTypes) (target : Value) (name : String) (args : List Value) :
    Except MemberError Value :=
  match target with
  | .host type _ _ state => hosts.call type state name args
  | .null => .error (.methodOfNull name)
  | v => v.method name args

end Value

/-- The value of a built-in function on texts. -/
def textResult (op : Opcode) (s : String) : String :=
  match op with
  | .lower => Text.lower s
  | .upper => Text.upper s
  | _ => Text.encodeForm s

/-- A number as a value, or the given fault if it is too large for one. -/
@[irreducible]
def measured (n : Nat) (tooLarge : InternalFault) : Except Fault Value :=
  (Value.ofNat? n).elim (internalFault tooLarge) .ok

/-- The answer to a question about a loop. -/
def LoopRecord.answer (l : LoopRecord) : Opcode → Except Fault Value
  | .loopCount => measured (l.index + 1) .loopTooLong
  | .loopIndex => measured l.index .loopTooLong
  | _ => .ok (.bool !l.rest.isEmpty)

namespace Frame

/-- Writes a register that has to be there. -/
def store (f : Frame) (r : Nat) (v : Value) : Except Fault Action :=
  if r < f.registers.size then .ok (.store [] r v) else internalFault (.register r)

/-- The name of a template in a register. -/
def templateName (f : Frame) (r : Nat) : Except Fault String := do
  let v ← f.register r
  if v.isNull then throw (.load .nullName) else return v.text

/-- The parts of the output before and behind the mark in a register. -/
def atMark (f : Frame) (r : Nat) : Except Fault (String × String) := do
  match ← f.register r with
  | .int n =>
    if n.toInt < 0 then internalFault .mark
    else
      match Text.cut n.toInt.toNat f.output with
      | some parts => return parts
      | none => internalFault .mark
  | _ => internalFault .mark

/-- Compares two registers. -/
def equal (f : Frame) (a b : Nat) : Except Fault Bool := do
  return (← f.register a).eq (← f.register b)

/-- The action of a jump that is taken if the register `a` is as `taken` says. -/
def branch (f : Frame) (a : Nat) (taken : Bool) (target : Nat) : Except Fault Action := do
  return if (← f.register a).isTruthy = taken then .goto target else .skip

/-- The map of the `count` keys and values from the register `a` on. -/
def mapOfRun (f : Frame) (a count : Nat) : Except Fault Value := do
  if operandLimit ≤ 2 * count then internalFault .mapTooLarge
  else
    match Value.mapOf (← f.run a (2 * count)) with
    | .ok v => return v
    | .error e => typeFault (.collection e)

/-- The range between two registers. -/
def rangeOf (f : Frame) (a b : Nat) : Except Fault Value := do
  match Value.range (← f.register a) (← f.register b) with
  | .ok v => return v
  | .error e => typeFault (.collection e)

/-- The number that an operator makes of two registers. -/
def arithOf (f : Frame) (op : ArithOp) (a b : Nat) : Except Fault Value := do
  match Value.arith op (← f.register a) (← f.register b) with
  | .ok v => return v
  | .error e => typeFault (.arith e)

/-- The answer of a test of the order of two registers. -/
def orderOf (f : Frame) (test : OrderTest) (a b : Nat) : Except Fault Value := do
  match Value.compare (← f.register a) (← f.register b) with
  | .ok o => return .bool (test.holds o)
  | .error e => typeFault (.order e)

/-- The action that enters a loop along the register `a`. -/
def enterLoop (f : Frame) (hosts : HostTypes) (a target : Nat) : Except Fault Action := do
  match (← f.register a).items hosts with
  | .ok [] => return .goto target
  | .ok (first :: rest) => return .enter a first rest
  | .error e => typeFault (.collection e)

/-- The action that goes on with the innermost loop. -/
def nextItem (f : Frame) (a target : Nat) : Except Fault Action :=
  match f.loops with
  | [] => internalFault .advanceWithoutLoop
  | ⟨index, []⟩ :: _ => .ok (.exhaust ⟨index + 1, []⟩)
  | ⟨index, item :: rest⟩ :: _ =>
    if a < f.registers.size then .ok (.next a item ⟨index + 1, rest⟩ target)
    else internalFault (.register a)

/-- The action that calls the function named by the register `a`. -/
def callFunction (f : Frame) (functions : Functions) (a count : Nat) : Except Fault Action := do
  match ← f.register a with
  | .str name =>
    match functions.get? name with
    | none => return .store [.unknownFunction name] a .null
    | some function => return .call a name function (← f.run (a + 1) count)
  | v => internalFault (.functionName v.typeName)

/-- The action that calls the method named by the register `a + 1`. -/
def callMethod (f : Frame) (hosts : HostTypes) (a count : Nat) : Except Fault Action := do
  let target ← f.register a
  match ← f.register (a + 1) with
  | .str name =>
    match target.answer hosts name (← f.run (a + 2) count) with
    | .ok v => return .store [] a v
    | .error e => throw (.member e)
  | v => internalFault (.methodName v.typeName)

/-- The action that fills the format in the register `a`. -/
def fillFormat (f : Frame) (a count : Nat) : Except Fault Action := do
  let template ← f.register a
  if template.isNull then typeFault .nullFormat
  else
    match Format.format template.text (← f.run (a + 1) count) with
    | .ok s => return .store [] a (.str s)
    | .error e => typeFault (.format e)

/-- The action of a built-in function on the register `a`; null stays null. -/
def textAction (f : Frame) (op : Opcode) (a : Nat) : Except Fault Action := do
  let v ← f.register a
  return if v.isNull then .skip else .store [] a (.str (textResult op v.text))

/-- The action of an instruction. -/
def action (hosts : HostTypes) (functions : Functions) (vars : Vars) (f : Frame)
    (i : Instruction) : Except Fault Action :=
  let a := i.a.toNat
  let b := i.b.toNat
  match i.op with
  | .loadConst => do f.store a (← f.constant b).value
  | .loadInt => f.store a (.int (Int64.ofNat b))
  | .loadTrue => f.store a (.bool true)
  | .loadFalse => f.store a (.bool false)
  | .loadNull => f.store a .null
  | .loadVar => do f.store a ((vars.get? (← f.name b)).getD .null)
  | .setVar => do return .assign (← f.name a) (← f.register b)
  | .move => do f.store a (← f.register b)
  | .appendText => do return .write (← f.name a)
  | .append => do return .append (← f.register a)
  | .add | .subtract | .multiply | .divide | .modulo => do
    return .store [] a (← f.arithOf (i.op.arithOp?.getD .add) a b)
  | .concat => do
    let (cautions, v) := (← f.register a).concat (← f.register b)
    return .store cautions a v
  | .equals | .test => do return .store [] a (.bool (← f.equal a b))
  | .notEquals => do return .store [] a (.bool !(← f.equal a b))
  | .gt | .ge | .lt | .le => do
    return .store [] a (← f.orderOf (i.op.orderTest?.getD .gt) a b)
  | .not => do return .store [] a (.bool !(← f.register a).isTruthy)
  | .array => do f.store a (.array (← f.run a b))
  | .map => do f.store a (← f.mapOfRun a b)
  | .range => do return .store [] a (← f.rangeOf a b)
  | .member => do
    let (cautions, v) ← Value.member hosts (← f.register a) (← f.register b)
    return .store cautions a v
  | .jump => .ok (.goto a)
  | .jumpIfFalse => f.branch a false b
  | .jumpIfTrue => f.branch a true b
  | .iterStart => f.enterLoop hosts a b
  | .iterNext => f.nextItem a b
  | .loopPop => if f.loops.isEmpty then internalFault .leaveWithoutLoop else .ok .leave
  | .loopCount | .loopIndex | .loopHasNext =>
    match f.loops with
    | [] => typeFault (.noLoop i.op)
    | l :: _ => do f.store a (← l.answer i.op)
  | .inclusion => do return .inclusion a (← f.templateName a)
  | .inclusionWith => do return .inclusionWith a b (← f.templateName a)
  | .markOutput => do f.store a (← measured f.output.utf8ByteSize .outputTooLarge)
  | .wrap => do
    let (before, content) ← f.atMark b
    return .wrap (← f.templateName a) before content
  | .call => f.callFunction functions a b
  | .method => f.callMethod hosts a b
  | .lower | .upper | .form => f.textAction i.op a
  | .format => f.fillFormat a b
  | .finish => .ok .finish

end Frame

end Stencil
