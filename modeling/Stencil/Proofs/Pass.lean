import Stencil.Bytecode.Assembly
import Stencil.Template.Code

/-!
# Templates in one pass

Code can be made without reading a tree as a statement first: one walk along the tree asks an
assembly for one thing after the other. A node is compiled for a destination, which is the register
that its value is needed in, or none if its value is not needed.

* `Compiler`: an assembly, with the variables and the pending jumps of the loops that are open;
* `Pass`: what is done with a compiler, and `Compiler.Part`, which also needs a destination;
* `Compiler.binary`, `Compiler.choice`, `Compiler.foreach`, …: the kinds of nodes, made from their
  parts;
* `Compiler.node`: the pass of a node;
* `Compiler.program`: the program of a tree.
-/

namespace Stencil

/-- The jumps out of an open loop and to its next round that have no target yet, by their labels. -/
structure Pending where
  last : List Nat := []
  next : List Nat := []
  deriving DecidableEq

instance : Append Pending := ⟨fun p q => ⟨p.last ++ q.last, p.next ++ q.next⟩⟩

/-- A compiler half way through a tree. -/
structure Compiler extends Assembly where
  /-- The variables of the open loops along collections and the registers that hold them, the
  innermost first. -/
  scope : List (String × UInt32) := []
  /-- The pending jumps of the open loops, the innermost first. -/
  loops : List Pending := []

/-- What is done with a compiler. It can fail, and leaves a compiler even then. -/
abbrev Pass := ExceptT CompileError (StateM Compiler)

/-- The destination of a node that only makes a value. -/
def valueDest (tag : Tag) (line : UInt32) : Option UInt32 → Except CompileError UInt32
  | some d => .ok d
  | none => .error (.voidContext tag line)

/-- Refuses a destination for a node that has no value. -/
def expectVoid (tag : Tag) (line : UInt32) : Option UInt32 → Except CompileError Unit
  | some _ => unsupported tag line .statementAsValue
  | none => .ok ()

namespace Compiler

/-- The pass of a node, or of something like it, for every destination. -/
abbrev Part := Option UInt32 → Pass Unit

/-! ### Small passes -/

/-- Does a task of the assembly. -/
def doing {α : Type} (task : Task α) : Pass α := fun c =>
  let (answer, s) := task.run c.toAssembly
  (answer, { c with toAssembly := s })

/-- Adds an instruction on a line. -/
def emit (line : UInt32) (op : Opcode) (x y : UInt32) : Pass Unit := do
  doing (Assembly.change (·.setLine line))
  let _ ← doing (Assembly.emit op x y)

/-- Adds a jump on a line that has no target yet and gives its label. -/
def emitJump (line : UInt32) (op : Opcode) (register : UInt32) : Pass Nat := do
  doing (Assembly.change (·.setLine line))
  doing (Assembly.emitJump op register)

/-- Points the jumps with the labels at a target. -/
def pointAll (target : Nat) : List Nat → Pass Unit
  | [] => return ()
  | label :: rest => do
    doing (Assembly.pointTo label target)
    pointAll target rest

/-- Points the jumps with the labels at the next instruction. -/
def pointHere (labels : List Nat) : Pass Unit := do pointAll (← doing Assembly.offset) labels

/-- Reserves registers in a row and gives the first. -/
def reserve (count : Nat) : Pass UInt32 := do
  return UInt32.ofNat (← doing (Assembly.reserve count))

/-- Reserves a register. -/
def register : Pass UInt32 := reserve 1

/-- The destination, or a new register if there is none. -/
def scratch : Option UInt32 → Pass UInt32
  | some d => return d
  | none => register

/-- The place of a constant. -/
def constant (c : Constant) : Pass UInt32 := do
  return UInt32.ofNat (← doing (Assembly.constant c))

/-- Adds an instruction with the place of a constant for its second operand. -/
def emitTo (line : UInt32) (op : Opcode) (x : UInt32) (c : Constant) : Pass Unit := do
  emit line op x (← constant c)

/-- Adds an instruction with the place of a constant for its first operand. -/
def emitFrom (line : UInt32) (op : Opcode) (c : Constant) (y : UInt32) : Pass Unit := do
  emit line op (← constant c) y

/-- Puts an integer into a register; small ones need no constant. -/
def loadInteger (line d : UInt32) (n : Int64) : Pass Unit :=
  if 0 ≤ n.toInt ∧ n.toInt < operandLimit then emit line .loadInt d (UInt32.ofNat n.toInt.toNat)
  else emitTo line .loadConst d (.int n)

/-- Puts a variable into a register. The variables of loops hide others of the same name. -/
def loadVariable (line d : UInt32) (name : String) : Pass Unit := do
  match (← get).scope.lookup name with
  | some slot => emit line .move d slot
  | none => emitTo line .loadVar d (.str name)

/-- Puts the answer of a call into the destination, if there is one. -/
def moveResult (line : UInt32) (dest : Option UInt32) (base : UInt32) : Pass Unit :=
  match dest with
  | some d => emit line .move d base
  | none => return ()

/-- Adds an instruction on the `count` registers that belong to register `base`. -/
def emitRun (line : UInt32) (op : Opcode) (base : UInt32) (count : Nat) : Pass Unit := do
  emit line op base (← operand .count count)

/-- Does a pass inside a loop, with variables of its own, and gives the jumps that are pending
after it. -/
def inLoop (locals : List (String × UInt32)) (body : Pass Unit) : Pass Pending := fun c =>
  let (answer, c') := body.run { c with scope := locals ++ c.scope, loops := {} :: c.loops }
  (answer.map fun _ => c'.loops.headD {},
    { c' with scope := c'.scope.drop locals.length, loops := c'.loops.tail })

/-- Adds labels to the pending jumps of the innermost loop. -/
def suspend (tag : Tag) (line : UInt32) (p : Pending) : Pass Unit := do
  let c ← get
  match c.loops with
  | [] => unsupported tag line .jumpOutsideLoop
  | q :: outer => set { c with loops := (q ++ p) :: outer }

/-! ### Parts in a row -/

/-- Passes whose values are not needed. -/
def sequence : List Part → Pass Unit
  | [] => return ()
  | part :: rest => do
    part none
    sequence rest

/-- Passes whose values are needed in the registers from `first` on. -/
def row (first : UInt32) : List Part → Pass Unit
  | [] => return ()
  | part :: rest => do
    part (some first)
    row (first + 1) rest

/-- The part that is needed at some place, if there is one. -/
def child (tag : Tag) (line : UInt32) (parts : List Part) (index : Nat) : Part := fun dest =>
  match parts[index]? with
  | some part => part dest
  | none => unsupported tag line (.missingChild index)

/-! ### Expressions -/

/-- An operator that always evaluates both operands. -/
def binary (line : UInt32) (op : Opcode) (left right : Part) : Part := fun dest => do
  let d ← scratch dest
  left (some d)
  let second ← register
  right (some second)
  emit line op d second

/-- An operator that evaluates its second operand only if need be. -/
def logical (line : UInt32) (op : Opcode) (left right : Part) : Part := fun dest => do
  let d ← scratch dest
  left (some d)
  let skip ← emitJump line op d
  right (some d)
  pointHere [skip]

/-- An instruction that changes a value. -/
def unary (line : UInt32) (op : Opcode) (operand : Part) : Part := fun dest => do
  let d ← scratch dest
  operand (some d)
  emit line op d 0

/-- A container, made from items in a row. -/
def container (tag : Tag) (line : UInt32) (op : Opcode) (count : Nat) (items : List Part) : Part :=
  fun dest => do
    let d ← valueDest tag line dest
    let base ← reserve items.length
    row base items
    emitRun line op base count
    emit line .move d base

/-- An assignment, which has the value that it assigns. -/
def assign (line : UInt32) (name : String) (value : Part) : Part := fun dest => do
  let r ← scratch dest
  value (some r)
  emitFrom line .setVar (.str name) r

/-- A filled format. The first part is the format itself. -/
def format (nameLine line : UInt32) (parts : List Part) : Part := fun dest => do
  let base ← reserve parts.length
  row base parts
  emitRun nameLine .format base (parts.length - 1)
  moveResult line dest base

/-- A call of a function of the host application. -/
def callFunction (nameLine line : UInt32) (name : String) (args : List Part) : Part :=
  fun dest => do
    let base ← reserve (args.length + 1)
    emitTo nameLine .loadConst base (.str name)
    row (base + 1) args
    emitRun line .call base args.length
    moveResult line dest base

/-- A call by a name: of a built-in function, or of one of the host application. -/
def callName (nameLine line : UInt32) (name : String) (args : List Part) : Part := fun dest =>
  match TextOp.ofName? name with
  | some op =>
    match args with
    | [arg] => unary nameLine op.opcode arg dest
    | _ => throw (.arity name .one args.length nameLine)
  | none =>
    if name = "sprintf" then
      if args.isEmpty then throw (.arity name .atLeastOne 0 nameLine)
      else format nameLine line args dest
    else callFunction nameLine line name args dest

/-- A call of a method. -/
def callMethod (nameLine line : UInt32) (object : Part) (name : String) (args : List Part) :
    Part := fun dest => do
  let base ← reserve (args.length + 2)
  object (some base)
  emitTo nameLine .loadConst (base + 1) (.str name)
  row (base + 2) args
  emitRun line .method base args.length
  moveResult line dest base

/-- A call by a member of an object. The nodes of the member are those of the given parts. -/
def callMember (line memberLine : UInt32) (names : List Node) (parts args : List Part) : Part :=
  fun dest =>
    match names, parts with
    | _ :: key :: _, object :: _ =>
      if key.tag = .string ∨ key.tag = .ident then
        callMethod key.line line object key.text args dest
      else unsupported .member memberLine .methodName
    | [_], _ => unsupported .member memberLine (.missingChild 1)
    | _, _ => unsupported .member memberLine (.missingChild 0)

/-- A choice between two parts, or between one and nothing. -/
def choice (line : UInt32) (test yes : Part) (no? : Option Part) : Part := fun dest => do
  let cond ← register
  test (some cond)
  let skip ← emitJump line .jumpIfFalse cond
  yes dest
  match no?, dest with
  | some no, _ =>
    let done ← emitJump line .jump 0
    pointHere [skip]
    no dest
    pointHere [done]
  | none, some d =>
    let done ← emitJump line .jump 0
    pointHere [skip]
    emit line .loadNull d 0
    pointHere [done]
  | none, none => pointHere [skip]

/-! ### Statements -/

/-- Writes the value of a part out. -/
def output (line : UInt32) (value : Part) : Pass Unit := do
  let r ← register
  value (some r)
  emit line .append r 0

/-- The body of an arm, which is passed over unless the test holds, and the label of the jump at
its end. -/
def guarded (line test : UInt32) (body : Part) : Pass Nat := do
  let skip ← emitJump line .jumpIfFalse test
  body none
  let done ← emitJump line .jump 0
  pointHere [skip]
  return done

/-- An arm with a value that the subject is compared with. -/
def armTest (line : UInt32) (value body : Part) (subject test : UInt32) : Pass Nat := do
  let r ← register
  value (some r)
  emit line .move test subject
  emit line .test test r
  guarded line test body

/-- An arm that is for every subject. -/
def armAlways (line : UInt32) (body : Part) (_ test : UInt32) : Pass Nat := do
  emit line .loadTrue test 0
  guarded line test body

/-- What stands for an arm of a switch, made from its parts. -/
def arm (tag : Tag) (line : UInt32) (parts : List Part) : UInt32 → UInt32 → Pass Nat :=
  if tag = .arm then
    match parts with
    | [value, body] => armTest line value body
    | [body] => armAlways line body
    | _ => fun _ _ => unsupported tag line .armShape
  else fun _ _ => unsupported tag line .notAnArm

/-- Arms one after the other, and the labels of the jumps at their ends. -/
def armRow (subject test : UInt32) : List (UInt32 → UInt32 → Pass Nat) → Pass (List Nat)
  | [] => return []
  | arm :: rest => do
    let done ← arm subject test
    return done :: (← armRow subject test rest)

/-- A switch. All arms share the register of the test. -/
def switch (subject : Part) (arms : List (UInt32 → UInt32 → Pass Nat)) : Pass Unit := do
  let r ← register
  let test ← register
  subject (some r)
  pointHere (← armRow r test arms)

/-- A loop along a collection, whose variable is in the register of the collection. -/
def foreach (line : UInt32) (var : String) (source body : Part) : Pass Unit := do
  let item ← register
  source (some item)
  let start ← emitJump line .iterStart item
  let first ← doing Assembly.offset
  doing Assembly.enterLoop
  let pending ← inLoop [(var, item)] (body none)
  pointHere pending.next
  let again ← emitJump line .iterNext item
  doing (Assembly.pointTo again first)
  pointHere pending.last
  emit line .loopPop 0 0
  doing Assembly.exitLoop
  pointHere [start]

/-- A loop that is repeated while a test holds. -/
def loop (line : UInt32) (test body : Part) : Pass Unit := do
  let head ← doing Assembly.offset
  let cond ← register
  test (some cond)
  let exit ← emitJump line .jumpIfFalse cond
  let pending ← inLoop [] (body none)
  let back ← emitJump line .jump 0
  doing (Assembly.pointTo back head)
  pointAll head pending.next
  pointHere [exit]
  pointHere pending.last

/-- A jump out of the innermost loop or to its next round. -/
def leave (tag : Tag) (line : UInt32) (pending : Nat → Pending) : Pass Unit := do
  suspend tag line (pending (← emitJump line .jump 0))

/-- Another template, with variables of its own if there are bindings. -/
def inclusion (tag : Tag) (line : UInt32) (path : Part) (bindings : List Part) : Pass Unit := do
  let r ← register
  path (some r)
  if bindings.isEmpty then emit line .inclusion r 0
  else if bindings.length % 2 = 0 then
    let base ← reserve bindings.length
    row base bindings
    emitRun line .map base (bindings.length / 2)
    emit line .inclusionWith r base
  else unsupported tag line .unpairedBindings
  emit line .append r 0

/-- Another template around a part of the output. -/
def wrapper (line : UInt32) (path body : Part) : Pass Unit := do
  let mark ← register
  emit line .markOutput mark 0
  body none
  let r ← register
  path (some r)
  emit line .wrap r mark

/-! ### Nodes -/

mutual

/-- The pass of a node. -/
def node (dest : Option UInt32) : Node → Pass Unit
  | ⟨tag, text?, children, line⟩ =>
    let text := text?.getD ""
    let part := child tag line (parts children)
    match tag with
    | .block => do
      expectVoid tag line dest
      sequence (parts children)
    | .literalText => do
      expectVoid tag line dest
      emitFrom line .appendText (.str text) 0
    | .output => do
      expectVoid tag line dest
      match children with
      | [] => unsupported tag line (.missingChild 0)
      | value :: _ =>
        if value.tag = .assignment then node none value
        else output line fun dest => node dest value
    | .integer => do
      let d ← valueDest tag line dest
      match Decimal.integer? text with
      | some n => loadInteger line d n
      | none => unsupported tag line (.badInteger text)
    | .double => do
      let d ← valueDest tag line dest
      match Decimal.double? text with
      | some bits => emitTo line .loadConst d (.float bits)
      | none => unsupported tag line (.badDouble text)
    | .string => do emitTo line .loadConst (← valueDest tag line dest) (.str text)
    | .yes => do emit line .loadTrue (← valueDest tag line dest) 0
    | .no => do emit line .loadFalse (← valueDest tag line dest) 0
    | .nothing => do emit line .loadNull (← valueDest tag line dest) 0
    | .ident | .dollarVar => do loadVariable line (← valueDest tag line dest) text
    | .loopCount => do emit line .loopCount (← valueDest tag line dest) 0
    | .loopIndex => do emit line .loopIndex (← valueDest tag line dest) 0
    | .loopHasNext => do emit line .loopHasNext (← valueDest tag line dest) 0
    | .andAnd => logical line .jumpIfFalse (part 0) (part 1) dest
    | .orOr => logical line .jumpIfTrue (part 0) (part 1) dest
    | .negation => unary line .not (part 0) dest
    | .array => container tag line .array children.length (parts children) dest
    | .map =>
      if children.length % 2 = 0 then
        container tag line .map (children.length / 2) (pairs children) dest
      else do
        let _ ← valueDest tag line dest
        unsupported tag line .unpairedMap
    | .call =>
      match children with
      | [] => unsupported tag line (.missingChild 0)
      | ⟨calleeTag, name?, names, calleeLine⟩ :: args =>
        if calleeTag = .ident then callName calleeLine line (name?.getD "") (parts args) dest
        else if calleeTag = .member then
          callMember line calleeLine names (parts names) (parts args) dest
        else unsupported tag line (.notCallable calleeTag)
    | .assignment =>
      match children with
      | [] => unsupported tag line (.missingChild 0)
      | target :: _ => assign line target.text (part 1) dest
    | .choice => choice line (part 0) (part 1) (parts children)[2]? dest
    | .switch => do
      expectVoid tag line dest
      match children with
      | [] => switch (part 0) []
      | _ :: cases => switch (part 0) (arms cases)
    | .foreach => do
      expectVoid tag line dest
      match children with
      | [] => unsupported tag line (.missingChild 0)
      | var :: _ => foreach line var.text (part 1) (part 2)
    | .loop => do
      expectVoid tag line dest
      loop line (part 0) (part 1)
    | .last => do
      expectVoid tag line dest
      leave tag line fun label => { last := [label] }
    | .next => do
      expectVoid tag line dest
      leave tag line fun label => { next := [label] }
    | .inclusion => do
      expectVoid tag line dest
      match children with
      | [] => inclusion tag line (part 0) []
      | _ :: bindings => inclusion tag line (part 0) (pairs bindings)
    | .wrapper => do
      expectVoid tag line dest
      wrapper line (part 0) (part 1)
    | .arm => unsupported tag line .armOutsideSwitch
    | tag =>
      match BinaryOp.ofTag? tag with
      | some op => binary line op.opcode (part 0) (part 1) dest
      | none => unsupported tag line .statementAsValue

/-- The passes of nodes. -/
def parts : List Node → List Part
  | [] => []
  | n :: rest => (fun dest => node dest n) :: parts rest

/-- The passes of keys and values that take turns; a key that is a bare name stands for that
name. -/
def pairs : List Node → List Part
  | [] => []
  | [key] => [fun dest => node dest key]
  | key :: value :: rest =>
    (if key.tag = .ident then fun dest => do
        emitTo key.line .loadConst (← valueDest key.tag key.line dest) (.str key.text)
      else fun dest => node dest key) :: (fun dest => node dest value) :: pairs rest

/-- The arms of a switch. -/
def arms : List Node → List (UInt32 → UInt32 → Pass Nat)
  | [] => []
  | ⟨tag, _, children, line⟩ :: rest => arm tag line (parts children) :: arms rest

end

/-- The program of a tree. -/
def program (tree : Node) (source : Source) : Except CompileError Program :=
  let pass : Pass Nat := do
    node none tree
    doing (Assembly.emit .finish 0 0)
  match pass.run {} with
  | (.ok _, c) => .ok (c.build source)
  | (.error e, _) => .error e

end Compiler

end Stencil
