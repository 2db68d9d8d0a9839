import Stencil.Proofs.Meaning

/-!
# Evaluating templates

A tree is evaluated node by node, and so are the statements and expressions that it is read as.

* `Node.eval`, `Node.part`: the value of a node, and what a node does where no value is needed;
* `Library.render`: the output of a template;
* `Expr.eval`, `Stmt.part`: the same of expressions and statements.
-/

namespace Stencil

variable {σ : Type}

/-! ### Trees -/

mutual

/-- The value of a node. Nodes that cannot be compiled are null. -/
def Node.eval (site : Site σ) (env : Env) : Node → Act σ Value
  | ⟨tag, text?, children, line⟩ =>
    let text := text?.getD ""
    match tag with
    | .integer => return ((Decimal.integer? text).map Value.int).getD .null
    | .double => return ((Decimal.double? text).map fun x => .float (Float.ofBits x)).getD .null
    | .string => return .str text
    | .yes => return .bool true
    | .no => return .bool false
    | .nothing => return .null
    | .ident | .dollarVar => env.read text
    | .loopCount => site.fact line env .count
    | .loopIndex => site.fact line env .index
    | .loopHasNext => site.fact line env .hasNext
    | .andAnd =>
      match children with
      | left :: right :: _ => do
        let v ← left.eval site env
        if v.isTruthy then right.eval site env else return v
      | _ => return .null
    | .orOr =>
      match children with
      | left :: right :: _ => do
        let v ← left.eval site env
        if v.isTruthy then return v else right.eval site env
      | _ => return .null
    | .negation =>
      match children with
      | operand :: _ => do return .bool !(← operand.eval site env).isTruthy
      | _ => return .null
    | .array => do return .array (← Node.evalAll site env children)
    | .map => do site.settle line (mapOfPairs (← Node.evalPairs site env children))
    | .choice =>
      match children with
      | [test, yes] => do
        if (← test.eval site env).isTruthy then yes.eval site env else return .null
      | test :: yes :: no :: _ => do
        if (← test.eval site env).isTruthy then yes.eval site env else no.eval site env
      | _ => return .null
    | .assignment =>
      match children with
      | target :: value :: _ => do
        let v ← value.eval site env
        Act.assign target.text v
        return v
      | _ => return .null
    | .call =>
      match children with
      | ⟨.ident, name?, _, nameLine⟩ :: args =>
        let name := name?.getD ""
        match TextOp.ofName? name, args with
        | some op, arg :: _ => do return op.apply (← arg.eval site env)
        | some _, [] => return .null
        | none, args =>
          if name = "sprintf" then
            match args with
            | [] => return .null
            | template :: args => do
              let v ← template.eval site env
              site.settle nameLine (formatOf v (← Node.evalAll site env args))
          else do site.call line name (← Node.evalAll site env args)
      | ⟨.member, _, object :: key :: _, _⟩ :: args => do
        let v ← object.eval site env
        site.method line v key.text (← Node.evalAll site env args)
      | _ => return .null
    | tag =>
      match BinaryOp.ofTag? tag, children with
      | some op, left :: right :: _ => do
        let v ← left.eval site env
        site.settle line (op.apply site.ctx.hosts v (← right.eval site env))
      | _, _ => return .null

/-- The values of nodes, from left to right. -/
def Node.evalAll (site : Site σ) (env : Env) : List Node → Act σ (List Value)
  | [] => return []
  | n :: rest => do
    let v ← n.eval site env
    return v :: (← Node.evalAll site env rest)

/-- The values of keys and values that take turns; a key that is a bare name stands for that
name. -/
def Node.evalPairs (site : Site σ) (env : Env) : List Node → Act σ (List Value)
  | key :: value :: rest => do
    let k ← if key.tag = .ident then pure (.str key.text) else key.eval site env
    let v ← value.eval site env
    return k :: v :: (← Node.evalPairs site env rest)
  | _ => return []

end

mutual

/-- What a node does where no value is needed. Nodes that cannot be compiled do nothing. -/
def Node.part (site : Site σ) : Node → Env → Part σ
  | ⟨tag, text?, children, line⟩, env =>
    match tag with
    | .block => Node.parts site children env
    | .literalText => fun _ => return ⟨text?.getD "", .on⟩
    | .output =>
      match children with
      | value :: _ => fun _ => do
        let v ← value.eval site env
        if value.tag = .assignment then return ⟨"", .on⟩ else site.write line v
      | _ => .nothing
    | .choice =>
      match children with
      | [test, yes] => fun written => do
        if (← test.eval site env).isTruthy then yes.part site env written else Part.nothing written
      | test :: yes :: no :: _ => fun written => do
        if (← test.eval site env).isTruthy then yes.part site env written
        else no.part site env written
      | _ => .nothing
    | .switch =>
      match children with
      | subject :: arms => fun written => do
        let v ← subject.eval site env
        Node.armParts site v arms env written
      | _ => .nothing
    | .foreach =>
      match children with
      | var :: source :: body :: _ => fun written => do
        let items ← site.items line (← source.eval site env)
        Part.along (fun item record => body.part site (env.enter var.text item record)) 0 items
          written
      | _ => .nothing
    | .loop =>
      match children with
      | test :: body :: _ => Part.loop (test.eval site env) (body.part site env) site.fuel
      | _ => .nothing
    | .last => fun _ => return ⟨"", .last⟩
    | .next => fun _ => return ⟨"", .next⟩
    | .inclusion =>
      match children with
      | [path] => fun _ => do site.inclusion line (← path.eval site env)
      | path :: bindings => fun _ => do
        let v ← path.eval site env
        site.inclusionWith line v (← Node.evalPairs site env bindings)
      | _ => .nothing
    | .wrapper =>
      match children with
      | path :: body :: _ => site.wrap line (path.eval site env) (body.part site env)
      | _ => .nothing
    | _ => fun _ => do
      let _ ← Node.eval site env ⟨tag, text?, children, line⟩
      return ⟨"", .on⟩

/-- What nodes do, one after the other. -/
def Node.parts (site : Site σ) : List Node → Env → Part σ
  | [], _ => .nothing
  | n :: rest, env => (n.part site env).andThen (Node.parts site rest env)

/-- What the arms of a switch do: the first one does that is equal to the subject or has no
condition. -/
def Node.armParts (site : Site σ) (subject : Value) : List Node → Env → Part σ
  | [], _ => .nothing
  | ⟨_, _, parts, _⟩ :: rest, env =>
    match parts with
    | [value, body] => fun written => do
      if subject.eq (← value.eval site env) then body.part site env written
      else Node.armParts site subject rest env written
    | [body] => body.part site env
    | _ => .nothing

end

/-- The output of a template at a depth, with loops and templates inside one another bounded by
`fuel`. -/
def Library.render (ctx : Context σ) (library : Library σ) :
    (fuel : Nat) → Template → (depth : Nat) → Act σ String
  | 0, _, _ => fun _ => none
  | fuel + 1, t, depth => do
    let p ← t.tree.part
      ⟨ctx, library, Library.render ctx library fuel, t.source, depth, fuel + 1⟩ {} 0
    return p.text

/-! ### Expressions and statements -/

mutual

/-- The value of an expression. -/
def Expr.eval (site : Site σ) (env : Env) : Expr → Act σ Value
  | .null _ => return .null
  | .bool b _ => return .bool b
  | .int n _ => return .int n
  | .float bits _ => return .float (Float.ofBits bits)
  | .str s _ => return .str s
  | .var name _ => env.read name
  | .loopFact fact line => site.fact line env fact
  | .binary op left right line => do
    let v ← left.eval site env
    site.settle line (op.apply site.ctx.hosts v (← right.eval site env))
  | .and left right _ => do
    let v ← left.eval site env
    if v.isTruthy then right.eval site env else return v
  | .or left right _ => do
    let v ← left.eval site env
    if v.isTruthy then return v else right.eval site env
  | .not operand _ => do return .bool !(← operand.eval site env).isTruthy
  | .array items _ => do return .array (← Expr.evalAll site env items)
  | .map pairs line => do site.settle line (mapOfPairs (← Expr.evalAll site env pairs))
  | .choice test yes no _ => do
    if (← test.eval site env).isTruthy then yes.eval site env else no.eval site env
  | .assign name value _ => do
    let v ← value.eval site env
    Act.assign name v
    return v
  | .textCall op arg _ => do return op.apply (← arg.eval site env)
  | .format template args nameLine _ => do
    let v ← template.eval site env
    site.settle nameLine (formatOf v (← Expr.evalAll site env args))
  | .call name args _ line => do site.call line name (← Expr.evalAll site env args)
  | .method object name args _ line => do
    let v ← object.eval site env
    site.method line v name (← Expr.evalAll site env args)

/-- The values of expressions, from left to right. -/
def Expr.evalAll (site : Site σ) (env : Env) : List Expr → Act σ (List Value)
  | [] => return []
  | e :: rest => do
    let v ← e.eval site env
    return v :: (← Expr.evalAll site env rest)

end

mutual

/-- What a statement does. -/
def Stmt.part (site : Site σ) : Stmt → Env → Part σ
  | .block body, env => Stmt.parts site body env
  | .text s _, _ => fun _ => return ⟨s, .on⟩
  | .output value line, env => fun _ => do site.write line (← value.eval site env)
  | .eval e, env => fun _ => do
    let _ ← e.eval site env
    return ⟨"", .on⟩
  | .when test body _, env => fun written => do
    if (← test.eval site env).isTruthy then body.part site env written else Part.nothing written
  | .choice test yes no _, env => fun written => do
    if (← test.eval site env).isTruthy then yes.part site env written
    else no.part site env written
  | .switch subject arms, env => fun written => do
    let v ← subject.eval site env
    Arm.parts site v arms env written
  | .foreach var source body line, env => fun written => do
    let items ← site.items line (← source.eval site env)
    Part.along (fun item record => body.part site (env.enter var item record)) 0 items written
  | .loop test body _, env => Part.loop (test.eval site env) (body.part site env) site.fuel
  | .last _, _ => fun _ => return ⟨"", .last⟩
  | .next _, _ => fun _ => return ⟨"", .next⟩
  | .inclusion path line, env => fun _ => do site.inclusion line (← path.eval site env)
  | .inclusionWith path bindings line, env => fun _ => do
    let v ← path.eval site env
    site.inclusionWith line v (← Expr.evalAll site env bindings)
  | .wrapper path body line, env => site.wrap line (path.eval site env) (body.part site env)

/-- What statements do, one after the other. -/
def Stmt.parts (site : Site σ) : List Stmt → Env → Part σ
  | [], _ => .nothing
  | s :: rest, env => (s.part site env).andThen (Stmt.parts site rest env)

/-- What the arms of a switch do. -/
def Arm.parts (site : Site σ) (subject : Value) : List Arm → Env → Part σ
  | [], _ => .nothing
  | .test value body _ :: rest, env => fun written => do
    if subject.eq (← value.eval site env) then body.part site env written
    else Arm.parts site subject rest env written
  | .always body _ :: _, env => body.part site env

end

end Stencil
