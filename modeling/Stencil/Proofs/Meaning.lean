import Stencil.Machine.Step
import Stencil.Template.Code

/-!
# What the parts of a template mean

A template is rendered without any code: its expressions have values, and its statements write
passages of text. Nothing is put on record but warnings and calls.

* `Blame`, `Act`: a place at fault, and a part of a render that may end with some;
* `Passage`, `Part`: what a statement writes and how it ends, and a statement as an act;
* `Site`, `Env`: the template that a part belongs to, and the loops around the part;
* `BinaryOp.apply`, `Site.call`, `Site.write`, `Site.wrap`, …: the meaning of each construct.
-/

namespace Stencil

variable {σ α β : Type}

/-! ### Acts -/

/-- A fault, and the place in a template where it stopped a render. -/
structure Blame where
  fault : Fault
  source : Source
  line : UInt32
  deriving DecidableEq

/-- The blames of a template inside another one, which stands at the given place. -/
def Blame.under (source : Source) (line : UInt32) : List Blame → List Blame
  | [] => []
  | b :: rest => ⟨b.fault, source, line⟩ :: b :: rest

/-- A part of a render. It changes the world and has a result or places to blame, the outermost
first; nothing if it takes more rounds than allowed. -/
def Act (σ α : Type) := World σ → Option (Except (List Blame) α × World σ)

namespace Act

instance : Monad (Act σ) where
  pure a := fun w => some (.ok a, w)
  bind x k := fun w =>
    match x w with
    | none => none
    | some (.error blames, w) => some (.error blames, w)
    | some (.ok a, w) => k a w

instance : LawfulMonad (Act σ) :=
  LawfulMonad.mk' _
    (fun x => by
      funext w
      show (match x w with
        | none => none
        | some (.error blames, w) => some (.error blames, w)
        | some (.ok a, w) => some (.ok a, w)) = x w
      rcases x w with _ | ⟨_ | _, _⟩ <;> rfl)
    (fun _ _ => rfl)
    (fun x f g => by
      funext w
      simp only [bind]
      rcases x w with _ | ⟨_ | _, _⟩ <;> rfl)

theorem bind_of_none {x : Act σ α} {w : World σ} (h : x w = none) (k : α → Act σ β) :
    (x >>= k) w = none := by
  simp only [bind, h]

theorem bind_of_error {x : Act σ α} {w v : World σ} {blames : List Blame}
    (h : x w = some (.error blames, v)) (k : α → Act σ β) :
    (x >>= k) w = some (.error blames, v) := by
  simp only [bind, h]

theorem bind_of_ok {x : Act σ α} {w v : World σ} {a : α} (h : x w = some (.ok a, v))
    (k : α → Act σ β) : (x >>= k) w = k a v := by
  simp only [bind, h]

/-- The variables. -/
def vars : Act σ Vars := fun w => some (.ok w.vars, w)

/-- Assigns a variable. -/
def assign (name : String) (v : Value) : Act σ Unit :=
  fun w => some (.ok (), { w with vars := w.vars.set name v })

/-- Acts with variables of its own, and leaves the others as they were. -/
def apart (vars : Vars) (x : Act σ α) : Act σ α := fun w =>
  match x { w with vars } with
  | none => none
  | some (result, after) => some (result, { after with vars := w.vars })

end Act

/-! ### Passages -/

/-- Where a render goes on behind a statement. -/
inductive Flow
  /-- With the next statement. -/
  | on
  /-- Behind the innermost loop. -/
  | last
  /-- With the next round of the innermost loop. -/
  | next
  deriving DecidableEq

/-- The text that a statement writes, and where the render goes on. -/
structure Passage where
  text : String
  flow : Flow := .on

/-- The passage behind a text. -/
def Passage.behind (p : Passage) (s : String) : Passage := ⟨s ++ p.text, p.flow⟩

/-- A statement as an act, which is told how many bytes of output are before it. -/
abbrev Part (σ : Type) := Nat → Act σ Passage

namespace Part

/-- Writes nothing. -/
def nothing : Part σ := fun _ => return ⟨"", .on⟩

/-- One part after another, unless the first one leads elsewhere. -/
def andThen (x y : Part σ) : Part σ := fun written => do
  let p ← x written
  match p.flow with
  | .on => return (← y (written + p.text.utf8ByteSize)).behind p.text
  | _ => return p

/-- What happens behind a round of a loop. -/
def afterRound (p : Passage) (others : Part σ) : Part σ := fun written => do
  match p.flow with
  | .last => return ⟨p.text, .on⟩
  | _ => return (← others (written + p.text.utf8ByteSize)).behind p.text

/-- A loop along the items of a collection, the first of which has the given position. -/
def along (body : Value → LoopRecord → Part σ) : (index : Nat) → List Value → Part σ
  | _, [] => nothing
  | index, item :: rest => fun written => do
    let p ← body item ⟨index, rest⟩ written
    afterRound p (along body (index + 1) rest) written

/-- A loop with a test, in fewer rounds than `fuel`. -/
def loop (test : Act σ Value) (body : Part σ) : (fuel : Nat) → Part σ
  | 0 => fun _ _ => none
  | fuel + 1 => fun written => do
    if (← test).isTruthy then
      let p ← body written
      afterRound p (loop test body fuel) written
    else nothing written

end Part

/-! ### Sites -/

/-- A template before it is compiled. -/
structure Template where
  tree : Node
  source : Source

/-- A loader of templates, a function on its state. -/
abbrev Library (σ : Type) := String → σ → Except LoadError Template × σ

/-- The template that a part belongs to, and all that does not change while it is rendered. Other
templates come from the library and not from the loader of the context. -/
structure Site (σ : Type) where
  ctx : Context σ
  library : Library σ
  /-- The output of a template at a depth. -/
  enter : Template → (depth : Nat) → Act σ String
  source : Source
  depth : Nat
  /-- More rounds than a loop with a test may take. -/
  fuel : Nat

/-- The loops along collections around a part. -/
structure Env where
  /-- Their variables, the innermost first. -/
  locals : List (String × Value) := []
  /-- The state of the innermost one. -/
  loop : Option LoopRecord := none

/-- The value of a variable. The variables of loops hide others of the same name. -/
def Env.read (env : Env) (name : String) : Act σ Value := do
  match env.locals.lookup name with
  | some v => return v
  | none => return ((← Act.vars).get? name).getD .null

/-- The surroundings of the body of a loop. -/
def Env.enter (env : Env) (var : String) (item : Value) (record : LoopRecord) : Env :=
  ⟨(var, item) :: env.locals, some record⟩

/-- A value that comes without cautions, or a fault. -/
def plainly {ε : Type} (fault : ε → Fault) : Except ε Value → Except Fault (List Caution × Value)
  | .ok v => .ok ([], v)
  | .error e => .error (fault e)

/-- The value that an operator makes of two others. -/
def BinaryOp.apply (hosts : HostTypes) :
    BinaryOp → Value → Value → Except Fault (List Caution × Value)
  | .arith op, a, b => plainly (fun e => .type (.arith e)) (Value.arith op a b)
  | .concat, a, b => .ok (a.concat b)
  | .equals, a, b => .ok ([], .bool (a.eq b))
  | .notEquals, a, b => .ok ([], .bool !(a.eq b))
  | .order test, a, b =>
    plainly (fun e => .type (.order e)) ((Value.compare a b).map fun o => .bool (test.holds o))
  | .range, a, b => plainly (fun e => .type (.collection e)) (Value.range a b)
  | .member, a, b => Value.member hosts a b

/-- The value of a built-in function on texts; null stays null. -/
def TextOp.apply (op : TextOp) (v : Value) : Value :=
  if v.isNull then .null
  else
    match op with
    | .lower => .str (Text.lower v.text)
    | .upper => .str (Text.upper v.text)
    | .form => .str (Text.encodeForm v.text)

/-- The map of keys and values, which take turns. -/
def mapOfPairs (pairs : List Value) : Except Fault (List Caution × Value) :=
  plainly (fun e => .type (.collection e)) (Value.mapOf pairs)

/-- The text of a filled format. -/
def formatOf (template : Value) (args : List Value) : Except Fault (List Caution × Value) :=
  if template.isNull then .error (.type .nullFormat)
  else
    plainly (fun e => .type (.format e)) ((Format.format template.text args).map Value.str)

namespace Site

variable (site : Site σ) (line : UInt32)

/-- Stops with a fault. -/
def blame (fault : Fault) : Act σ α := fun w => some (.error [⟨fault, site.source, line⟩], w)

/-- Gives a warning. -/
def warn (w : World σ) (caution : Caution) : World σ :=
  w.record (.notice ⟨caution, site.source.name, line⟩)

/-- Gives warnings and goes on with a value, or stops. -/
def settle : Except Fault (List Caution × Value) → Act σ Value
  | .ok (cautions, v) => fun w => some (.ok v, cautions.foldl (site.warn line) w)
  | .error fault => site.blame line fault

/-- The answer to a question about the innermost loop. -/
def fact (env : Env) (fact : LoopFact) : Act σ Value :=
  match env.loop with
  | none => site.blame line (.type (.noLoop fact.opcode))
  | some l => site.settle line (plainly id (l.answer fact.opcode))

/-- Calls a function of the host application. -/
def call (name : String) (args : List Value) : Act σ Value :=
  match site.ctx.functions.get? name with
  | none => site.settle line (.ok ([.unknownFunction name], .null))
  | some function => fun w =>
    site.settle line (plainly (.function name) (function args)) (w.record (.call name args))

/-- Calls a method. -/
def method (target : Value) (name : String) (args : List Value) : Act σ Value :=
  site.settle line (plainly .member (target.answer site.ctx.hosts name args))

/-- What a loop over a value walks along. -/
def items (v : Value) : Act σ (List Value) :=
  match v.items site.ctx.hosts with
  | .ok items => return items
  | .error e => site.blame line (.type (.collection e))

/-- Writes a value: raw text as it is, the placeholder for null, and any other text escaped. -/
def write : Value → Act σ Passage
  | .null => fun w => some (.ok ⟨site.ctx.limits.placeholder, .on⟩, site.warn line w .nullOutput)
  | .raw s => return ⟨s, .on⟩
  | v => return ⟨site.ctx.escape v.text, .on⟩

/-! ### Other templates -/

/-- Asks the library for a template. -/
def fetch (name : String) : Act σ (Except LoadError Template) := fun w =>
  let (result, loader) := site.library name w.loader
  some (.ok result, { w with loader })

/-- The template that a value names. -/
def load (path : Value) : Act σ Template :=
  if path.isNull then site.blame line (.load .nullName)
  else do
    match ← site.fetch path.text with
    | .ok t => return t
    | .error e => site.blame line (.load (.load e))

/-- The fault of going one template deeper, if that is too deep. -/
def tooDeep? : Option Fault :=
  match site.ctx.limits.depth with
  | none => none
  | some most => if most ≤ site.depth then some (.limit most) else none

/-- The output of a template inside this one. -/
def visit (t : Template) : Act σ String :=
  match site.tooDeep? with
  | some fault => site.blame line fault
  | none => fun w =>
    match site.enter t (site.depth + 1) w with
    | none => none
    | some (result, w) => some (result.mapError (Blame.under site.source line), w)

/-- The output of the template that a value names. It is rendered with the same variables, or with
a copy of them that `scope` has changed. -/
def render (scope : Option (Vars → Vars)) (path : Value) : Act σ String := do
  let t ← site.load line path
  match scope with
  | none => site.visit line t
  | some change => do Act.apart (change (← Act.vars)) (site.visit line t)

/-- Writes the output of a template, escaped or not. -/
def writeOutput (output : String) : Act σ Passage :=
  site.write line (if site.ctx.limits.rawInclusions then .raw output else .str output)

/-- Another template in this place. -/
def inclusion (path : Value) : Act σ Passage := do
  site.writeOutput line (← site.render line none path)

/-- The same with a copy of the variables, extended by names and values, which take turns. -/
def inclusionWith (path : Value) (pairs : List Value) : Act σ Passage :=
  match Value.addPairs [] pairs with
  | .error e => site.blame line (.type (.collection e))
  | .ok extra => do site.writeOutput line (← site.render line (some (·.setAll extra)) path)

/-- Marks the end of the output, if its length is no more than a number can be. -/
def mark (written : Nat) : Act σ Unit := do
  let _ ← site.settle line (plainly id (measured written .outputTooLarge))

/-- A body inside another template, which finds the body's text in a copy of the variables. A body
that leads elsewhere leaves its text behind as it is. -/
def wrap (path : Act σ Value) (body : Part σ) : Part σ := fun written => do
  site.mark line written
  let p ← body written
  match p.flow with
  | .on => return ⟨← site.render line (some (·.set "content" (.raw p.text))) (← path), .on⟩
  | _ => return p

end Site

end Stencil
