import Stencil.Machine.Action

/-!
# Steps

* `Frame.perform`: carries out an action on a frame and the world around it;
* `Frame.step`: one instruction, put on record, read as an action and carried out;
* `Step`: what a step leads to. A template inside another one is not rendered here: the step asks
  for it, and `Frame.resume` goes on with its output.
-/

namespace Stencil

/-- What becomes of the output of a template inside another one. -/
inductive Resume
  /-- It is the value of a register. -/
  | intoRegister (r : Nat)
  /-- It follows a text and is the output with it. -/
  | behind (s : String)

/-- What a step leads to. -/
inductive Step (σ : Type)
  | next (f : Frame) (w : World σ)
  | finish (output : String) (w : World σ)
  | fault (fault : Fault) (program : Program) (pc : Nat) (w : World σ)
  /-- A template has to be rendered first. If it has variables of its own, those of the frame are
  kept in `kept` meanwhile. -/
  | render (program : Program) (kept : Option Vars) (f : Frame) (resume : Resume) (w : World σ)

namespace Frame
variable {σ : Type}

/-- Goes on with the output of a template inside this one. -/
def resume (ctx : Context σ) (f : Frame) (output : String) : Resume → Frame
  | .intoRegister r =>
    (f.put r (if ctx.limits.rawInclusions then .raw output else .str output)).advance
  | .behind s => ({ f with output := s ++ output }).advance

/-- Adds a value to the output: raw text as it is, the placeholder for null, and any other text
escaped. -/
def appendValue (ctx : Context σ) (f : Frame) (w : World σ) : Value → Frame × World σ
  | .null => (f.write ctx.limits.placeholder, w.warn f.program f.pc .nullOutput)
  | .raw s => (f.write s, w)
  | v => (f.write (ctx.escape v.text), w)

/-- Stops with a fault. -/
def stop (f : Frame) (w : World σ) (fault : Fault) : Step σ := .fault fault f.program f.pc w

/-- The fault of going one template deeper, if that is too deep. -/
def tooDeep? (limits : Limits) (f : Frame) : Option Fault :=
  match limits.depth with
  | none => none
  | some most => if most ≤ f.depth then some (.limit most) else none

/-- Asks for a template inside this one. It has the same variables, or those of `scope`. -/
def descend (ctx : Context σ) (f : Frame) (w : World σ) (program : Program)
    (scope : Option Vars) (resume : Resume) : Step σ :=
  match f.tooDeep? ctx.limits with
  | some fault => f.stop w fault
  | none =>
    match scope with
    | none => .render program none f resume w
    | some vars => .render program (some w.vars) f resume { w with vars }

/-- Loads a template and goes on with its program. -/
def load (ctx : Context σ) (f : Frame) (w : World σ) (name : String)
    (go : Program → World σ → Step σ) : Step σ :=
  match ctx.load name w.loader with
  | (.ok program, loader) => go program { w with loader }
  | (.error e, loader) => f.stop { w with loader } (.load (.load e))

/-- Carries out an action. -/
def perform (ctx : Context σ) (f : Frame) (w : World σ) : Action → Step σ
  | .store cautions r v =>
    let w := w.warnAll f.program f.pc cautions
    .next (f.put r v).advance w
  | .write s => .next (f.write s).advance w
  | .append v =>
    let (f, w) := f.appendValue ctx w v
    .next f.advance w
  | .assign name v => .next f.advance { w with vars := w.vars.set name v }
  | .skip => .next f.advance w
  | .goto pc => .next (f.goto pc) w
  | .enter r first rest =>
    let loops := ⟨0, rest⟩ :: f.loops
    .next ({ f.put r first with loops }).advance (w.note (.loopPush loops.length))
  | .next r item record pc =>
    .next (({ f.put r item with loops := record :: f.loops.tail }).goto pc) w
  | .exhaust record => .next ({ f with loops := record :: f.loops.tail }).advance w
  | .leave =>
    let w := w.note (.loopPop f.loops.length)
    .next ({ f with loops := f.loops.tail }).advance w
  | .call r name function args =>
    let w := w.record (.call name args)
    match function args with
    | .ok v => .next (f.put r v).advance w
    | .error message => f.stop w (.function name message)
  | .inclusion r name =>
    f.load ctx w name fun program w => f.descend ctx w program none (.intoRegister r)
  | .inclusionWith r bindings name =>
    f.load ctx w name fun program w =>
      match f.register bindings with
      | .ok (.map extra) =>
        f.descend ctx w program (some (w.vars.setAll extra)) (.intoRegister r)
      | .ok _ => f.stop w (.internal .bindings)
      | .error fault => f.stop w fault
  | .wrap name before content =>
    f.load ctx w name fun program w =>
      f.descend ctx w program (some (w.vars.set "content" (.raw content))) (.behind before)
  | .finish => .finish f.output w

/-- One instruction. -/
def step (ctx : Context σ) (f : Frame) (w : World σ) : Step σ :=
  match f.program.instructions[f.pc]? with
  | none => f.stop w (.internal (.pastEnd f.pc))
  | some i =>
    let w := w.note (.instruction f.pc i.op f.loops.length)
    match f.action ctx.hosts ctx.functions w.vars i with
    | .ok action => f.perform ctx w action
    | .error fault => f.stop w fault

end Frame

end Stencil
