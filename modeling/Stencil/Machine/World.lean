import Stencil.Host
import Stencil.Machine.Fault

/-!
# What a render works with

* `Caution`: what a render passes over although it may be a mistake in the template; the one who
  renders is warned;
* `Limits`: the limits of a render;
* `Context`: what stays the same during a render: escaping, host types, functions, limits, loader;
* `Event`, `Warning`, `Entry`: what is put on record;
* `World`: what changes during a render and outlives it: variables, the state of the loader, and
  the record.
-/

namespace Stencil

/-- What a render passes over although it may be a mistake. -/
inductive Caution
  /-- Null is an operand of a concatenation. -/
  | nullOperand
  /-- Null is the key of a member of a map. -/
  | nullKey
  /-- A member of null is asked for. -/
  | nullContainer
  /-- Null is written out. -/
  | nullOutput
  | unknownFunction (name : String)
  deriving DecidableEq

/-- The text of a caution. -/
def Caution.message : Caution → String
  | nullOperand => "null in string concatenation."
  | nullKey => "attr is null"
  | nullContainer => "container is null"
  | nullOutput => "Appending null"
  | unknownFunction name => s!"Unknown function: {name}"

/-- The limits of a render. -/
structure Limits where
  /-- How deep templates may be nested, if there is a bound. -/
  depth : Option Nat := some 64
  /-- What is written in place of null. -/
  placeholder : String := "(null)"
  /-- Is the output of an included template written without escaping it again? -/
  rawInclusions : Bool := false
  deriving DecidableEq, Inhabited

/-- What stays the same during a render. The loader is a function on its state `σ`. -/
structure Context (σ : Type) where
  escape : String → String := id
  hosts : HostTypes := []
  functions : Functions := []
  limits : Limits := {}
  load : String → σ → Except LoadError Program × σ

/-- What can be observed of the steps of a render. -/
inductive Event
  | instruction (pc : Nat) (op : Opcode) (loops : Nat)
  | enter (name : String) (depth : Nat)
  | leave (depth : Nat)
  | loopPush (depth : Nat)
  | loopPop (depth : Nat)
  | warning (caution : Caution)
  deriving DecidableEq

/-- A caution and the line of the template that it is about. -/
structure Warning where
  caution : Caution
  name : String
  line : UInt32
  deriving DecidableEq

/-- An entry of the record of a render. -/
inductive Entry
  | event (e : Event)
  | notice (w : Warning)
  | call (name : String) (args : List Value)

/-- What changes during a render and outlives it. -/
structure World (σ : Type) where
  vars : Vars := []
  loader : σ
  /-- The record, the oldest entry first. -/
  entries : Array Entry := #[]

namespace World
variable {σ : Type}

/-- Puts an entry on record. -/
def record (w : World σ) (e : Entry) : World σ := { w with entries := w.entries.push e }

/-- Puts a step on record. -/
def note (w : World σ) (e : Event) : World σ := w.record (.event e)

/-- Gives a warning about the instruction `pc` of a program: to the reader of warnings first, then
to the observer of steps. -/
def warn (w : World σ) (p : Program) (pc : Nat) (caution : Caution) : World σ :=
  (w.record (.notice ⟨caution, p.source.name, p.lineAt pc⟩)).note (.warning caution)

/-- Gives warnings in order. -/
def warnAll (w : World σ) (p : Program) (pc : Nat) (cautions : List Caution) : World σ :=
  cautions.foldl (fun w caution => w.warn p pc caution) w

end World

end Stencil
