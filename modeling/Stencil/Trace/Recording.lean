import Stencil.Machine.World

/-!
# Recordings

The record of a render holds steps, warnings and calls together; here it is taken apart. A recorder
sees the steps one by one and keeps as many of them as it has room for.

* `Entry.event?`, `Entry.notice?`, `Entry.call?`: the parts of a record;
* `WarningSink`, `WarningSink.collected`: what becomes of warnings;
* `Recorder`, `Recorder.see`, `Recorder.watch`: an observer that keeps steps.
-/

namespace Stencil

/-- The step behind an entry. -/
def Entry.event? : Entry → Option Event
  | event e => some e
  | _ => none

/-- The warning behind an entry. -/
def Entry.notice? : Entry → Option Warning
  | notice w => some w
  | _ => none

/-- The call behind an entry. -/
def Entry.call? : Entry → Option (String × List Value)
  | call name args => some (name, args)
  | _ => none

/-- What becomes of warnings. -/
inductive WarningSink
  /-- They are kept for the caller. -/
  | collect
  | ignore
  /-- They are written into the log. -/
  | log
  deriving DecidableEq

/-- The warnings that are kept for the caller. -/
def WarningSink.collected (sink : WarningSink) (entries : List Entry) : List Warning :=
  match sink with
  | .collect => entries.filterMap Entry.notice?
  | _ => []

/-- An observer that keeps steps. -/
structure Recorder where
  /-- How many steps it has room for, if there is a bound. -/
  limit : Option Nat := none
  /-- The steps it keeps, the oldest first. -/
  events : Array Event := #[]

namespace Recorder

/-- Is there no room for another step? -/
def isFull (r : Recorder) : Bool :=
  match r.limit with
  | none => false
  | some n => n ≤ r.events.size

/-- The recorder after another step. -/
def see (r : Recorder) (e : Event) : Recorder :=
  if r.isFull then r else { r with events := r.events.push e }

/-- The recorder after steps in a row. -/
def watch (r : Recorder) (events : List Event) : Recorder := events.foldl see r

end Recorder

end Stencil
