import Stencil.Trace.Recording
import Stencil.Text.Basic

/-!
# Logs

The steps of a render as lines of text, up to a given number of instructions, and warnings among
them.

* `Log`: how far a log has come;
* `Log.lines`: the lines of a step, and the log after it;
* `Warning.text`: the line of a warning;
* `logOf`: the lines of a record.
-/

namespace Stencil

/-- How far a log of steps has come. -/
structure Log where
  /-- After how many instructions the log ends, if it does. -/
  limit : Option Nat := none
  count : Nat := 0
  stopped : Bool := false
  deriving DecidableEq

/-- The line of a step. -/
def Event.line : Event → String
  | .instruction pc op loops =>
    let number := Text.padLeft 5 ' ' (toString pc)
    let name := Text.padRight 15 ' ' op.name
    s!"[{number}] {name} loops={loops}\n"
  | .enter name depth =>
    let name := Text.padRight 20 ' ' name
    s!"  >>> ENTER {name} depth={depth}\n"
  | .leave depth => s!"  <<< LEAVE                depth={depth}\n"
  | .loopPush depth => s!"  +++ LOOP                 depth={depth}\n"
  | .loopPop depth => s!"  --- LOOP END             depth={depth}\n"
  | .warning caution => s!"  !!! {caution.message}\n"

/-- The line that ends a limited log. -/
def Log.endLine (limit : Nat) : String := s!"--- trace limit reached ({limit} instructions) ---\n"

/-- The log after another instruction, and the line that ends it if it ends. -/
def Log.tick (l : Log) : List String × Log :=
  let count := l.count + 1
  match l.limit with
  | none => ([], { l with count })
  | some n =>
    if n ≤ count then ([Log.endLine n], { l with count, stopped := true })
    else ([], { l with count })

/-- The lines of a step, and the log after it. -/
def Log.lines (l : Log) (e : Event) : List String × Log :=
  if l.stopped then ([], l)
  else
    match e with
    | .instruction .. =>
      let (ending, l) := l.tick
      (e.line :: ending, l)
    | _ => ([e.line], l)

/-- The lines of all steps. -/
def Log.allLines : Log → List Event → List String
  | _, [] => []
  | l, e :: rest =>
    let (lines, l) := l.lines e
    lines ++ allLines l rest

/-- The line of a warning. -/
def Warning.text (w : Warning) : String :=
  s!"warning: {w.caution.message} at {w.name}:{w.line.toNat}\n"

/-- The lines of a record: those of its warnings if they go into the log, and those of its steps if
there is a log of them. -/
def logOf (sink : WarningSink) : Option Log → List Entry → List String
  | _, [] => []
  | log, .notice w :: rest => (if sink = .log then [w.text] else []) ++ logOf sink log rest
  | none, _ :: rest => logOf sink none rest
  | some l, .event e :: rest =>
    let (lines, l) := l.lines e
    lines ++ logOf sink (some l) rest
  | some l, .call .. :: rest => logOf sink (some l) rest

end Stencil
