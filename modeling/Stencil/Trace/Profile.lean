import Stencil.Machine.World
import Stencil.Decimal.Layout
import Stencil.Text.Basic

/-!
# Profiles

A profile counts what happened in a render: how often each operation was carried out, how many
templates were rendered, how deep they and their loops were nested, and how many warnings there
were. A profiler sees the steps one by one; its profile lists the most frequent operations first.

* `Profiler`, `Profiler.see`: an observer that counts steps;
* `Profile`, `Profiler.profile`: the counts in order;
* `Profile.ofEvents`: the profile of a list of steps;
* `Profile.report`: its text.
-/

namespace Stencil

/-- What happened in a render, counted. -/
structure Profile where
  /-- The operations that were carried out, the most frequent first, then by name. -/
  opcodes : List (Opcode × Nat)
  instructions : Nat
  templates : Nat
  depth : Nat
  loopDepth : Nat
  warnings : Nat
  deriving DecidableEq

/-- An observer that counts steps. -/
structure Profiler where
  /-- How often each operation was carried out so far, in the order in which they first came. -/
  opcodes : List (Opcode × Nat) := []
  instructions : Nat := 0
  templates : Nat := 0
  depth : Nat := 0
  loopDepth : Nat := 0
  warnings : Nat := 0
  deriving DecidableEq

namespace Profiler

/-- Counts an operation once more. -/
def tally (op : Opcode) : List (Opcode × Nat) → List (Opcode × Nat)
  | [] => [(op, 1)]
  | (seen, n) :: rest => if seen = op then (seen, n + 1) :: rest else (seen, n) :: tally op rest

/-- The profiler after another step. -/
def see (p : Profiler) : Event → Profiler
  | .instruction _ op _ =>
    { p with opcodes := tally op p.opcodes, instructions := p.instructions + 1 }
  | .enter _ depth => { p with templates := p.templates + 1, depth := max p.depth depth }
  | .loopPush depth => { p with loopDepth := max p.loopDepth depth }
  | .warning _ => { p with warnings := p.warnings + 1 }
  | .leave _ | .loopPop _ => p

/-- The profiler after steps in a row. -/
def watch (p : Profiler) (events : List Event) : Profiler := events.foldl see p

/-- Does a count come before another one: is it higher, or does its name come first? -/
def precedes (a b : Opcode × Nat) : Bool :=
  b.2 < a.2 || (a.2 == b.2 && a.1.name ≤ b.1.name)

/-- The counts in order. -/
def profile (p : Profiler) : Profile where
  opcodes := p.opcodes.mergeSort precedes
  instructions := p.instructions
  templates := p.templates
  depth := p.depth
  loopDepth := p.loopDepth
  warnings := p.warnings

end Profiler

namespace Profile

/-- The profile of a list of steps. -/
def ofEvents (events : List Event) : Profile := (({} : Profiler).watch events).profile

/-- A part of a whole in hundredths, with one place. -/
def percentage (part whole : Nat) : String :=
  match Decimal.Magnitude.ofBits (Float.ofNat part / Float.ofNat whole * 100).toBits with
  | .finite x => x.fixed 1
  | _ => "NaN"

/-- The line of an operation. -/
def opcodeLine (whole : Nat) (c : Opcode × Nat) : String :=
  let name := Text.padRight 20 ' ' c.1.name
  let count := Text.padLeft 10 ' ' (toString c.2)
  let share := Text.padLeft 5 ' ' (percentage c.2 whole)
  s!"  {name} {count}  ({share}%)\n"

/-- The text of a profile. -/
def report (p : Profile) : String :=
  "=== VM Profiling Report ===\n"
    ++ s!"Total instructions: {p.instructions}\n"
    ++ s!"Templates rendered: {p.templates}\n"
    ++ s!"Max include depth:  {p.depth}\n"
    ++ s!"Max loop depth:     {p.loopDepth}\n"
    ++ s!"Warnings:           {p.warnings}\n"
    ++ "\n--- Opcode Frequency ---\n"
    ++ String.join (p.opcodes.map (opcodeLine p.instructions))

end Profile

end Stencil
