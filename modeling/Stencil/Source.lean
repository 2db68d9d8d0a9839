import Stencil.Text.Basic

/-!
# Sources of templates

Where a template came from: a text that is at hand, a file that can be read again, or nowhere in
particular. Messages name the source and show the lines around the one they speak of.

* `Source.name`: the name that messages show;
* `Source.lines`: the lines of the source, where `read` gives the contents of files;
* `Source.context`: the lines around one line.
-/

namespace Stencil

/-- Where a template came from. -/
inductive Source
  | text (s : String)
  | file (path : String)
  | anonymous
  deriving DecidableEq, Inhabited

namespace Source

/-- The name that messages show: the path of a file, otherwise a dash. -/
def name : Source → String
  | file path => path
  | _ => "-"

/-- The lines of the source, as far as they are at hand. -/
def lines (read : String → Option String) : Source → Option (List String)
  | text s => some (Text.lines s)
  | file path => (read path).map Text.lines
  | anonymous => none

/-- How many lines are shown on each side. -/
def radius : Nat := 3

/-- The lines around the line at position `target`, which is marked with a star. -/
def around (lines : List String) (target : Nat) : String :=
  let start := target - radius
  let shown := (lines.take (target + radius + 1)).drop start
  String.join (shown.mapIdx fun i line =>
    (if start + i = target then "* " else "  ") ++ line ++ "\n")

/-- The lines around a line; lines are counted from one. -/
def context (read : String → Option String) (source : Source) (line : UInt32) : Option String := do
  let lines ← source.lines read
  guard (1 ≤ line.toNat ∧ line.toNat ≤ lines.length)
  return around lines (line.toNat - 1)

end Source

example : (Source.text "a\nb\nc\nd\ne\nf\ng\nh").context (fun _ => none) 5
    = some "  b\n  c\n  d\n* e\n  f\n  g\n  h\n" := by decide +kernel

end Stencil
