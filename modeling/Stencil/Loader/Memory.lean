import Stencil.Template.Code
import Stencil.Loader.Error
import Stencil.Bindings

/-!
# Templates in memory

Trees under names, compiled when they are first asked for and kept until another tree takes the
name.

* `Compiled`: a program with a number that tells it from every other program made before;
* `MemoryLoader.insert`, `MemoryLoader.load`: giving and asking;
* `MemoryLoader.compiledCount`: how many programs are kept.
-/

namespace Stencil

/-- A program that a loader made; the serial number tells it from all others that it made. -/
structure Compiled where
  serial : Nat
  program : Program
  deriving DecidableEq

/-- Trees under names, and the programs made from them so far. -/
structure MemoryLoader where
  trees : Bindings (Node × Source) := []
  compiled : Bindings Compiled := []
  /-- How many programs have been made. -/
  serial : Nat := 0

namespace MemoryLoader

/-- Gives a name a tree. A program made from an earlier tree is dropped. -/
def insert (l : MemoryLoader) (name : String) (tree : Node) (source : Source) : MemoryLoader :=
  { l with trees := l.trees.set name (tree, source), compiled := l.compiled.erase name }

/-- The program of a name. -/
def load (name : String) (l : MemoryLoader) : Except LoadError Compiled × MemoryLoader :=
  match l.compiled.get? name with
  | some c => (.ok c, l)
  | none =>
    match l.trees.get? name with
    | none => (.error (.notFound name []), l)
    | some (tree, source) =>
      match Program.compile tree source with
      | .error e => (.error (.compile name e), l)
      | .ok program =>
        let c : Compiled := ⟨l.serial, program⟩
        (.ok c, { l with compiled := l.compiled.set name c, serial := l.serial + 1 })

/-- How many programs are kept. -/
def compiledCount (l : MemoryLoader) : Nat := l.compiled.length

end MemoryLoader

/-- Without templates, no name has a program. -/
def noTemplates {σ : Type} (name : String) (s : σ) : Except LoadError Program × σ :=
  (.error (.notFound name []), s)

end Stencil
