import Stencil.Loader.Files

/-!
# Stores of templates

Templates can be found in memory, in files, or not at all. A store is any one of these.

* `TemplateStore`: the stores;
* `TemplateStore.load`, `TemplateStore.program`: the program of a name;
* `TemplateStore.keptCount`: how many programs are kept.
-/

namespace Stencil

/-- Where templates are found by their names. -/
inductive TemplateStore
  | none
  | memory (l : MemoryLoader)
  | files (l : FileLoader)

namespace TemplateStore

/-- The compiled template of a name. Files are those of `fs`, and `parser` reads them. -/
def load (fs : FileSystem) (parser : TemplateParser) (name : String) :
    TemplateStore → Except LoadError Compiled × TemplateStore
  | none => (.error (.notFound name []), none)
  | memory l =>
    let (result, l) := l.load name
    (result, memory l)
  | files l =>
    let (result, l) := l.load fs parser name
    (result, files l)

/-- The program of a name. -/
def program (fs : FileSystem) (parser : TemplateParser) (name : String)
    (s : TemplateStore) : Except LoadError Program × TemplateStore :=
  let (result, s) := s.load fs parser name
  (result.map (·.program), s)

/-- How many programs are kept. -/
def keptCount : TemplateStore → Nat
  | none => 0
  | memory l => l.compiledCount
  | files l => l.cachedCount

end TemplateStore

end Stencil
