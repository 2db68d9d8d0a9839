import Stencil.Loader.FileSystem
import Stencil.Loader.Memory

/-!
# Templates in files

A template is searched in a list of directories. Its file is parsed and compiled, and the program
may be kept.

* `TemplateParser`: what reads files;
* `CacheMode`: when a program that is kept is used again;
* `FileLoader.load`: the program of a name;
* `FileLoader.cachedCount`, `FileLoader.clear`: the programs that are kept.
-/

namespace Stencil

/-- What makes a tree of a text that comes from a source, or says what is wrong with the text. -/
structure TemplateParser where
  parse : String → Source → Except String Node

/-- A function of texts is a parser that takes no notice of the source. -/
instance : Coe (String → Except String Node) TemplateParser where
  coe read := ⟨fun text _ => read text⟩

/-- When a program that is kept is used again. -/
inductive CacheMode
  /-- Never; no program is kept. -/
  | never
  /-- As long as the time of the file's last change is the same. -/
  | whileUnchanged
  | always
  deriving DecidableEq

/-- The name of a mode. -/
def CacheMode.name : CacheMode → String
  | never => "no_cache"
  | whileUnchanged => "check_updates"
  | always => "no_update_check"

/-- A program that is kept, and the time of its file's last change. -/
structure CacheEntry where
  compiled : Compiled
  modified : Option Int

/-- Directories that are searched in order, and the programs that are kept. -/
structure FileLoader where
  paths : List String
  mode : CacheMode := .whileUnchanged
  /-- Programs by the paths of their files. -/
  cache : Bindings CacheEntry := []
  /-- How many programs have been made. -/
  serial : Nat := 0

namespace FileLoader

/-- The program that is kept for a path and may be used now. -/
def cached? (fs : FileSystem) (l : FileLoader) (path : String) : Option Compiled := do
  guard (l.mode ≠ .never)
  let kept ← l.cache.get? (Path.normal path)
  guard (l.mode = .always ∨ fs.modified? path = kept.modified)
  return kept.compiled

/-- Makes the program of the file at a path, and keeps it if the mode asks for that. -/
def compileFile (fs : FileSystem) (parser : TemplateParser) (l : FileLoader)
    (name path : String) : Except LoadError Compiled × FileLoader :=
  match fs.read? path with
  | none => (.error (.notText path), l)
  | some text =>
    let source := .file path
    match parser.parse text source with
    | .error message => (.error (.parse name message), l)
    | .ok tree =>
      match Program.compile tree source with
      | .error e => (.error (.compile name e), l)
      | .ok program =>
        let c : Compiled := ⟨l.serial, program⟩
        let cache :=
          if l.mode = .never then l.cache
          else l.cache.set (Path.normal path) ⟨c, fs.modified? path⟩
        (.ok c, { l with cache, serial := l.serial + 1 })

/-- The program of a name, searched in the given directories. -/
def loadFrom (fs : FileSystem) (parser : TemplateParser) (l : FileLoader)
    (name : String) : List String → Except LoadError Compiled × FileLoader
  | [] => (.error (.notFound name l.paths), l)
  | dir :: rest =>
    let path := Path.join dir name
    match l.cached? fs path with
    | some c => (.ok c, l)
    | none =>
      if (fs.file? path).isSome then l.compileFile fs parser name path
      else l.loadFrom fs parser name rest

/-- The program of a name. -/
def load (fs : FileSystem) (parser : TemplateParser) (name : String)
    (l : FileLoader) : Except LoadError Compiled × FileLoader :=
  l.loadFrom fs parser name l.paths

/-- How many programs are kept. -/
def cachedCount (l : FileLoader) : Nat := l.cache.length

/-- Drops all programs. -/
def clear (l : FileLoader) : FileLoader := { l with cache := [] }

end FileLoader

end Stencil
