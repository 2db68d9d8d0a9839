/-!
# File systems

Files with their bytes and the time of their last change, in directories. A path is a text with
slashes between its parts.

* `Path.join`: a path that starts at another one;
* `Path.parts`, `Path.components`: the texts between the slashes, and those that count;
* `Path.normal`: one spelling for all paths with the same components;
* `FileSystem.locate`: the place that a path leads to;
* `FileSystem.read?`, `FileSystem.modified?`: the file at a path, and the time of its last change;
* `FileSystem.write`, `FileSystem.makeDirectory`, `FileSystem.remove`: changes.
-/

namespace Stencil

/-! ### Paths -/

namespace Path

/-- The texts between the slashes, where `part` holds the characters of the current one, the last
first. -/
def partsFrom : List Char → List Char → List String
  | part, [] => [String.ofList part.reverse]
  | part, '/' :: rest => String.ofList part.reverse :: partsFrom [] rest
  | part, c :: rest => partsFrom (c :: part) rest

/-- The texts between the slashes of a path. -/
def parts (path : String) : List String := partsFrom [] path.toList

/-- Does a path start at the root? -/
def isAbsolute (path : String) : Bool := path.toList.head? == some '/'

/-- The path `path` as seen from `dir`; one that starts at the root stays as it is. -/
def join (dir path : String) : String :=
  if isAbsolute path then path
  else if dir.isEmpty ∨ dir.toList.getLast? = some '/' then dir ++ path
  else dir ++ "/" ++ path

/-- The parts of a path that count: all but empty ones and single dots. A dot counts where the path
starts with it. -/
def components (path : String) : List String :=
  let counting := (parts path).filter fun p => p ≠ "" ∧ p ≠ "."
  if (parts path).head? = some "." then "." :: counting else counting

/-- The path with single slashes between its components. -/
def normal (path : String) : String :=
  (if isAbsolute path then "/" else "") ++ "/".intercalate (components path)

example : normal "a//./b/" = "a/b" ∧ normal "./a" = "./a" ∧ normal "/./a" = "/a" := by
  decide +kernel

end Path

/-! ### Files and directories -/

/-- The names on the way from the root to a place. -/
abbrev Place := List String

/-- What is at a place. -/
inductive FileNode
  | directory
  | file (bytes : List UInt8) (modified : Int)
  deriving DecidableEq

/-- Files and directories by their places. The root is always there. -/
structure FileSystem where
  nodes : List (Place × FileNode) := []

namespace FileSystem

/-- What is at a place. -/
def get? (fs : FileSystem) (place : Place) : Option FileNode :=
  if place = [] then some .directory else fs.nodes.lookup place

/-- Puts something at a place. -/
def set (fs : FileSystem) (place : Place) (node : FileNode) : FileSystem :=
  ⟨(place, node) :: fs.nodes.filter (·.1 != place)⟩

/-- Follows the parts of a path from a place. Every part is looked up in a directory; two dots lead
back to the directory around it. -/
def follow (fs : FileSystem) : Place → List String → Option Place
  | place, [] => some place
  | place, part :: rest =>
    if fs.get? place = some .directory then
      if part = "" ∨ part = "." then fs.follow place rest
      else if part = ".." then fs.follow place.dropLast rest
      else if (fs.get? (place ++ [part])).isSome then fs.follow (place ++ [part]) rest
      else none
    else none

/-- The place that a path leads to. -/
def locate (fs : FileSystem) (path : String) : Option Place := fs.follow [] (Path.parts path)

/-- The file at a path: its bytes and the time of its last change. -/
def file? (fs : FileSystem) (path : String) : Option (List UInt8 × Int) :=
  match (fs.locate path).bind fs.get? with
  | some (.file bytes modified) => some (bytes, modified)
  | _ => none

/-- The text of a file. -/
def read? (fs : FileSystem) (path : String) : Option String :=
  (fs.file? path).bind fun f => String.fromUTF8? ⟨f.1.toArray⟩

/-- The time of a file's last change. -/
def modified? (fs : FileSystem) (path : String) : Option Int := (fs.file? path).map Prod.snd

/-- Makes a directory at a place and at all places on the way there. -/
def makeDirectory (fs : FileSystem) (place : Place) : FileSystem :=
  (List.range place.length).foldl
    (fun fs n =>
      let p := place.take (n + 1)
      if (fs.get? p).isSome then fs else fs.set p .directory) fs

/-- Writes a file, in directories that are made if they are missing. -/
def write (fs : FileSystem) (place : Place) (bytes : List UInt8) (modified : Int) : FileSystem :=
  (fs.makeDirectory place.dropLast).set place (.file bytes modified)

/-- Removes what is at a place, and everything in it. -/
def remove (fs : FileSystem) (place : Place) : FileSystem :=
  ⟨fs.nodes.filter fun n => !place.isPrefixOf n.1⟩

end FileSystem

end Stencil
