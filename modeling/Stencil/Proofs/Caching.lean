import Stencil.Proofs.Paths
import Stencil.Loader.Files
import Mathlib.Data.List.Induction
import Mathlib.Tactic.ByContra

/-!
# Programs of files that are kept

A loader of files that keeps programs as long as the times of their files are the same. If two
states of a file never have the same time, it answers as a loader that keeps nothing.

* `Source.Same`, `Program.Same`: equality up to the spelling of paths;
* `FileLoader.answer`: the answer that is found in the files;
* `FileLoader.load_loads`: the ways in which a load ends;
* `FileUse`, `FileSession.after`: files and a loader after a sequence of uses;
* `FileSession.Keeps`: the kept programs are those of files that there were;
* `FileSession.after_isTransparent`: the loader after any sequence of uses.
-/

namespace Stencil

/-! ### Sources and parsers -/

/-- The sources are equal, where paths of files are compared by their components. -/
def Source.Same : Source → Source → Prop
  | .file path, .file path' => Path.normal path = Path.normal path'
  | s, t => s = t

theorem Source.Same.refl (s : Source) : s.Same s := by
  cases s <;> rfl

/-- The programs are equal, where their sources are compared in this way. -/
structure Program.Same (p q : Program) : Prop where
  source : p.source.Same q.source
  others : q = { p with source := q.source }

/-- A source only gives its name to a program. -/
theorem Program.compile_source (tree : Node) (s t : Source) :
    Program.compile tree t = (Program.compile tree s).map fun p => { p with source := t } := by
  unfold Program.compile
  cases Stmt.ofNode false tree with
  | error e => rfl
  | ok stmt =>
    change stmt.program t = (stmt.program s).map _
    unfold Stmt.program
    by_cases h : operandLimit ≤ stmt.registers
    · simp only [if_pos h]
      rfl
    · simp only [if_neg h]
      cases Builder.addAll _ _ <;> rfl

theorem Program.source_of_compile {tree : Node} {s : Source} {p : Program}
    (h : Program.compile tree s = .ok p) : p.source = s := by
  have hsource := Program.compile_source tree s s
  rw [h] at hsource
  exact congrArg Program.source (Except.ok.inj hsource)

/-- The parser makes the same of equal texts from equal sources. -/
def TemplateParser.IsDeterministic (parser : TemplateParser) : Prop :=
  ∀ text s t, s.Same t → parser.parse text s = parser.parse text t

/-- The answers are the same error, or programs that are equal. -/
def SameAnswer : Except LoadError Program → Except LoadError Program → Prop
  | .ok p, .ok q => p.Same q
  | .error e, .error e' => e = e'
  | _, _ => False

theorem SameAnswer.refl (answer : Except LoadError Program) : SameAnswer answer answer := by
  cases answer with
  | ok p => exact ⟨.refl p.source, rfl⟩
  | error e => exact rfl

/-! ### The answer in the files -/

namespace FileLoader

/-- The path of the file that a name stands for: the first one that leads to a file. -/
def holder? (fs : FileSystem) (paths : List String) (name : String) : Option String :=
  (paths.map (Path.join · name)).find? fun path => (fs.file? path).isSome

/-- The program of the file at a path. -/
def contents (fs : FileSystem) (parser : TemplateParser) (name path : String) :
    Except LoadError Program :=
  match fs.read? path with
  | none => .error (.notText path)
  | some text =>
    match parser.parse text (.file path) with
    | .error message => .error (.parse name message)
    | .ok tree => (Program.compile tree (.file path)).mapError (.compile name)

/-- The program is made of a text that comes from a file, whose path may have been spelled in any
way that has the given normal spelling. -/
def IsMade (parser : TemplateParser) (normal text : String) (p : Program) : Prop :=
  ∃ path tree, Path.normal path = normal ∧ parser.parse text (.file path) = .ok tree ∧
    Program.compile tree (.file path) = .ok p

/-- The answer that the files give. -/
def answer (fs : FileSystem) (parser : TemplateParser) (paths : List String) (name : String) :
    Except LoadError Program :=
  match holder? fs paths name with
  | none => .error (.notFound name paths)
  | some path => contents fs parser name path

variable {fs : FileSystem} {parser : TemplateParser} {l : FileLoader} {name path : String}
  {c : Compiled}

theorem isMade_of_contents {p : Program} (h : contents fs parser name path = .ok p) :
    ∃ text, fs.read? path = some text ∧ IsMade parser (Path.normal path) text p := by
  unfold contents at h
  split at h
  · cases h
  · next text htext =>
    split at h
    · cases h
    · next tree htree =>
      refine ⟨text, htext, path, tree, rfl, htree, ?_⟩
      cases hcompile : Program.compile tree (.file path) with
      | error e =>
        rw [hcompile] at h
        cases h
      | ok q =>
        rw [hcompile] at h
        exact congrArg Except.ok (Except.ok.inj h)

/-- What is made of the text of a file is what the file gives, but for the spelling of its path. -/
theorem IsMade.sameAnswer {text : String} {p : Program}
    (h : IsMade parser (Path.normal path) text p) (htext : fs.read? path = some text)
    (hparser : parser.IsDeterministic) (name : String) :
    SameAnswer (.ok p) (contents fs parser name path) := by
  obtain ⟨path', tree, hnormal, htree, hp⟩ := h
  have htree' : parser.parse text (.file path) = .ok tree :=
    (hparser text (.file path') (.file path) hnormal).symm.trans htree
  have hp' : Program.compile tree (.file path) = .ok { p with source := .file path } := by
    rw [Program.compile_source tree (.file path'), hp]
    rfl
  have hsource : p.source.Same (.file path) := Program.source_of_compile hp ▸ hnormal
  simp only [contents, htext, htree', hp']
  exact ⟨hsource, rfl⟩

theorem exists_file_of_holder? {paths : List String} (h : holder? fs paths name = some path) :
    ∃ file, fs.file? path = some file := by
  have hfile := List.find?_some h
  exact Option.isSome_iff_exists.1 hfile

/-- The loader with a program of the file at a path, kept if the mode asks for that. -/
def made (fs : FileSystem) (l : FileLoader) (path : String) (p : Program) : FileLoader :=
  { l with
    cache := if l.mode = .never then l.cache
      else l.cache.set (Path.normal path) ⟨⟨l.serial, p⟩, fs.modified? path⟩
    serial := l.serial + 1 }

theorem compileFile_eq (fs : FileSystem) (parser : TemplateParser) (l : FileLoader)
    (name path : String) :
    l.compileFile fs parser name path = match contents fs parser name path with
      | .error e => (.error e, l)
      | .ok p => (.ok ⟨l.serial, p⟩, l.made fs path p) := by
  unfold compileFile contents
  cases fs.read? path with
  | none => rfl
  | some text =>
    dsimp only
    cases parser.parse text (.file path) with
    | error message => rfl
    | ok tree =>
      dsimp only
      cases Program.compile tree (.file path) <;> rfl

/-! ### How a load ends -/

/-- The ways in which a load ends: there is no file; the program of the first file is kept; or it is
made now, with success or not. -/
inductive Loads (fs : FileSystem) (parser : TemplateParser) (l : FileLoader) (name : String) :
    Except LoadError Compiled × FileLoader → Prop
  | missing : holder? fs l.paths name = none →
    Loads fs parser l name (.error (.notFound name l.paths), l)
  | kept {path : String} {c : Compiled} : holder? fs l.paths name = some path →
    l.cached? fs path = some c → Loads fs parser l name (.ok c, l)
  | failed {path : String} {e : LoadError} : holder? fs l.paths name = some path →
    l.cached? fs path = none → contents fs parser name path = .error e →
    Loads fs parser l name (.error e, l)
  | made {path : String} {p : Program} : holder? fs l.paths name = some path →
    l.cached? fs path = none → contents fs parser name path = .ok p →
    Loads fs parser l name (.ok ⟨l.serial, p⟩, l.made fs path p)

theorem loadFrom_eq (h : ∀ path, fs.file? path = none → l.cached? fs path = none) (name : String)
    (paths : List String) :
    l.loadFrom fs parser name paths = match holder? fs paths name with
      | none => (.error (.notFound name l.paths), l)
      | some path => match l.cached? fs path with
        | some c => (.ok c, l)
        | none => l.compileFile fs parser name path := by
  induction paths with
  | nil => rfl
  | cons dir rest ih =>
    rw [loadFrom, holder?, List.map_cons]
    cases hfile : fs.file? (Path.join dir name) with
    | none =>
      rw [List.find?_cons_of_neg (by simp [hfile]), h _ hfile]
      exact ih
    | some file =>
      rw [List.find?_cons_of_pos (by simp [hfile])]
      rfl

/-- Where there is no file, no program may be used, and so the first file decides. -/
theorem load_loads (h : ∀ path, fs.file? path = none → l.cached? fs path = none)
    (parser : TemplateParser) (name : String) : Loads fs parser l name (l.load fs parser name) := by
  rw [load, loadFrom_eq h]
  cases hholder : holder? fs l.paths name with
  | none => exact .missing hholder
  | some path =>
    dsimp only
    cases hcached : l.cached? fs path with
    | some c => exact .kept hholder hcached
    | none =>
      dsimp only
      rw [compileFile_eq]
      cases hcontents : contents fs parser name path with
      | error e => exact .failed hholder hcached hcontents
      | ok p => exact .made hholder hcached hcontents

theorem cached?_never (hmode : l.mode = .never) (path : String) : l.cached? fs path = none := by
  simp [cached?, guard, hmode, failure]

/-- A loader that keeps nothing gives the answer that the files give. -/
theorem load_never (hmode : l.mode = .never) (fs : FileSystem) (parser : TemplateParser)
    (name : String) :
    (l.load fs parser name).1.map (·.program) = answer fs parser l.paths name := by
  have hloads : Loads fs parser l name (l.load fs parser name) :=
    load_loads (fun path _ => cached?_never hmode path) parser name
  generalize l.load fs parser name = out at hloads ⊢
  cases hloads with
  | missing hholder =>
    rw [answer, hholder]
    rfl
  | kept _ hcached =>
    rw [cached?_never hmode] at hcached
    cases hcached
  | failed hholder _ hcontents =>
    rw [answer, hholder]
    exact hcontents.symm
  | made hholder _ hcontents =>
    rw [answer, hholder]
    exact hcontents.symm

theorem cached?_whileUnchanged (hmode : l.mode = .whileUnchanged) :
    l.cached? fs path = some c ↔
      l.cache.get? (Path.normal path) = some ⟨c, fs.modified? path⟩ := by
  unfold cached?
  cases l.cache.get? (Path.normal path) with
  | none => simp [guard, hmode]
  | some entry =>
    obtain ⟨compiled, modified⟩ := entry
    by_cases htime : fs.modified? path = modified
    · simp [guard, hmode, htime]
    · simp [guard, hmode, htime, Ne.symm htime, failure]

end FileLoader

/-! ### Files and a loader at work -/

/-- What can happen to files and to a loader of them. -/
inductive FileUse
  /-- Files are written, replaced or removed; those of `files` are there from now on. -/
  | change (files : FileSystem)
  | clear
  | load (name : String)

/-- The files that a use brings. -/
def FileUse.files? : FileUse → Option FileSystem
  | .change files => some files
  | _ => none

/-- Files and a loader of them. -/
structure FileSession where
  files : FileSystem := {}
  loader : FileLoader

namespace FileSession

/-- The answer for a name. -/
def answer (parser : TemplateParser) (name : String) (s : FileSession) :
    Except LoadError Compiled :=
  (s.loader.load s.files parser name).1

/-- Files and loader after one use. -/
def use (parser : TemplateParser) (s : FileSession) : FileUse → FileSession
  | .change files => { s with files }
  | .clear => { s with loader := s.loader.clear }
  | .load name => { s with loader := (s.loader.load s.files parser name).2 }

/-- Files and loader after a sequence of uses, the first one first. At the beginning, there are no
files, and the loader uses programs again while their files are unchanged. -/
def after (parser : TemplateParser) (paths : List String) (uses : List FileUse) : FileSession :=
  uses.foldl (use parser) { loader := { paths } }

/-- The files at all times. -/
def moments (uses : List FileUse) : List FileSystem := {} :: uses.filterMap FileUse.files?

/-- Two states of one file never have the same time. -/
def TimesTell (uses : List FileUse) : Prop :=
  ∀ fs ∈ moments uses, ∀ fs' ∈ moments uses, ∀ path bytes bytes' time,
    fs.file? path = some (bytes, time) → fs'.file? path = some (bytes', time) → bytes = bytes'

variable {parser : TemplateParser} {paths : List String} {uses : List FileUse} {u : FileUse}
  {s : FileSession}

theorem after_concat (parser : TemplateParser) (paths : List String) (uses : List FileUse)
    (u : FileUse) : after parser paths (uses ++ [u]) = (after parser paths uses).use parser u := by
  simp [after]

theorem moments_subset (uses : List FileUse) (u : FileUse) :
    moments uses ⊆ moments (uses ++ [u]) := by
  rw [moments, moments, List.filterMap_append]
  exact List.cons_subset_cons _ (List.subset_append_left _ _)

/-- The program of the entry was made of a file that was there at some time, and the entry has the
time of that file. -/
def WasMade (parser : TemplateParser) (uses : List FileUse) (normal : String) (entry : CacheEntry) :
    Prop :=
  ∃ fs ∈ moments uses, ∃ bytes time text, fs.file? normal = some (bytes, time) ∧
    entry.modified = some time ∧ fs.read? normal = some text ∧
      FileLoader.IsMade parser normal text entry.compiled.program

/-- The files and the loader are as they can be after the uses: the programs that are kept are those
of files that there were. -/
structure Keeps (parser : TemplateParser) (paths : List String) (uses : List FileUse)
    (s : FileSession) : Prop where
  files : s.files ∈ moments uses
  paths : s.loader.paths = paths
  mode : s.loader.mode = .whileUnchanged
  entries : ∀ {normal entry}, s.loader.cache.get? normal = some entry →
    WasMade parser uses normal entry

namespace Keeps

/-- Where there is no file, no program may be used. -/
theorem cached?_eq_none (h : s.Keeps parser paths uses) {path : String}
    (hfile : s.files.file? path = none) : s.loader.cached? s.files path = none := by
  by_contra hne
  obtain ⟨c, hc⟩ := Option.ne_none_iff_exists'.1 hne
  rw [FileLoader.cached?_whileUnchanged h.mode] at hc
  obtain ⟨fs, -, bytes, time, text, -, htime, -⟩ := h.entries hc
  simp [FileSystem.modified?, hfile] at htime

theorem loads (h : s.Keeps parser paths uses) (name : String) :
    FileLoader.Loads s.files parser s.loader name (s.loader.load s.files parser name) :=
  FileLoader.load_loads (fun _ => h.cached?_eq_none) parser name

theorem use (h : s.Keeps parser paths uses) (u : FileUse) :
    (s.use parser u).Keeps parser paths (uses ++ [u]) := by
  have hmoments := moments_subset uses u
  have hentries {normal : String} {entry : CacheEntry}
      (hentry : s.loader.cache.get? normal = some entry) :
      WasMade parser (uses ++ [u]) normal entry := by
    obtain ⟨fs, hfs, hmade⟩ := h.entries hentry
    exact ⟨fs, hmoments hfs, hmade⟩
  cases u with
  | change files =>
    refine ⟨?_, h.paths, h.mode, hentries⟩
    simp [moments, FileSession.use, FileUse.files?]
  | clear => exact ⟨hmoments h.files, h.paths, h.mode, by rintro _ _ ⟨⟩⟩
  | load name =>
    have hloads := h.loads name
    simp only [FileSession.use]
    generalize s.loader.load s.files parser name = out at hloads ⊢
    cases hloads with
    | missing | kept | failed => exact ⟨hmoments h.files, h.paths, h.mode, hentries⟩
    | @made path p hholder _ hcontents =>
      refine ⟨hmoments h.files, h.paths, h.mode, fun {normal entry} hentry => ?_⟩
      simp only [FileLoader.made, h.mode, reduceCtorEq, if_false] at hentry
      by_cases hnormal : normal = Path.normal path
      · subst hnormal
        rw [Bindings.get?_set_self] at hentry
        cases hentry
        obtain ⟨⟨bytes, time⟩, hfile⟩ := FileLoader.exists_file_of_holder? hholder
        obtain ⟨text, htext, hmade⟩ := FileLoader.isMade_of_contents hcontents
        refine ⟨s.files, hmoments h.files, bytes, time, text, FileSystem.file?_normal hfile, ?_,
          (FileSystem.read?_normal hfile).trans htext, hmade⟩
        simp [FileSystem.modified?, hfile]
      · rw [Bindings.get?_set_of_ne _ _ hnormal] at hentry
        exact hentries hentry

end Keeps

theorem after_keeps (parser : TemplateParser) (paths : List String) (uses : List FileUse) :
    (after parser paths uses).Keeps parser paths uses := by
  induction uses using List.reverseRecOn with
  | nil => exact ⟨List.mem_singleton_self _, rfl, rfl, by rintro _ _ ⟨⟩⟩
  | append_singleton uses u ih => exact after_concat .. ▸ ih.use u

/-! ### The answers -/

/-- A program that may be used is made of what the file contains now. -/
theorem Keeps.isMade (h : s.Keeps parser paths uses) (htimes : TimesTell uses) {path : String}
    {c : Compiled} {state : List UInt8 × Int} (hfile : s.files.file? path = some state)
    (hcached : s.loader.cached? s.files path = some c) :
    ∃ text, s.files.read? path = some text ∧
      FileLoader.IsMade parser (Path.normal path) text c.program := by
  rw [FileLoader.cached?_whileUnchanged h.mode] at hcached
  obtain ⟨fs, hfs, bytes, time, text, hthen, htime, htext, hmade⟩ := h.entries hcached
  obtain ⟨bytes', time'⟩ := state
  -- The file has the time at which the program was made, and so its state is that one.
  obtain rfl : time' = time := by simpa [FileSystem.modified?, hfile] using htime
  have hnow := FileSystem.file?_normal hfile
  obtain rfl : bytes' = bytes := htimes _ h.files _ hfs _ _ _ _ hnow hthen
  refine ⟨text, ?_, hmade⟩
  calc s.files.read? path
      = s.files.read? (Path.normal path) := (FileSystem.read?_normal hfile).symm
    _ = fs.read? (Path.normal path) := by rw [FileSystem.read?, FileSystem.read?, hnow, hthen]
    _ = some text := htext

/-- A program that is answered was kept, or it is made now. -/
theorem Keeps.kept_or_made (h : s.Keeps parser paths uses) {name path : String} {c : Compiled}
    (hholder : FileLoader.holder? s.files paths name = some path)
    (hc : s.answer parser name = .ok c) :
    (s.loader.cached? s.files path = some c ∧ s.use parser (.load name) = s) ∨
      ∃ p, c = ⟨s.loader.serial, p⟩ ∧ FileLoader.contents s.files parser name path = .ok p ∧
        s.use parser (.load name) = { s with loader := s.loader.made s.files path p } := by
  have hloads := h.loads name
  unfold answer at hc
  rw [← h.paths] at hholder
  rw [FileSession.use]
  generalize s.loader.load s.files parser name = out at hloads hc ⊢
  cases hloads with
  | missing | failed => cases hc
  | kept hholder' hcached =>
    cases hc
    obtain rfl := Option.some.inj (hholder.symm.trans hholder')
    exact .inl ⟨hcached, rfl⟩
  | made hholder' _ hcontents =>
    cases hc
    obtain rfl := Option.some.inj (hholder.symm.trans hholder')
    exact .inr ⟨_, rfl, hcontents, rfl⟩

theorem Keeps.current (h : s.Keeps parser paths uses) (htimes : TimesTell uses)
    {name path : String} {c : Compiled}
    (hholder : FileLoader.holder? s.files paths name = some path)
    (hc : s.answer parser name = .ok c) :
    ∃ text, s.files.read? path = some text ∧
      FileLoader.IsMade parser (Path.normal path) text c.program := by
  rcases h.kept_or_made hholder hc with ⟨hcached, -⟩ | ⟨p, rfl, hcontents, -⟩
  · obtain ⟨state, hfile⟩ := FileLoader.exists_file_of_holder? hholder
    exact h.isMade htimes hfile hcached
  · exact FileLoader.isMade_of_contents hcontents

/-- What is answered is what the files give. -/
theorem Keeps.sameAnswer (h : s.Keeps parser paths uses) (htimes : TimesTell uses)
    (hparser : parser.IsDeterministic) (name : String) :
    SameAnswer ((s.answer parser name).map (·.program))
      (FileLoader.answer s.files parser paths name) := by
  have hloads := h.loads name
  unfold answer FileLoader.answer
  rw [← h.paths]
  generalize s.loader.load s.files parser name = out at hloads ⊢
  cases hloads with
  | missing hholder =>
    rw [hholder]
    exact rfl
  | failed hholder _ hcontents | made hholder _ hcontents =>
    simp only [hholder, hcontents]
    exact .refl _
  | kept hholder hcached =>
    simp only [hholder]
    obtain ⟨state, hfile⟩ := FileLoader.exists_file_of_holder? hholder
    obtain ⟨text, htext, hmade⟩ := h.isMade htimes hfile hcached
    exact hmade.sameAnswer htext hparser name

/-! ### The same program again -/

/-- The program `c` is kept for the file at a path and may be used, as the file is in the state in
which the program was made of it. -/
structure Has (s : FileSession) (path : String) (state : List UInt8 × Int) (c : Compiled) :
    Prop where
  file : s.files.file? (Path.normal path) = some state
  kept : s.loader.cache.get? (Path.normal path) = some ⟨c, some state.2⟩

variable {name path path' : String} {state : List UInt8 × Int} {c : Compiled}

theorem Has.cached? (hhas : s.Has path state c) (h : s.Keeps parser paths uses)
    (hnormal : Path.normal path' = Path.normal path) {file' : List UInt8 × Int}
    (hfile' : s.files.file? path' = some file') : s.loader.cached? s.files path' = some c := by
  have hnow := FileSystem.file?_normal hfile'
  rw [hnormal, hhas.file] at hnow
  obtain rfl := Option.some.inj hnow
  rw [FileLoader.cached?_whileUnchanged h.mode, hnormal, hhas.kept, FileSystem.modified?, hfile']
  rfl

/-- A program that is loaded is kept. -/
theorem Keeps.has (h : s.Keeps parser paths uses)
    (hholder : FileLoader.holder? s.files paths name = some path)
    (hc : s.answer parser name = .ok c) :
    ∃ state, s.files.file? path = some state ∧ (s.use parser (.load name)).Has path state c := by
  obtain ⟨state, hfile⟩ := FileLoader.exists_file_of_holder? hholder
  have hnow := FileSystem.file?_normal hfile
  have hmodified : s.files.modified? path = some state.2 := by simp [FileSystem.modified?, hfile]
  refine ⟨state, hfile, ?_⟩
  rcases h.kept_or_made hholder hc with ⟨hcached, huse⟩ | ⟨p, rfl, -, huse⟩
  · rw [FileLoader.cached?_whileUnchanged h.mode, hmodified] at hcached
    rw [huse]
    exact ⟨hnow, hcached⟩
  · rw [huse]
    refine ⟨hnow, ?_⟩
    simp only [FileLoader.made, h.mode, reduceCtorEq, if_false, hmodified]
    exact Bindings.get?_set_self _ _ _

/-- A program is kept until all programs are dropped, or its file is changed. -/
theorem Has.use (hhas : s.Has path state c) (h : s.Keeps parser paths uses) (hclear : u ≠ .clear)
    (hchange : ∀ files, u = .change files → files.file? path = some state) :
    (s.use parser u).Has path state c := by
  cases u with
  | change files => exact ⟨FileSystem.file?_normal (hchange files rfl), hhas.kept⟩
  | clear => exact absurd rfl hclear
  | load name =>
    have hloads := h.loads name
    rw [FileSession.use]
    generalize s.loader.load s.files parser name = out at hloads ⊢
    cases hloads with
    | missing | kept | failed => exact hhas
    | @made path' p hholder hcached _ =>
      refine ⟨hhas.file, ?_⟩
      simp only [FileLoader.made, h.mode, reduceCtorEq, if_false]
      -- No program is made of the file as long as one is kept for it.
      have hother : Path.normal path ≠ Path.normal path' := by
        intro hnormal
        obtain ⟨file', hfile'⟩ := FileLoader.exists_file_of_holder? hholder
        rw [hhas.cached? h hnormal.symm hfile'] at hcached
        cases hcached
      exact (Bindings.get?_set_of_ne _ _ hother).trans hhas.kept

theorem Has.answer (hhas : s.Has path state c) (h : s.Keeps parser paths uses)
    (hholder : FileLoader.holder? s.files paths name = some path')
    (hnormal : Path.normal path' = Path.normal path) : s.answer parser name = .ok c := by
  obtain ⟨file', hfile'⟩ := FileLoader.exists_file_of_holder? hholder
  have hcached := hhas.cached? h hnormal hfile'
  rw [FileSession.answer, FileLoader.load, FileLoader.loadFrom_eq fun _ => h.cached?_eq_none,
    h.paths, hholder]
  simp only [hcached]

/-- What is kept after a load is kept on, while other things happen. -/
theorem has_after {before between : List FileUse}
    (hholder : FileLoader.holder? (after parser paths before).files paths name = some path)
    (hc : (after parser paths before).answer parser name = .ok c) (hclear : .clear ∉ between)
    (hchange : ∀ files, .change files ∈ between →
      files.file? path = (after parser paths before).files.file? path) :
    ∃ state, (after parser paths (before ++ .load name :: between)).Has path state c := by
  obtain ⟨state, hfile, hhas⟩ := (after_keeps parser paths before).has hholder hc
  refine ⟨state, ?_⟩
  induction between using List.reverseRecOn with
  | nil => rwa [after_concat]
  | append_singleton between u ih =>
    have hmem : u ∈ between ++ [u] := by simp
    rw [← List.cons_append, ← List.append_assoc, after_concat]
    refine (ih ?_ ?_).use (after_keeps parser paths _) ?_ ?_
    · exact fun h => hclear (List.mem_append_left _ h)
    · exact fun files h => hchange files (List.mem_append_left _ h)
    · rintro rfl
      exact hclear hmem
    · rintro files rfl
      exact (hchange files hmem).trans hfile

/-! ### All uses -/

/-- After some uses, the loader answers as one that keeps nothing, and it makes the program of a
file only once as long as the file is unchanged. -/
structure IsTransparent (parser : TemplateParser) (paths : List String) (uses : List FileUse) :
    Prop where
  /-- The answers of a loader that keeps nothing are those that the files give. -/
  uncached : ∀ l : FileLoader, l.paths = paths → l.mode = .never → ∀ name,
    (l.load (after parser paths uses).files parser name).1.map (·.program) =
      FileLoader.answer (after parser paths uses).files parser paths name
  same : parser.IsDeterministic → ∀ l : FileLoader, l.paths = paths → l.mode = .never → ∀ name,
    SameAnswer (((after parser paths uses).answer parser name).map (·.program))
      ((l.load (after parser paths uses).files parser name).1.map (·.program))
  /-- With any parser, what is answered is made of the text that the first file contains now. -/
  current : ∀ name path c,
    FileLoader.holder? (after parser paths uses).files paths name = some path →
    (after parser paths uses).answer parser name = .ok c →
      ∃ text, (after parser paths uses).files.read? path = some text ∧
        FileLoader.IsMade parser (Path.normal path) text c.program
  /-- The program of a file is the same object as the one that was loaded before, as long as the
  programs were not dropped and the file was not changed in between. -/
  again : ∀ before between name name' path path' c, uses = before ++ .load name :: between →
    FileLoader.holder? (after parser paths before).files paths name = some path →
    (after parser paths before).answer parser name = .ok c → .clear ∉ between →
    (∀ files, .change files ∈ between →
      files.file? path = (after parser paths before).files.file? path) →
    FileLoader.holder? (after parser paths uses).files paths name' = some path' →
    Path.normal path' = Path.normal path →
      (after parser paths uses).answer parser name' = .ok c

/-- If time tells the states of each file apart, a loader that checks the times of its files is
transparent after any sequence of uses. -/
theorem after_isTransparent (parser : TemplateParser) (paths : List String) {uses : List FileUse}
    (htimes : TimesTell uses) : IsTransparent parser paths uses where
  uncached l hpaths hmode name := hpaths ▸ FileLoader.load_never hmode _ parser name
  same hparser l hpaths hmode name := by
    rw [FileLoader.load_never hmode, hpaths]
    exact (after_keeps parser paths uses).sameAnswer htimes hparser name
  current name path c hholder hc := (after_keeps parser paths uses).current htimes hholder hc
  again := by
    rintro before between name name' path path' c rfl hholder hc hclear hchange hholder' hnormal
    obtain ⟨state, hhas⟩ := has_after hholder hc hclear hchange
    exact hhas.answer (after_keeps parser paths _) hholder' hnormal

/-! ### Files that come and go -/

/-- The files of a file system: their bytes and times. -/
def states (fs : FileSystem) : List (List UInt8 × Int) :=
  fs.nodes.filterMap fun n => match n.2 with
    | .file bytes modified => some (bytes, modified)
    | .directory => none

theorem mem_states {fs : FileSystem} (h : fs.file? path = some state) : state ∈ states fs := by
  unfold FileSystem.file? at h
  split at h
  · next bytes modified hplace =>
    cases h
    obtain ⟨place, -, hnode⟩ := Option.bind_eq_some_iff.1 hplace
    unfold FileSystem.get? at hnode
    split at hnode
    · cases hnode
    · obtain ⟨before, behind, hnodes, -⟩ := List.lookup_eq_some_iff.1 hnode
      refine List.mem_filterMap.2 ⟨(place, .file bytes modified), ?_, rfl⟩
      simp [hnodes]
  · cases h

/-- It is enough if no two states of any files have the same time. -/
theorem timesTell_of_states (h : ∀ fs ∈ moments uses, ∀ fs' ∈ moments uses, ∀ a ∈ states fs,
    ∀ b ∈ states fs', a.2 = b.2 → a.1 = b.1) : TimesTell uses :=
  fun fs hfs fs' hfs' _ _ _ _ hfile hfile' =>
    h fs hfs fs' hfs' _ (mem_states hfile) _ (mem_states hfile') rfl

/-- A parser that takes the text as it is. -/
def verbatim : TemplateParser where
  parse text _ := .ok (.template [.rawText text])

/-- A file that is loaded, hidden by another one, and replaced by an older one in the end. -/
def moving : List FileUse :=
  let first := FileSystem.write {} ["b", "t"] [49] 5
  [.change first, .load "t", .change (first.write ["a", "t"] [50] 6), .load "t",
    .change (first.write ["b", "t"] [51] 3), .load "t"]

theorem after_moving_isTransparent :
    TimesTell moving ∧ verbatim.IsDeterministic ∧
      ((after verbatim ["a", "b"] moving).answer verbatim "t").isOk ∧
        IsTransparent verbatim ["a", "b"] moving := by
  have htimes : TimesTell moving := timesTell_of_states (by decide +kernel)
  exact ⟨htimes, fun _ _ _ _ => rfl, by decide +kernel, after_isTransparent verbatim _ htimes⟩

end FileSession

end Stencil
