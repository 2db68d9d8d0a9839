import Stencil.Proofs.Holding
import Mathlib.Data.Finset.Card

/-!
# What a loader in memory serves

Names are given trees, and programs are asked for by name, in any order. The loader keeps programs
along with the trees, and whatever was asked for before, it serves the tree that a name was given
last.

* `MemoryUse`, `MemoryLoader.after`: the loader after a sequence of uses;
* `MemoryLoader.latest?`, `MemoryLoader.answer`: what a name was given last, and the answer that
  goes with it;
* `MemoryLoader.load_loads`: the ways in which a load ends;
* `MemoryLoader.Keeps`: the kept programs belong to the trees, and their numbers tell them apart;
* `MemoryLoader.Precedes`: a loader and one that it may become;
* `MemoryLoader.SeesLatest`: a render for which only the latest trees matter;
* `MemoryLoader.after_isFaithful`: the loader after any sequence of uses.
-/

namespace Stencil

/-- What can be done with a loader in memory. -/
inductive MemoryUse
  | insert (name : String) (tree : Node) (source : Source)
  | load (name : String)

/-- What a use gives to a name. -/
def MemoryUse.given? (name : String) : MemoryUse → Option (Node × Source)
  | .insert other tree source => if other = name then some (tree, source) else none
  | .load _ => none

namespace MemoryLoader

/-- The loader after one use. -/
def use (l : MemoryLoader) : MemoryUse → MemoryLoader
  | .insert name tree source => l.insert name tree source
  | .load name => (l.load name).2

/-- The loader after a sequence of uses, the first one first. -/
def after (uses : List MemoryUse) : MemoryLoader := uses.foldl use {}

/-- What a name was given last. -/
def latest? (uses : List MemoryUse) (name : String) : Option (Node × Source) :=
  (uses.filterMap (MemoryUse.given? name)).getLast?

/-- The uses do not give the name anything. -/
def LeaveAlone (uses : List MemoryUse) (name : String) : Prop :=
  ∀ u ∈ uses, u.given? name = none

/-- The name was loaded with success, and it was not given anything since. -/
def IsLoaded (uses : List MemoryUse) (name : String) : Prop :=
  ∃ before behind c, uses = before ++ .load name :: behind ∧
    ((after before).load name).1 = .ok c ∧ LeaveAlone behind name

/-- The answer for a name that has been given `entry`. -/
def answer (name : String) (entry : Option (Node × Source)) : Except LoadError Program :=
  match entry with
  | none => .error (.notFound name [])
  | some (tree, source) => (Program.compile tree source).mapError (.compile name)

variable {l m k : MemoryLoader} {u : MemoryUse} {uses : List MemoryUse} {name other : String}
  {c : Compiled}

theorem after_concat (uses : List MemoryUse) (u : MemoryUse) :
    after (uses ++ [u]) = (after uses).use u := by
  simp [after]

theorem after_append_cons (before behind : List MemoryUse) (u : MemoryUse) :
    after (before ++ u :: behind) = behind.foldl use ((after before).use u) := by
  simp [after]

/-! ### How a load ends -/

/-- The ways in which a load ends: with a program that was kept, with one that is made and kept now,
or with an error that leaves the loader as it was. -/
inductive Loads (l : MemoryLoader) (name : String) : Except LoadError Compiled × MemoryLoader → Prop
  | kept {c : Compiled} : l.compiled.get? name = some c → Loads l name (.ok c, l)
  | made {tree : Node} {source : Source} {p : Program} : l.compiled.get? name = none →
    l.trees.get? name = some (tree, source) → Program.compile tree source = .ok p →
    Loads l name (.ok ⟨l.serial, p⟩,
      { l with compiled := l.compiled.set name ⟨l.serial, p⟩, serial := l.serial + 1 })
  | failed {e : LoadError} : l.compiled.get? name = none →
    answer name (l.trees.get? name) = .error e → Loads l name (.error e, l)

theorem load_loads (l : MemoryLoader) (name : String) : l.Loads name (l.load name) := by
  unfold load
  split
  · next hc => exact .kept hc
  · next hc =>
    split
    · next htree => exact .failed hc (by rw [htree]; rfl)
    · next tree source htree =>
      split
      · next hp => exact .failed hc (by rw [htree, answer, hp]; rfl)
      · next hp => exact .made hc htree hp

theorem load_trees (l : MemoryLoader) (name : String) : (l.load name).2.trees = l.trees := by
  have hloads := l.load_loads name
  generalize l.load name = out at hloads ⊢
  cases hloads <;> rfl

/-- A program that was loaded is kept. -/
theorem get?_of_load (h : (l.load name).1 = .ok c) :
    (l.load name).2.compiled.get? name = some c := by
  have hloads := l.load_loads name
  generalize l.load name = out at hloads h ⊢
  cases hloads with
  | kept hc =>
    cases h
    exact hc
  | made =>
    cases h
    exact Bindings.get?_set_self _ _ _
  | failed => cases h

/-- What is kept after a load was kept before, or it was made just now and has a new number. -/
theorem get?_load (h : (l.load other).2.compiled.get? name = some c) :
    l.compiled.get? name = some c ∨
      name = other ∧ c.serial = l.serial ∧ (l.load other).2.serial = l.serial + 1 ∧
        (l.load other).1 = .ok c := by
  have hloads := l.load_loads other
  generalize l.load other = out at hloads h ⊢
  cases hloads with
  | kept => exact .inl h
  | failed => exact .inl h
  | made =>
    by_cases hname : name = other
    · rw [hname, Bindings.get?_set_self] at h
      cases h
      exact .inr ⟨hname, rfl, rfl, rfl⟩
    · rw [Bindings.get?_set_of_ne _ _ hname] at h
      exact .inl h

/-- What is kept after an insertion was kept before, for another name. -/
theorem get?_insert {tree : Node} {source : Source}
    (h : (l.insert other tree source).compiled.get? name = some c) :
    name ≠ other ∧ l.compiled.get? name = some c := by
  by_cases hname : name = other
  · rw [hname, insert, Bindings.get?_erase_self] at h
    cases h
  · exact ⟨hname, Bindings.get?_erase_of_ne l.compiled hname ▸ h⟩

theorem le_serial_load (l : MemoryLoader) (name : String) : l.serial ≤ (l.load name).2.serial := by
  have hloads := l.load_loads name
  generalize l.load name = out at hloads ⊢
  cases hloads with
  | made => exact Nat.le_succ _
  | kept | failed => exact le_rfl

/-! ### What is kept -/

/-- The programs that are kept belong to the trees, one for each name, and their numbers tell them
from one another and from those to come. -/
structure Keeps (l : MemoryLoader) : Prop where
  has : l.Has l.trees
  nodup : l.compiled.names.Nodup
  serial_lt : ∀ {name c}, l.compiled.get? name = some c → c.serial < l.serial
  name_eq : ∀ {name name' c c'}, l.compiled.get? name = some c →
    l.compiled.get? name' = some c' → c.serial = c'.serial → name = name'

namespace Keeps

theorem empty : Keeps {} where
  has := ⟨rfl, by rintro _ _ ⟨⟩⟩
  nodup := List.nodup_nil
  serial_lt := by rintro _ _ ⟨⟩
  name_eq := by rintro _ _ _ _ ⟨⟩

theorem insert (h : l.Keeps) (name : String) (tree : Node) (source : Source) :
    (l.insert name tree source).Keeps where
  has := by
    refine ⟨rfl, fun hc => ?_⟩
    obtain ⟨hname, hc⟩ := get?_insert hc
    obtain ⟨tree', source', htree, hp⟩ := h.has.compiled hc
    exact ⟨tree', source', (Bindings.get?_set_of_ne _ _ hname).trans htree, hp⟩
  nodup := Bindings.nodup_names_erase h.nodup name
  serial_lt hc := h.serial_lt (get?_insert hc).2
  name_eq hc hc' := h.name_eq (get?_insert hc).2 (get?_insert hc').2

theorem load (h : l.Keeps) (name : String) : (l.load name).2.Keeps where
  has := by
    rw [load_trees]
    exact (h.has.load name).1
  nodup := by
    have hloads := l.load_loads name
    generalize l.load name = out at hloads ⊢
    cases hloads with
    | made => exact Bindings.nodup_names_set h.nodup _ _
    | kept | failed => exact h.nodup
  serial_lt hc := by
    have hle := l.le_serial_load name
    rcases get?_load hc with hc | ⟨-, hserial, hnext, -⟩
    · exact (h.serial_lt hc).trans_le hle
    · omega
  name_eq hc hc' heq := by
    -- A new number is greater than those of all programs that were kept before.
    rcases get?_load hc with hc | ⟨hname, hserial, -⟩ <;>
      rcases get?_load hc' with hc' | ⟨hname', hserial', -⟩
    · exact h.name_eq hc hc' heq
    · have := h.serial_lt hc
      omega
    · have := h.serial_lt hc'
      omega
    · exact hname.trans hname'.symm

theorem use (h : l.Keeps) (u : MemoryUse) : (l.use u).Keeps := by
  cases u with
  | insert name tree source => exact h.insert name tree source
  | load name => exact h.load name

/-- The answer of a loader does not depend on what it keeps. -/
theorem answer_eq (h : l.Keeps) (name : String) :
    (l.load name).1.map (·.program) = answer name (l.trees.get? name) := by
  have hloads := l.load_loads name
  generalize l.load name = out at hloads ⊢
  cases hloads with
  | kept hc =>
    obtain ⟨tree, source, htree, hp⟩ := h.has.compiled hc
    rw [htree, answer, hp]
    rfl
  | made _ htree hp =>
    rw [htree, answer, hp]
    rfl
  | failed _ he => exact he.symm

end Keeps

theorem after_keeps (uses : List MemoryUse) : (after uses).Keeps := by
  induction uses using List.reverseRecOn with
  | nil => exact .empty
  | append_singleton uses u ih => exact after_concat uses u ▸ ih.use u

/-! ### The trees -/

/-- A use gives a name what it is to be given, and leaves the other names what they have. -/
theorem use_trees (l : MemoryLoader) (u : MemoryUse) (name : String) :
    (l.use u).trees.get? name = (u.given? name).or (l.trees.get? name) := by
  cases u with
  | insert other tree source =>
    by_cases hname : other = name
    · simp [use, insert, MemoryUse.given?, hname]
    · simp [use, insert, MemoryUse.given?, hname, Bindings.get?_set_of_ne _ _ (Ne.symm hname)]
  | load other => simp [use, load_trees, MemoryUse.given?]

/-- The loader has the trees that the names were given last. -/
theorem after_trees (uses : List MemoryUse) (name : String) :
    (after uses).trees.get? name = latest? uses name := by
  induction uses using List.reverseRecOn with
  | nil => rfl
  | append_singleton uses u ih =>
    rw [after_concat, use_trees, ih, latest?, latest?, List.filterMap_append, List.getLast?_append]
    cases hu : u.given? name <;> simp [hu]

/-! ### The same program again -/

theorem get?_use (h : l.compiled.get? name = some c) (hu : u.given? name = none) :
    (l.use u).compiled.get? name = some c := by
  cases u with
  | insert other tree source =>
    have hname : name ≠ other := by
      rintro rfl
      simp [MemoryUse.given?] at hu
    exact (Bindings.get?_erase_of_ne _ hname).trans h
  | load other =>
    have hloads := l.load_loads other
    rw [use]
    generalize l.load other = out at hloads ⊢
    cases hloads with
    | kept | failed => exact h
    | made hother =>
      have hname : name ≠ other := by
        rintro rfl
        rw [h] at hother
        cases hother
      exact (Bindings.get?_set_of_ne _ _ hname).trans h

/-- A program is kept until its name is given another tree. -/
theorem get?_foldl (h : l.compiled.get? name = some c) (huses : LeaveAlone uses name) :
    (uses.foldl use l).compiled.get? name = some c := by
  induction uses generalizing l with
  | nil => exact h
  | cons u uses ih =>
    obtain ⟨hu, huses⟩ := List.forall_mem_cons.1 huses
    exact ih (get?_use h hu) huses

theorem load_again {before between : List MemoryUse} (h : ((after before).load name).1 = .ok c)
    (hbetween : LeaveAlone between name) :
    (after (before ++ .load name :: between)).load name =
      (.ok c, after (before ++ .load name :: between)) := by
  have hkept : (after (before ++ .load name :: between)).compiled.get? name = some c := by
    rw [after_append_cons]
    exact get?_foldl (get?_of_load h) hbetween
  simp only [load, hkept]

/-- The loader keeps the programs of the names that are loaded. -/
theorem isLoaded_iff (uses : List MemoryUse) (name : String) :
    IsLoaded uses name ↔ ∃ c, (after uses).compiled.get? name = some c := by
  constructor
  · rintro ⟨before, behind, c, rfl, hc, hbehind⟩
    exact ⟨c, after_append_cons .. ▸ get?_foldl (get?_of_load hc) hbehind⟩
  · rintro ⟨c, hc⟩
    induction uses using List.reverseRecOn with
    | nil => cases hc
    | append_singleton uses u ih =>
      -- A program that was kept before the last use was loaded before it.
      have hbefore (hc : (after uses).compiled.get? name = some c) (hu : u.given? name = none) :
          IsLoaded (uses ++ [u]) name := by
        obtain ⟨before, behind, c, rfl, hc, hbehind⟩ := ih hc
        refine ⟨before, behind ++ [u], c, by simp, hc, ?_⟩
        exact List.forall_mem_append.2 ⟨hbehind, List.forall_mem_singleton.2 hu⟩
      rw [after_concat] at hc
      cases u with
      | insert other tree source =>
        obtain ⟨hname, hc⟩ := get?_insert hc
        exact hbefore hc (if_neg (Ne.symm hname))
      | load other =>
        rcases get?_load hc with hc | ⟨rfl, -, -, hload⟩
        · exact hbefore hc rfl
        · exact ⟨uses, [], c, rfl, hload, List.forall_mem_nil _⟩

/-! ### Other programs -/

/-- The loader `l` may become the loader `m`: what `m` keeps was kept by `l`, or it was made after
it and has a greater number than all that was made before. -/
structure Precedes (l m : MemoryLoader) : Prop where
  serial_le : l.serial ≤ m.serial
  kept : ∀ {name c}, m.compiled.get? name = some c →
    l.compiled.get? name = some c ∨ l.serial ≤ c.serial

namespace Precedes

theorem refl (l : MemoryLoader) : l.Precedes l := ⟨le_rfl, .inl⟩

theorem trans (hlm : l.Precedes m) (hmk : m.Precedes k) : l.Precedes k where
  serial_le := hlm.serial_le.trans hmk.serial_le
  kept hc := (hmk.kept hc).elim hlm.kept fun h => .inr (hlm.serial_le.trans h)

theorem load (l : MemoryLoader) (name : String) : l.Precedes (l.load name).2 where
  serial_le := l.le_serial_load name
  kept hc := (get?_load hc).imp_right fun h => h.2.1.ge

theorem use (l : MemoryLoader) (u : MemoryUse) : l.Precedes (l.use u) := by
  cases u with
  | insert name tree source => exact ⟨le_rfl, fun hc => .inl (get?_insert hc).2⟩
  | load name => exact load l name

theorem foldl (l : MemoryLoader) (uses : List MemoryUse) :
    l.Precedes (uses.foldl MemoryLoader.use l) := by
  induction uses generalizing l with
  | nil => exact refl l
  | cons u uses ih => exact (use l u).trans (ih (l.use u))

end Precedes

/-- Where a name is given another tree, its program is dropped. -/
theorem get?_use_of_given (hu : u.given? name ≠ none) : (l.use u).compiled.get? name = none := by
  cases u with
  | insert other tree source =>
    obtain rfl : other = name := by
      by_contra hname
      exact hu (if_neg hname)
    exact Bindings.get?_erase_self _ _
  | load other => exact absurd rfl hu

/-- Two loads that give the same object are loads of one name, which has not been given anything in
between. -/
theorem leaveAlone_of_serial_eq {before between : List MemoryUse} {c' : Compiled}
    (h : ((after before).load name).1 = .ok c)
    (h' : ((after (before ++ .load name :: between)).load other).1 = .ok c')
    (hserial : c'.serial = c.serial) : other = name ∧ LeaveAlone between name := by
  have hkeeps := (after_keeps before).load name
  have hlt := hkeeps.serial_lt (get?_of_load h)
  rw [after_append_cons] at h'
  replace h' := get?_of_load h'
  have hother : other = name := by
    rcases ((Precedes.foldl _ between).trans (.load _ other)).kept h' with hc' | hle
    · exact hkeeps.name_eq hc' (get?_of_load h) hserial
    · exact absurd hle (by simp only [use]; omega)
  refine ⟨hother, fun u hu => ?_⟩
  by_contra hgiven
  obtain ⟨front, back, rfl⟩ := List.append_of_mem hu
  -- What is made after the name was given another tree is new.
  rw [List.foldl_append, List.foldl_cons] at h'
  generalize hl : (front.foldl use ((after before).use (.load name))) = l at h'
  have hprecedes : Precedes ((after before).load name).2 (l.use u) :=
    hl ▸ (Precedes.foldl _ front).trans (.use _ u)
  rcases ((Precedes.foldl (l.use u) back).trans (.load _ other)).kept h' with hc' | hle
  · rw [hother, get?_use_of_given hgiven] at hc'
    cases hc'
  · exact absurd (hprecedes.serial_le.trans hle) (by omega)

/-! ### Renders -/

/-- A render in which the loader has been put to some uses: it only adds loads to them, and what it
shows depends on nothing but what the names were given last. -/
structure SeesLatest {ε : Type} (uses : List MemoryUse)
    (render : World TemplateStore → Option (Except ε String × World TemplateStore)) : Prop where
  loads : ∀ vars entries out, render ⟨vars, .memory (after uses), entries⟩ = some out →
    ∃ names : List String, out.2.loader = .memory (after (uses ++ names.map .load))
  shown : ∀ others, latest? others = latest? uses → ∀ vars entries,
    (render ⟨vars, .memory (after others), entries⟩).map Outcome.shown =
      (render ⟨vars, .memory (after uses), entries⟩).map Outcome.shown

/-- Two stores in memory that have the same trees. -/
def HaveSameTrees (s s' : TemplateStore) : Prop :=
  ∃ l m, s = .memory l ∧ s' = .memory m ∧ l.Keeps ∧ m.Keeps ∧
    ∀ name, l.trees.get? name = m.trees.get? name

section Renders

variable {fs : FileSystem} {parser : TemplateParser} {ctx : Context TemplateStore}

theorem load_memory (hload : ctx.load = TemplateStore.program fs parser) (name : String)
    (l : MemoryLoader) :
    ctx.load name (.memory l) = ((l.load name).1.map (·.program), .memory (l.load name).2) := by
  rw [hload]
  rfl

theorem answersAlike (hload : ctx.load = TemplateStore.program fs parser) :
    ctx.AnswersAlike ctx.load HaveSameTrees := by
  rintro _ _ ⟨l, m, rfl, rfl, hl, hm, htrees⟩ name
  rw [load_memory hload, load_memory hload]
  refine ⟨?_, _, _, rfl, rfl, hl.load name, hm.load name, fun other => ?_⟩
  · rw [hl.answer_eq, hm.answer_eq, htrees]
  · rw [load_trees, load_trees, htrees]

/-- A load of the context is one more use of the loader. -/
theorem exists_loads (hload : ctx.load = TemplateStore.program fs parser) (uses : List MemoryUse)
    (name : String) (st : TemplateStore)
    (hst : ∃ names : List String, st = .memory (after (uses ++ names.map .load))) :
    ∃ names : List String, (ctx.load name st).2 = .memory (after (uses ++ names.map .load)) := by
  obtain ⟨names, rfl⟩ := hst
  refine ⟨names ++ [name], ?_⟩
  rw [load_memory hload, List.map_append, ← List.append_assoc, List.map_singleton, after_concat]
  rfl

theorem seesLatest_of {ε : Type} (hload : ctx.load = TemplateStore.program fs parser)
    {render : World TemplateStore → Option (Except ε String × World TemplateStore)}
    (hmatches : ∀ {R : TemplateStore → TemplateStore → Prop} {w v}, ctx.AnswersAlike ctx.load R →
      w.Matches R v → Option.Rel (Outcome.Matches R) (render w) (render v))
    (uses : List MemoryUse) : SeesLatest uses render where
  loads vars entries out h := by
    have hself := hmatches
      (Context.answersAlike_of_eq (exists_loads hload uses) fun _ _ _ => rfl)
      (⟨rfl, rfl, rfl, [], by simp⟩ : World.Matches _ ⟨vars, .memory (after uses), entries⟩ _)
    rw [h] at hself
    cases hself with
    | some hends => exact hends.2.loader.2
  shown others hlatest vars entries := by
    have htrees (name : String) :
        (after others).trees.get? name = (after uses).trees.get? name := by
      rw [after_trees, after_trees, hlatest]
    exact Outcome.Matches.map_shown (hmatches (answersAlike hload)
      ⟨rfl, rfl, _, _, rfl, rfl, after_keeps others, after_keeps uses, htrees⟩)

end Renders

/-! ### All uses -/

/-- After some uses, the loader serves what the names were given last, and it makes the program of a
tree only once. -/
structure IsFaithful (uses : List MemoryUse) : Prop where
  answers : ∀ name, ((after uses).load name).1.map (·.program) = answer name (latest? uses name)
  /-- A program is the same object as the one that was loaded before, as long as its name was not
  given anything in between. -/
  again : ∀ before between name c, uses = before ++ .load name :: between →
    ((after before).load name).1 = .ok c → LeaveAlone between name →
      ((after uses).load name).1 = .ok c
  /-- In all other cases, it is another object. -/
  apart : ∀ before between name other c c', uses = before ++ .load name :: between →
    ((after before).load name).1 = .ok c → ((after uses).load other).1 = .ok c' →
      c'.serial = c.serial → other = name ∧ LeaveAlone between name
  failing : ∀ name e, ((after uses).load name).1 = .error e →
    ((after uses).load name).2 = after uses
  count : ∃ names : Finset String, (∀ name, name ∈ names ↔ IsLoaded uses name) ∧
    (after uses).compiledCount = names.card
  renders : ∀ fs parser (ctx : Context TemplateStore),
    ctx.load = TemplateStore.program fs parser → ∀ fuel,
    (∀ p, SeesLatest uses (Program.render ctx fuel p)) ∧
      (∀ tree, SeesLatest uses (ctx.renderTree fuel tree)) ∧
        ∀ name, SeesLatest uses (ctx.renderNamed fuel name)

/-- A loader in memory is faithful after any sequence of uses. -/
theorem after_isFaithful (uses : List MemoryUse) : IsFaithful uses where
  answers name := by rw [(after_keeps uses).answer_eq, after_trees]
  again := by
    rintro before between name c rfl hc hbetween
    rw [load_again hc hbetween]
  apart := by
    rintro before between name other c c' rfl hc hc' hserial
    exact leaveAlone_of_serial_eq hc hc' hserial
  failing name e he := by
    have hloads := (after uses).load_loads name
    generalize (after uses).load name = out at hloads he ⊢
    cases hloads with
    | kept | made => cases he
    | failed => rfl
  count := by
    refine ⟨(after uses).compiled.names.toFinset, fun name => ?_, ?_⟩
    · rw [List.mem_toFinset, Bindings.mem_names_iff, isLoaded_iff]
    · rw [List.toFinset_card_of_nodup (after_keeps uses).nodup]
      exact (List.length_map Prod.fst).symm
  renders fs parser ctx hload fuel := by
    refine ⟨fun p => ?_, fun tree => ?_, fun name => ?_⟩
    · exact seesLatest_of hload (fun hctx h => Program.render_matches hctx h p fuel) uses
    · exact seesLatest_of hload (fun hctx h => Context.renderTree_matches hctx h tree fuel) uses
    · exact seesLatest_of hload (fun hctx h => Context.renderNamed_matches hctx h name fuel) uses

example :
    let l := after [.insert "a" (.template [.rawText "x"]) .anonymous, .load "a", .load "a",
      .load "b", .insert "a" (.template [.rawText "y"]) .anonymous, .load "a"]
    l.compiledCount = 1 ∧ l.serial = 2 := by
  decide +kernel

end MemoryLoader

end Stencil
