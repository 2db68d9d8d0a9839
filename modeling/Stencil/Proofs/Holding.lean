import Stencil.Loader.Store
import Stencil.Proofs.Answers
import Stencil.Proofs.Correctness

/-!
# Loaders that hold templates

A loader has a state, where it keeps what it has found before. As long as it answers the same for
each name all along, a render takes no notice of the state.

* `Context.Holds`: a loader with the templates of a catalog;
* `Context.Holds.exists_library`: the library of a catalog;
* `MemoryLoader.Has.load`, `TemplateStore.memory_holds`: templates in memory.
-/

namespace Stencil

variable {σ : Type}

/-- What is found under each name: a template, or an error. -/
abbrev Catalog := String → Except LoadError Template

/-- In the states `I`, which loading does not lead out of, the loader of the context has the
templates of a catalog. -/
structure Context.Holds (ctx : Context σ) (catalog : Catalog) (I : σ → Prop) : Prop where
  stays : ∀ name st, I st → I (ctx.load name st).2
  found : ∀ {name st t}, I st → catalog name = .ok t →
    ∃ p, (ctx.load name st).1 = .ok p ∧ p.IsCompiledFrom t
  missing : ∀ {name st e}, I st → catalog name = .error e → (ctx.load name st).1 = .error e

/-- In the states `I`, the library has the templates of a catalog. -/
def Library.Holds (library : Library σ) (catalog : Catalog) (I : σ → Prop) : Prop :=
  ∀ name st, I st → ∃ st', library name st = (catalog name, st') ∧ I st'

/-! ### The library of a catalog -/

/-- There is a library with the templates of the catalog, and renders do not tell its loader from
that of the context. -/
theorem Context.Holds.exists_library {ctx : Context σ} {catalog : Catalog} {I : σ → Prop}
    (h : ctx.Holds catalog I) :
    ∃ (library : Library σ) (load : String → σ → Except LoadError Program × σ),
      library.Serves (ctx.withLoad load) ∧ library.Holds catalog I ∧
        ∀ (p : Program) fuel (w : World σ), I w.loader →
          p.render (ctx.withLoad load) fuel w = p.render ctx fuel w := by
  classical
  -- In all other states, nothing is found.
  let load (name : String) (st : σ) : Except LoadError Program × σ :=
    if I st then ctx.load name st else (.error (.notFound name []), st)
  have hload (name : String) (st : σ) (hst : I st) : load name st = ctx.load name st := if_pos hst
  refine ⟨fun name st => if I st then (catalog name, (ctx.load name st).2)
    else (.error (.notFound name []), st), load, ?_, ?_, ?_⟩
  · intro name st
    by_cases hst : I st
    · simp only [if_pos hst]
      cases ht : catalog name with
      | ok t =>
        obtain ⟨p, hp, hcompiled⟩ := h.found hst ht
        exact ⟨p, (hload name st hst).trans (Prod.ext hp rfl), hcompiled⟩
      | error e => exact (hload name st hst).trans (Prod.ext (h.missing hst ht) rfl)
    · simp only [if_neg hst]
      exact if_neg hst
  · intro name st hst
    exact ⟨_, if_pos hst, h.stays name st hst⟩
  · intro p fuel w hw
    exact Program.render_withLoad h.stays hload hw p fuel

/-! ### Templates in memory -/

namespace MemoryLoader

/-- What is found under the names of a table of trees. -/
def catalog (trees : Bindings (Node × Source)) : Catalog := fun name =>
  match trees.get? name with
  | none => .error (.notFound name [])
  | some (tree, source) =>
    match Program.compile tree source with
    | .error e => .error (.compile name e)
    | .ok _ => .ok ⟨tree, source⟩

/-- The loader has the trees of a table and keeps no programs but theirs. -/
structure Has (table : Bindings (Node × Source)) (l : MemoryLoader) : Prop where
  trees : l.trees = table
  compiled : ∀ {name c}, l.compiled.get? name = some c →
    ∃ tree source, table.get? name = some (tree, source) ∧
      Program.compile tree source = .ok c.program

variable {trees : Bindings (Node × Source)} {l : MemoryLoader} {name : String} {tree : Node}
  {source : Source} {p : Program}

theorem catalog_of_compile (htree : trees.get? name = some (tree, source))
    (hp : Program.compile tree source = .ok p) : catalog trees name = .ok ⟨tree, source⟩ := by
  rw [catalog, htree]
  simp only [hp]

theorem Has.set (h : l.Has trees) (htree : trees.get? name = some (tree, source))
    (hp : Program.compile tree source = .ok p) (serial serial' : Nat) :
    Has trees { l with compiled := l.compiled.set name ⟨serial, p⟩, serial := serial' } where
  trees := h.trees
  compiled {other c} hother := by
    by_cases hname : other = name
    · subst hname
      rw [Bindings.get?_set_self] at hother
      cases hother
      exact ⟨tree, source, htree, hp⟩
    · rw [Bindings.get?_set_of_ne _ _ hname] at hother
      exact h.compiled hother

/-- What a loader finds is what the catalog says, whether it was kept or not. -/
theorem Has.load (h : l.Has trees) (name : String) :
    (l.load name).2.Has trees ∧ match catalog trees name with
      | .ok t => ∃ c, (l.load name).1 = .ok c ∧ Program.compile t.tree t.source = .ok c.program
      | .error e => (l.load name).1 = .error e := by
  unfold MemoryLoader.load
  cases hc : l.compiled.get? name with
  | some c =>
    obtain ⟨tree, source, htree, hp⟩ := h.compiled hc
    rw [catalog_of_compile htree hp]
    exact ⟨h, c, rfl, hp⟩
  | none =>
    rw [h.trees]
    cases htree : trees.get? name with
    | none =>
      rw [catalog, htree]
      exact ⟨h, rfl⟩
    | some entry =>
      obtain ⟨tree, source⟩ := entry
      cases hp : Program.compile tree source with
      | error e =>
        simp only [catalog, htree, hp]
        exact ⟨h, trivial⟩
      | ok p =>
        rw [catalog_of_compile htree hp]
        simp only [hp]
        have hset := h.set htree hp l.serial (l.serial + 1)
        rw [h.trees] at hset
        exact ⟨hset, _, rfl, rfl⟩

end MemoryLoader

/-- A store in memory holds its trees, as long as they are not replaced. -/
theorem TemplateStore.memory_holds {fs : FileSystem} {parser : TemplateParser}
    {ctx : Context TemplateStore} (hload : ctx.load = TemplateStore.program fs parser)
    (trees : Bindings (Node × Source)) :
    ctx.Holds (MemoryLoader.catalog trees) fun s => ∃ l, s = .memory l ∧ l.Has trees := by
  have hprogram (name : String) (l : MemoryLoader) : ctx.load name (.memory l) =
      ((l.load name).1.map (·.program), .memory (l.load name).2) := by
    rw [hload]
    rfl
  refine ⟨?_, ?_, ?_⟩
  · rintro name _ ⟨l, rfl, hl⟩
    rw [hprogram]
    exact ⟨_, rfl, (hl.load name).1⟩
  · rintro name _ t ⟨l, rfl, hl⟩ ht
    have hfound := (hl.load name).2
    rw [ht] at hfound
    obtain ⟨c, hc, hp⟩ := hfound
    rw [hprogram, hc]
    exact ⟨c.program, rfl, Program.isCompiledFrom hp⟩
  · rintro name _ e ⟨l, rfl, hl⟩ he
    have hfound := (hl.load name).2
    rw [he] at hfound
    rw [hprogram, hfound]
    rfl

end Stencil
