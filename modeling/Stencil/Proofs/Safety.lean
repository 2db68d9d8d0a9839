import Stencil.Proofs.Correctness
import Stencil.Proofs.Faults

/-!
# Compiled programs are never at fault

An error of a compiled program is never due to the program itself: nothing that it reads is missing
or of the wrong kind, and it never leaves its instructions. Only a number that is too large to be a
value could stop it, and such a number has to be measured first.

* `Context.exists_library`: a loader of compiled programs as a library;
* `Program.render_fault_kind`: no link of an error is internal;
* `Frame.Reaches.program`: the programs of the frames on the way.
-/

namespace Stencil

variable {σ : Type}

/-- A loader that hands out compiled programs only is one of templates. -/
theorem Context.exists_library {ctx : Context σ} {P : Template → Prop}
    (hload : ∀ name st p st', ctx.load name st = (.ok p, st') → ∃ t, p.IsCompiledFrom t ∧ P t) :
    ∃ library : Library σ, library.Serves ctx ∧
      ∀ {name st t st'}, library name st = (.ok t, st') → P t := by
  have hchoice : ∀ name st, ∃ r : Except LoadError Template × σ,
      (∀ t st', r = (.ok t, st') →
        (∃ p, ctx.load name st = (.ok p, st') ∧ p.IsCompiledFrom t) ∧ P t) ∧
      ∀ e st', r = (.error e, st') → ctx.load name st = (.error e, st') := by
    intro name st
    rcases hl : ctx.load name st with ⟨e | p, st'⟩
    · exact ⟨(.error e, st'), by rintro _ _ ⟨⟩, by rintro _ _ ⟨⟩; rfl⟩
    · obtain ⟨t, hp, ht⟩ := hload name st p st' hl
      exact ⟨(.ok t, st'), by rintro _ _ ⟨⟩; exact ⟨⟨p, rfl, hp⟩, ht⟩, by rintro _ _ ⟨⟩⟩
  -- A program does not say which template it is compiled from, so that one has to be chosen.
  choose library hok herror using hchoice
  refine ⟨library, fun name st => ?_, fun {name st t st'} h => (hok name st t st' h).2⟩
  rcases hl : library name st with ⟨e | t, st'⟩
  · exact herror name st e st' hl
  · exact (hok name st t st' hl).1

/-- No link of the error of a compiled program is internal, whatever the variables, the functions
and the limits are, as long as the loader hands out compiled programs and the numbers that are
measured on the way are less than 2⁶³. -/
theorem Program.render_fault_kind {ctx : Context σ}
    (hload : ∀ name st p st', ctx.load name st = (.ok p, st') → ∃ t, p.IsCompiledFrom t)
    {tree : Node} {source : Source} {p : Program} (hp : Program.compile tree source = .ok p)
    {w : World σ}
    (hmeasured : ∀ {f v}, (Frame.start p 0).Reaches ctx (w.note (.enter p.source.name 0)) f v →
      ∀ {m}, f.Measures m → m < 2 ^ 63)
    {fuel : Nat} {e : RenderError} {v : World σ} (h : p.render ctx fuel w = some (.error e, v)) :
    ∀ l ∈ e.links, l.fault.kind ≠ .internal := by
  obtain ⟨library, hserves, -⟩ := Context.exists_library (P := fun _ => True)
    fun name st p st' hl => (hload name st p st' hl).imp fun _ ht => ⟨ht, trivial⟩
  have hordinary : ∀ l ∈ e.links, l.fault.IsOrdinary := by
    have hobeys := library.render_obeys (Policy.any_suits ctx) hserves.behaves fuel
      ((Program.isCompiledFrom hp).behaves tree.hasTexts_any) 0 w.silent fun _ _ => trivial
    rw [Program.render_seen hserves hp h] at hobeys
    exact fun l hl => hobeys l.blame (List.mem_map_of_mem hl)
  obtain ⟨result, hexec⟩ : ∃ v, Frame.exec ctx fuel (.start p 0)
      (w.note (.enter p.source.name 0)) = some (.error e, v) := by
    unfold Program.render at h
    split at h
    · cases h
    · next hexec =>
      cases h
      exact ⟨_, hexec⟩
  obtain ⟨g, u, fault, p', pc, u', hreach, hstep, hfault⟩ := Frame.exec_error hexec
  intro l hl
  -- All links have the fault of one step, which has measured a number if that is one of excess.
  refine (hordinary l hl).resolve_right fun hexcess => ?_
  rw [hfault l hl] at hexcess
  obtain ⟨m, hm, hlarge⟩ := Frame.measures_of_excess hstep hexcess
  exact absurd (hmeasured hreach hm) (Nat.not_lt.2 hlarge)

/-! ### Programs on the way -/

namespace Frame

/-- The programs of the frames on the way are as `P` says, if the first one is and those of the
loader are. -/
theorem Reaches.program {ctx : Context σ} {P : Program → Prop}
    (hload : ∀ name st p st', ctx.load name st = (.ok p, st') → P p) {f g : Frame} {w v : World σ}
    (h : f.Reaches ctx w g v) (hf : P f.program) : P g.program := by
  induction h with
  | refl => exact hf
  | next hs _ ih => exact ih ((continues_of_next hs).program ▸ hf)
  | enter hs _ ih =>
    obtain ⟨name, st, st', hl⟩ := loaded_of_render hs
    exact ih (hload name st _ st' hl)
  | leave hs _ _ ih =>
    refine ih ?_
    rw [(resume_continues _ _ _ _).program, (continues_of_render hs).program]
    exact hf

end Frame

/-! ### A page that fails -/

/-- Does a program measure anything? -/
def Program.measures (p : Program) : Bool :=
  p.instructions.any fun i => i.op == .markOutput || i.op == .loopCount || i.op == .loopIndex

theorem Frame.not_measures {f : Frame} (h : f.program.measures = false) (m : Nat) :
    ¬f.Measures m := by
  rintro ⟨i, hi, hop⟩
  have hmem : i ∈ f.program.instructions := Array.mem_of_getElem? hi
  unfold Program.measures at h
  have hi := (Array.any_eq_false'.1 h) i hmem
  rcases hop with ⟨hop, -⟩ | ⟨l, -, ⟨hop, -⟩ | ⟨hop, -⟩⟩ <;> simp [hop] at hi

theorem Context.ofTemplate_load {t : Template} {name : String} {st st' : Unit} {p : Program}
    (h : (Context.ofTemplate t).load name st = (.ok p, st')) :
    Program.compile t.tree t.source = .ok p := by
  simp only [Context.ofTemplate] at h
  split at h
  · next hp =>
    cases h
    exact hp
  · cases h

/-- A template that divides by zero. -/
def Template.failing : Template :=
  ⟨.template [.expression (.binary .divide (.int 1) (.int 0))], .anonymous⟩

theorem Program.measures_of_compile {tree : Node} {source : Source} {p : Program}
    (hp : Program.compile tree source = .ok p)
    (h : (Program.compile tree source).toOption.all fun p => !p.measures) : p.measures = false := by
  rw [hp] at h
  exact Bool.not_eq_true' _ ▸ h

theorem Program.render_failing :
    ∃ p fuel e v, Program.compile .page .anonymous = .ok p ∧
      p.render (.ofTemplate .failing) fuel { loader := () } = some (.error e, v) ∧
      ∀ l ∈ e.links, l.fault.kind ≠ .internal := by
  have hok : (Program.compile .page .anonymous).isOk := by decide +kernel
  have hserves := Library.ofTemplate_serves (t := .failing) (by decide +kernel)
  match hp : Program.compile .page .anonymous with
  | .error e =>
    rw [hp] at hok
    cases hok
  | .ok p =>
    have hrender : (Library.ofTemplate .failing).render (.ofTemplate .failing) 2
        ⟨.page, .anonymous⟩ 0 { loader := () } = some (.error _, _) := rfl
    obtain ⟨m, ⟨e | output, v⟩, hm, hseen⟩ := Program.render_ends
      (w := { loader := () }) hserves hp hrender
    · refine ⟨p, m, e, v, rfl, hm, Program.render_fault_kind (fun name st q st' hl => ?_) hp ?_ hm⟩
      · exact ⟨.failing, Program.isCompiledFrom (Context.ofTemplate_load hl)⟩
      · intro f u hreach n hn
        refine absurd hn (Frame.not_measures (hreach.program (P := fun q => q.measures = false)
          (fun name st q st' hl => ?_) ?_) n)
        · exact Program.measures_of_compile (Context.ofTemplate_load hl) (by decide +kernel)
        · exact Program.measures_of_compile hp (by decide +kernel)
    · cases hseen

end Stencil
