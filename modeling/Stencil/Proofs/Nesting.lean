import Stencil.Proofs.Instructions

/-!
# Templates inside templates

A template inside another one is rendered in a frame of its own. If that frame ends as the act that
stands for it, the outer frame goes on as the act does that renders the inner template.

* `Program.IsCompiledFrom`: a program and the template it is compiled from;
* `Frame.Agrees`: a frame ends as an act does;
* `Site.Ready`: the frames of all templates in the library end as the site says;
* `Performs.render`: a step that asks for another template.
-/

namespace Stencil

variable {σ α : Type}

/-- A program is what a template compiles to. How long its last output was does not matter. -/
def Program.IsCompiledFrom (p : Program) (t : Template) : Prop :=
  Program.compile t.tree t.source = .ok { p with outputHint := 0 }

/-- A frame ends as an act does, and not in `n` steps if the act does not end. -/
def Frame.Agrees (ctx : Context σ) (n : Nat) (x : Act σ String) (f : Frame) (w : World σ) : Prop :=
  match x w.silent with
  | none => f.exec ctx n w = none
  | some result => ∃ m out, f.exec ctx m w = some out ∧ out.seen = result

/-- The loader of the context hands out the programs of the templates in the library. -/
def Library.Serves (library : Library σ) (ctx : Context σ) : Prop :=
  ∀ name st, match library name st with
    | (.ok t, st') => ∃ p, ctx.load name st = (.ok p, st') ∧ p.IsCompiledFrom t
    | (.error e, st') => ctx.load name st = (.error e, st')

/-- What a site says about templates and loops holds of the first `n` steps of a frame. -/
structure Site.Ready (site : Site σ) (n : Nat) : Prop where
  fuel : n ≤ site.fuel
  serves : site.library.Serves site.ctx
  agrees : ∀ t p depth w, p.IsCompiledFrom t →
    (Frame.start p depth).Agrees site.ctx (n - 1) (site.enter t depth) w

/-! ### The step that asks for a template -/

/-- The world behind a template inside another one, which goes on with the variables that were kept
for it. -/
def World.restored (w : World σ) (kept : Option Vars) : World σ :=
  match kept with
  | some vars => { w with vars }
  | none => w

theorem World.silent_outer (w : World σ) (kept : Option Vars) (depth : Nat) :
    (w.outer kept depth).silent = w.silent.restored kept := by
  have hnote := World.silent_note w (.leave depth)
  cases kept with
  | none => exact hnote
  | some vars =>
    show ({ (w.note (.leave depth)).silent with vars } : World σ) = _
    rw [hnote]
    rfl

section Steps

variable {ctx : Context σ} {n m : Nat} {f g : Frame} {v w : World σ} {p : Program}
variable {kept : Option Vars} {resume : Resume}

/-- A frame goes on behind a template inside it. -/
theorem Leads.render (hs : f.step ctx w = .render p kept g resume v) {output : String}
    {after : World σ}
    (hm : (Frame.start p (g.depth + 1)).exec ctx m (v.note (.enter p.source.name (g.depth + 1))) =
      some (.ok output, after)) :
    Leads ctx f w (g.resume ctx output resume) (after.outer kept (g.depth + 1)) where
  ends {k} out hk := by
    refine ⟨max m k + 1, ?_⟩
    rw [Frame.exec, hs]
    simp only [Frame.exec_mono (Nat.le_max_left m k) hm]
    exact Frame.exec_mono (Nat.le_max_right m k) hk
  goes {k} hk := by
    cases k with
    | zero => rfl
    | succ k =>
      rw [Frame.exec, hs]
      dsimp only
      split
      · rfl
      · next hk' =>
        cases Frame.exec_unique hm hk'
        exact Frame.exec_eq_none (Nat.le_succ k) hk
      · next hk' => cases Frame.exec_unique hm hk'

/-- A step that asks for a template does what stands for the template. -/
theorem Matches.render (hs : f.step ctx w = .render p kept f resume v) {x : Act σ String}
    (ha : (Frame.start p (f.depth + 1)).Agrees ctx (n - 1) x
      (v.note (.enter p.source.name (f.depth + 1)))) :
    Matches ctx n
      (match x v.silent with
        | none => none
        | some (result, after) =>
          some (result.mapError (Blame.under f.program.source (f.program.lineAt f.pc)),
            after.restored kept))
      f w fun output g => g = f.resume ctx output resume := by
  unfold Frame.Agrees at ha
  rw [World.silent_note] at ha
  split at ha
  · next hx =>
    rw [hx]
    cases n with
    | zero => rfl
    | succ n =>
      show f.exec ctx (n + 1) w = none
      rw [Frame.exec, hs]
      dsimp only
      rw [show Frame.exec ctx n _ _ = none from ha]
  · next result hx =>
    rw [hx]
    obtain ⟨m, ⟨inner, after⟩, hm, rfl⟩ := ha
    cases inner with
    | ok output => exact ⟨_, _, .render hs hm, World.silent_outer after kept _, rfl⟩
    | error e =>
      refine ⟨m + 1, (.error (e.under f.program f.pc), after.outer kept (f.depth + 1)), ?_, ?_⟩
      · rw [Frame.exec, hs]
        simp only [hm]
      · rw [Outcome.seen, World.silent_outer]
        rfl

end Steps

section Site

variable {site : Site σ} {n : Nat} {f : Frame} {v w : World σ} {line : UInt32}
variable {scope : Option (Vars → Vars)} {resume : Resume}

/-- Going one template deeper. -/
theorem Matches.visit (hready : site.Ready n) (hdepth : f.depth = site.depth)
    (hsource : f.program.source = site.source) (hline : f.program.lineAt f.pc = line)
    {t : Template} {p : Program} (hp : p.IsCompiledFrom t)
    (hs : f.step site.ctx w = f.descend site.ctx v p (scope.map (· v.vars)) resume) :
    Matches site.ctx n
      ((match scope with
        | none => site.visit line t
        | some change => do Act.apart (change (← Act.vars)) (site.visit line t)) v.silent)
      f w fun output g => g = f.resume site.ctx output resume := by
  -- The frame and the site compare the same depth with the same limit.
  have hdeep : f.tooDeep? site.ctx.limits = site.tooDeep? := by
    cases hlimit : site.ctx.limits.depth <;>
      simp only [Frame.tooDeep?, Site.tooDeep?, hlimit, hdepth]
  simp only [Frame.descend, hdeep] at hs
  cases hfault : site.tooDeep? with
  | some fault =>
    simp only [hfault] at hs
    have hm := Matches.fault (n := n)
      (Q := fun output g => g = f.resume site.ctx output resume) hs
    rw [hsource, hline] at hm
    cases scope <;> simp only [Site.visit, hfault] <;> exact hm
  | none =>
    simp only [hfault] at hs
    cases scope with
    | none =>
      have hm := Matches.render (n := n) hs (hready.agrees t p (f.depth + 1) _ hp)
      rw [hsource, hline, hdepth] at hm
      simp only [Site.visit, hfault]
      exact hm
    | some change =>
      have hm := Matches.render (n := n) hs (hready.agrees t p (f.depth + 1) _ hp)
      have hsilent : ({ v with vars := change v.vars } : World σ).silent =
          { v.silent with vars := change v.vars } := rfl
      rw [hsource, hline, hdepth, hsilent] at hm
      simp only [Site.visit, hfault]
      show Matches site.ctx n (Act.apart (change v.vars) _ v.silent) f w _
      unfold Act.apart
      dsimp only
      cases hx : site.enter t (site.depth + 1) { v.silent with vars := change v.vars } with
      | none =>
        rw [hx] at hm
        exact hm
      | some r =>
        rw [hx] at hm
        exact hm

theorem Site.load_eq {path : Value} (hpath : path.isNull = false)
    {result : Except LoadError Template} {loader : σ}
    (h : site.library path.text w.loader = (result, loader)) :
    site.load line path w = match result with
      | .ok t => some (.ok t, { w with loader })
      | .error e => some (.error [⟨.load (.load e), site.source, line⟩], { w with loader }) := by
  have hnull : ¬path.isNull = true := by
    rw [hpath]
    exact Bool.false_ne_true
  have hfetch : site.fetch path.text w = some (.ok result, { w with loader }) := by
    simp only [Site.fetch, h]
  refine (congrArg (fun x : Act σ Template => x w) (if_neg hnull)).trans ?_
  refine (Act.bind_of_ok hfetch _).trans ?_
  cases result <;> rfl

/-- A step that asks for the template that a value names. -/
theorem Performs.render (hready : site.Ready n) (hdepth : f.depth = site.depth)
    (hsource : f.program.source = site.source) (hline : f.program.lineAt f.pc = line)
    {path : Value} (hpath : path.isNull = false) (hv : v.silent = w.silent)
    (hs : f.step site.ctx w = f.load site.ctx v path.text fun p v =>
      f.descend site.ctx v p (scope.map (· v.vars)) resume) :
    Performs site.ctx n (site.render line scope path) f w fun output g =>
      g = f.resume site.ctx output resume := by
  have hserves := hready.serves path.text w.loader
  have hloader : ∀ loader, ({ v with loader } : World σ).silent = { w.silent with loader } := by
    intro loader
    rw [← hv]
    rfl
  have hvw : v.loader = w.loader := by
    show v.silent.loader = w.silent.loader
    rw [hv]
  unfold Performs Site.render
  rcases hl : site.library path.text w.loader with ⟨e | t, loader⟩
  · rw [hl] at hserves
    rw [Act.bind_of_error (Site.load_eq (w := w.silent) hpath hl)]
    simp only [Frame.load, hvw, show site.ctx.load path.text w.loader = _ from hserves] at hs
    have hm := Matches.fault (n := n)
      (Q := fun output g => g = f.resume site.ctx output resume) hs
    rw [hsource, hline, hloader] at hm
    exact hm
  · rw [hl] at hserves
    obtain ⟨p, hp, hcompiled⟩ := hserves
    rw [Act.bind_of_ok (Site.load_eq (w := w.silent) hpath hl)]
    simp only [Frame.load, hvw, hp] at hs
    rw [← hloader]
    exact Matches.visit hready hdepth hsource hline hcompiled hs

end Site

end Stencil
