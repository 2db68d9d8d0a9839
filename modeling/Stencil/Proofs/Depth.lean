import Stencil.Proofs.Moves

/-!
# How deep templates are nested

The limit of nesting is looked at in one place only: before a step enters another template. So it
cuts a render off there, or makes no difference at all.

* `Context.withDepth`: a context with another limit;
* `Frame.Reaches.depth_le`: no frame on the way is nested deeper than the limit;
* `Frame.step_withDepth`, `Frame.exec_withDepth`: under a limit that allows more, steps and frames
  that are not cut off are the same;
* `Program.render_withDepth`: so are renders.
-/

namespace Stencil

variable {σ : Type}

/-- The same context with another limit of nesting, or with none. -/
def Context.withDepth (ctx : Context σ) (depth : Option Nat) : Context σ :=
  { ctx with limits := { ctx.limits with depth } }

@[simp] theorem Context.load_withDepth (ctx : Context σ) (depth : Option Nat) :
    (ctx.withDepth depth).load = ctx.load := rfl

/-- A render has been cut off because templates are nested too deep. -/
def Outcome.IsCut (out : Outcome σ) : Prop :=
  ∃ e, out.1 = .error e ∧ e.head.fault.kind = .limit

namespace Frame

variable {ctx : Context σ} {f g : Frame} {v w : World σ} {most : Nat} {limit : Option Nat}

/-! ### Depths on the way -/

theorem depth_lt_of_room (hmost : ctx.limits.depth = some most)
    (hroom : f.tooDeep? ctx.limits = none) : f.depth < most := by
  by_contra hdepth
  simp only [tooDeep?, hmost, if_pos (Nat.not_lt.1 hdepth)] at hroom
  cases hroom

theorem resume_depth (ctx : Context σ) (f : Frame) (output : String) (resume : Resume) :
    (f.resume ctx output resume).depth = f.depth := by
  cases resume <;> rfl

/-- Only an inner template is nested deeper than its frame, and it is entered only if the limit
allows it. -/
theorem Reaches.depth_le (hmost : ctx.limits.depth = some most) (h : f.Reaches ctx w g v)
    (hf : f.depth ≤ most) : g.depth ≤ most := by
  induction h with
  | refl => exact hf
  | next hs _ ih =>
    cases Moves.of_step hs with
    | next _ hdepth _ => exact ih (hdepth ▸ hf)
  | enter hs _ ih =>
    cases Moves.of_step hs with
    | render _ hroom _ => exact ih (depth_lt_of_room hmost hroom)
  | leave hs _ _ ih =>
    cases Moves.of_step hs with
    | render _ _ _ => exact ih ((resume_depth ctx _ _ _).symm ▸ hf)

/-! ### Steps under another limit -/

theorem tooDeep?_withDepth (ctx : Context σ) (f : Frame) (hlimit : ∀ m ∈ limit, most ≤ m) :
    f.tooDeep? (ctx.withDepth (some most)).limits = some (.limit most) ∨
      f.tooDeep? (ctx.withDepth (some most)).limits = none ∧
        f.tooDeep? (ctx.withDepth limit).limits = none := by
  by_cases hdepth : most ≤ f.depth
  · exact .inl (if_pos hdepth)
  · refine .inr ⟨if_neg hdepth, ?_⟩
    cases limit with
    | none => rfl
    | some m =>
      have hm : most ≤ m := hlimit m rfl
      exact if_neg (by omega)

/-- A step is cut off under one limit, or it is the same under another one. -/
def SameOrCut (f : Frame) (most : Nat) (s t : Step σ) : Prop :=
  (∃ v, s = f.stop v (.limit most)) ∨ t = s

theorem descend_withDepth (hlimit : ∀ m ∈ limit, most ≤ m) (q : Program) (scope : Option Vars)
    (resume : Resume) :
    f.SameOrCut most (f.descend (ctx.withDepth (some most)) w q scope resume)
      (f.descend (ctx.withDepth limit) w q scope resume) := by
  unfold descend
  rcases tooDeep?_withDepth ctx f hlimit with hcut | ⟨hroom, hroom'⟩
  · rw [hcut]
    exact .inl ⟨w, rfl⟩
  · rw [hroom, hroom']
    exact .inr rfl

theorem load_withDepth (name : String) {go go' : Program → World σ → Step σ}
    (hgo : ∀ q v, f.SameOrCut most (go q v) (go' q v)) :
    f.SameOrCut most (f.load (ctx.withDepth (some most)) w name go)
      (f.load (ctx.withDepth limit) w name go') := by
  simp only [load, Context.load_withDepth]
  split
  · exact hgo _ _
  · exact .inr rfl

theorem perform_withDepth (hlimit : ∀ m ∈ limit, most ≤ m) (a : Action) :
    f.SameOrCut most (f.perform (ctx.withDepth (some most)) w a)
      (f.perform (ctx.withDepth limit) w a) := by
  cases a with
  | append v => cases v <;> exact .inr rfl
  | inclusion r name =>
    rw [perform, perform]
    exact load_withDepth name fun q v => descend_withDepth hlimit q _ _
  | inclusionWith r bindings name =>
    rw [perform, perform]
    refine load_withDepth name fun q v => ?_
    split
    · exact descend_withDepth hlimit q _ _
    · exact .inr rfl
    · exact .inr rfl
  | wrap name before content =>
    rw [perform, perform]
    exact load_withDepth name fun q v => descend_withDepth hlimit q _ _
  | _ => exact .inr rfl

theorem step_withDepth (ctx : Context σ) (f : Frame) (hlimit : ∀ m ∈ limit, most ≤ m)
    (w : World σ) :
    f.SameOrCut most (f.step (ctx.withDepth (some most)) w) (f.step (ctx.withDepth limit) w) := by
  refine step_rel ?_ rfl rfl fun e a => perform_withDepth hlimit a
  exact fun _ => .inr rfl

theorem step_eq_of_withDepth (hlimit : ∀ m ∈ limit, most ≤ m) {s : Step σ}
    (hs : f.step (ctx.withDepth (some most)) w = s) (hcut : ∀ v, s ≠ f.stop v (.limit most)) :
    f.step (ctx.withDepth limit) w = s := by
  rcases f.step_withDepth ctx hlimit w with ⟨v, hstop⟩ | hsame
  · exact absurd (hs.symm.trans hstop) (hcut v)
  · exact hsame.trans hs

/-! ### Frames under another limit -/

/-- A frame that is not cut off under one limit ends in the same way under one that allows more. -/
theorem exec_withDepth (hlimit : ∀ m ∈ limit, most ≤ m) {fuel : Nat} {out : Outcome σ}
    (h : f.exec (ctx.withDepth (some most)) fuel w = some out) (hout : ¬out.IsCut) :
    f.exec (ctx.withDepth limit) fuel w = some out := by
  replace h := ComesTo.of_exec h
  apply ComesTo.exec
  induction h with
  | next hs _ ih => exact .next (step_eq_of_withDepth hlimit hs fun _ => nofun) (ih hout)
  | finish hs => exact .finish (step_eq_of_withDepth hlimit hs fun _ => nofun)
  | fault hs =>
    refine .fault (step_eq_of_withDepth hlimit hs fun v hstop => hout ?_)
    cases hstop
    exact ⟨_, rfl, rfl⟩
  | failure hs _ ih =>
    refine .failure (step_eq_of_withDepth hlimit hs fun _ => nofun) (ih ?_)
    -- The outer error has the fault of the inner one.
    rintro ⟨e, ⟨⟩, hkind⟩
    exact hout ⟨_, rfl, hkind⟩
  | success hs _ _ ihinner ih =>
    refine .success (step_eq_of_withDepth hlimit hs fun _ => nofun) (ihinner ?_) (ih hout)
    rintro ⟨e, ⟨⟩, -⟩

end Frame

/-! ### Renders -/

/-- The limit of nesting only ever cuts a render off. No template is entered deeper than it says;
and if a render is not cut off, it is the same under any limit that allows more, and under none: it
ends with the same output or error, the same variables and the same record. -/
theorem Program.render_withDepth (ctx : Context σ) (p : Program) (most : Nat) (w : World σ) :
    (∀ {f v}, (Frame.start p 0).Reaches (ctx.withDepth (some most))
        (w.note (.enter p.source.name 0)) f v → f.depth ≤ most) ∧
      ∀ {fuel out}, p.render (ctx.withDepth (some most)) fuel w = some out → ¬out.IsCut →
        ∀ limit : Option Nat, (∀ m ∈ limit, most ≤ m) →
          p.render (ctx.withDepth limit) fuel w = some out := by
  refine ⟨fun h => h.depth_le rfl (Nat.zero_le most), fun {fuel out} h hout limit hlimit => ?_⟩
  unfold Program.render at h ⊢
  split at h
  · cases h
  · next result after hexec =>
    cases h
    rw [Frame.exec_withDepth hlimit hexec hout]

/-- The context that finds one program under all names. -/
def Context.ofProgram (p : Program) : Context Unit where
  load _ _ := (.ok p, ())

namespace Program

/-- A program that writes a text. -/
def stating : Program where
  instructions := #[⟨.appendText, 0, 0⟩, ⟨.finish, 0, 0⟩]
  pool := #[.str "inside"]
  lines := #[1, 1]
  registerCount := 0
  loopDepth := 0
  source := .anonymous

/-- A program that includes another one. -/
def including : Program where
  instructions := #[⟨.loadConst, 0, 0⟩, ⟨.inclusion, 0, 0⟩, ⟨.append, 0, 0⟩, ⟨.finish, 0, 0⟩]
  pool := #[.str "inner"]
  lines := #[1, 1, 1, 1]
  registerCount := 1
  loopDepth := 0
  source := .anonymous

/-- With room for one template inside another, the inner one is entered, and more room changes
nothing. -/
theorem render_including_withDepth :
    (∃ f v, (Frame.start including 0).Reaches ((Context.ofProgram stating).withDepth (some 1))
        (({ loader := () } : World Unit).note (.enter including.source.name 0)) f v ∧
      f.program = stating ∧ f.depth ≤ 1) ∧
      ∃ out, including.render ((Context.ofProgram stating).withDepth (some 1)) 10 { loader := () } =
          some out ∧ ¬out.IsCut ∧ (∀ m ∈ (none : Option Nat), 1 ≤ m) ∧
        including.render ((Context.ofProgram stating).withDepth none) 10 { loader := () } =
          some out := by
  obtain ⟨hdepth, hsame⟩ :=
    render_withDepth (Context.ofProgram stating) including 1 { loader := () }
  have hinner : (Frame.start including 0).Reaches ((Context.ofProgram stating).withDepth (some 1))
      (({ loader := () } : World Unit).note (.enter including.source.name 0))
      (.start stating 1) _ :=
    .next rfl (.enter rfl (.refl _ _))
  have hend : including.render ((Context.ofProgram stating).withDepth (some 1)) 10
      { loader := () } = some (.ok "inside", _) := rfl
  have hcut (v : World Unit) : ¬Outcome.IsCut ((.ok "inside", v) : Outcome Unit) := by
    rintro ⟨e, ⟨⟩, -⟩
  exact ⟨⟨_, _, hinner, rfl, hdepth hinner⟩, _, hend, hcut _, nofun, hsame hend (hcut _) none nofun⟩

end Program

end Stencil
