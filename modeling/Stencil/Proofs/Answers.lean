import Stencil.Renderer

/-!
# Loaders with the same answers

A loader may have found different things before and still answer the same for every name; and so may
another loader. Renders do not tell such loaders and states apart.

* `Context.AnswersAlike`: loaders and states with the same answers now and later;
* `World.Matches`: worlds that differ in the state of the loader only;
* `Outcome.shown`: what can be seen of a render without looking at the loader;
* `Frame.step_matches`, `Frame.exec_matches`: steps and frames in such worlds;
* `Program.render_matches`, `Context.renderTree_matches`, `Context.renderNamed_matches`: renders in
  such worlds;
* `Program.render_withLoad`: only the states that a loader comes to matter.
-/

namespace Stencil

variable {σ : Type}

/-- The same context with another loader. -/
def Context.withLoad (ctx : Context σ) (load : String → σ → Except LoadError Program × σ) :
    Context σ := { ctx with load }

section WithLoad

variable (ctx : Context σ) (load : String → σ → Except LoadError Program × σ)

@[simp] theorem Context.withLoad_hosts : (ctx.withLoad load).hosts = ctx.hosts := rfl

@[simp] theorem Context.withLoad_functions : (ctx.withLoad load).functions = ctx.functions := rfl

@[simp] theorem Context.withLoad_limits : (ctx.withLoad load).limits = ctx.limits := rfl

@[simp] theorem Context.withLoad_load : (ctx.withLoad load).load = load := rfl

end WithLoad

/-- In states that `R` relates, the loader of the context and `load` give the same answer for each
name, and they come to states that `R` relates. -/
def Context.AnswersAlike (ctx : Context σ) (load : String → σ → Except LoadError Program × σ)
    (R : σ → σ → Prop) : Prop :=
  ∀ st st', R st st' → ∀ name,
    (ctx.load name st).1 = (load name st').1 ∧ R (ctx.load name st).2 (load name st').2

/-- A loader that does the same in the states `I`, which loading does not lead out of, gives the
same answers in equal ones of them. -/
theorem Context.answersAlike_of_eq {ctx : Context σ} {I : σ → Prop}
    {load : String → σ → Except LoadError Program × σ}
    (hstays : ∀ name st, I st → I (ctx.load name st).2)
    (hload : ∀ name st, I st → load name st = ctx.load name st) :
    ctx.AnswersAlike load fun st st' => st = st' ∧ I st := by
  rintro st _ ⟨rfl, hst⟩ name
  rw [hload name st hst]
  exact ⟨rfl, rfl, hstays name st hst⟩

/-! ### Worlds -/

namespace World

/-- The worlds have the same variables and the same record, and their loaders are related. -/
structure Matches (R : σ → σ → Prop) (w v : World σ) : Prop where
  vars : w.vars = v.vars
  entries : w.entries = v.entries
  loader : R w.loader v.loader

namespace Matches

variable {R : σ → σ → Prop} {w v : World σ}

theorem record (h : w.Matches R v) (e : Entry) : (w.record e).Matches R (v.record e) where
  vars := h.vars
  entries := congrArg (·.push e) h.entries
  loader := h.loader

theorem note (h : w.Matches R v) (e : Event) : (w.note e).Matches R (v.note e) :=
  h.record (.event e)

theorem warn (h : w.Matches R v) (p : Program) (pc : Nat) (caution : Caution) :
    (w.warn p pc caution).Matches R (v.warn p pc caution) :=
  (h.record _).note _

theorem warnAll (h : w.Matches R v) (p : Program) (pc : Nat) (cautions : List Caution) :
    (w.warnAll p pc cautions).Matches R (v.warnAll p pc cautions) := by
  induction cautions generalizing w v with
  | nil => exact h
  | cons c cs ih => exact ih (h.warn p pc c)

theorem withVars (h : w.Matches R v) (vars : Vars) :
    World.Matches R { w with vars } { v with vars } where
  vars := rfl
  entries := h.entries
  loader := h.loader

theorem withLoader (h : w.Matches R v) {st st' : σ} (hst : R st st') :
    World.Matches R { w with loader := st } { v with loader := st' } where
  vars := h.vars
  entries := h.entries
  loader := hst

theorem outer (h : w.Matches R v) (kept : Option Vars) (depth : Nat) :
    (w.outer kept depth).Matches R (v.outer kept depth) := by
  cases kept with
  | none => exact h.note _
  | some vars => exact (h.note _).withVars vars

end Matches

end World

/-- The outcomes are the same result in worlds that differ in the state of the loader only. -/
def Outcome.Matches {ε α : Type} (R : σ → σ → Prop) (a b : Except ε α × World σ) : Prop :=
  a.1 = b.1 ∧ a.2.Matches R b.2

namespace Outcome

variable {ε α : Type} {R : σ → σ → Prop}

/-- What a render shows: its result, the variables and the record, but not the loader. -/
def shown (out : Except ε α × World σ) : Except ε α × Vars × Array Entry :=
  (out.1, out.2.vars, out.2.entries)

theorem Matches.map_shown {a b : Option (Except ε α × World σ)} (h : Option.Rel (Matches R) a b) :
    a.map shown = b.map shown := by
  cases h with
  | none => rfl
  | some h => simp [shown, h.1, h.2.vars, h.2.entries]

/-- Where only equal states are related, outcomes are equal. -/
theorem Matches.eq {a b : Option (Except ε α × World σ)} (h : Option.Rel (Matches R) a b)
    (heq : ∀ st st', R st st' → st = st') : a = b := by
  cases h with
  | none => rfl
  | @some a b h =>
    obtain ⟨result, ⟨vars, loader, entries⟩⟩ := a
    obtain ⟨_, ⟨_, loader', _⟩⟩ := b
    obtain ⟨rfl, rfl, rfl, hloader⟩ := h
    obtain rfl : loader = loader' := heq _ _ hloader
    rfl

end Outcome

/-! ### Steps -/

/-- The steps are the same in worlds that differ in the state of the loader only. -/
inductive Step.Matches (R : σ → σ → Prop) : Step σ → Step σ → Prop
  | next {f : Frame} {w v : World σ} : w.Matches R v → Step.Matches R (.next f w) (.next f v)
  | finish {output : String} {w v : World σ} :
    w.Matches R v → Step.Matches R (.finish output w) (.finish output v)
  | fault {fault : Fault} {p : Program} {pc : Nat} {w v : World σ} :
    w.Matches R v → Step.Matches R (.fault fault p pc w) (.fault fault p pc v)
  | render {p : Program} {kept : Option Vars} {f : Frame} {resume : Resume} {w v : World σ} :
    w.Matches R v → Step.Matches R (.render p kept f resume w) (.render p kept f resume v)

namespace Frame

variable {ctx : Context σ} {load : String → σ → Except LoadError Program × σ} {R : σ → σ → Prop}
  {f : Frame} {w v : World σ}

theorem descend_matches (h : w.Matches R v) (p : Program) (scope : Option Vars) (resume : Resume) :
    (f.descend ctx w p scope resume).Matches R
      (f.descend (ctx.withLoad load) v p scope resume) := by
  unfold descend
  rw [Context.withLoad_limits]
  split
  · exact .fault h
  · cases scope with
    | none => exact .render h
    | some vars =>
      dsimp only
      rw [h.vars]
      exact .render (h.withVars vars)

/-- A template that is loaded is the same one, and what is done with it may depend on the
variables. -/
theorem load_matches (hctx : ctx.AnswersAlike load R) (h : w.Matches R v) (name : String)
    {go go' : Program → World σ → Step σ}
    (hgo : ∀ p {w v : World σ}, w.Matches R v → (go p w).Matches R (go' p v)) :
    (f.load ctx w name go).Matches R (f.load (ctx.withLoad load) v name go') := by
  obtain ⟨hanswer, hstate⟩ := hctx _ _ h.loader name
  unfold Frame.load
  rw [Context.withLoad_load]
  generalize ctx.load name w.loader = found, load name v.loader = found' at hanswer hstate ⊢
  obtain ⟨answer, st⟩ := found
  obtain ⟨_, st'⟩ := found'
  cases hanswer
  cases answer with
  | ok p => exact hgo p (h.withLoader hstate)
  | error e => exact .fault (h.withLoader hstate)

theorem perform_matches (hctx : ctx.AnswersAlike load R) (h : w.Matches R v) (a : Action) :
    (f.perform ctx w a).Matches R (f.perform (ctx.withLoad load) v a) := by
  cases a with
  | store cautions r x => exact .next (h.warnAll _ _ cautions)
  | append x =>
    cases x with
    | null => exact .next (h.warn _ _ _)
    | _ => exact .next h
  | assign name x =>
    simp only [perform, h.vars]
    exact .next (h.withVars _)
  | enter r first rest => exact .next (h.note _)
  | leave => exact .next (h.note _)
  | call r name function args =>
    simp only [perform]
    split
    · exact .next (h.record _)
    · exact .fault (h.record _)
  | inclusion r name =>
    simp only [perform]
    exact load_matches hctx h name fun p _ _ h => descend_matches h p _ _
  | inclusionWith r bindings name =>
    simp only [perform]
    refine load_matches hctx h name fun p _ _ h => ?_
    rw [h.vars]
    split
    · exact descend_matches h p _ _
    · exact .fault h
    · exact .fault h
  | wrap name before content =>
    simp only [perform]
    refine load_matches hctx h name fun p _ _ h => ?_
    rw [h.vars]
    exact descend_matches h p _ _
  | finish => exact .finish h
  | _ => exact .next h

/-- A step does not tell the loaders and their states apart. -/
theorem step_matches (hctx : ctx.AnswersAlike load R) (h : w.Matches R v) (f : Frame) :
    (f.step ctx w).Matches R (f.step (ctx.withLoad load) v) := by
  unfold step
  split
  · exact .fault h
  · next i _ =>
    have hnote := h.note (.instruction f.pc i.op f.loops.length)
    dsimp only
    rw [Context.withLoad_hosts, Context.withLoad_functions, hnote.vars]
    split
    · exact perform_matches hctx hnote _
    · exact .fault hnote

/-- A frame does not tell the loaders and their states apart: it comes to an end with both or with
none, and the ends are alike. -/
theorem exec_matches (hctx : ctx.AnswersAlike load R) (fuel : Nat) (f : Frame)
    (h : w.Matches R v) :
    Option.Rel (Outcome.Matches R) (f.exec ctx fuel w) (f.exec (ctx.withLoad load) fuel v) := by
  induction fuel generalizing f w v with
  | zero => exact .none
  | succ fuel ih =>
    have hstep := step_matches hctx h f
    rw [exec, exec]
    generalize f.step ctx w = s, f.step (ctx.withLoad load) v = t at hstep ⊢
    cases hstep with
    | next h => exact ih _ h
    | finish h => exact .some ⟨rfl, h⟩
    | fault h => exact .some ⟨rfl, h⟩
    | @render p kept g resume w v h =>
      -- The template inside ends alike, and so the frame goes on in worlds that are alike again.
      have hinner := ih (.start p (g.depth + 1)) (h.note (.enter p.source.name (g.depth + 1)))
      dsimp only
      generalize Frame.exec ctx fuel _ (w.note _) = out,
        Frame.exec (ctx.withLoad load) fuel _ (v.note _) = out' at hinner ⊢
      cases hinner with
      | none => exact .none
      | @some a b hends =>
        obtain ⟨result, w⟩ := a
        obtain ⟨_, v⟩ := b
        obtain ⟨rfl, h⟩ := hends
        cases result with
        | ok output => exact ih _ (h.outer _ _)
        | error e => exact .some ⟨rfl, h.outer _ _⟩

end Frame

/-! ### Renders -/

section Renders

variable {ctx : Context σ} {load : String → σ → Except LoadError Program × σ} {R : σ → σ → Prop}
  {w v : World σ}

theorem Program.render_matches (hctx : ctx.AnswersAlike load R) (h : w.Matches R v) (p : Program)
    (fuel : Nat) :
    Option.Rel (Outcome.Matches R) (p.render ctx fuel w)
      (p.render (ctx.withLoad load) fuel v) := by
  have hexec := Frame.exec_matches hctx fuel (.start p 0) (h.note (.enter p.source.name 0))
  unfold Program.render
  generalize Frame.exec ctx fuel _ (w.note _) = out,
    Frame.exec (ctx.withLoad load) fuel _ (v.note _) = out' at hexec ⊢
  cases hexec with
  | none => exact .none
  | some hends => exact .some ⟨hends.1, hends.2.note _⟩

/-- What a loader does in states that it never comes to makes no difference. -/
theorem Program.render_withLoad {I : σ → Prop} (hstays : ∀ name st, I st → I (ctx.load name st).2)
    (hload : ∀ name st, I st → load name st = ctx.load name st) (hw : I w.loader) (p : Program)
    (fuel : Nat) : p.render (ctx.withLoad load) fuel w = p.render ctx fuel w := by
  have hmatches := p.render_matches (Context.answersAlike_of_eq hstays hload)
    ⟨rfl, rfl, rfl, hw⟩ fuel
  exact (Outcome.Matches.eq hmatches fun _ _ h => h.1).symm

theorem Context.renderCopy_matches (hctx : ctx.AnswersAlike load R) (h : w.Matches R v)
    (p : Program) (fuel : Nat) :
    Option.Rel (Outcome.Matches R) (ctx.renderCopy fuel p w)
      ((ctx.withLoad load).renderCopy fuel p v) := by
  have hrender := p.render_matches hctx h fuel
  unfold Context.renderCopy
  generalize p.render ctx fuel w = out, p.render (ctx.withLoad load) fuel v = out' at hrender ⊢
  cases hrender with
  | none => exact .none
  | some hends =>
    refine .some ⟨congrArg (Except.mapError TemplateError.render) hends.1, ?_⟩
    rw [h.vars]
    exact hends.2.withVars _

theorem Context.renderTree_matches (hctx : ctx.AnswersAlike load R) (h : w.Matches R v)
    (tree : Node) (fuel : Nat) :
    Option.Rel (Outcome.Matches R) (ctx.renderTree fuel tree w)
      ((ctx.withLoad load).renderTree fuel tree v) := by
  unfold Context.renderTree
  split
  · exact .some ⟨rfl, h⟩
  · exact renderCopy_matches hctx h _ fuel

/-- A template that is rendered by its name is the same one. -/
theorem Context.renderNamed_matches (hctx : ctx.AnswersAlike load R) (h : w.Matches R v)
    (name : String) (fuel : Nat) :
    Option.Rel (Outcome.Matches R) (ctx.renderNamed fuel name w)
      ((ctx.withLoad load).renderNamed fuel name v) := by
  obtain ⟨hanswer, hstate⟩ := hctx _ _ h.loader name
  unfold Context.renderNamed
  rw [Context.withLoad_load]
  generalize ctx.load name w.loader = found, load name v.loader = found' at hanswer hstate ⊢
  obtain ⟨answer, st⟩ := found
  obtain ⟨_, st'⟩ := found'
  cases hanswer
  cases answer with
  | ok p => exact renderCopy_matches hctx (h.withLoader hstate) p fuel
  | error e => exact .some ⟨rfl, h.withLoader hstate⟩

end Renders

end Stencil
