import Stencil.Proofs.Safety
import Stencil.Proofs.Targets

/-!
# What a render does to variables

A render never takes a variable away or moves one, and it changes none but those that it assigns.
Only plain inclusions share variables with the template that they render; the other templates have a
copy, and what becomes of the copy is lost.

* `Bindings.Outlasts`: a table that has only changed where it was allowed to;
* `Frame.Shares`: the frames that work on the variables of a frame;
* `Frame.outlasts_outer`: what is seen outside of a template of its variables;
* `Frame.exec_outlasts`: what a frame does to the variables;
* `Frame.vars_outer`: what comes back from a template with a copy of the variables;
* `Program.render_vars`: what the render of a tree does to the variables.
-/

namespace Stencil

variable {σ α : Type}

/-! ### Tables that only change where they may -/

/-- The table `b` has become the table `c`, and only the values of the names in `P` have changed.
All names have kept their places. -/
structure Bindings.Outlasts (P : String → Prop) (b c : Bindings α) : Prop where
  names : b.names <+: c.names
  values : ∀ name, ¬P name → c.get? name = b.get? name

namespace Bindings.Outlasts

variable {P : String → Prop} {b c d : Bindings α}

theorem refl (b : Bindings α) : Outlasts P b b := ⟨List.prefix_rfl, fun _ _ => rfl⟩

theorem trans (hbc : Outlasts P b c) (hcd : Outlasts P c d) : Outlasts P b d where
  names := hbc.names.trans hcd.names
  values name hname := (hcd.values name hname).trans (hbc.values name hname)

theorem set (b : Bindings α) {name : String} (hname : P name) (v : α) :
    Outlasts P b (b.set name v) where
  names := by
    rw [names_set]
    split
    · exact List.prefix_rfl
    · exact List.prefix_append _ _
  values other hother := get?_set_of_ne b v fun h => hother (h ▸ hname)

end Bindings.Outlasts

/-! ### Frames that share variables -/

/-- The frames that a frame runs through, with the worlds around them, and those of the templates
that work on the same variables. -/
inductive Frame.Shares (ctx : Context σ) : Frame → World σ → Frame → World σ → Prop
  | refl (f : Frame) (w : World σ) : Shares ctx f w f w
  | next {f f' g : Frame} {w w' v : World σ} :
    f.step ctx w = .next f' w' → Shares ctx f' w' g v → Shares ctx f w g v
  /-- A template inside the frame works on the same variables if none are kept for the frame. -/
  | enter {f f' g : Frame} {w w' v : World σ} {p : Program} {resume : Resume} :
    f.step ctx w = .render p none f' resume w' →
    Shares ctx (.start p (f'.depth + 1)) (w'.note (.enter p.source.name (f'.depth + 1))) g v →
    Shares ctx f w g v
  | leave {f f' g : Frame} {w w' after v : World σ} {p : Program} {kept : Option Vars}
    {resume : Resume} {n : Nat} {output : String} :
    f.step ctx w = .render p kept f' resume w' →
    Frame.exec ctx n (.start p (f'.depth + 1))
      (w'.note (.enter p.source.name (f'.depth + 1))) = some (.ok output, after) →
    Shares ctx (f'.resume ctx output resume) (after.outer kept (f'.depth + 1)) g v →
    Shares ctx f w g v

namespace Frame

variable {ctx : Context σ} {f f' g : Frame} {u v w : World σ} {q : Program} {kept : Option Vars}
  {resume : Resume}

theorem Shares.reaches (h : f.Shares ctx w g v) : f.Reaches ctx w g v := by
  induction h with
  | refl f w => exact .refl f w
  | next hs _ ih => exact .next hs ih
  | enter hs _ ih => exact .enter hs ih
  | leave hs hinner _ ih => exact .leave hs hinner ih

/-! ### What a frame does to the variables -/

/-- What becomes of the variables while a template is rendered is seen outside only if it shares
them. -/
theorem outlasts_outer {P : String → Prop} (hs : f.step ctx w = .render q kept f' resume u)
    {after : World σ} (h : kept = none → u.vars.Outlasts P after.vars) (depth : Nat) :
    w.vars.Outlasts P (after.outer kept depth).vars := by
  cases Moves.of_step hs with
  | render _ _ hscope =>
    rcases hscope with ⟨-, rfl, hvars⟩ | ⟨-, rfl⟩
    · exact hvars ▸ h rfl
    · exact .refl w.vars

/-- A frame changes no variables but those that are assigned by programs that share them, whether
it comes to its end or stops with an error. -/
theorem exec_outlasts {P : String → Prop}
    (hP : ∀ g v, f.Shares ctx w g v → ∀ name, g.program.Assigns name → P name) {fuel : Nat}
    {out : Outcome σ} (h : f.exec ctx fuel w = some out) : w.vars.Outlasts P out.2.vars := by
  replace h := ComesTo.of_exec h
  induction h with
  | @next _ f g u w _ hs _ ih =>
    have hrest := ih fun g' v' hg => hP g' v' (.next hs hg)
    cases Moves.of_step hs with
    | next _ _ hvars =>
      rcases hvars with hvars | ⟨name, value, hassigns, hvars⟩
      · exact hvars ▸ hrest
      · have hname : P name := hP f w (.refl f w) name hassigns
        rw [hvars] at hrest
        exact (Bindings.Outlasts.set w.vars hname value).trans hrest
  | finish hs =>
    cases Moves.of_step hs with
    | finish _ hvars => exact hvars ▸ .refl _
  | fault hs =>
    cases Moves.of_step hs with
    | fault hvars _ => exact hvars ▸ .refl _
  | failure hs _ ih =>
    refine outlasts_outer hs (fun hkept => ?_) _
    subst hkept
    exact ih fun g' v' hg => hP g' v' (.enter hs hg)
  | success hs hinner _ ihinner ih =>
    -- First the inner template, then what the frame does after it.
    refine (outlasts_outer hs (fun hkept => ?_) _).trans
      (ih fun g' v' hg => hP g' v' (.leave hs hinner.exec hg))
    subst hkept
    exact ihinner fun g' v' hg => hP g' v' (.enter hs hg)

/-- A template with a copy of the variables leaves no trace in them, however it ends. -/
theorem vars_outer (hs : f.step ctx w = .render q kept f' resume u)
    (hop : f.op? ≠ some .inclusion) (after : World σ) (depth : Nat) :
    (after.outer kept depth).vars = w.vars := by
  cases Moves.of_step hs with
  | render _ _ hscope =>
    rcases hscope with ⟨hinclusion, -⟩ | ⟨-, rfl⟩
    · exact absurd hinclusion hop
    · rfl

end Frame

/-! ### Renders -/

/-- What the render of a tree does to the variables, whether it succeeds or fails. The names that
are there before it are a prefix of the names that are there after it. A variable keeps its value
if it is not the target of an assignment, neither in the tree nor in a template that shares its
variables. And wherever a template with bindings or around a part of the output has been rendered,
the variables are what they were, however that ended. -/
theorem Program.render_vars {ctx : Context σ} {tree : Node} {source : Source} {p : Program}
    (hp : Program.compile tree source = .ok p) {fuel : Nat} {w v : World σ}
    {result : Except RenderError String} (h : p.render ctx fuel w = some (result, v)) :
    w.vars.names <+: v.vars.names ∧
    (∀ name, name ∉ tree.targets →
      (∀ f u, (Frame.start p 0).Shares ctx (w.note (.enter p.source.name 0)) f u →
        f.program = p ∨ ∃ t, f.program.IsCompiledFrom t ∧ name ∉ t.tree.targets) →
      v.vars.get? name = w.vars.get? name) ∧
    ∀ f u, (Frame.start p 0).Reaches ctx (w.note (.enter p.source.name 0)) f u →
      ∀ q kept g resume u', f.step ctx u = .render q kept g resume u' →
        f.op? = some .inclusionWith ∨ f.op? = some .wrap →
          ∀ (after : World σ) (depth : Nat), (after.outer kept depth).vars = u.vars := by
  obtain ⟨u, hexec, rfl⟩ := Program.exec_of_render h
  refine ⟨?_, ?_, ?_⟩
  · have houtlasts : Bindings.Outlasts (fun _ => True) (w.note _).vars u.vars :=
      Frame.exec_outlasts (fun _ _ _ _ _ => trivial) hexec
    exact houtlasts.names
  · intro name htree hshares
    have houtlasts :
        Bindings.Outlasts (· ≠ name) (w.note (.enter p.source.name 0)).vars u.vars := by
      refine Frame.exec_outlasts (fun g v hg other hassigns => ?_) hexec
      rintro rfl
      rcases hshares g v hg with hprogram | ⟨t, ht, htargets⟩
      · rw [hprogram] at hassigns
        exact htree ((Program.isCompiledFrom hp).mem_targets hassigns)
      · exact htargets (ht.mem_targets hassigns)
    exact houtlasts.values name (not_not.2 rfl)
  · intro f u _ q kept g resume u' hs hop after depth
    refine Frame.vars_outer hs ?_ after depth
    rcases hop with hop | hop <;> rw [hop] <;> exact nofun

/-- The page assigns one variable, and the greeting assigns none. -/
theorem Program.render_page_vars :
    ∃ p fuel result v, Program.compile .page .anonymous = .ok p ∧
      p.render (.ofTemplate .greeting) fuel { vars := [("title", .int 1)], loader := () } =
        some (result, v) ∧
      ["title"] <+: v.vars.names ∧ v.vars.get? "title" = some (.int 1) := by
  obtain ⟨p, hp⟩ := exists_of_isOk (show (Program.compile .page .anonymous).isOk by decide +kernel)
  have hserves := Library.ofTemplate_serves (t := .greeting) (by decide +kernel)
  have hrender : (Library.ofTemplate .greeting).render (.ofTemplate .greeting) 2
      ⟨.page, .anonymous⟩ 0 { vars := [("title", .int 1)], loader := () } = some (.ok _, _) := rfl
  obtain ⟨m, ⟨result, v⟩, hm, -⟩ := Program.render_ends
    (w := { vars := [("title", .int 1)], loader := () }) hserves hp hrender
  obtain ⟨hnames, hvalues, -⟩ := Program.render_vars hp hm
  refine ⟨p, m, result, v, hp, hm, hnames, hvalues "title" (by decide) fun f u hf => ?_⟩
  have hprogram : f.program = p ∨ f.program.IsCompiledFrom .greeting :=
    hf.reaches.program (P := fun q => q = p ∨ q.IsCompiledFrom .greeting)
      (fun _ _ _ _ hl => .inr (Program.isCompiledFrom (Context.ofTemplate_load hl))) (.inl rfl)
  exact hprogram.imp id fun h => ⟨.greeting, h, by decide⟩

end Stencil
