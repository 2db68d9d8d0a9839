import Stencil.Proofs.Safety
import Stencil.Proofs.Visits

/-!
# Templates without tests for loops end

A loop along a collection takes no more rounds than there are items, and a bound on the nesting of
templates bounds them when they include themselves. So only a loop with a test can go on forever.

* `Act.Ends`, `Part.Ends`: acts and parts that end in every world;
* `Template.IsBounded`: templates without loops with tests;
* `Stmt.part_ends`, `Library.render_ends`: such templates end;
* `Program.render_halts`: so do the programs compiled from them.
-/

namespace Stencil

variable {σ α β : Type}

/-! ### Acts that end -/

/-- The act ends in every world, with a result or with places to blame. -/
def Act.Ends (x : Act σ α) : Prop := ∀ w, x w ≠ none

namespace Act.Ends

variable {x : Act σ α}

theorem pure (a : α) : Ends (σ := σ) (Pure.pure a) := fun _ => nofun

theorem bind (hx : x.Ends) {k : α → Act σ β} (hk : ∀ a, (k a).Ends) : (x >>= k).Ends := by
  intro w
  rcases hxw : x w with _ | ⟨blames | a, v⟩
  · exact absurd hxw (hx w)
  · rw [Act.bind_of_error hxw]
    exact nofun
  · rw [Act.bind_of_ok hxw]
    exact hk a v

theorem ite {c : Prop} [Decidable c] {y : Act σ α} (hx : x.Ends) (hy : y.Ends) :
    (if c then x else y).Ends := by
  split
  · exact hx
  · exact hy

theorem vars : Ends (σ := σ) Act.vars := fun _ => nofun

theorem assign (name : String) (v : Value) : Ends (σ := σ) (Act.assign name v) := fun _ => nofun

theorem apart (vars : Vars) (hx : x.Ends) : (Act.apart vars x).Ends := by
  intro w
  unfold Act.apart
  split
  · next hxw => exact absurd hxw (hx _)
  · exact nofun

end Act.Ends

namespace Site

variable (site : Site σ) (line : UInt32)

theorem blame_ends (fault : Fault) : (site.blame line fault : Act σ α).Ends := fun _ => nofun

theorem settle_ends (r : Except Fault (List Caution × Value)) : (site.settle line r).Ends := by
  unfold settle
  split
  · exact fun _ => nofun
  · exact site.blame_ends line _

theorem fact_ends (env : Env) (fact : LoopFact) : (site.fact line env fact).Ends := by
  unfold Site.fact
  split
  · exact site.blame_ends line _
  · exact site.settle_ends line _

theorem call_ends (name : String) (args : List Value) : (site.call line name args).Ends := by
  unfold call
  split
  · exact site.settle_ends line _
  · exact fun w => site.settle_ends line _ _

theorem items_ends (v : Value) : (site.items line v).Ends := by
  unfold items
  split
  · exact .pure _
  · exact site.blame_ends line _

theorem write_ends (v : Value) : (site.write line v).Ends := by
  cases v with
  | null => exact fun _ => nofun
  | _ => exact .pure _

end Site

theorem Env.read_ends (env : Env) (name : String) : (env.read name : Act σ Value).Ends := by
  unfold read
  split
  · exact .pure _
  · exact Act.Ends.vars.bind fun _ => .pure _

/-! ### Expressions -/

mutual

/-- Every expression has a value or places to blame. -/
theorem Expr.eval_ends (site : Site σ) (env : Env) : (e : Expr) → (e.eval site env).Ends
  | .null _ | .bool _ _ | .int _ _ | .float _ _ | .str _ _ => .pure _
  | .var name _ => env.read_ends name
  | .loopFact fact line => site.fact_ends line env fact
  | .binary _ left right line =>
    (Expr.eval_ends site env left).bind fun _ => (Expr.eval_ends site env right).bind fun _ =>
      site.settle_ends line _
  | .and left right _ =>
    (Expr.eval_ends site env left).bind fun _ => .ite (Expr.eval_ends site env right) (.pure _)
  | .or left right _ =>
    (Expr.eval_ends site env left).bind fun _ => .ite (.pure _) (Expr.eval_ends site env right)
  | .not operand _ => (Expr.eval_ends site env operand).bind fun _ => .pure _
  | .array items _ => (Expr.evalAll_ends site env items).bind fun _ => .pure _
  | .map pairs line => (Expr.evalAll_ends site env pairs).bind fun _ => site.settle_ends line _
  | .choice test yes no _ =>
    (Expr.eval_ends site env test).bind fun _ =>
      .ite (Expr.eval_ends site env yes) (Expr.eval_ends site env no)
  | .assign name value _ =>
    (Expr.eval_ends site env value).bind fun v => (Act.Ends.assign name v).bind fun _ => .pure _
  | .textCall _ arg _ => (Expr.eval_ends site env arg).bind fun _ => .pure _
  | .format template args nameLine _ =>
    (Expr.eval_ends site env template).bind fun _ => (Expr.evalAll_ends site env args).bind
      fun _ => site.settle_ends nameLine _
  | .call name args _ line =>
    (Expr.evalAll_ends site env args).bind fun vs => site.call_ends line name vs
  | .method object _ args _ line =>
    (Expr.eval_ends site env object).bind fun _ => (Expr.evalAll_ends site env args).bind fun _ =>
      site.settle_ends line _

theorem Expr.evalAll_ends (site : Site σ) (env : Env) : (es : List Expr) →
    (Expr.evalAll site env es).Ends
  | [] => .pure _
  | e :: rest =>
    (Expr.eval_ends site env e).bind fun _ => (Expr.evalAll_ends site env rest).bind fun _ =>
      .pure _

end

/-! ### Parts that end -/

/-- A part that ends in every world, whatever has been written before. -/
def Part.Ends (x : Part σ) : Prop := ∀ written, (x written).Ends

namespace Part

theorem nothing_ends : (nothing : Part σ).Ends := fun _ => .pure _

theorem andThen_ends {x y : Part σ} (hx : x.Ends) (hy : y.Ends) : (x.andThen y).Ends := by
  intro written
  refine (hx written).bind fun p => ?_
  split
  · exact (hy _).bind fun _ => .pure _
  · exact .pure _

theorem afterRound_ends (p : Passage) {others : Part σ} (hothers : others.Ends) :
    (afterRound p others).Ends := by
  intro written
  unfold afterRound
  split
  · exact .pure _
  · exact (hothers _).bind fun _ => .pure _

/-- A loop along a collection takes a round for each item at most. -/
theorem along_ends {body : Value → LoopRecord → Part σ} (hbody : ∀ v record, (body v record).Ends)
    (items : List Value) (index : Nat) : (along body index items).Ends := by
  induction items generalizing index with
  | nil => exact nothing_ends
  | cons v rest ih =>
    intro written
    exact (hbody v _ written).bind fun p => afterRound_ends p (ih (index + 1)) written

end Part

/-! ### Statements -/

/-- A template that can be read as a statement without loops with tests. -/
def Template.IsBounded (t : Template) : Prop :=
  ∃ s, Stmt.ofNode false t.tree = .ok s ∧ s.nesting .loop = 0

/-- The templates of a site are bounded, and those inside its own end. -/
structure Site.Halts (site : Site σ) : Prop where
  library : ∀ {name st t st'}, site.library name st = (.ok t, st') → t.IsBounded
  enter : site.tooDeep? = none → ∀ t, t.IsBounded → (site.enter t (site.depth + 1)).Ends

namespace Site

variable {site : Site σ} (hsite : site.Halts) (line : UInt32)

include hsite

theorem visit_ends {t : Template} (ht : t.IsBounded) : (site.visit line t).Ends := by
  unfold visit
  split
  · exact site.blame_ends line _
  · next hdepth =>
    intro w
    dsimp only
    split
    · next hw => exact absurd hw (hsite.enter hdepth t ht w)
    · exact nofun

/-- What follows on a template that is loaded has to end for bounded templates only. -/
theorem load_bind_ends (path : Value) {k : Template → Act σ α}
    (hk : ∀ t, t.IsBounded → (k t).Ends) : (site.load line path >>= k).Ends := by
  intro w
  unfold load
  split
  · rintro ⟨⟩
  · cases hl : site.library path.text w.loader with
    | mk result loader =>
    have hfetch : site.fetch path.text w = some (.ok result, { w with loader }) := by
      simp only [fetch, hl]
    rw [bind_assoc, Act.bind_of_ok hfetch]
    cases result with
    | ok t => exact hk t (hsite.library hl) _
    | error e => rintro ⟨⟩

theorem render_ends (scope : Option (Vars → Vars)) (path : Value) :
    (site.render line scope path).Ends := by
  refine load_bind_ends hsite line path fun t ht => ?_
  split
  · exact visit_ends hsite line ht
  · exact Act.Ends.vars.bind fun _ => .apart _ (visit_ends hsite line ht)

theorem inclusion_ends (path : Value) : (site.inclusion line path).Ends :=
  (render_ends hsite line _ path).bind fun _ => site.write_ends line _

theorem inclusionWith_ends (path : Value) (pairs : List Value) :
    (site.inclusionWith line path pairs).Ends := by
  unfold inclusionWith
  split
  · exact site.blame_ends line _
  · exact (render_ends hsite line _ path).bind fun _ => site.write_ends line _

theorem wrap_ends {path : Act σ Value} {body : Part σ} (hpath : path.Ends) (hbody : body.Ends) :
    (site.wrap line path body).Ends := by
  intro written
  have hmark : (site.mark line written).Ends := (site.settle_ends line _).bind fun _ => .pure _
  refine hmark.bind fun _ => (hbody written).bind fun p => ?_
  split
  · exact hpath.bind fun v => (render_ends hsite line _ v).bind fun _ => .pure _
  · exact .pure _

end Site

section Statements

variable {site : Site σ}

mutual

/-- A statement without loops with tests ends. -/
theorem Stmt.part_ends (hsite : site.Halts) : (s : Stmt) → s.nesting .loop = 0 → (env : Env) →
    (s.part site env).Ends
  | .block body, h, env => Stmt.parts_end hsite body h env
  | .text _ _, _, _ | .last _, _, _ | .next _, _, _ => fun _ => .pure _
  | .output value line, _, env => fun _ =>
    (value.eval_ends site env).bind fun v => site.write_ends line v
  | .eval e, _, env => fun _ => (e.eval_ends site env).bind fun _ => .pure _
  | .when test body _, h, env => fun written =>
    (test.eval_ends site env).bind fun _ =>
      .ite (Stmt.part_ends hsite body h env written) (Part.nothing_ends written)
  | .choice test yes no _, h, env => fun written =>
    have h := Nat.max_eq_zero_iff.1 h
    (test.eval_ends site env).bind fun _ =>
      .ite (Stmt.part_ends hsite yes h.1 env written) (Stmt.part_ends hsite no h.2 env written)
  | .switch subject arms, h, env => fun written =>
    (subject.eval_ends site env).bind fun v => Arm.parts_end hsite v arms h env written
  | .foreach var source body line, h, env => fun written =>
    have h := (Nat.add_eq_zero_iff.1 h).2
    (source.eval_ends site env).bind fun v => (site.items_ends line v).bind fun items =>
      Part.along_ends (fun _ _ => Stmt.part_ends hsite body h _) items 0 written
  | .loop _ _ _, h, _ => absurd (Nat.add_eq_zero_iff.1 h).1 (by simp)
  | .inclusion path line, _, env => fun _ =>
    (path.eval_ends site env).bind fun v => Site.inclusion_ends hsite line v
  | .inclusionWith path bindings line, _, env => fun _ =>
    (path.eval_ends site env).bind fun v => (Expr.evalAll_ends site env bindings).bind fun vs =>
      Site.inclusionWith_ends hsite line v vs
  | .wrapper path body line, h, env =>
    Site.wrap_ends hsite line (path.eval_ends site env) (Stmt.part_ends hsite body h env)

theorem Stmt.parts_end (hsite : site.Halts) : (body : List Stmt) →
    Stmt.nestings .loop body = 0 → (env : Env) → (Stmt.parts site body env).Ends
  | [], _, _ => Part.nothing_ends
  | s :: rest, h, env =>
    have h := Nat.max_eq_zero_iff.1 h
    Part.andThen_ends (Stmt.part_ends hsite s h.1 env) (Stmt.parts_end hsite rest h.2 env)

theorem Arm.parts_end (hsite : site.Halts) (subject : Value) : (arms : List Arm) →
    Arm.nestings .loop arms = 0 → (env : Env) → (Arm.parts site subject arms env).Ends
  | [], _, _ => Part.nothing_ends
  | .test value body _ :: rest, h, env => fun written =>
    have h := Nat.max_eq_zero_iff.1 h
    (value.eval_ends site env).bind fun _ =>
      .ite (Stmt.part_ends hsite body h.1 env written)
        (Arm.parts_end hsite subject rest h.2 env written)
  | .always body _ :: _, h, env => Stmt.part_ends hsite body (Nat.max_eq_zero_iff.1 h).1 env

end

end Statements

/-! ### Templates -/

theorem Template.isBounded_of_compile {tree : Node} {source : Source} {p : Program}
    (hp : p.IsCompiledFrom ⟨tree, source⟩) (htree : tree.lacks .loop) :
    Template.IsBounded ⟨tree, source⟩ := by
  obtain ⟨s, hs, -⟩ := hp.exists_stmt
  refine ⟨s, hs, ?_⟩
  rw [← Stmt.ofNode_nesting rfl tree hs, Node.nesting_of_lacks tree htree]

/-- Bounded templates end if they are nested `most` deep at most: each template inside another one
has less room for others. -/
theorem Library.render_ends {ctx : Context σ} {most : Nat} (hmost : ctx.limits.depth = some most)
    {library : Library σ}
    (hlibrary : ∀ {name st t st'}, library name st = (.ok t, st') → t.IsBounded) {fuel : Nat}
    {t : Template} (ht : t.IsBounded) {depth : Nat} (hdepth : depth ≤ most)
    (hfuel : most < depth + fuel) : (library.render ctx fuel t depth).Ends := by
  induction fuel generalizing t depth with
  | zero => exact absurd hfuel (Nat.not_lt.2 hdepth)
  | succ fuel ih =>
    obtain ⟨s, hs, hs'⟩ := ht
    unfold Library.render
    rw [Stmt.ofNode_part _ t.tree hs]
    refine (Stmt.part_ends ⟨hlibrary, fun hroom t ht => ?_⟩ s hs' {} 0).bind fun _ => .pure _
    have hroom : depth < most := by
      simp only [Site.tooDeep?, hmost] at hroom
      split at hroom
      · cases hroom
      · omega
    have hrest : most < depth + 1 + fuel := by omega
    exact ih ht hroom hrest

/-- A program that is compiled from a tree without loops with tests ends, if the nesting of
templates has a bound and the loader hands out such programs only: it takes a number of steps to its
end or to an error, even if templates include themselves. -/
theorem Program.render_halts {ctx : Context σ} {most : Nat} (hmost : ctx.limits.depth = some most)
    (hload : ∀ name st p st', ctx.load name st = (.ok p, st') →
      ∃ t, p.IsCompiledFrom t ∧ t.tree.lacks .loop)
    {tree : Node} {source : Source} {p : Program} (hp : Program.compile tree source = .ok p)
    (htree : tree.lacks .loop) (w : World σ) : ∃ fuel out, p.render ctx fuel w = some out := by
  obtain ⟨library, hserves, hlibrary⟩ := Context.exists_library (P := Template.IsBounded)
    fun name st p st' hl => (hload name st p st' hl).imp fun t ht =>
      ⟨ht.1, Template.isBounded_of_compile ht.1 ht.2⟩
  have hends : (library.render ctx (most + 1) ⟨tree, source⟩ 0).Ends :=
    library.render_ends hmost hlibrary
      (Template.isBounded_of_compile (Program.isCompiledFrom hp) htree) (Nat.zero_le _) (by omega)
  obtain ⟨r, hr⟩ := Option.ne_none_iff_exists'.1 (hends w.silent)
  obtain ⟨fuel, out, hout, -⟩ := Program.render_ends hserves hp hr
  exact ⟨fuel, out, hout⟩

/-- A template that includes itself in every round of a loop. -/
def Template.recurring : Template :=
  ⟨.template [.foreach "n" (.binary .range (.int 1) (.int 3)) (.inclusion (.string "again"))],
    .anonymous⟩

theorem Program.render_recurring_halts :
    ∃ p, Program.compile Template.recurring.tree .anonymous = .ok p ∧
      ∃ fuel out, p.render (.ofTemplate .recurring) fuel { loader := () } = some out := by
  have hok : (Program.compile Template.recurring.tree .anonymous).isOk := by decide +kernel
  match hp : Program.compile Template.recurring.tree .anonymous with
  | .error e =>
    rw [hp] at hok
    cases hok
  | .ok p =>
    refine ⟨p, rfl, Program.render_halts rfl (fun name st q st' hl => ?_) hp
      (by decide) _⟩
    exact ⟨.recurring, Program.isCompiledFrom (Context.ofTemplate_load hl), by decide⟩

end Stencil
