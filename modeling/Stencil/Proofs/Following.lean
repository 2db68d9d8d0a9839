import Stencil.Proofs.Holding

/-!
# Acts that follow others

A template may be rendered at another place: with other text before it, under another name, and
less deep inside others. If it succeeded at the first place, it has the same result at the second
one and puts the same on record, unless its output gets too long to be measured.

* `World.gists`: what is on record of cautions and calls;
* `World.Like`: worlds that a template cannot tell from one another;
* `Act.Follows`: an act that succeeds if another one does, and in the same way;
* `Site.Follows`: a place with no less room than another one;
* `Stmt.part_follows`, `Library.render_follows`: templates at such places follow.
-/

namespace Stencil

variable {σ α β : Type}

/-! ### What is on record -/

/-- The caution or the call behind an entry of a record, without the place that it is about. -/
def Entry.gist? : Entry → Option (Caution ⊕ String × List Value)
  | .event _ => none
  | .notice n => some (.inl n.caution)
  | .call name args => some (.inr (name, args))

namespace World

variable {I : σ → Prop} {v w : World σ}

/-- The cautions and the calls on record, in their order. -/
def gists (w : World σ) : List (Caution ⊕ String × List Value) :=
  w.entries.toList.filterMap Entry.gist?

theorem gists_record (w : World σ) (e : Entry) :
    (w.record e).gists = w.gists ++ e.gist?.toList := by
  simp only [gists, record, Array.toList_push, List.filterMap_append]
  cases h : e.gist? <;> simp [h]

theorem gists_silent (w : World σ) : w.silent.gists = w.gists := by
  rw [gists, gists, silent, Array.toList_filter, List.filterMap_filter]
  refine congrArg (List.filterMap · _) (funext fun e => ?_)
  cases e <;> rfl

/-- Two worlds with the same variables and the same on record, but for the places that it is about.
The loader is in one of the states `I` in both of them. -/
structure Like (I : σ → Prop) (v w : World σ) : Prop where
  vars : v.vars = w.vars
  gists : v.gists = w.gists
  left : I v.loader
  right : I w.loader

theorem Like.withVars (h : Like I v w) (vars : Vars) :
    Like I { v with vars } { w with vars } := ⟨rfl, h.gists, h.left, h.right⟩

theorem Like.record (h : Like I v w) {d e : Entry} (he : d.gist? = e.gist?) :
    Like I (v.record d) (w.record e) := by
  refine ⟨h.vars, ?_, h.left, h.right⟩
  rw [gists_record, gists_record, h.gists, he]

end World

/-! ### Acts -/

theorem Act.of_bind_eq_ok {x : Act σ α} {k : α → Act σ β} {b : β} {w v : World σ}
    (h : (x >>= k) w = some (.ok b, v)) :
    ∃ a u, x w = some (.ok a, u) ∧ k a u = some (.ok b, v) := by
  rcases hx : x w with _ | ⟨blames | a, u⟩
  · rw [bind_of_none hx] at h
    cases h
  · rw [bind_of_error hx] at h
    cases h
  · rw [bind_of_ok hx] at h
    exact ⟨a, u, rfl, h⟩

/-- Whenever the act `x` has a result, `y` has the same in a world like that of `x`, and the worlds
after it are alike. Only a text that is too large may stop `y`. -/
def Act.Follows (y : Act σ α) (I : σ → Prop) (x : Act σ α) : Prop :=
  ∀ v w, World.Like I v w → ∀ a w', x w = some (.ok a, w') →
    (∃ v', y v = some (.ok a, v') ∧ v'.Like I w') ∨
      ∃ blames v', y v = some (.error blames, v') ∧
        ∀ b ∈ blames, b.fault = .internal .outputTooLarge

namespace Act.Follows

variable {I : σ → Prop} {x y : Act σ α}

theorem pure (a : α) : (Pure.pure a : Act σ α).Follows I (Pure.pure a) := by
  intro v w hlike a w' h
  cases h
  exact .inl ⟨v, rfl, hlike⟩

theorem bind {k l : α → Act σ β} (hx : y.Follows I x) (hk : ∀ a, (l a).Follows I (k a)) :
    (y >>= l).Follows I (x >>= k) := by
  intro v w hlike b w' h
  obtain ⟨a, u, hxw, h⟩ := of_bind_eq_ok h
  rcases hx v w hlike a u hxw with ⟨u', hy, hlike'⟩ | ⟨blames, u', hy, hblames⟩
  · rw [bind_of_ok hy]
    exact hk a u' u hlike' b w' h
  · exact .inr ⟨blames, u', bind_of_error hy l, hblames⟩

theorem ite {c : Prop} [Decidable c] {x' y' : Act σ α} (h : y.Follows I x)
    (h' : y'.Follows I x') : (if c then y else y').Follows I (if c then x else x') := by
  split
  · exact h
  · exact h'

theorem vars : Follows (σ := σ) Act.vars I Act.vars := by
  intro v w hlike a w' h
  cases h
  refine .inl ⟨v, ?_, hlike⟩
  rw [Act.vars, hlike.vars]

theorem assign (name : String) (u : Value) :
    Follows (σ := σ) (Act.assign name u) I (Act.assign name u) := by
  intro v w hlike a w' h
  cases h
  refine .inl ⟨{ v with vars := v.vars.set name u }, rfl, ?_⟩
  rw [hlike.vars]
  exact hlike.withVars _

theorem apart (vars : Vars) (h : y.Follows I x) :
    (Act.apart vars y).Follows I (Act.apart vars x) := by
  intro v w hlike a w' hx
  unfold Act.apart at hx
  split at hx
  · cases hx
  · next hxw =>
    cases hx
    rcases h _ _ (hlike.withVars vars) _ _ hxw with ⟨v', hy, hlike'⟩ | ⟨blames, v', hy, hblames⟩
    · refine .inl ⟨{ v' with vars := v.vars }, by simp only [Act.apart, hy], ?_⟩
      rw [hlike.vars]
      exact hlike'.withVars _
    · exact .inr ⟨blames, { v' with vars := v.vars }, by simp only [Act.apart, hy], hblames⟩

end Act.Follows

/-! ### Sites -/

/-- The site `t` can do what the site `s` does with the templates of a catalog: it is not deeper,
loops may take no fewer rounds, and the templates inside its own follow. -/
structure Site.Follows (t : Site σ) (catalog : Catalog) (I : σ → Prop) (s : Site σ) : Prop where
  ctx : t.ctx = s.ctx
  library : t.library = s.library
  holds : s.library.Holds catalog I
  depth : t.depth ≤ s.depth
  fuel : s.fuel ≤ t.fuel
  enter : ∀ {name template}, catalog name = .ok template → ∀ {depth depth' : Nat},
    depth' ≤ depth → (t.enter template depth').Follows I (s.enter template depth)

namespace Site

variable {I : σ → Prop} {catalog : Catalog} {s t : Site σ} {line : UInt32}

theorem visit_eq_ok {template : Template} {w v : World σ} {output : String}
    (h : s.visit line template w = some (.ok output, v)) :
    s.tooDeep? = none ∧ s.enter template (s.depth + 1) w = some (.ok output, v) := by
  unfold visit at h
  cases hroom : s.tooDeep? with
  | some fault =>
    rw [hroom] at h
    cases h
  | none =>
    rw [hroom] at h
    dsimp only at h
    split at h
    · cases h
    · next result after henter =>
      cases result with
      | error blames => cases h
      | ok output =>
        cases h
        exact ⟨rfl, henter⟩

theorem Follows.tooDeep?_eq_none (h : t.Follows catalog I s) (hroom : s.tooDeep? = none) :
    t.tooDeep? = none := by
  unfold tooDeep? at hroom ⊢
  rw [h.ctx]
  cases hmost : s.ctx.limits.depth with
  | none => rfl
  | some most =>
    have hdepth := h.depth
    rw [hmost] at hroom
    have hlt : ¬most ≤ s.depth := fun hle => by simp [hle] at hroom
    exact if_neg (by omega)

theorem blame_follows (fault : Fault) (y : Act σ α) :
    y.Follows I (s.blame line fault) := by
  intro v w _ a w' h
  cases h

theorem like_foldl_warn {v w : World σ} (h : v.Like I w) (cautions : List Caution) :
    (cautions.foldl (t.warn line) v).Like I (cautions.foldl (s.warn line) w) := by
  induction cautions generalizing v w with
  | nil => exact h
  | cons c cs ih => exact ih (h.record rfl)

theorem settle_follows (r : Except Fault (List Caution × Value)) :
    (t.settle line r).Follows I (s.settle line r) := by
  cases r with
  | error fault => exact blame_follows fault _
  | ok r =>
    intro v w hlike a w' h
    cases h
    exact .inl ⟨_, rfl, like_foldl_warn hlike r.1⟩

theorem fact_follows (env : Env) (fact : LoopFact) :
    (t.fact line env fact).Follows I (s.fact line env fact) := by
  unfold Site.fact
  split
  · exact blame_follows _ _
  · exact settle_follows _

/-- Numbers that may be too large to be values. -/
theorem settle_tooLarge_follows {m m' : Except Fault Value}
    (hm : (∃ u, m = .ok u) ∨ m = internalFault .outputTooLarge)
    (hm' : (∃ u, m' = .ok u) ∨ m' = internalFault .outputTooLarge) :
    (t.settle line (plainly id m') >>= fun _ => (pure () : Act σ Unit)).Follows I
      (s.settle line (plainly id m) >>= fun _ => pure ()) := by
  intro v w hlike a w' h
  rcases hm with ⟨u, rfl⟩ | rfl
  · cases h
    rcases hm' with ⟨u', rfl⟩ | rfl
    · exact .inl ⟨v, rfl, hlike⟩
    · exact .inr ⟨_, v, rfl, fun b hb => List.mem_singleton.1 hb ▸ rfl⟩
  · cases h

/-- The texts that are measured need not be the same, and one of them may be too large. -/
theorem mark_follows (written written' : Nat) :
    (t.mark line written').Follows I (s.mark line written) := by
  have hcases (n : Nat) : (∃ u, measured n .outputTooLarge = .ok u) ∨
      measured n .outputTooLarge = internalFault .outputTooLarge := by
    rcases measured_cases n .outputTooLarge with ⟨word, h, -⟩ | ⟨h, -⟩
    · exact .inl ⟨_, h⟩
    · exact .inr h
  exact settle_tooLarge_follows (hcases written) (hcases written')

variable (h : t.Follows catalog I s)

include h

theorem call_follows (name : String) (args : List Value) :
    (t.call line name args).Follows I (s.call line name args) := by
  unfold call
  rw [h.ctx]
  split
  · exact settle_follows _
  · intro v w hlike
    exact settle_follows _ _ _ (hlike.record rfl)

theorem method_follows (target : Value) (name : String) (args : List Value) :
    (t.method line target name args).Follows I (s.method line target name args) := by
  unfold method
  rw [h.ctx]
  exact settle_follows _

theorem items_follows (v : Value) : (t.items line v).Follows I (s.items line v) := by
  unfold items
  rw [h.ctx]
  split
  · exact .pure _
  · exact blame_follows _ _

theorem write_follows (v : Value) : (t.write line v).Follows I (s.write line v) := by
  unfold write
  rw [h.ctx]
  cases v with
  | null =>
    intro v w hlike a w' hw
    cases hw
    exact .inl ⟨_, rfl, hlike.record rfl⟩
  | _ => exact .pure _

/-- What follows on a template that is loaded has to follow for the templates of the catalog. -/
theorem load_bind_follows (path : Value) {k l : Template → Act σ α}
    (hk : ∀ {name template}, catalog name = .ok template →
      (l template).Follows I (k template)) :
    (t.load line path >>= l).Follows I (s.load line path >>= k) := by
  intro v w hlike a w' hw
  cases hnull : path.isNull with
  | true =>
    unfold load at hw
    rw [if_pos hnull] at hw
    cases hw
  | false =>
    -- The states of the loader may differ, but it finds the same in both of them.
    obtain ⟨st, hst, hI⟩ := h.holds path.text w.loader hlike.right
    obtain ⟨st', hst', hI'⟩ := h.holds path.text v.loader hlike.left
    rw [← h.library] at hst'
    cases hfound : catalog path.text with
    | ok template =>
      rw [hfound] at hst hst'
      rw [Act.bind_of_ok (load_eq hnull hst)] at hw
      rw [Act.bind_of_ok (load_eq hnull hst')]
      exact hk hfound { v with loader := st' } { w with loader := st }
        ⟨hlike.vars, hlike.gists, hI', hI⟩ a w' hw
    | error e =>
      rw [hfound] at hst
      rw [Act.bind_of_error (load_eq hnull hst)] at hw
      cases hw

theorem visit_follows {name : String} {template : Template} (ht : catalog name = .ok template) :
    (t.visit line template).Follows I (s.visit line template) := by
  intro v w hlike output w' hw
  obtain ⟨hroom, henter⟩ := visit_eq_ok hw
  unfold visit
  rw [h.tooDeep?_eq_none hroom]
  dsimp only
  rcases h.enter ht (Nat.succ_le_succ h.depth) v w hlike output w' henter with
    ⟨v', henter', hlike'⟩ | ⟨blames, v', henter', hblames⟩
  · exact .inl ⟨v', by rw [henter']; rfl, hlike'⟩
  · refine .inr ⟨Blame.under t.source line blames, v', by rw [henter']; rfl, ?_⟩
    cases blames with
    | nil => exact hblames
    | cons b rest => exact List.forall_mem_cons.2 ⟨hblames b List.mem_cons_self, hblames⟩

theorem render_follows (scope : Option (Vars → Vars)) (path : Value) :
    (t.render line scope path).Follows I (s.render line scope path) := by
  refine load_bind_follows h path fun ht => ?_
  split
  · exact visit_follows h ht
  · exact Act.Follows.vars.bind fun vars => .apart _ (visit_follows h ht)

theorem writeOutput_follows (output : String) :
    (t.writeOutput line output).Follows I (s.writeOutput line output) := by
  unfold writeOutput
  rw [h.ctx]
  exact write_follows h _

theorem inclusion_follows (path : Value) :
    (t.inclusion line path).Follows I (s.inclusion line path) :=
  (render_follows h _ path).bind fun output => writeOutput_follows h output

theorem inclusionWith_follows (path : Value) (pairs : List Value) :
    (t.inclusionWith line path pairs).Follows I (s.inclusionWith line path pairs) := by
  unfold inclusionWith
  split
  · exact blame_follows _ _
  · exact (render_follows h _ path).bind fun output => writeOutput_follows h output

end Site

/-! ### Expressions -/

theorem Env.read_follows {I : σ → Prop} (env : Env) (name : String) :
    (env.read name : Act σ Value).Follows I (env.read name) := by
  unfold Env.read
  split
  · exact .pure _
  · exact Act.Follows.vars.bind fun _ => .pure _

section Expressions

variable {I : σ → Prop} {catalog : Catalog} {s t : Site σ}

mutual

theorem Expr.eval_follows (h : t.Follows catalog I s) (env : Env) :
    (e : Expr) → (e.eval t env).Follows I (e.eval s env)
  | .null _ | .bool _ _ | .int _ _ | .float _ _ | .str _ _ => .pure _
  | .var name _ => env.read_follows name
  | .loopFact fact _ => Site.fact_follows env fact
  | .binary op left right line => by
    unfold Expr.eval
    rw [h.ctx]
    exact (Expr.eval_follows h env left).bind fun u => (Expr.eval_follows h env right).bind
      fun v => Site.settle_follows _
  | .and left right _ =>
    (Expr.eval_follows h env left).bind fun _ => .ite (Expr.eval_follows h env right) (.pure _)
  | .or left right _ =>
    (Expr.eval_follows h env left).bind fun _ => .ite (.pure _) (Expr.eval_follows h env right)
  | .not operand _ => (Expr.eval_follows h env operand).bind fun _ => .pure _
  | .array items _ => (Expr.evalAll_follows h env items).bind fun _ => .pure _
  | .map pairs _ => (Expr.evalAll_follows h env pairs).bind fun _ => Site.settle_follows _
  | .choice test yes no _ =>
    (Expr.eval_follows h env test).bind fun _ =>
      .ite (Expr.eval_follows h env yes) (Expr.eval_follows h env no)
  | .assign name value _ =>
    (Expr.eval_follows h env value).bind fun v =>
      (Act.Follows.assign name v).bind fun _ => .pure _
  | .textCall _ arg _ => (Expr.eval_follows h env arg).bind fun _ => .pure _
  | .format template args _ _ =>
    (Expr.eval_follows h env template).bind fun _ =>
      (Expr.evalAll_follows h env args).bind fun _ => Site.settle_follows _
  | .call name args _ _ =>
    (Expr.evalAll_follows h env args).bind fun vs => Site.call_follows h name vs
  | .method object name args _ _ =>
    (Expr.eval_follows h env object).bind fun v => (Expr.evalAll_follows h env args).bind
      fun vs => Site.method_follows h v name vs

theorem Expr.evalAll_follows (h : t.Follows catalog I s) (env : Env) :
    (es : List Expr) → (Expr.evalAll t env es).Follows I (Expr.evalAll s env es)
  | [] => .pure _
  | e :: rest =>
    (Expr.eval_follows h env e).bind fun _ => (Expr.evalAll_follows h env rest).bind
      fun _ => .pure _

end

end Expressions

/-! ### Parts -/

/-- A part that follows another one, however much text is before each of them. -/
def Part.Follows (y : Part σ) (I : σ → Prop) (x : Part σ) : Prop :=
  ∀ written written', (y written').Follows I (x written)

namespace Part

variable {I : σ → Prop} {x x' y y' : Part σ}

theorem nothing_follows : (nothing : Part σ).Follows I nothing := fun _ _ => .pure _

theorem andThen_follows (hx : y.Follows I x) (hx' : y'.Follows I x') :
    (y.andThen y').Follows I (x.andThen x') := by
  intro written written'
  refine (hx written written').bind fun p => ?_
  split
  · exact (hx' _ _).bind fun _ => .pure _
  · exact .pure _

theorem afterRound_follows (p : Passage) (hx : y.Follows I x) :
    (afterRound p y).Follows I (afterRound p x) := by
  intro written written'
  unfold afterRound
  split
  · exact .pure _
  · exact (hx _ _).bind fun _ => .pure _

theorem along_follows {body body' : Value → LoopRecord → Part σ}
    (hbody : ∀ v record, (body' v record).Follows I (body v record)) (items : List Value)
    (index : Nat) : (along body' index items).Follows I (along body index items) := by
  induction items generalizing index with
  | nil => exact nothing_follows
  | cons v rest ih =>
    intro written written'
    exact (hbody v _ written written').bind fun p => afterRound_follows p (ih _) written written'

/-- A loop that may take more rounds follows. -/
theorem loop_follows {test test' : Act σ Value} {body body' : Part σ}
    (htest : test'.Follows I test) (hbody : body'.Follows I body) {fuel fuel' : Nat}
    (hfuel : fuel ≤ fuel') : (loop test' body' fuel').Follows I (loop test body fuel) := by
  induction fuel generalizing fuel' with
  | zero =>
    intro written written' v w _ a w' h
    cases h
  | succ fuel ih =>
    obtain ⟨rest, rfl⟩ : ∃ rest, fuel' = rest + 1 := Nat.exists_eq_succ_of_ne_zero (by omega)
    intro written written'
    refine htest.bind fun v => .ite ?_ (nothing_follows written written')
    exact (hbody written written').bind fun p =>
      afterRound_follows p (ih (Nat.le_of_succ_le_succ hfuel)) written written'

end Part

theorem Site.wrap_follows {I : σ → Prop} {catalog : Catalog} {s t : Site σ}
    (h : t.Follows catalog I s) {line : UInt32} {path path' : Act σ Value} {body body' : Part σ}
    (hpath : path'.Follows I path) (hbody : body'.Follows I body) :
    (t.wrap line path' body').Follows I (s.wrap line path body) := by
  intro written written'
  refine (mark_follows written written').bind fun _ => (hbody written written').bind fun p => ?_
  split
  · exact hpath.bind fun v => (render_follows h _ v).bind fun _ => .pure _
  · exact .pure _

/-! ### Statements -/

section Statements

variable {I : σ → Prop} {catalog : Catalog} {s t : Site σ}

mutual

theorem Stmt.part_follows (h : t.Follows catalog I s) : (st : Stmt) → (env : Env) →
    (st.part t env).Follows I (st.part s env)
  | .block body, env => Stmt.parts_follow h body env
  | .text _ _, _ | .last _, _ | .next _, _ => fun _ _ => .pure _
  | .output value _, env => fun _ _ =>
    (value.eval_follows h env).bind fun v => Site.write_follows h v
  | .eval e, env => fun _ _ => (e.eval_follows h env).bind fun _ => .pure _
  | .when test body _, env => fun written written' =>
    (test.eval_follows h env).bind fun _ =>
      .ite (Stmt.part_follows h body env written written') (Part.nothing_follows written written')
  | .choice test yes no _, env => fun written written' =>
    (test.eval_follows h env).bind fun _ =>
      .ite (Stmt.part_follows h yes env written written')
        (Stmt.part_follows h no env written written')
  | .switch subject arms, env => fun written written' =>
    (subject.eval_follows h env).bind fun v => Arm.parts_follow h v arms env written written'
  | .foreach _ source body _, env => fun written written' =>
    (source.eval_follows h env).bind fun v => (Site.items_follows h v).bind fun items =>
      Part.along_follows (fun _ _ => Stmt.part_follows h body _) items 0 written written'
  | .loop test body _, env =>
    Part.loop_follows (test.eval_follows h env) (Stmt.part_follows h body env) h.fuel
  | .inclusion path _, env => fun _ _ =>
    (path.eval_follows h env).bind fun v => Site.inclusion_follows h v
  | .inclusionWith path bindings _, env => fun _ _ =>
    (path.eval_follows h env).bind fun v => (Expr.evalAll_follows h env bindings).bind
      fun vs => Site.inclusionWith_follows h v vs
  | .wrapper path body _, env =>
    Site.wrap_follows h (path.eval_follows h env) (Stmt.part_follows h body env)

theorem Stmt.parts_follow (h : t.Follows catalog I s) : (body : List Stmt) → (env : Env) →
    (Stmt.parts t body env).Follows I (Stmt.parts s body env)
  | [], _ => Part.nothing_follows
  | st :: rest, env =>
    Part.andThen_follows (Stmt.part_follows h st env) (Stmt.parts_follow h rest env)

theorem Arm.parts_follow (h : t.Follows catalog I s) (subject : Value) : (arms : List Arm) →
    (env : Env) → (Arm.parts t subject arms env).Follows I (Arm.parts s subject arms env)
  | [], _ => Part.nothing_follows
  | .test value body _ :: rest, env => fun written written' =>
    (value.eval_follows h env).bind fun _ =>
      .ite (Stmt.part_follows h body env written written')
        (Arm.parts_follow h subject rest env written written')
  | .always body _ :: _, env => Stmt.part_follows h body env

end

end Statements

/-! ### Templates -/

/-- A template that can be read. -/
def Template.IsReadable (t : Template) : Prop := ∃ s, Stmt.ofNode false t.tree = .ok s

namespace Library

variable {ctx : Context σ} {library : Library σ} {catalog : Catalog} {I : σ → Prop}

/-- The site of a template at a depth. -/
def site (ctx : Context σ) (library : Library σ) (fuel : Nat) (source : Source) (depth : Nat) :
    Site σ :=
  ⟨ctx, library, library.render ctx fuel, source, depth, fuel + 1⟩

theorem render_eq {fuel : Nat} {t : Template} {s : Stmt} (hs : Stmt.ofNode false t.tree = .ok s)
    (depth : Nat) : library.render ctx (fuel + 1) t depth =
      (do return (← s.part (library.site ctx fuel t.source depth) {} 0).text) := by
  rw [← Stmt.ofNode_part _ t.tree hs]
  rfl

/-- A template follows itself if it is rendered less deep and with no less fuel. -/
theorem render_follows (hholds : library.Holds catalog I)
    (hreadable : ∀ {name t}, catalog name = .ok t → t.IsReadable) {fuel fuel' : Nat}
    (hfuel : fuel ≤ fuel') {t : Template} (ht : t.IsReadable) {depth depth' : Nat}
    (hdepth : depth' ≤ depth) :
    (library.render ctx fuel' t depth').Follows I (library.render ctx fuel t depth) := by
  induction fuel generalizing fuel' t depth depth' with
  | zero =>
    intro v w _ a w' h
    cases h
  | succ fuel ih =>
    obtain ⟨rest, rfl⟩ : ∃ rest, fuel' = rest + 1 := Nat.exists_eq_succ_of_ne_zero (by omega)
    obtain ⟨s, hs⟩ := ht
    have hsite : (library.site ctx rest t.source depth').Follows catalog I
        (library.site ctx fuel t.source depth) :=
      ⟨rfl, rfl, hholds, hdepth, hfuel, fun hinner _ _ hd =>
        ih (Nat.le_of_succ_le_succ hfuel) (hreadable hinner) hd⟩
    rw [render_eq hs, render_eq hs]
    exact (Stmt.part_follows hsite s {} 0 0).bind fun _ => .pure _

theorem site_follows (hholds : library.Holds catalog I)
    (hreadable : ∀ {name t}, catalog name = .ok t → t.IsReadable) {fuel fuel' : Nat}
    (hfuel : fuel ≤ fuel') (source source' : Source) {depth depth' : Nat}
    (hdepth : depth' ≤ depth) : (library.site ctx fuel' source' depth').Follows catalog I
      (library.site ctx fuel source depth) :=
  ⟨rfl, rfl, hholds, hdepth, Nat.succ_le_succ hfuel, fun hinner _ _ hd =>
    render_follows hholds hreadable hfuel (hreadable hinner) hd⟩

end Library

end Stencil
