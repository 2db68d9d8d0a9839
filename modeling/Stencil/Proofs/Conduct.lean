import Stencil.Proofs.Policy
import Stencil.Proofs.Reading

/-!
# What templates keep to

A template that compiles leads nowhere but to its own loops. If its own text is good by a policy
that suits the context, all that it writes is good.

* `Node.HasTexts`: the text in a tree, which stands outside of expressions, is good;
* `Stmt.Behaves`: a statement has good text and leads out of no loop but its own;
* `Stmt.ofNode_behaves`: the statements of trees do;
* `Library.render_obeys`: what a template writes is good.
-/

namespace Stencil

variable {σ : Type}

/-! ### Trees and statements with good texts -/

mutual

/-- All text in a tree that is written as it is. -/
def Node.HasTexts (P : String → Prop) : Node → Prop
  | ⟨tag, text?, children, _⟩ =>
    (tag = .literalText → P (text?.getD "")) ∧ Node.AllHaveTexts P children

/-- The same for trees. -/
def Node.AllHaveTexts (P : String → Prop) : List Node → Prop
  | [] => True
  | n :: rest => n.HasTexts P ∧ Node.AllHaveTexts P rest

end

mutual

/-- A statement whose text is as `P` says, and which leads out of a loop around it only if there is
one. -/
def Stmt.Behaves (P : String → Prop) (inLoop : Bool) : Stmt → Prop
  | .block body => Stmt.AllBehave P inLoop body
  | .text s _ => P s
  | .output _ _ | .eval _ | .inclusion _ _ | .inclusionWith _ _ _ => True
  | .when _ body _ => body.Behaves P inLoop
  | .choice _ yes no _ => yes.Behaves P inLoop ∧ no.Behaves P inLoop
  | .switch _ arms => Arm.AllBehave P inLoop arms
  | .foreach _ _ body _ | .loop _ body _ => body.Behaves P true
  | .last _ | .next _ => inLoop = true
  | .wrapper _ body _ => body.Behaves P inLoop

/-- The same for statements in a row. -/
def Stmt.AllBehave (P : String → Prop) (inLoop : Bool) : List Stmt → Prop
  | [] => True
  | s :: rest => s.Behaves P inLoop ∧ Stmt.AllBehave P inLoop rest

/-- The same for the arms of a switch. -/
def Arm.AllBehave (P : String → Prop) (inLoop : Bool) : List Arm → Prop
  | [] => True
  | .test _ body _ :: rest | .always body _ :: rest =>
    body.Behaves P inLoop ∧ Arm.AllBehave P inLoop rest

end

mutual

theorem Node.hasTexts_any : (n : Node) → n.HasTexts fun _ => True
  | ⟨_, _, children, _⟩ => ⟨fun _ => trivial, Node.allHaveTexts_any children⟩

theorem Node.allHaveTexts_any : (ns : List Node) → Node.AllHaveTexts (fun _ => True) ns
  | [] => trivial
  | n :: rest => ⟨Node.hasTexts_any n, Node.allHaveTexts_any rest⟩

end

section Reading

variable {P : String → Prop}

mutual

/-- The statement of a tree with good text behaves. -/
theorem Stmt.ofNode_behaves : {inLoop : Bool} → (n : Node) → {s : Stmt} → n.HasTexts P →
    Stmt.ofNode inLoop n = .ok s → s.Behaves P inLoop
  | inLoop, ⟨tag, text?, children, line⟩, s, ⟨htext, hchildren⟩, h => by
    cases tag
    case integer | double | string | yes | no | nothing | ident | dollarVar | array | map
        | loopCount | loopIndex | loopHasNext | arm => cases h
    case add | subtract | multiply | divide | modulo | concat | equals | notEquals | gt | ge | lt
        | le | range | member | andAnd | orOr | negation | call | assignment =>
      simp only [Stmt.ofNode, bind_eq_ok, pure_eq_ok] at h
      obtain ⟨e, -, rfl⟩ := h
      trivial
    case block =>
      simp only [Stmt.ofNode, bind_eq_ok, pure_eq_ok] at h
      obtain ⟨body, hbody, rfl⟩ := h
      exact Stmt.ofNodes_behave children hchildren hbody
    case literalText =>
      cases h
      exact htext rfl
    case output =>
      match children, h with
      | value :: _, h =>
        simp only [Stmt.ofNode, bind_eq_ok, pure_eq_ok] at h
        obtain ⟨e, -, rfl⟩ := h
        split <;> trivial
    case choice =>
      match children, hchildren, h with
      | test :: branches, ⟨_, hbranches⟩, h =>
        simp only [Stmt.ofNode, bind_eq_ok] at h
        obtain ⟨t, -, h⟩ := h
        match branches, hbranches, h with
        | [body], ⟨hbody, _⟩, h =>
          simp only [bind_eq_ok, pure_eq_ok] at h
          obtain ⟨b, hb, rfl⟩ := h
          rw [Stmt.Behaves]
          exact Stmt.ofNode_behaves body hbody hb
        | yes :: no :: _, ⟨hyes, hno, _⟩, h =>
          simp only [bind_eq_ok, pure_eq_ok] at h
          obtain ⟨y, hy, n, hn, rfl⟩ := h
          exact ⟨Stmt.ofNode_behaves yes hyes hy, Stmt.ofNode_behaves no hno hn⟩
    case switch =>
      match children, hchildren, h with
      | subject :: arms, ⟨_, harms⟩, h =>
        simp only [Stmt.ofNode, bind_eq_ok, pure_eq_ok] at h
        obtain ⟨x, -, as, has, rfl⟩ := h
        exact Arm.ofNodes_behave arms harms has
    case foreach =>
      match children, hchildren, h with
      | var :: source :: rest, ⟨_, _, hrest⟩, h =>
        simp only [Stmt.ofNode, bind_eq_ok] at h
        obtain ⟨x, -, h⟩ := h
        match rest, hrest, h with
        | body :: _, ⟨hbody, _⟩, h =>
          simp only [bind_eq_ok, pure_eq_ok] at h
          obtain ⟨b, hb, rfl⟩ := h
          rw [Stmt.Behaves]
          exact Stmt.ofNode_behaves body hbody hb
    case loop =>
      match children, hchildren, h with
      | test :: rest, ⟨_, hrest⟩, h =>
        simp only [Stmt.ofNode, bind_eq_ok] at h
        obtain ⟨x, -, h⟩ := h
        match rest, hrest, h with
        | body :: _, ⟨hbody, _⟩, h =>
          simp only [bind_eq_ok, pure_eq_ok] at h
          obtain ⟨b, hb, rfl⟩ := h
          rw [Stmt.Behaves]
          exact Stmt.ofNode_behaves body hbody hb
    case last | next =>
      simp only [Stmt.ofNode] at h
      split at h
      · next hloop =>
        cases h
        exact hloop
      · cases h
    case inclusion =>
      match children, h with
      | path :: bindings, h =>
        simp only [Stmt.ofNode, bind_eq_ok] at h
        obtain ⟨x, -, h⟩ := h
        repeat' split at h
        · cases h
          trivial
        · simp only [bind_eq_ok, pure_eq_ok] at h
          obtain ⟨xs, -, rfl⟩ := h
          trivial
        · cases h
    case wrapper =>
      match children, hchildren, h with
      | path :: body :: _, ⟨_, hbody, _⟩, h =>
        simp only [Stmt.ofNode, bind_eq_ok, pure_eq_ok] at h
        obtain ⟨b, hb, x, -, rfl⟩ := h
        rw [Stmt.Behaves]
        exact Stmt.ofNode_behaves body hbody hb

theorem Stmt.ofNodes_behave : {inLoop : Bool} → (ns : List Node) → {body : List Stmt} →
    Node.AllHaveTexts P ns → Stmt.ofNodes inLoop ns = .ok body → Stmt.AllBehave P inLoop body
  | _, [], _, _, h => by
    cases h
    trivial
  | _, n :: rest, _, ⟨hn, hrest⟩, h => by
    simp only [Stmt.ofNodes, bind_eq_ok, pure_eq_ok] at h
    obtain ⟨s, hs, ss, hss, rfl⟩ := h
    exact ⟨Stmt.ofNode_behaves n hn hs, Stmt.ofNodes_behave rest hrest hss⟩

theorem Arm.ofNodes_behave : {inLoop : Bool} → (ns : List Node) → {arms : List Arm} →
    Node.AllHaveTexts P ns → Arm.ofNodes inLoop ns = .ok arms → Arm.AllBehave P inLoop arms
  | _, [], _, _, h => by
    cases h
    trivial
  | _, ⟨tag, text?, parts, line⟩ :: rest, _, ⟨⟨_, hparts⟩, hrest⟩, h => by
    by_cases htag : tag = .arm
    · match parts, hparts, h with
      | [value, body], ⟨_, hbody, _⟩, h =>
        simp only [Arm.ofNodes, if_pos htag, bind_eq_ok, pure_eq_ok] at h
        obtain ⟨x, -, b, hb, _, rfl, as, has, rfl⟩ := h
        exact ⟨Stmt.ofNode_behaves body hbody hb, Arm.ofNodes_behave rest hrest has⟩
      | [body], ⟨hbody, _⟩, h =>
        simp only [Arm.ofNodes, if_pos htag, bind_eq_ok, pure_eq_ok] at h
        obtain ⟨b, hb, _, rfl, as, has, rfl⟩ := h
        exact ⟨Stmt.ofNode_behaves body hbody hb, Arm.ofNodes_behave rest hrest has⟩
      | [], _, h | _ :: _ :: _ :: _, _, h =>
        simp only [Arm.ofNodes, if_pos htag, unsupported, bind_eq_ok] at h
        obtain ⟨_, h, _⟩ := h
        cases h
    · rw [Arm.ofNodes, if_neg htag] at h
      cases h

end

end Reading

/-! ### Parts that obey -/

/-- A good passage, which leads out of a loop around it only if there is one. -/
def Policy.passage (π : Policy) (inLoop : Bool) (p : Passage) : Prop :=
  π.text p.text ∧ (inLoop = false → p.flow = .on)

theorem Policy.passage_on {π : Policy} {s : String} (hs : π.text s) (inLoop : Bool) :
    π.passage inLoop ⟨s, .on⟩ :=
  ⟨hs, fun _ => rfl⟩

/-- A part that writes good passages. -/
def Part.Obeys (π : Policy) (inLoop : Bool) (x : Part σ) : Prop :=
  ∀ written, (x written).Obeys π (π.passage inLoop)

section Parts

variable {π : Policy} {ctx : Context σ} (hπ : π.Suits ctx) {inLoop : Bool}

include hπ

theorem Policy.Suits.behind {p : Passage} (hp : π.passage inLoop p) {s : String} (hs : π.text s) :
    π.passage inLoop (p.behind s) :=
  ⟨hπ.append hs hp.1, hp.2⟩

namespace Part

theorem nothing_obeys : (nothing : Part σ).Obeys π inLoop :=
  fun _ => .pure (π.passage_on hπ.empty inLoop)

theorem andThen_obeys {x y : Part σ} (hx : x.Obeys π inLoop) (hy : y.Obeys π inLoop) :
    (x.andThen y).Obeys π inLoop := by
  intro written
  refine (hx written).bind fun p hp => ?_
  split
  · exact (hy _).bind fun q hq => .pure (hπ.behind hq hp.1)
  · exact .pure hp

theorem afterRound_obeys {p : Passage} (hp : π.passage true p) {others : Part σ}
    (hothers : others.Obeys π inLoop) : (afterRound p others).Obeys π inLoop := by
  -- A round may lead out of the loop, but the loop itself then leads on.
  intro written
  unfold afterRound
  split
  · exact .pure (π.passage_on hp.1 inLoop)
  · exact (hothers _).bind fun q hq => .pure (hπ.behind hq hp.1)

theorem along_obeys {body : Value → LoopRecord → Part σ}
    (hbody : ∀ v record, π.value v → (body v record).Obeys π true) {items : List Value}
    (hitems : ∀ v ∈ items, π.value v) (index : Nat) : (along body index items).Obeys π inLoop := by
  induction items generalizing index with
  | nil => exact nothing_obeys hπ
  | cons v rest ih =>
    obtain ⟨hv, hrest⟩ := List.forall_mem_cons.1 hitems
    intro written
    exact (hbody v _ hv written).bind fun p hp => afterRound_obeys hπ hp (ih hrest _) written

theorem loop_obeys {test : Act σ Value} {body : Part σ} (htest : test.Obeys π π.value)
    (hbody : body.Obeys π true) (fuel : Nat) : (loop test body fuel).Obeys π inLoop := by
  induction fuel with
  | zero => exact fun _ _ _ => trivial
  | succ fuel ih =>
    intro written
    refine htest.bind fun v _ => .ite ?_ (nothing_obeys hπ written)
    exact (hbody written).bind fun p hp => afterRound_obeys hπ hp ih written

end Part

end Parts

/-! ### Sites that obey -/

/-- A template that can be read as a statement that behaves. -/
def Template.Behaves (P : String → Prop) (t : Template) : Prop :=
  ∃ s, Stmt.ofNode false t.tree = .ok s ∧ s.Behaves P false

/-- The templates of a site behave, and their output is good. -/
structure Site.Supplies (site : Site σ) (π : Policy) : Prop where
  library : ∀ {name st t st'}, site.library name st = (.ok t, st') → t.Behaves π.text
  enter : ∀ t depth, t.Behaves π.text → (site.enter t depth).Obeys π π.text

namespace Site

variable {π : Policy} {site : Site σ} {line : UInt32} {inLoop : Bool}

theorem write_obeys (hπ : π.Suits site.ctx) {v : Value} (hv : π.value v) :
    (site.write line v).Obeys π (π.passage inLoop) := by
  cases v with
  | null => exact fun w hw => ⟨hw, π.passage_on hπ.placeholder inLoop⟩
  | raw s => exact .pure (π.passage_on (hπ.raw.1 hv) inLoop)
  | _ => exact .pure (π.passage_on (hπ.escape _) inLoop)

theorem writeOutput_obeys (hπ : π.Suits site.ctx) {output : String} (h : π.text output) :
    (site.writeOutput line output).Obeys π (π.passage inLoop) := by
  refine write_obeys hπ ?_
  split
  · exact hπ.raw.2 h
  · exact hπ.str _

theorem ordinary_under {source : Source} {blames : List Blame}
    (h : ∀ b ∈ blames, b.fault.IsOrdinary) : ∀ b ∈ Blame.under source line blames,
      b.fault.IsOrdinary := by
  cases blames with
  | nil => exact h
  | cons b rest => exact List.forall_mem_cons.2 ⟨h b (by simp), h⟩

variable (hsite : site.Supplies π)

include hsite

theorem load_obeys (path : Value) :
    (site.load line path).Obeys π (Template.Behaves π.text) := by
  unfold load
  refine .ite (blame_obeys (.inl FaultKind.noConfusion) _) ?_
  have hfetch : (site.fetch path.text).Obeys π
      fun r => ∀ t, r = .ok t → Template.Behaves π.text t := by
    intro w hw
    unfold fetch
    cases hl : site.library path.text w.loader with
    | mk result loader => exact ⟨hw, fun t ht => hsite.library (ht ▸ hl)⟩
  refine hfetch.bind fun r hr => ?_
  split
  · exact .pure (hr _ rfl)
  · exact blame_obeys (.inl FaultKind.noConfusion) _

theorem visit_obeys {t : Template} (ht : t.Behaves π.text) :
    (site.visit line t).Obeys π π.text := by
  unfold visit
  split
  · next fault hfault =>
    refine blame_obeys (.inl ?_) _
    unfold tooDeep? at hfault
    repeat' split at hfault
    all_goals cases hfault
    exact FaultKind.noConfusion
  · intro w hw
    have h := hsite.enter t (site.depth + 1) ht w hw
    rcases hx : site.enter t (site.depth + 1) w with _ | ⟨blames | output, v⟩ <;> rw [hx] at h <;>
      simp only [hx]
    · exact ordinary_under h
    · exact h

theorem render_obeys {scope : Option (Vars → Vars)}
    (hscope : ∀ change, scope = some change → ∀ vars, π.table vars → π.table (change vars))
    (path : Value) : (site.render line scope path).Obeys π π.text := by
  refine (load_obeys hsite path).bind fun t ht => ?_
  split
  · exact visit_obeys hsite ht
  · next change =>
    exact Act.Obeys.vars.bind fun vars hvars =>
      .apart (hscope change rfl vars hvars) (visit_obeys hsite ht)

theorem inclusion_obeys (hπ : π.Suits site.ctx) (path : Value) :
    (site.inclusion line path).Obeys π (π.passage inLoop) := by
  refine (render_obeys hsite ?_ path).bind fun _ h => writeOutput_obeys hπ h
  exact nofun

theorem inclusionWith_obeys (hπ : π.Suits site.ctx) (path : Value) {pairs : List Value}
    (hpairs : ∀ v ∈ pairs, π.value v) :
    (site.inclusionWith line path pairs).Obeys π (π.passage inLoop) := by
  unfold inclusionWith
  split
  · exact blame_obeys (.inl FaultKind.noConfusion) _
  · next extra hextra =>
    refine (render_obeys hsite ?_ path).bind fun _ h => writeOutput_obeys hπ h
    intro change hchange vars hvars
    cases hchange
    exact hvars.setAll (Policy.table_nil.addPairs hpairs hextra)

theorem wrap_obeys (hπ : π.Suits site.ctx) {path : Act σ Value} {body : Part σ}
    (hpath : path.Obeys π π.value) (hbody : body.Obeys π inLoop) :
    (site.wrap line path body).Obeys π inLoop := by
  intro written
  have hmark : (site.mark line written).Obeys π fun _ => True :=
    (settle_obeys (hπ.measured (.inr (.inl rfl)))).bind fun _ _ => .pure trivial
  refine hmark.bind fun _ _ => (hbody written).bind fun p hp => ?_
  split
  · refine hpath.bind fun v _ => (render_obeys hsite ?_ v).bind fun _ h =>
      .pure (π.passage_on h inLoop)
    intro change hchange vars hvars
    cases hchange
    exact hvars.set _ (hπ.raw.2 hp.1)
  · exact .pure hp

end Site

/-! ### Statements -/

section Statements

variable {π : Policy} {site : Site σ}

mutual

/-- What statements write is good. -/
theorem Stmt.part_obeys (hπ : π.Suits site.ctx) (hsite : site.Supplies π) : {inLoop : Bool} →
    (s : Stmt) → s.Behaves π.text inLoop → ∀ {env : Env}, π.table env.locals →
      (s.part site env).Obeys π inLoop
  | _, .block body, h, _, henv => Stmt.parts_obey hπ hsite body h henv
  | inLoop, .text _ _, h, _, _ => fun _ => .pure (π.passage_on h inLoop)
  | _, .output value _, _, _, henv => fun _ =>
    (value.eval_obeys hπ henv).bind fun _ hv => Site.write_obeys hπ hv
  | inLoop, .eval e, _, _, henv => fun _ =>
    (e.eval_obeys hπ henv).bind fun _ _ => .pure (π.passage_on hπ.empty inLoop)
  | _, .when test body _, h, _, henv => fun written =>
    (test.eval_obeys hπ henv).bind fun _ _ =>
      .ite (Stmt.part_obeys hπ hsite body h henv written) (Part.nothing_obeys hπ written)
  | _, .choice test yes no _, h, _, henv => fun written =>
    (test.eval_obeys hπ henv).bind fun _ _ =>
      .ite (Stmt.part_obeys hπ hsite yes h.1 henv written)
        (Stmt.part_obeys hπ hsite no h.2 henv written)
  | _, .switch subject arms, h, _, henv => fun written =>
    (subject.eval_obeys hπ henv).bind fun v _ => Arm.parts_obey hπ hsite v arms h henv written
  | _, .foreach _ source body _, h, _, henv => fun written =>
    (source.eval_obeys hπ henv).bind fun _ hv => (Site.items_obeys hπ hv).bind fun _ hitems =>
      Part.along_obeys hπ (fun _ _ hu => Stmt.part_obeys hπ hsite body h
        (Policy.table_cons hu henv)) hitems 0 written
  | _, .loop test body _, h, _, henv =>
    Part.loop_obeys hπ (test.eval_obeys hπ henv) (Stmt.part_obeys hπ hsite body h henv) site.fuel
  | _, .last _, h, _, _ | _, .next _, h, _, _ => fun _ =>
    .pure ⟨hπ.empty, fun hout => Bool.noConfusion (hout.symm.trans h)⟩
  | _, .inclusion path _, _, _, henv => fun _ =>
    (path.eval_obeys hπ henv).bind fun v _ => Site.inclusion_obeys hsite hπ v
  | _, .inclusionWith path bindings _, _, _, henv => fun _ =>
    (path.eval_obeys hπ henv).bind fun v _ => (Expr.evalAll_obeys hπ henv bindings).bind
      fun _ hvs => Site.inclusionWith_obeys hsite hπ v hvs
  | _, .wrapper path body _, h, _, henv =>
    Site.wrap_obeys hsite hπ (path.eval_obeys hπ henv) (Stmt.part_obeys hπ hsite body h henv)

theorem Stmt.parts_obey (hπ : π.Suits site.ctx) (hsite : site.Supplies π) : {inLoop : Bool} →
    (body : List Stmt) → Stmt.AllBehave π.text inLoop body → ∀ {env : Env},
      π.table env.locals → (Stmt.parts site body env).Obeys π inLoop
  | _, [], _, _, _ => Part.nothing_obeys hπ
  | _, s :: rest, h, _, henv =>
    Part.andThen_obeys hπ (Stmt.part_obeys hπ hsite s h.1 henv)
      (Stmt.parts_obey hπ hsite rest h.2 henv)

theorem Arm.parts_obey (hπ : π.Suits site.ctx) (hsite : site.Supplies π) : {inLoop : Bool} →
    (subject : Value) → (arms : List Arm) → Arm.AllBehave π.text inLoop arms → ∀ {env : Env},
      π.table env.locals → (Arm.parts site subject arms env).Obeys π inLoop
  | _, _, [], _, _, _ => Part.nothing_obeys hπ
  | _, subject, .test value body _ :: rest, h, _, henv => fun written =>
    (value.eval_obeys hπ henv).bind fun _ _ =>
      .ite (Stmt.part_obeys hπ hsite body h.1 henv written)
        (Arm.parts_obey hπ hsite subject rest h.2 henv written)
  | _, _, .always body _ :: _, h, _, henv => Stmt.part_obeys hπ hsite body h.1 henv

end

end Statements

/-! ### Templates -/

/-- What a template writes is good, if it and all templates in the library behave. -/
theorem Library.render_obeys {π : Policy} {ctx : Context σ} (hπ : π.Suits ctx)
    {library : Library σ}
    (hlibrary : ∀ {name st t st'}, library name st = (.ok t, st') → t.Behaves π.text)
    (fuel : Nat) {t : Template} (ht : t.Behaves π.text) (depth : Nat) :
    (library.render ctx fuel t depth).Obeys π π.text := by
  induction fuel generalizing t depth with
  | zero => exact fun _ _ => trivial
  | succ fuel ih =>
    obtain ⟨s, hs, hbehaves⟩ := ht
    unfold Library.render
    rw [Stmt.ofNode_part _ t.tree hs]
    refine (Stmt.part_obeys hπ ⟨hlibrary, fun t depth ht => ih ht depth⟩ s hbehaves
      Policy.table_nil 0).bind fun p hp => .pure hp.1

end Stencil
