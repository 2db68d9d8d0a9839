import Stencil.Proofs.Evaluation

/-!
# What renders keep to

A policy tells good values and texts from others. If a template comes to good values only and makes
good ones of them, then all its variables and all its text are good. Along the way, only faults
arise that are not the program's own.

* `Fault.IsOrdinary`: a fault that a template may meet with;
* `Policy`: good values and texts;
* `Act.Obeys`: an act that turns out well if the variables are good;
* `Policy.Suits`: what a context makes of good values is good;
* `Expr.eval_obeys`: the values of expressions are good.
-/

namespace Stencil

variable {σ α β : Type}

/-- The faults of numbers that are too large to be values. -/
def Fault.IsExcess (f : Fault) : Prop :=
  f = .internal .outputTooLarge ∨ f = .internal .loopTooLong

/-- A fault of the template or of what it works with, or that of a number. -/
def Fault.IsOrdinary (f : Fault) : Prop := f.kind ≠ .internal ∨ f.IsExcess

/-- Good values and texts. -/
structure Policy where
  value : Value → Prop
  text : String → Prop

namespace Policy

variable (π : Policy)

/-- All values of a table are good. -/
def table (b : Bindings Value) : Prop := ∀ e ∈ b, π.value e.2

/-- What is settled without a fault is good. -/
def settled : Except Fault (List Caution × Value) → Prop
  | .ok (_, v) => π.value v
  | .error fault => fault.IsOrdinary

variable {π}

theorem table_nil : π.table [] := nofun

theorem table_cons {name : String} {v : Value} {b : Bindings Value} (hv : π.value v)
    (hb : π.table b) : π.table ((name, v) :: b) :=
  List.forall_mem_cons.2 ⟨hv, hb⟩

theorem table.lookup {b : Bindings Value} (hb : π.table b) {name : String} {v : Value}
    (h : b.lookup name = some v) : π.value v := by
  obtain ⟨l₁, l₂, rfl, -⟩ := List.lookup_eq_some_iff.1 h
  exact hb (name, v) (by simp)

theorem table.set {b : Bindings Value} (hb : π.table b) (name : String) {v : Value}
    (hv : π.value v) : π.table (b.set name v) := by
  induction b with
  | nil => exact table_cons hv table_nil
  | cons e rest ih =>
    obtain ⟨k, u⟩ := e
    obtain ⟨hu, hrest⟩ := List.forall_mem_cons.1 hb
    unfold Bindings.set
    split
    · exact table_cons hv hrest
    · exact table_cons hu (ih hrest)

theorem table.setAll {b pairs : Bindings Value} (hb : π.table b) (hpairs : π.table pairs) :
    π.table (b.setAll pairs) := by
  induction pairs generalizing b with
  | nil => exact hb
  | cons e rest ih =>
    obtain ⟨he, hrest⟩ := List.forall_mem_cons.1 hpairs
    exact ih (hb.set e.1 he) hrest

theorem table.addPairs {b entries : Bindings Value} {vs : List Value} (hb : π.table b)
    (hvs : ∀ v ∈ vs, π.value v) (h : Value.addPairs b vs = .ok entries) : π.table entries := by
  -- `Value.addPairs` takes two values at a time.
  induction b, vs using Value.addPairs.induct with
  | case1 b key value rest hkey =>
    rw [Value.addPairs, if_pos hkey] at h
    cases h
  | case2 b key value rest hkey ih =>
    rw [Value.addPairs, if_neg hkey] at h
    exact ih (hb.set _ (hvs value (by simp))) (fun v hv => hvs v (by simp [hv])) h
  | case3 vs b hshort =>
    rw [Value.addPairs] at h
    · exact Except.ok.inj h ▸ hb
    · exact hshort

end Policy

/-! ### Acts that obey -/

/-- If the variables are good, an act keeps them so and has a result as `Q` says, or it stops with
ordinary faults. -/
def Act.Obeys (π : Policy) (x : Act σ α) (Q : α → Prop) : Prop :=
  ∀ w, π.table w.vars → match x w with
    | none => True
    | some (.error blames, _) => ∀ b ∈ blames, b.fault.IsOrdinary
    | some (.ok a, v) => π.table v.vars ∧ Q a

namespace Act.Obeys

variable {π : Policy} {x : Act σ α} {P Q : α → Prop}

theorem pure {a : α} (h : Q a) : Obeys π (pure a : Act σ α) Q := fun _ hw => ⟨hw, h⟩

theorem bind {k : α → Act σ β} {R : β → Prop} (hx : Obeys π x P)
    (hk : ∀ a, P a → Obeys π (k a) R) : Obeys π (x >>= k) R := by
  intro w hw
  have h := hx w hw
  cases hxw : x w with
  | none =>
    rw [Act.bind_of_none hxw]
    trivial
  | some r =>
    rw [hxw] at h
    obtain ⟨blames | a, v⟩ := r
    · rw [Act.bind_of_error hxw]
      exact h
    · rw [Act.bind_of_ok hxw]
      exact hk a h.2 v h.1

theorem ite {y : Act σ α} {c : Prop} [Decidable c] (hx : Obeys π x Q) (hy : Obeys π y Q) :
    Obeys π (if c then x else y) Q := by
  split
  · exact hx
  · exact hy

theorem vars : Obeys (σ := σ) π Act.vars π.table := fun _ hw => ⟨hw, hw⟩

theorem assign (name : String) {v : Value} (hv : π.value v) :
    Obeys (σ := σ) π (Act.assign name v) fun _ => True :=
  fun _ hw => ⟨hw.set name hv, trivial⟩

theorem apart {vars : Vars} (hvars : π.table vars) (hx : Obeys π x Q) :
    Obeys π (Act.apart vars x) Q := by
  intro w hw
  have h := hx { w with vars } hvars
  rcases hxw : x { w with vars } with _ | ⟨blames | a, v⟩ <;> rw [hxw] at h <;>
    simp only [Act.apart, hxw]
  · exact h
  · exact ⟨hw, h.2⟩

end Act.Obeys

/-! ### What a context makes of good values -/

/-- What a context makes of good values is good. -/
structure Policy.Suits (π : Policy) (ctx : Context σ) : Prop where
  null : π.value .null
  bool : ∀ b, π.value (.bool b)
  int : ∀ n, π.value (.int n)
  float : ∀ x, π.value (.float x)
  str : ∀ s, π.value (.str s)
  raw : ∀ {s}, π.value (.raw s) ↔ π.text s
  array : ∀ {vs}, (∀ v ∈ vs, π.value v) → π.value (.array vs)
  map : ∀ {entries}, π.table entries → π.value (.map entries)
  items : ∀ {v vs}, π.value v → v.items ctx.hosts = .ok vs → ∀ u ∈ vs, π.value u
  member : ∀ {container key r}, π.value container →
    Value.member ctx.hosts container key = .ok r → π.value r.2
  answer : ∀ {target name args v}, π.value target → (∀ a ∈ args, π.value a) →
    target.answer ctx.hosts name args = .ok v → π.value v
  call : ∀ {name function args v}, ctx.functions.get? name = some function →
    (∀ a ∈ args, π.value a) → function args = .ok v → π.value v
  empty : π.text ""
  append : ∀ {s t}, π.text s → π.text t → π.text (s ++ t)
  placeholder : π.text ctx.limits.placeholder
  escape : ∀ s, π.text (ctx.escape s)

namespace Policy

variable {π : Policy} {ctx : Context σ}

theorem settled_plainly {ε : Type} {fault : ε → Fault} {r : Except ε Value}
    (hv : ∀ v, r = .ok v → π.value v) (he : ∀ e, (fault e).kind ≠ .internal) :
    π.settled (plainly fault r) := by
  cases r with
  | ok v => exact hv v rfl
  | error e => exact .inl (he e)

theorem Suits.measured (hπ : π.Suits ctx) {n : Nat} {tooLarge : InternalFault}
    (h : (Fault.internal tooLarge).IsOrdinary) :
    π.settled (plainly id (Stencil.measured n tooLarge)) := by
  unfold Stencil.measured Value.ofNat?
  generalize Decimal.toWord? n = word
  cases word with
  | none => exact h
  | some word => exact hπ.int word

theorem Suits.fact (hπ : π.Suits ctx) (l : LoopRecord) (op : Opcode) :
    π.settled (plainly id (l.answer op)) := by
  unfold LoopRecord.answer
  split
  · exact hπ.measured (.inr (.inr rfl))
  · exact hπ.measured (.inr (.inr rfl))
  · exact hπ.bool _

theorem Suits.arith (hπ : π.Suits ctx) {op : ArithOp} {a b v : Value}
    (h : Value.arith op a b = .ok v) : π.value v := by
  unfold Value.arith at h
  split at h
  · next x y =>
    cases hxy : Value.integerArith op x y <;> rw [hxy] at h <;> cases h
    exact hπ.int _
  all_goals cases h
  all_goals exact hπ.float _

theorem Suits.range (hπ : π.Suits ctx) {a b v : Value} (h : Value.range a b = .ok v) :
    π.value v := by
  unfold Value.range at h
  split at h
  · cases h
    refine hπ.array fun v hv => ?_
    obtain ⟨n, -, rfl⟩ := List.mem_map.1 hv
    exact hπ.int _
  all_goals cases h

/-- The policy by which everything is good. -/
def any : Policy := ⟨fun _ => True, fun _ => True⟩

theorem any_suits (ctx : Context σ) : any.Suits ctx := by
  constructor <;> intros <;> trivial

theorem member_fault {hosts : HostTypes} {container key : Value} {fault : Fault}
    (h : Value.member hosts container key = .error fault) : fault.kind ≠ .internal := by
  unfold Value.member at h
  repeat' split at h
  all_goals cases h
  all_goals exact FaultKind.noConfusion

theorem Suits.binary (hπ : π.Suits ctx) (op : BinaryOp) {a b : Value} (ha : π.value a) :
    π.settled (op.apply ctx.hosts a b) := by
  cases op with
  | arith op => exact settled_plainly (fun v hv => hπ.arith hv) fun e => FaultKind.noConfusion
  | concat => exact hπ.str _
  | equals => exact hπ.bool _
  | notEquals => exact hπ.bool _
  | order test =>
    refine settled_plainly (fun v hv => ?_) fun e => FaultKind.noConfusion
    cases hc : Value.compare a b <;> rw [hc] at hv <;> cases hv
    exact hπ.bool _
  | range => exact settled_plainly (fun v hv => hπ.range hv) fun e => FaultKind.noConfusion
  | member =>
    show π.settled (Value.member ctx.hosts a b)
    cases hm : Value.member ctx.hosts a b with
    | ok r => exact hπ.member ha hm
    | error fault => exact .inl (member_fault hm)

theorem Suits.text (hπ : π.Suits ctx) (op : TextOp) (v : Value) : π.value (op.apply v) := by
  unfold TextOp.apply
  split
  · exact hπ.null
  · cases op <;> exact hπ.str _

theorem Suits.mapOfPairs (hπ : π.Suits ctx) {vs : List Value} (hvs : ∀ v ∈ vs, π.value v) :
    π.settled (mapOfPairs vs) := by
  refine settled_plainly (fun v hv => ?_) fun e => FaultKind.noConfusion
  unfold Value.mapOf at hv
  cases hpairs : Value.addPairs [] vs with
  | error e =>
    rw [hpairs] at hv
    cases hv
  | ok entries =>
    rw [hpairs] at hv
    cases hv
    exact hπ.map (table_nil.addPairs hvs hpairs)

theorem Suits.format (hπ : π.Suits ctx) (template : Value) (args : List Value) :
    π.settled (formatOf template args) := by
  unfold formatOf
  split
  · exact .inl FaultKind.noConfusion
  · refine settled_plainly (fun v hv => ?_) fun e => FaultKind.noConfusion
    cases hf : Format.format template.text args <;> rw [hf] at hv <;> cases hv
    exact hπ.str _

end Policy

/-! ### Sites -/

namespace Site

variable {π : Policy} {site : Site σ} {line : UInt32}

theorem blame_obeys {fault : Fault} (h : fault.IsOrdinary) (Q : α → Prop) :
    (site.blame line fault).Obeys π Q :=
  fun _ _ _ hb => (List.mem_singleton.1 hb).symm ▸ h

theorem vars_foldl_warn (cautions : List Caution) (w : World σ) :
    (cautions.foldl (site.warn line) w).vars = w.vars := by
  induction cautions generalizing w with
  | nil => rfl
  | cons c cs ih => exact ih (site.warn line w c)

theorem settle_obeys {r : Except Fault (List Caution × Value)} (h : π.settled r) :
    (site.settle line r).Obeys π π.value := by
  match r, h with
  | .ok (cautions, v), h => exact fun w hw => ⟨by rw [vars_foldl_warn]; exact hw, h⟩
  | .error fault, h => exact blame_obeys h _

variable (hπ : π.Suits site.ctx)

include hπ

theorem read_obeys {env : Env} (henv : π.table env.locals) (name : String) :
    (env.read name : Act σ Value).Obeys π π.value := by
  unfold Env.read
  split
  · next v hv => exact .pure (henv.lookup hv)
  · refine Act.Obeys.vars.bind fun vars hvars => .pure ?_
    cases hv : vars.get? name with
    | none => exact hπ.null
    | some v => exact hvars.lookup hv

theorem fact_obeys (env : Env) (fact : LoopFact) : (site.fact line env fact).Obeys π π.value := by
  unfold Site.fact
  split
  · exact blame_obeys (.inl FaultKind.noConfusion) _
  · exact settle_obeys (hπ.fact _ _)

theorem call_obeys {name : String} {args : List Value} (hargs : ∀ a ∈ args, π.value a) :
    (site.call line name args).Obeys π π.value := by
  unfold Site.call
  split
  · exact settle_obeys hπ.null
  · next function hf =>
    have hr : (site.settle line (plainly (.function name) (function args))).Obeys π π.value :=
      settle_obeys (Policy.settled_plainly (fun v hv => hπ.call hf hargs hv)
        fun e => FaultKind.noConfusion)
    exact fun w hw => hr (w.record (.call name args)) hw

theorem method_obeys {target : Value} {name : String} {args : List Value} (ht : π.value target)
    (hargs : ∀ a ∈ args, π.value a) : (site.method line target name args).Obeys π π.value :=
  settle_obeys (Policy.settled_plainly (fun _ hv => hπ.answer ht hargs hv)
    fun _ => FaultKind.noConfusion)

theorem items_obeys {v : Value} (hv : π.value v) :
    (site.items line v).Obeys π fun items => ∀ u ∈ items, π.value u := by
  unfold Site.items
  split
  · next items hitems => exact .pure (hπ.items hv hitems)
  · exact blame_obeys (.inl FaultKind.noConfusion) _

end Site

/-! ### Expressions -/

section Expressions

variable {π : Policy} {site : Site σ} {env : Env}

mutual

/-- The values of expressions are good. -/
theorem Expr.eval_obeys (hπ : π.Suits site.ctx) (henv : π.table env.locals) :
    (e : Expr) → (e.eval site env).Obeys π π.value
  | .null _ => .pure hπ.null
  | .bool b _ => .pure (hπ.bool b)
  | .int n _ => .pure (hπ.int n)
  | .float _ _ => .pure (hπ.float _)
  | .str s _ => .pure (hπ.str s)
  | .var name _ => site.read_obeys hπ henv name
  | .loopFact fact _ => site.fact_obeys hπ env fact
  | .binary op left right _ =>
    (Expr.eval_obeys hπ henv left).bind fun _ hu => (Expr.eval_obeys hπ henv right).bind fun _ _ =>
      Site.settle_obeys (hπ.binary op hu)
  | .and left right _ =>
    (Expr.eval_obeys hπ henv left).bind fun _ hu => .ite (Expr.eval_obeys hπ henv right) (.pure hu)
  | .or left right _ =>
    (Expr.eval_obeys hπ henv left).bind fun _ hu => .ite (.pure hu) (Expr.eval_obeys hπ henv right)
  | .not operand _ => (Expr.eval_obeys hπ henv operand).bind fun _ _ => .pure (hπ.bool _)
  | .array items _ => (Expr.evalAll_obeys hπ henv items).bind fun _ hvs => .pure (hπ.array hvs)
  | .map pairs _ =>
    (Expr.evalAll_obeys hπ henv pairs).bind fun _ hvs => Site.settle_obeys (hπ.mapOfPairs hvs)
  | .choice test yes no _ =>
    (Expr.eval_obeys hπ henv test).bind fun _ _ =>
      .ite (Expr.eval_obeys hπ henv yes) (Expr.eval_obeys hπ henv no)
  | .assign name value _ =>
    (Expr.eval_obeys hπ henv value).bind fun _ hv =>
      (Act.Obeys.assign name hv).bind fun _ _ => .pure hv
  | .textCall op arg _ => (Expr.eval_obeys hπ henv arg).bind fun v _ => .pure (hπ.text op v)
  | .format template args _ _ =>
    (Expr.eval_obeys hπ henv template).bind fun _ _ =>
      (Expr.evalAll_obeys hπ henv args).bind fun _ _ => Site.settle_obeys (hπ.format _ _)
  | .call _ args _ _ =>
    (Expr.evalAll_obeys hπ henv args).bind fun _ hvs => site.call_obeys hπ hvs
  | .method object _ args _ _ =>
    (Expr.eval_obeys hπ henv object).bind fun _ hu =>
      (Expr.evalAll_obeys hπ henv args).bind fun _ hvs => site.method_obeys hπ hu hvs

theorem Expr.evalAll_obeys (hπ : π.Suits site.ctx) (henv : π.table env.locals) :
    (es : List Expr) → (Expr.evalAll site env es).Obeys π fun vs => ∀ v ∈ vs, π.value v
  | [] => .pure nofun
  | e :: rest =>
    (Expr.eval_obeys hπ henv e).bind fun _ hv => (Expr.evalAll_obeys hπ henv rest).bind fun _ hvs =>
      .pure (List.forall_mem_cons.2 ⟨hv, hvs⟩)

end

end Expressions

end Stencil
