import Stencil.Proofs.Faults

/-!
# What a step can do

A step never changes the program of its frame or how deep it is nested. It changes at most one
variable, and only where an instruction assigns it, and it asks for another template only where an
instruction says so. Proofs about whole renders need to know no more about steps than this.

* `Action.IsLocal`: an action that concerns neither variables nor other templates;
* `Frame.action_means`: what the action of an instruction tells about the instruction;
* `Program.Assigns`: the variables that the instructions of a program assign;
* `Frame.AsksFor`: a frame stands at an instruction that renders another template;
* `Frame.Moves`, `Frame.step_moves`: what a step leads to;
* `Frame.step_rel`: steps in two contexts;
* `Frame.ComesTo`: how a frame ends.
-/

namespace Stencil

variable {σ α β : Type}

/-! ### Results without faults of depth -/

/-- A result, if there is one, is as `P` says; if there is none, it is not because templates are
nested too deep. -/
def Delivers (P : α → Prop) : Except Fault α → Prop
  | .ok a => P a
  | .error fault => fault.kind ≠ .limit

namespace Delivers

variable {P : α → Prop} {Q : β → Prop} {x : Except Fault α}

theorem bind {k : α → Except Fault β} (hx : Delivers P x) (hk : ∀ a, P a → Delivers Q (k a)) :
    Delivers Q (x >>= k) := by
  cases x with
  | ok a => exact hk a hx
  | error fault => exact hx

theorem mono {P' : α → Prop} (hx : Delivers P x) (h : ∀ a, P a → P' a) : Delivers P' x := by
  cases x with
  | ok a => exact h a hx
  | error fault => exact hx

/-- The equation of a result may be kept. -/
theorem eq (hx : Delivers P x) : Delivers (fun a => x = .ok a) x := by
  cases x with
  | ok a => exact rfl
  | error fault => exact hx

theorem measured (n : Nat) (tooLarge : InternalFault) :
    Delivers (fun _ => True) (Stencil.measured n tooLarge) := by
  rcases measured_cases n tooLarge with ⟨word, hm, -⟩ | ⟨hm, -⟩ <;> rw [hm]
  · trivial
  · exact nofun

end Delivers

/-! ### What actions tell about instructions -/

/-- An action that neither assigns a variable nor renders another template. -/
def Action.IsLocal : Action → Prop
  | .assign _ _ | .inclusion _ _ | .inclusionWith _ _ _ | .wrap _ _ _ => False
  | _ => True

/-- What an action of a frame tells about the instruction that it is the action of. -/
def Frame.Means (f : Frame) (i : Instruction) : Action → Prop
  | .assign name _ => i.op = .setVar ∧ f.program.pool[i.a.toNat]? = some (.str name)
  | .inclusion _ name => i.op = .inclusion ∧ f.templateName i.a.toNat = .ok name
  | .inclusionWith _ _ name => i.op = .inclusionWith ∧ f.templateName i.a.toNat = .ok name
  | .wrap name _ _ => i.op = .wrap ∧ f.templateName i.a.toNat = .ok name
  | _ => True

theorem Action.IsLocal.means {a : Action} (h : a.IsLocal) (f : Frame) (i : Instruction) :
    f.Means i a := by
  cases a with
  | assign | inclusion | inclusionWith | wrap => exact h.elim
  | _ => trivial

namespace Frame

variable {f : Frame} {a b count : Nat}

theorem delivers_register : Delivers (fun _ => True) (f.register a) := by
  unfold register
  split
  · trivial
  · exact nofun

theorem delivers_run : Delivers (fun _ => True) (f.run a count) := by
  unfold run
  split
  · trivial
  · exact nofun

theorem delivers_constant : Delivers (fun c => f.program.pool[a]? = some c) (f.constant a) := by
  unfold constant
  split
  · next hc => exact hc
  · exact nofun

theorem delivers_name : Delivers (fun s => f.program.pool[a]? = some (.str s)) (f.name a) := by
  refine delivers_constant.bind fun c hc => ?_
  cases c with
  | str s => exact hc
  | _ => exact nofun

theorem delivers_store (v : Value) : Delivers Action.IsLocal (f.store a v) := by
  unfold store
  split
  · trivial
  · exact nofun

theorem delivers_templateName : Delivers (fun _ => True) (f.templateName a) := by
  refine delivers_register.bind fun v _ => ?_
  split
  · exact nofun
  · trivial

theorem delivers_atMark : Delivers (fun _ => True) (f.atMark a) := by
  refine delivers_register.bind fun v _ => ?_
  repeat' split
  all_goals first | trivial | exact nofun

theorem delivers_equal : Delivers (fun _ => True) (f.equal a b) :=
  delivers_register.bind fun _ _ => delivers_register.bind fun _ _ => trivial

theorem delivers_branch (taken : Bool) (target : Nat) :
    Delivers Action.IsLocal (f.branch a taken target) := by
  refine delivers_register.bind fun v _ => ?_
  split <;> trivial

theorem delivers_mapOfRun : Delivers (fun _ => True) (f.mapOfRun a count) := by
  unfold mapOfRun
  split
  · exact nofun
  · refine delivers_run.bind fun vs _ => ?_
    split
    · trivial
    · exact nofun

theorem delivers_rangeOf : Delivers (fun _ => True) (f.rangeOf a b) := by
  refine delivers_register.bind fun u _ => delivers_register.bind fun v _ => ?_
  split
  · trivial
  · exact nofun

theorem delivers_arithOf (op : ArithOp) : Delivers (fun _ => True) (f.arithOf op a b) := by
  refine delivers_register.bind fun u _ => delivers_register.bind fun v _ => ?_
  split
  · trivial
  · exact nofun

theorem delivers_orderOf (test : OrderTest) : Delivers (fun _ => True) (f.orderOf test a b) := by
  refine delivers_register.bind fun u _ => delivers_register.bind fun v _ => ?_
  split
  · trivial
  · exact nofun

theorem delivers_member (hosts : HostTypes) (container key : Value) :
    Delivers (fun _ => True) (Value.member hosts container key) := by
  unfold Value.member
  repeat' split
  all_goals first | trivial | exact nofun

theorem delivers_enterLoop (hosts : HostTypes) (target : Nat) :
    Delivers Action.IsLocal (f.enterLoop hosts a target) := by
  refine delivers_register.bind fun v _ => ?_
  split
  · trivial
  · trivial
  · exact nofun

theorem delivers_nextItem (target : Nat) : Delivers Action.IsLocal (f.nextItem a target) := by
  unfold nextItem
  split
  · exact nofun
  · trivial
  · split
    · trivial
    · exact nofun

theorem delivers_callFunction (functions : Functions) :
    Delivers Action.IsLocal (f.callFunction functions a count) := by
  refine delivers_register.bind fun v _ => ?_
  split
  · split
    · trivial
    · exact delivers_run.bind fun _ _ => trivial
  · exact nofun

theorem delivers_callMethod (hosts : HostTypes) :
    Delivers Action.IsLocal (f.callMethod hosts a count) := by
  refine delivers_register.bind fun target _ => delivers_register.bind fun v _ => ?_
  split
  · refine delivers_run.bind fun args _ => ?_
    split
    · trivial
    · exact nofun
  · exact nofun

theorem delivers_fillFormat : Delivers Action.IsLocal (f.fillFormat a count) := by
  refine delivers_register.bind fun template _ => ?_
  split
  · exact nofun
  · refine delivers_run.bind fun args _ => ?_
    split
    · trivial
    · exact nofun

theorem delivers_answer (l : LoopRecord) (op : Opcode) :
    Delivers (fun _ => True) (l.answer op) := by
  unfold LoopRecord.answer
  split
  · exact .measured _ _
  · exact .measured _ _
  · trivial

theorem delivers_textAction (op : Opcode) : Delivers Action.IsLocal (f.textAction op a) := by
  refine delivers_register.bind fun v _ => ?_
  show Delivers Action.IsLocal (.ok _)
  split <;> trivial

/-- The action of an instruction is one that fits the instruction. -/
theorem action_means {hosts : HostTypes} {functions : Functions} {vars : Vars} {i : Instruction} :
    Delivers (f.Means i) (f.action hosts functions vars i) := by
  have isLocal {x : Except Fault Action} (h : Delivers Action.IsLocal x) : Delivers (f.Means i) x :=
    h.mono fun a ha => ha.means f i
  obtain ⟨op, a, b⟩ := i
  cases op
  case loadConst => exact isLocal (delivers_constant.bind fun _ _ => delivers_store _)
  case loadInt | loadTrue | loadFalse | loadNull => exact isLocal (delivers_store _)
  case loadVar => exact isLocal (delivers_name.bind fun _ _ => delivers_store _)
  case setVar =>
    exact delivers_name.bind fun name hname => delivers_register.bind fun v _ => ⟨rfl, hname⟩
  case move => exact isLocal (delivers_register.bind fun _ _ => delivers_store _)
  case appendText => exact delivers_name.bind fun _ _ => trivial
  case append | not => exact delivers_register.bind fun _ _ => trivial
  case add | subtract | multiply | divide | modulo =>
    exact (delivers_arithOf _).bind fun _ _ => trivial
  case concat => exact delivers_register.bind fun _ _ => delivers_register.bind fun _ _ => trivial
  case equals | test | notEquals => exact delivers_equal.bind fun _ _ => trivial
  case gt | ge | lt | le => exact (delivers_orderOf _).bind fun _ _ => trivial
  case array => exact isLocal (delivers_run.bind fun _ _ => delivers_store _)
  case map => exact isLocal (delivers_mapOfRun.bind fun _ _ => delivers_store _)
  case range => exact delivers_rangeOf.bind fun _ _ => trivial
  case member =>
    exact delivers_register.bind fun _ _ => delivers_register.bind fun _ _ =>
      (delivers_member hosts _ _).bind fun _ _ => trivial
  case jump | finish => trivial
  case jumpIfFalse | jumpIfTrue => exact isLocal (delivers_branch _ _)
  case iterStart => exact isLocal (delivers_enterLoop hosts _)
  case iterNext => exact isLocal (delivers_nextItem _)
  case loopPop =>
    simp only [action]
    split
    · rintro ⟨⟩
    · trivial
  case loopCount | loopIndex | loopHasNext =>
    simp only [action]
    split
    · rintro ⟨⟩
    · exact isLocal ((delivers_answer _ _).bind fun _ _ => delivers_store _)
  case inclusion => exact delivers_templateName.eq.bind fun name hname => ⟨rfl, hname⟩
  case inclusionWith => exact delivers_templateName.eq.bind fun name hname => ⟨rfl, hname⟩
  case markOutput => exact isLocal ((Delivers.measured _ _).bind fun _ _ => delivers_store _)
  case wrap =>
    exact delivers_atMark.bind fun _ _ => delivers_templateName.eq.bind fun name hname =>
      ⟨rfl, hname⟩
  case call => exact isLocal (delivers_callFunction functions)
  case method => exact isLocal (delivers_callMethod hosts)
  case lower | upper | form => exact isLocal (delivers_textAction _)
  case format => exact isLocal delivers_fillFormat

end Frame

/-! ### What steps lead to -/

/-- An instruction of the program assigns the variable. -/
def Program.Assigns (p : Program) (name : String) : Prop :=
  ∃ i ∈ p.instructions, i.op = .setVar ∧ p.pool[i.a.toNat]? = some (.str name)

namespace Frame

/-- The operation at which a frame stands. -/
def op? (f : Frame) : Option Opcode := f.program.instructions[f.pc]?.map (·.op)

/-- A frame stands at an instruction that renders another template, and `q` is the program that the
loader has for the name in the instruction's first register. -/
def AsksFor (ctx : Context σ) (f : Frame) (w : World σ) (q : Program) : Prop :=
  ∃ i name st, f.program.instructions[f.pc]? = some i ∧
    i.op ∈ [Opcode.inclusion, .inclusionWith, .wrap] ∧ f.templateName i.a.toNat = .ok name ∧
    ctx.load name w.loader = (.ok q, st)

/-- What a step of a frame may lead to. -/
inductive Moves (ctx : Context σ) (f : Frame) (w : World σ) : Step σ → Prop
  /-- The frame goes on. It may have assigned a variable. -/
  | next {g : Frame} {v : World σ} (program : g.program = f.program) (depth : g.depth = f.depth)
    (vars : v.vars = w.vars ∨
      ∃ name value, f.program.Assigns name ∧ v.vars = w.vars.set name value) :
    Moves ctx f w (.next g v)
  | finish (output : String) {v : World σ} (vars : v.vars = w.vars) :
    Moves ctx f w (.finish output v)
  /-- The frame stops where it is. -/
  | fault {fault : Fault} {v : World σ} (vars : v.vars = w.vars)
    (limit : fault.kind = .limit → f.tooDeep? ctx.limits = some fault) :
    Moves ctx f w (.fault fault f.program f.pc v)
  /-- The frame asks for another template. Only the plain inclusion of a template shares the
  variables with it. -/
  | render {q : Program} {kept : Option Vars} {resume : Resume} {v : World σ}
    (asks : f.AsksFor ctx w q) (room : f.tooDeep? ctx.limits = none)
    (scope : f.op? = some .inclusion ∧ kept = none ∧ v.vars = w.vars ∨
      (f.op? = some .inclusionWith ∨ f.op? = some .wrap) ∧ kept = some w.vars) :
    Moves ctx f w (.render q kept f resume v)

section Steps

variable {ctx : Context σ} {f : Frame} {u w : World σ} {i : Instruction}

theorem op?_eq (hi : f.program.instructions[f.pc]? = some i) : f.op? = some i.op := by
  rw [op?, hi]
  rfl

theorem vars_warnAll (w : World σ) (p : Program) (pc : Nat) (cautions : List Caution) :
    (w.warnAll p pc cautions).vars = w.vars := by
  induction cautions generalizing w with
  | nil => rfl
  | cons c cs ih => exact ih (w.warn p pc c)

theorem tooDeep?_eq_some {limits : Limits} {fault : Fault} (h : f.tooDeep? limits = some fault) :
    ∃ most, limits.depth = some most ∧ most ≤ f.depth ∧ fault = .limit most := by
  unfold tooDeep? at h
  split at h
  · cases h
  · next most hmost =>
    split at h
    · next hdepth => exact ⟨most, hmost, hdepth, (Option.some.inj h).symm⟩
    · cases h

theorem descend_moves {q : Program} (asks : f.AsksFor ctx w q) (hu : u.vars = w.vars)
    {scope : Option Vars} (hscope : f.op? = some .inclusion ∧ scope = none ∨
      (f.op? = some .inclusionWith ∨ f.op? = some .wrap) ∧ scope ≠ none) (resume : Resume) :
    f.Moves ctx w (f.descend ctx u q scope resume) := by
  unfold descend
  split
  · next fault hdeep => exact .fault hu fun _ => hdeep
  · next hroom =>
    rcases hscope with ⟨hop, rfl⟩ | ⟨hop, hscope⟩
    · exact .render asks hroom (.inl ⟨hop, rfl, hu⟩)
    · cases scope with
      | none => exact absurd rfl hscope
      | some vars => exact .render asks hroom (.inr ⟨hop, congrArg some hu⟩)

/-- What follows on a template that is loaded only has to move for what the frame asks for. -/
theorem load_moves (hi : f.program.instructions[f.pc]? = some i)
    (hop : i.op ∈ [Opcode.inclusion, .inclusionWith, .wrap]) {name : String}
    (hname : f.templateName i.a.toNat = .ok name) (hvars : u.vars = w.vars)
    (hloader : u.loader = w.loader) {go : Program → World σ → Step σ}
    (hgo : ∀ q v, f.AsksFor ctx w q → v.vars = w.vars → f.Moves ctx w (go q v)) :
    f.Moves ctx w (f.load ctx u name go) := by
  unfold load
  split
  · next q st hl => exact hgo q _ ⟨i, name, st, hi, hop, hname, hloader ▸ hl⟩ hvars
  · exact .fault hvars nofun

/-- Carrying out the action of an instruction is a move. -/
theorem perform_moves (hi : f.program.instructions[f.pc]? = some i) {a : Action}
    (ha : f.Means i a) (hvars : u.vars = w.vars) (hloader : u.loader = w.loader) :
    f.Moves ctx w (f.perform ctx u a) := by
  cases a with
  | store cautions r v => exact .next rfl rfl (.inl ((vars_warnAll u _ _ cautions).trans hvars))
  | append v => cases v <;> exact .next rfl rfl (.inl hvars)
  | assign name v =>
    obtain ⟨hop, hpool⟩ := ha
    refine .next rfl rfl (.inr ⟨name, v, ⟨i, Array.mem_of_getElem? hi, hop, hpool⟩, ?_⟩)
    rw [← hvars]
  | call r name function args =>
    simp only [perform]
    split
    · exact .next rfl rfl (.inl hvars)
    · exact .fault hvars (by rintro ⟨⟩)
  | inclusion r name =>
    obtain ⟨hop, hname⟩ := ha
    rw [perform]
    refine load_moves hi (by rw [hop]; decide) hname hvars hloader fun q v asks hv => ?_
    exact descend_moves asks hv (.inl ⟨hop ▸ op?_eq hi, rfl⟩) _
  | inclusionWith r bindings name =>
    obtain ⟨hop, hname⟩ := ha
    rw [perform]
    refine load_moves hi (by rw [hop]; decide) hname hvars hloader fun q v asks hv => ?_
    split
    · exact descend_moves asks hv (.inr ⟨.inl (hop ▸ op?_eq hi), Option.some_ne_none _⟩) _
    · exact .fault hv (by rintro ⟨⟩)
    · next fault hfault =>
      have hr : Delivers (fun _ => True) (f.register bindings) := delivers_register
      rw [hfault] at hr
      exact .fault hv fun hlimit => absurd hlimit hr
  | wrap name before content =>
    obtain ⟨hop, hname⟩ := ha
    rw [perform]
    refine load_moves hi (by rw [hop]; decide) hname hvars hloader fun q v asks hv => ?_
    exact descend_moves asks hv (.inr ⟨.inr (hop ▸ op?_eq hi), Option.some_ne_none _⟩) _
  | finish => exact .finish _ hvars
  | _ => exact .next rfl rfl (.inl hvars)

/-- Every step is a move. -/
theorem step_moves (ctx : Context σ) (f : Frame) (w : World σ) : f.Moves ctx w (f.step ctx w) := by
  unfold step
  split
  · exact .fault rfl nofun
  · next i hi =>
    have hmeans : Delivers (f.Means i)
      (f.action ctx.hosts ctx.functions (w.note (.instruction f.pc i.op f.loops.length)).vars i) :=
      action_means
    dsimp only
    split
    · next a ha =>
      rw [ha] at hmeans
      exact perform_moves hi hmeans rfl rfl
    · next fault hfault =>
      rw [hfault] at hmeans
      exact .fault rfl fun hlimit => absurd hlimit hmeans

/-- What a step leads to tells about the step. -/
theorem Moves.of_step {s : Step σ} (hs : f.step ctx w = s) : f.Moves ctx w s :=
  hs ▸ f.step_moves ctx w

/-- Steps in contexts with the same host types and functions differ only in what becomes of
actions. -/
theorem step_rel {ctx' : Context σ} {R : Step σ → Step σ → Prop} (hrefl : ∀ s, R s s)
    (hhosts : ctx'.hosts = ctx.hosts) (hfunctions : ctx'.functions = ctx.functions)
    (hperform : ∀ e a, R (f.perform ctx (w.note e) a) (f.perform ctx' (w.note e) a)) :
    R (f.step ctx w) (f.step ctx' w) := by
  unfold step
  rw [hhosts, hfunctions]
  split
  · exact hrefl _
  · dsimp only
    split
    · exact hperform _ _
    · exact hrefl _

end Steps

/-! ### How frames end -/

/-- The frame comes to the outcome in `n` steps at most, those of the templates inside it being
counted apart: it goes on, it ends or stops, or it waits for a template that it has asked for. -/
inductive ComesTo (ctx : Context σ) : Nat → Frame → World σ → Outcome σ → Prop
  | next {n : Nat} {f g : Frame} {v w : World σ} {out : Outcome σ} :
    f.step ctx w = .next g v → ComesTo ctx n g v out → ComesTo ctx (n + 1) f w out
  | finish {n : Nat} {f : Frame} {v w : World σ} {output : String} :
    f.step ctx w = .finish output v → ComesTo ctx (n + 1) f w (.ok output, v)
  | fault {n : Nat} {f : Frame} {v w : World σ} {fault : Fault} {p : Program} {pc : Nat} :
    f.step ctx w = .fault fault p pc v →
    ComesTo ctx (n + 1) f w (.error ⟨⟨fault, p, pc⟩, []⟩, v)
  | failure {n : Nat} {f g : Frame} {v w after : World σ} {q : Program} {kept : Option Vars}
    {resume : Resume} {e : RenderError} :
    f.step ctx w = .render q kept g resume v →
    ComesTo ctx n (.start q (g.depth + 1)) (v.note (.enter q.source.name (g.depth + 1)))
      (.error e, after) →
    ComesTo ctx (n + 1) f w (.error (e.under g.program g.pc), after.outer kept (g.depth + 1))
  | success {n : Nat} {f g : Frame} {v w after : World σ} {q : Program} {kept : Option Vars}
    {resume : Resume} {output : String} {out : Outcome σ} :
    f.step ctx w = .render q kept g resume v →
    ComesTo ctx n (.start q (g.depth + 1)) (v.note (.enter q.source.name (g.depth + 1)))
      (.ok output, after) →
    ComesTo ctx n (g.resume ctx output resume) (after.outer kept (g.depth + 1)) out →
    ComesTo ctx (n + 1) f w out

section Ends

variable {ctx : Context σ} {f : Frame} {w : World σ} {n : Nat} {out : Outcome σ}

theorem ComesTo.of_exec (h : f.exec ctx n w = some out) : f.ComesTo ctx n w out := by
  induction n generalizing f w out with
  | zero => cases h
  | succ n ih =>
    rw [exec] at h
    cases hs : f.step ctx w with
    | next g v =>
      rw [hs] at h
      exact .next hs (ih h)
    | finish output v =>
      rw [hs] at h
      cases h
      exact .finish hs
    | fault fault p pc v =>
      rw [hs] at h
      cases h
      exact .fault hs
    | render q kept g resume v =>
      simp only [hs] at h
      split at h
      · cases h
      · next hinner => exact .success hs (ih hinner) (ih h)
      · next hinner =>
        cases h
        exact .failure hs (ih hinner)

theorem ComesTo.exec (h : f.ComesTo ctx n w out) : f.exec ctx n w = some out := by
  induction h with
  | next hs _ ih =>
    rw [Frame.exec, hs]
    exact ih
  | finish hs => rw [Frame.exec, hs]
  | fault hs => rw [Frame.exec, hs]
  | failure hs _ ih =>
    rw [Frame.exec, hs]
    simp only [ih]
  | success hs _ _ ihinner ih =>
    rw [Frame.exec, hs]
    simp only [ihinner]
    exact ih

end Ends

end Frame

end Stencil
