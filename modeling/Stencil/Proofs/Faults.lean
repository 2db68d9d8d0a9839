import Stencil.Proofs.Instructions
import Stencil.Proofs.Policy

/-!
# Where faults come from

The fault of an error arose in a single step of some frame. If it is a fault of the program, the
instruction of that step says which: a register, a run of registers or a constant that it touches
is not there, or a value is not what it has to be. A fault of a number too large to be a value comes
from a step that measured the output or asked for a position in a loop.

* `Frame.step_continues`: what a step leaves as it is;
* `Frame.Reaches`: the frames that a frame runs through, those of inner templates among them;
* `Frame.Reaches.invariant`: what holds of all frames on the way;
* `Frame.exec_error`: the step in which the fault of an error arose;
* `Opcode.Reads`, `Opcode.run?`: the registers that an instruction reads;
* `Frame.MayFault`, `Frame.action_confined`: the faults of the program that an instruction may have;
* `Frame.Measures`: the number that the next step of a frame is going to measure;
* `Frame.measures_of_excess`: a fault of excess comes from such a step.
-/

namespace Stencil

variable {σ α β : Type}

/-! ### What a step leaves as it is -/

/-- A frame goes on as another one, of the same program and with as many registers. -/
structure Frame.Continues (f g : Frame) : Prop where
  program : g.program = f.program
  size : g.registers.size = f.registers.size

/-- A frame goes on after a step, and a program that the step asks for comes from the loader. -/
def Step.Continues (ctx : Context σ) (f : Frame) : Step σ → Prop
  | .next g _ => f.Continues g
  | .finish _ _ | .fault _ _ _ _ => True
  | .render q _ g _ _ => f.Continues g ∧ ∃ name st st', ctx.load name st = (.ok q, st')

namespace Frame

section Steps

variable {ctx : Context σ} {f f' : Frame} {w w' : World σ} {q : Program} {kept : Option Vars}
  {resume : Resume}

theorem descend_continues (scope : Option Vars) (resume : Resume)
    (hq : ∃ name st st', ctx.load name st = (.ok q, st')) :
    (f.descend ctx w q scope resume).Continues ctx f := by
  unfold descend
  split
  · trivial
  · split <;> exact ⟨⟨rfl, rfl⟩, hq⟩

theorem load_continues (name : String) {go : Program → World σ → Step σ}
    (hgo : ∀ q v, (∃ name st st', ctx.load name st = (.ok q, st')) → (go q v).Continues ctx f) :
    (f.load ctx w name go).Continues ctx f := by
  unfold load
  split
  · next q st' hl => exact hgo q _ ⟨name, w.loader, st', hl⟩
  · trivial

theorem perform_continues (a : Action) : (f.perform ctx w a).Continues ctx f := by
  cases a with
  | store cautions r v => exact ⟨rfl, Array.size_setIfInBounds⟩
  | enter r first rest => exact ⟨rfl, Array.size_setIfInBounds⟩
  | next r item record pc => exact ⟨rfl, Array.size_setIfInBounds⟩
  | append v => cases v <;> exact ⟨rfl, rfl⟩
  | call r name function args =>
    simp only [perform]
    split
    · exact ⟨rfl, Array.size_setIfInBounds⟩
    · trivial
  | inclusion r name =>
    rw [perform]
    exact load_continues name fun q v => descend_continues _ _
  | inclusionWith r bindings name =>
    rw [perform]
    refine load_continues name fun q v hq => ?_
    split
    · exact descend_continues _ _ hq
    · trivial
    · trivial
  | wrap name before content =>
    rw [perform]
    exact load_continues name fun q v => descend_continues _ _
  | finish => trivial
  | _ => exact ⟨rfl, rfl⟩

theorem step_continues (ctx : Context σ) (f : Frame) (w : World σ) :
    (f.step ctx w).Continues ctx f := by
  unfold step
  split
  · trivial
  · dsimp only
    split
    · exact perform_continues _
    · trivial

theorem continues_of_next (hs : f.step ctx w = .next f' w') : f.Continues f' := by
  have hc := f.step_continues ctx w
  rwa [hs] at hc

theorem continues_of_render (hs : f.step ctx w = .render q kept f' resume w') :
    f.Continues f' := by
  have hc := f.step_continues ctx w
  rw [hs] at hc
  exact hc.1

theorem loaded_of_render (hs : f.step ctx w = .render q kept f' resume w') :
    ∃ name st st', ctx.load name st = (.ok q, st') := by
  have hc := f.step_continues ctx w
  rw [hs] at hc
  exact hc.2

theorem resume_continues (ctx : Context σ) (f : Frame) (output : String) (resume : Resume) :
    f.Continues (f.resume ctx output resume) := by
  cases resume with
  | intoRegister r => exact ⟨rfl, Array.size_setIfInBounds⟩
  | behind s => exact ⟨rfl, rfl⟩

end Steps

end Frame

/-! ### Frames on the way -/

/-- The frames that a frame runs through, with the worlds around them. Those of the templates
inside its own are among them. -/
inductive Frame.Reaches (ctx : Context σ) : Frame → World σ → Frame → World σ → Prop
  | refl (f : Frame) (w : World σ) : Reaches ctx f w f w
  | next {f f' g : Frame} {w w' v : World σ} :
    f.step ctx w = .next f' w' → Reaches ctx f' w' g v → Reaches ctx f w g v
  | enter {f f' g : Frame} {w w' v : World σ} {p : Program} {kept : Option Vars}
    {resume : Resume} :
    f.step ctx w = .render p kept f' resume w' →
    Reaches ctx (.start p (f'.depth + 1)) (w'.note (.enter p.source.name (f'.depth + 1))) g v →
    Reaches ctx f w g v
  | leave {f f' g : Frame} {w w' after v : World σ} {p : Program} {kept : Option Vars}
    {resume : Resume} {n : Nat} {output : String} :
    f.step ctx w = .render p kept f' resume w' →
    Frame.exec ctx n (.start p (f'.depth + 1))
      (w'.note (.enter p.source.name (f'.depth + 1))) = some (.ok output, after) →
    Reaches ctx (f'.resume ctx output resume) (after.outer kept (f'.depth + 1)) g v →
    Reaches ctx f w g v

/-- What holds of a frame holds of all frames on the way, if it holds of the first frames of all
programs, and steps and inner templates preserve it. -/
theorem Frame.Reaches.invariant {ctx : Context σ} {P : Frame → Prop}
    (hstart : ∀ q depth, P (.start q depth))
    (hnext : ∀ {f f' w w'}, P f → f.step ctx w = .next f' w' → P f')
    (hrender : ∀ {f f' w w' q kept resume}, P f → f.step ctx w = .render q kept f' resume w' →
      ∀ output, P (f'.resume ctx output resume))
    {f g : Frame} {w v : World σ} (h : f.Reaches ctx w g v) (hf : P f) : P g := by
  induction h with
  | refl => exact hf
  | next hs _ ih => exact ih (hnext hf hs)
  | enter _ _ ih => exact ih (hstart _ _)
  | leave hs _ _ ih => exact ih (hrender hf hs _)

/-- All links of an error have the fault of a single step. -/
theorem Frame.exec_error {ctx : Context σ} {n : Nat} {f : Frame} {w v : World σ} {e : RenderError}
    (h : f.exec ctx n w = some (.error e, v)) :
    ∃ g u fault p pc u', f.Reaches ctx w g u ∧ g.step ctx u = .fault fault p pc u' ∧
      ∀ l ∈ e.links, l.fault = fault := by
  induction n generalizing f w e v with
  | zero => cases h
  | succ n ih =>
    rw [exec] at h
    cases hs : f.step ctx w with
    | next f' w' =>
      rw [hs] at h
      obtain ⟨g, u, fault, p, pc, u', hreach, hfault⟩ := ih h
      exact ⟨g, u, fault, p, pc, u', .next hs hreach, hfault⟩
    | finish _ _ =>
      rw [hs] at h
      cases h
    | fault fault p pc w' =>
      rw [hs] at h
      cases h
      exact ⟨f, w, fault, p, pc, _, .refl f w, hs, fun l hl => by
        rw [List.mem_singleton.1 hl]⟩
    | render p kept f' resume w' =>
      simp only [hs] at h
      split at h
      · cases h
      · next hinner =>
        obtain ⟨g, u, fault, p, pc, u', hreach, hfault⟩ := ih h
        exact ⟨g, u, fault, p, pc, u', .leave hs hinner hreach, hfault⟩
      · next e' _ hinner =>
        -- The outer frame blames the place of the inclusion for the first fault of the inner error.
        cases h
        obtain ⟨g, u, fault, p, pc, u', hreach, hfault, hlinks⟩ := ih hinner
        refine ⟨g, u, fault, p, pc, u', .enter hs hreach, hfault, ?_⟩
        exact List.forall_mem_cons.2 ⟨hlinks e'.head (by simp [RenderError.links]), hlinks⟩

/-! ### What instructions touch -/

namespace Opcode

/-- An instruction with the operands `a` and `b` reads register `r`. -/
def Reads (op : Opcode) (a b r : Nat) : Prop :=
  match op with
  | loadConst | loadInt | loadTrue | loadFalse | loadNull | loadVar | appendText | jump | iterNext
  | loopPop | loopCount | loopIndex | loopHasNext | markOutput | finish => False
  | append | not | jumpIfFalse | jumpIfTrue | iterStart | inclusion | lower | upper | form => r = a
  | setVar | move => r = b
  | add | subtract | multiply | divide | modulo | concat | equals | notEquals | gt | ge | lt | le
  | test | range | member | inclusionWith | wrap => r = a ∨ r = b
  | array => a ≤ r ∧ r < a + b
  | map => a ≤ r ∧ r < a + 2 * b
  | call | format => a ≤ r ∧ r < a + 1 + b
  | method => a ≤ r ∧ r < a + 2 + b

/-- The first register of the run that an instruction reads at once, and the length of the run. -/
def run? (op : Opcode) (a b : Nat) : Option (Nat × Nat) :=
  match op with
  | array => some (a, b)
  | map => some (a, 2 * b)
  | call | format => some (a + 1, b)
  | method => some (a + 2, b)
  | _ => none

/-- An instruction reads register `r`, or `r` is the register that it names first. -/
def Touches (op : Opcode) (a b r : Nat) : Prop :=
  op.Reads a b r ∨ op.kinds.1 = .register ∧ r = a

/-- An instruction names constant `n`. -/
def Names (op : Opcode) (a b n : Nat) : Prop :=
  op.kinds.1 = .pool ∧ n = a ∨ op.kinds.2 = .pool ∧ n = b

end Opcode

/-- The faults of the program that the action of an instruction may have, and why. -/
def Frame.MayFault (f : Frame) (i : Instruction) : InternalFault → Prop
  | .pastEnd _ | .bindings => False
  | .register r => i.op.Touches i.a.toNat i.b.toNat r ∧ f.registers.size ≤ r
  | .run first count =>
    i.op.run? i.a.toNat i.b.toNat = some (first, count) ∧ f.registers.size < first + count
  | .pool n => i.op.Names i.a.toNat i.b.toNat n ∧ f.program.pool.size ≤ n
  | .notText n c => i.op.Names i.a.toNat i.b.toNat n ∧ f.program.pool[n]? = some c
  | .leaveWithoutLoop => i.op = .loopPop ∧ f.loops = []
  | .advanceWithoutLoop => i.op = .iterNext ∧ f.loops = []
  | .functionName _ => i.op = .call
  | .methodName _ => i.op = .method
  | .mark => i.op = .wrap
  | .mapTooLarge => i.op = .map ∧ operandLimit ≤ 2 * i.b.toNat
  | .outputTooLarge => i.op = .markOutput ∧ 2 ^ 63 ≤ f.output.utf8ByteSize
  | .loopTooLong => ∃ l ∈ f.loops.head?,
    i.op = .loopCount ∧ 2 ^ 63 ≤ l.index + 1 ∨ i.op = .loopIndex ∧ 2 ^ 63 ≤ l.index

/-- The fault of a result is as `P` says, if it is one of the program. -/
def Confined (P : InternalFault → Prop) (r : Except Fault α) : Prop :=
  ∀ fault, r = .error (.internal fault) → P fault

namespace Confined

variable {P : InternalFault → Prop}

theorem ok (a : α) : Confined P (.ok a : Except Fault α) := fun _ h => by cases h

theorem internal {fault : InternalFault} (h : P fault) :
    Confined P (.error (.internal fault) : Except Fault α) := by
  intro fault' hfault
  cases hfault
  exact h

theorem external {fault : Fault} (h : fault.kind ≠ .internal) :
    Confined P (.error fault : Except Fault α) := by
  intro fault' hfault
  cases hfault
  exact absurd rfl h

theorem bind {x : Except Fault α} {k : α → Except Fault β} (hx : Confined P x)
    (hk : ∀ a, Confined P (k a)) : Confined P (x >>= k) := by
  cases x with
  | ok a => exact hk a
  | error fault =>
    intro fault' hfault
    cases hfault
    exact hx fault' rfl

theorem measured {n : Nat} {tooLarge : InternalFault} (h : 2 ^ 63 ≤ n → P tooLarge) :
    Confined P (Stencil.measured n tooLarge) := by
  rcases measured_cases n tooLarge with ⟨word, hm, -⟩ | ⟨hm, hn⟩ <;> rw [hm]
  · exact ok _
  · exact internal (h hn)

end Confined

namespace Frame

variable {f : Frame} {P : InternalFault → Prop} {a b : Nat}

theorem confined_register (h : f.registers.size ≤ a → P (.register a)) :
    Confined P (f.register a) := by
  unfold register
  split
  · exact .ok _
  · next hr => exact .internal (h (Array.getElem?_eq_none_iff.1 hr))

theorem confined_store (h : f.registers.size ≤ a → P (.register a)) (v : Value) :
    Confined P (f.store a v) := by
  unfold store
  split
  · exact .ok _
  · next hr => exact .internal (h (Nat.not_lt.1 hr))

theorem confined_run {count : Nat} (h : f.registers.size < a + count → P (.run a count)) :
    Confined P (f.run a count) := by
  unfold run
  split
  · exact .ok _
  · next hr => exact .internal (h (Nat.not_le.1 hr))

theorem confined_constant (h : f.program.pool.size ≤ a → P (.pool a)) :
    Confined P (f.constant a) := by
  unfold constant
  split
  · exact .ok _
  · next hn => exact .internal (h (Array.getElem?_eq_none_iff.1 hn))

theorem confined_name (h : f.program.pool.size ≤ a → P (.pool a))
    (h' : ∀ c, f.program.pool[a]? = some c → P (.notText a c)) : Confined P (f.name a) := by
  unfold name constant
  cases hn : f.program.pool[a]? with
  | none => exact .internal (h (Array.getElem?_eq_none_iff.1 hn))
  | some c =>
    cases c with
    | str s => exact .ok s
    | _ => exact .internal (h' _ hn)

theorem confined_templateName (ha : Confined P (f.register a)) :
    Confined P (f.templateName a) := by
  refine ha.bind fun v => ?_
  split
  · exact .external nofun
  · exact .ok _

theorem confined_atMark (ha : Confined P (f.register a)) (hmark : P .mark) :
    Confined P (f.atMark a) := by
  refine ha.bind fun v => ?_
  repeat' split
  all_goals first | exact .ok _ | exact .internal hmark

theorem confined_equal (ha : Confined P (f.register a)) (hb : Confined P (f.register b)) :
    Confined P (f.equal a b) :=
  ha.bind fun _ => hb.bind fun _ => .ok _

theorem confined_branch (ha : Confined P (f.register a)) (taken : Bool) (target : Nat) :
    Confined P (f.branch a taken target) :=
  ha.bind fun _ => .ok _

theorem confined_mapOfRun {count : Nat} (hlarge : operandLimit ≤ 2 * count → P .mapTooLarge)
    (hrun : Confined P (f.run a (2 * count))) : Confined P (f.mapOfRun a count) := by
  unfold mapOfRun
  split
  · next hcount => exact .internal (hlarge hcount)
  · refine hrun.bind fun vs => ?_
    split
    · exact .ok _
    · exact .external nofun

theorem confined_rangeOf (ha : Confined P (f.register a)) (hb : Confined P (f.register b)) :
    Confined P (f.rangeOf a b) := by
  refine ha.bind fun u => hb.bind fun v => ?_
  split
  · exact .ok _
  · exact .external nofun

theorem confined_arithOf (ha : Confined P (f.register a)) (hb : Confined P (f.register b))
    (op : ArithOp) : Confined P (f.arithOf op a b) := by
  refine ha.bind fun u => hb.bind fun v => ?_
  split
  · exact .ok _
  · exact .external nofun

theorem confined_orderOf (ha : Confined P (f.register a)) (hb : Confined P (f.register b))
    (test : OrderTest) : Confined P (f.orderOf test a b) := by
  refine ha.bind fun u => hb.bind fun v => ?_
  split
  · exact .ok _
  · exact .external nofun

theorem confined_member (hosts : HostTypes) (container key : Value) :
    Confined P (Value.member hosts container key) :=
  fun _ h => absurd rfl (Policy.member_fault h)

theorem confined_enterLoop (ha : Confined P (f.register a)) (hosts : HostTypes) (target : Nat) :
    Confined P (f.enterLoop hosts a target) := by
  refine ha.bind fun v => ?_
  split
  · exact .ok _
  · exact .ok _
  · exact .external nofun

theorem confined_nextItem (hloops : f.loops = [] → P .advanceWithoutLoop)
    (ha : f.registers.size ≤ a → P (.register a)) (target : Nat) :
    Confined P (f.nextItem a target) := by
  unfold nextItem
  split
  · next h => exact .internal (hloops h)
  · exact .ok _
  · split
    · exact .ok _
    · next hr => exact .internal (ha (Nat.not_lt.1 hr))

theorem confined_callFunction {count : Nat} (ha : Confined P (f.register a))
    (hname : ∀ type, P (.functionName type)) (hrun : Confined P (f.run (a + 1) count))
    (functions : Functions) : Confined P (f.callFunction functions a count) := by
  refine ha.bind fun v => ?_
  split
  · split
    · exact .ok _
    · exact hrun.bind fun _ => .ok _
  · exact .internal (hname _)

theorem confined_callMethod {count : Nat} (ha : Confined P (f.register a))
    (ha' : Confined P (f.register (a + 1))) (hname : ∀ type, P (.methodName type))
    (hrun : Confined P (f.run (a + 2) count)) (hosts : HostTypes) :
    Confined P (f.callMethod hosts a count) := by
  refine ha.bind fun target => ha'.bind fun v => ?_
  split
  · refine hrun.bind fun args => ?_
    split
    · exact .ok _
    · exact .external nofun
  · exact .internal (hname _)

theorem confined_fillFormat {count : Nat} (ha : Confined P (f.register a))
    (hrun : Confined P (f.run (a + 1) count)) : Confined P (f.fillFormat a count) := by
  refine ha.bind fun template => ?_
  split
  · exact .external nofun
  · refine hrun.bind fun args => ?_
    split
    · exact .ok _
    · exact .external nofun

theorem confined_textAction (ha : Confined P (f.register a)) (op : Opcode) :
    Confined P (f.textAction op a) :=
  ha.bind fun _ => .ok _

/-- If the action of an instruction has a fault of the program, the instruction touches something
that is not there, or finds something that is not as it has to be. -/
theorem action_confined {hosts : HostTypes} {functions : Functions} {vars : Vars}
    {i : Instruction} : Confined (f.MayFault i) (f.action hosts functions vars i) := by
  have register {r : Nat} (hr : i.op.Touches i.a.toNat i.b.toNat r) :
      Confined (f.MayFault i) (f.register r) := confined_register fun h => ⟨hr, h⟩
  have store (hr : i.op.kinds.1 = .register) (v : Value) :
      Confined (f.MayFault i) (f.store i.a.toNat v) :=
    confined_store (fun h => ⟨.inr ⟨hr, rfl⟩, h⟩) v
  have run {first count : Nat} (hr : i.op.run? i.a.toNat i.b.toNat = some (first, count)) :
      Confined (f.MayFault i) (f.run first count) := confined_run fun h => ⟨hr, h⟩
  have name {n : Nat} (hn : i.op.Names i.a.toNat i.b.toNat n) :
      Confined (f.MayFault i) (f.name n) := confined_name (fun h => ⟨hn, h⟩) fun c h => ⟨hn, h⟩
  obtain ⟨op, x, y⟩ := i
  cases op
  case loadConst =>
    exact (confined_constant fun h => ⟨.inr ⟨rfl, rfl⟩, h⟩).bind fun _ => store rfl _
  case loadInt | loadTrue | loadFalse | loadNull => exact store rfl _
  case loadVar => exact (name (.inr ⟨rfl, rfl⟩)).bind fun _ => store rfl _
  case setVar =>
    exact (name (.inl ⟨rfl, rfl⟩)).bind fun _ => (register (.inl rfl)).bind fun _ => .ok _
  case move => exact (register (.inl rfl)).bind fun _ => store rfl _
  case appendText => exact (name (.inl ⟨rfl, rfl⟩)).bind fun _ => .ok _
  case append | not => exact (register (.inl rfl)).bind fun _ => .ok _
  case add | subtract | multiply | divide | modulo =>
    exact (confined_arithOf (register (.inl (.inl rfl))) (register (.inl (.inr rfl))) _).bind
      fun _ => .ok _
  case concat =>
    exact (register (.inl (.inl rfl))).bind fun _ => (register (.inl (.inr rfl))).bind fun _ =>
      .ok _
  case equals | test | notEquals =>
    exact (confined_equal (register (.inl (.inl rfl))) (register (.inl (.inr rfl)))).bind
      fun _ => .ok _
  case gt | ge | lt | le =>
    exact (confined_orderOf (register (.inl (.inl rfl))) (register (.inl (.inr rfl))) _).bind
      fun _ => .ok _
  case array => exact (run rfl).bind fun _ => store rfl _
  case map => exact (confined_mapOfRun (fun h => ⟨rfl, h⟩) (run rfl)).bind fun _ => store rfl _
  case range =>
    exact (confined_rangeOf (register (.inl (.inl rfl))) (register (.inl (.inr rfl)))).bind
      fun _ => .ok _
  case member =>
    exact (register (.inl (.inl rfl))).bind fun _ => (register (.inl (.inr rfl))).bind fun _ =>
      (confined_member _ _ _).bind fun _ => .ok _
  case jump | finish => exact .ok _
  case jumpIfFalse | jumpIfTrue => exact confined_branch (register (.inl rfl)) _ _
  case iterStart => exact confined_enterLoop (register (.inl rfl)) _ _
  case iterNext =>
    exact confined_nextItem (fun h => ⟨rfl, h⟩) (fun h => ⟨.inr ⟨rfl, rfl⟩, h⟩) _
  case loopPop =>
    simp only [action]
    split
    · next h => exact .internal ⟨rfl, List.isEmpty_iff.1 h⟩
    · exact .ok _
  case loopCount | loopIndex | loopHasNext =>
    simp only [action]
    split
    · exact .external (by rintro ⟨⟩)
    · next l ls hl =>
      refine Confined.bind ?_ fun _ => store rfl _
      first
      | exact .measured fun h => ⟨l, by rw [hl]; rfl, .inl ⟨rfl, h⟩⟩
      | exact .measured fun h => ⟨l, by rw [hl]; rfl, .inr ⟨rfl, h⟩⟩
      | exact .ok _
  case inclusion =>
    exact (confined_templateName (register (.inl rfl))).bind fun _ => .ok _
  case inclusionWith =>
    exact (confined_templateName (register (.inl (.inl rfl)))).bind fun _ => .ok _
  case markOutput => exact (Confined.measured fun h => ⟨rfl, h⟩).bind fun _ => store rfl _
  case wrap =>
    exact (confined_atMark (register (.inl (.inr rfl))) rfl).bind fun _ =>
      (confined_templateName (register (.inl (.inl rfl)))).bind fun _ => .ok _
  case call =>
    exact confined_callFunction (register (.inr ⟨rfl, rfl⟩)) (fun _ => rfl) (run rfl) _
  case method =>
    exact confined_callMethod (register (.inr ⟨rfl, rfl⟩)) (register (.inl ⟨by omega, by omega⟩))
      (fun _ => rfl) (run rfl) _
  case lower | upper | form => exact confined_textAction (register (.inl rfl)) _
  case format => exact confined_fillFormat (register (.inr ⟨rfl, rfl⟩)) (run rfl)

section Actions

variable {ctx : Context σ} {w v : World σ} {fault : InternalFault} {p : Program} {pc : Nat}

theorem descend_external {q : Program} {scope : Option Vars} {resume : Resume} :
    f.descend ctx w q scope resume ≠ .fault (.internal fault) p pc v := by
  unfold descend
  split
  · next hdeep =>
    unfold tooDeep? at hdeep
    repeat' split at hdeep
    all_goals cases hdeep
    exact nofun
  · split <;> exact nofun

theorem internal_of_load {name : String} {go : Program → World σ → Step σ}
    (h : f.load ctx w name go = .fault (.internal fault) p pc v) :
    ∃ q u, go q u = .fault (.internal fault) p pc v := by
  unfold load at h
  split at h
  · exact ⟨_, _, h⟩
  · cases h

/-- Of all actions only that of an inclusion with variables of its own has faults of the program,
about the register that should hold these variables. -/
theorem internal_of_perform {a : Action} (h : f.perform ctx w a = .fault (.internal fault) p pc v) :
    ∃ r bindings name, a = .inclusionWith r bindings name ∧
      (fault = .bindings ∨ f.register bindings = .error (.internal fault)) := by
  cases a with
  | append v => cases v <;> cases h
  | call r name function args =>
    simp only [perform] at h
    split at h <;> cases h
  | inclusion r name =>
    rw [perform] at h
    obtain ⟨q, u, h⟩ := internal_of_load h
    exact absurd h descend_external
  | inclusionWith r bindings name =>
    rw [perform] at h
    obtain ⟨q, u, h⟩ := internal_of_load h
    refine ⟨r, bindings, name, rfl, ?_⟩
    split at h
    · exact absurd h descend_external
    · cases h
      exact .inl rfl
    · next hr =>
      cases h
      exact .inr hr
  | wrap name before content =>
    rw [perform] at h
    obtain ⟨q, u, h⟩ := internal_of_load h
    exact absurd h descend_external
  | _ => cases h

end Actions

/-! ### Numbers that are measured -/

/-- The number that the next step of a frame is going to measure: the length of the output before
a mark, or a position in the innermost loop. -/
def Measures (f : Frame) (m : Nat) : Prop :=
  ∃ i, f.program.instructions[f.pc]? = some i ∧
    (i.op = .markOutput ∧ m = f.output.utf8ByteSize ∨
      ∃ l ∈ f.loops.head?, i.op = .loopCount ∧ m = l.index + 1 ∨ i.op = .loopIndex ∧ m = l.index)

/-- A step has a fault of excess only if it measures something. -/
theorem measures_of_excess {ctx : Context σ} {w v : World σ} {fault : Fault} {p : Program}
    {pc : Nat} (h : f.step ctx w = .fault fault p pc v) (hfault : fault.IsExcess) :
    ∃ m, f.Measures m ∧ 2 ^ 63 ≤ m := by
  unfold step at h
  split at h
  · cases h
    rcases hfault with hfault | hfault <;> cases hfault
  · next i hi =>
    dsimp only at h
    split at h
    · rcases hfault with rfl | rfl
      all_goals
        obtain ⟨_, bindings, _, -, hfault | hfault⟩ := internal_of_perform h
        · cases hfault
        · exact absurd hfault (by unfold register; split <;> simp)
    · next hi' =>
      cases h
      rcases hfault with rfl | rfl
      · obtain ⟨hop, hlarge⟩ := action_confined _ hi'
        exact ⟨_, ⟨i, hi, .inl ⟨hop, rfl⟩⟩, hlarge⟩
      · obtain ⟨l, hl, ⟨hop, hlarge⟩ | ⟨hop, hlarge⟩⟩ := action_confined _ hi'
        · exact ⟨_, ⟨i, hi, .inr ⟨l, hl, .inl ⟨hop, rfl⟩⟩⟩, hlarge⟩
        · exact ⟨_, ⟨i, hi, .inr ⟨l, hl, .inr ⟨hop, rfl⟩⟩⟩, hlarge⟩

end Frame

end Stencil
