import Mathlib.Data.Set.Insert
import Mathlib.Order.Basic
import Stencil.Proofs.ExprCode
import Stencil.Proofs.Faults

/-!
# Where instructions lead

Where an instruction may lead is known before it is carried out, and so is what will be known there:
how many loops there are, and which registers have been written.

* `Shape`: a number of loops, and registers that have been written;
* `Opcode.ways`: the places that an instruction may lead to, with their shapes;
* `Frame.Follows`: an action leads to places that are as they have to be;
* `Program.HasShapes`: shapes for all places of a program that agree with where its instructions
  lead;
* `Frame.Alike`: two frames that differ only in registers that have not been written;
* `Frame.step_alike`: such frames take the same step.
-/

namespace Stencil

variable {σ α β : Type}

/-! ### Shapes -/

/-- What is known about a frame: how many loops it is in, and registers that have been written. -/
@[ext]
structure Shape where
  loops : Nat
  filled : Set Nat

namespace Shape

/-- The shape of a frame before the first instruction. -/
def start : Shape := ⟨0, ∅⟩

/-- A register has been written. -/
def fill (S : Shape) (r : Nat) : Shape := ⟨S.loops, insert r S.filled⟩

/-- The `count` registers from `first` on have been written. -/
def fillRun (S : Shape) (first count : Nat) : Shape :=
  ⟨S.loops, S.filled ∪ {r | first ≤ r ∧ r < first + count}⟩

/-- A loop has been entered. -/
def enter (S : Shape) : Shape := ⟨S.loops + 1, S.filled⟩

/-- A loop has been left. -/
def leave (S : Shape) : Shape := ⟨S.loops - 1, S.filled⟩

/-- A shape is below another one if it knows no more: the loops are as many, and fewer registers
have been written. -/
instance : PartialOrder Shape where
  le S T := S.loops = T.loops ∧ S.filled ⊆ T.filled
  le_refl S := ⟨rfl, Set.Subset.rfl⟩
  le_trans _ _ _ h h' := ⟨h.1.trans h'.1, h.2.trans h'.2⟩
  le_antisymm _ _ h h' := Shape.ext h.1 (h.2.antisymm h'.2)

variable {S T : Shape} {r : Nat}

@[simp] theorem loops_fill : (S.fill r).loops = S.loops := rfl

@[simp] theorem loops_enter : S.enter.loops = S.loops + 1 := rfl

theorem le_fill (S : Shape) (r : Nat) : S ≤ S.fill r := ⟨rfl, Set.subset_insert r S.filled⟩

theorem fill_mono (h : S ≤ T) (r : Nat) : S.fill r ≤ T.fill r :=
  ⟨h.1, Set.insert_subset_insert h.2⟩

theorem enter_mono (h : S ≤ T) : S.enter ≤ T.enter := ⟨congrArg (· + 1) h.1, h.2⟩

theorem le_fillRun (S : Shape) (first count : Nat) : S ≤ S.fillRun first count :=
  ⟨rfl, Set.subset_union_left⟩

theorem fillRun_zero_le (S : Shape) (first : Nat) : S.fillRun first 0 ≤ S := by
  refine ⟨rfl, fun q hq => hq.resolve_right fun h => ?_⟩
  exact absurd h.2 (Nat.not_lt.2 h.1)

theorem fillRun_succ_le (S : Shape) (first count : Nat) :
    S.fillRun first (count + 1) ≤ (S.fill first).fillRun (first + 1) count := by
  refine ⟨rfl, fun q hq => ?_⟩
  rcases hq with hq | ⟨hfirst, hlast⟩
  · exact .inl (.inr hq)
  · rcases Nat.eq_or_lt_of_le hfirst with rfl | hlt
    · exact .inl (.inl rfl)
    · exact .inr ⟨hlt, by omega⟩

end Shape

/-! ### Where instructions lead -/

namespace Opcode

/-- The places that an instruction at the place `pc` may lead to, and what is known there. -/
def ways (op : Opcode) (a b pc : Nat) (S : Shape) : List (Nat × Shape) :=
  match op with
  | jump => [(a, S)]
  | jumpIfFalse | jumpIfTrue => [(pc + 1, S), (b, S)]
  | iterStart => [(pc + 1, (S.fill a).enter), (b, S)]
  | iterNext => [(pc + 1, S), (b, S.fill a)]
  | loopPop => [(pc + 1, S.leave)]
  | setVar | appendText | append | wrap | lower | upper | form => [(pc + 1, S)]
  | finish => []
  | _ => [(pc + 1, S.fill a)]

end Opcode

/-- Every place of a program has a shape: the first one that of the start, all registers that an
instruction reads have been written, no instruction leads to a place where more is known, and no
loops are left where the program ends. -/
structure Program.HasShapes (p : Program) (shape : Nat → Shape) : Prop where
  start : shape 0 ≤ .start
  reads : ∀ {n : Nat} {i : Instruction}, p.instructions[n]? = some i →
    ∀ r, i.op.Reads i.a.toNat i.b.toNat r → r ∈ (shape n).filled
  ways : ∀ {n : Nat} {i : Instruction}, p.instructions[n]? = some i →
    ∀ w ∈ i.op.ways i.a.toNat i.b.toNat n (shape n), shape w.1 ≤ w.2
  finish : ∀ {n : Nat} {i : Instruction}, p.instructions[n]? = some i → i.op = .finish →
    (shape n).loops = 0

/-! ### Results that keep to something -/

/-- A result, if there is one, is as `P` says. -/
def Promises (P : α → Prop) (x : Except Fault α) : Prop := ∀ a, x = .ok a → P a

namespace Promises

variable {P : β → Prop}

theorem ok {a : β} (h : P a) : Promises P (.ok a) := fun _ ha => Except.ok.inj ha ▸ h

theorem error (fault : Fault) : Promises P (.error fault) := fun _ ha => by cases ha

theorem bind {x : Except Fault α} {k : α → Except Fault β} (hk : ∀ a, Promises P (k a)) :
    Promises P (x >>= k) := by
  cases x with
  | error fault => exact error fault
  | ok a => exact hk a

end Promises

namespace Frame

/-- An action, carried out where the shape is `S`, leads to places as `P` says. The end of a program
leads nowhere, but is in no loop. -/
def Follows (P : Nat → Shape → Prop) (S : Shape) (f : Frame) : Action → Prop
  | .store _ r _ | .call r _ _ _ | .inclusion r _ => P (f.pc + 1) (S.fill r)
  | .inclusionWith r bindings _ => bindings ∈ S.filled ∧ P (f.pc + 1) (S.fill r)
  | .write _ | .append _ | .assign _ _ | .skip | .wrap _ _ _ => P (f.pc + 1) S
  | .goto pc => P pc S
  | .enter r _ _ => P (f.pc + 1) (S.fill r).enter
  | .next r _ _ pc => f.loops ≠ [] ∧ P pc (S.fill r)
  | .exhaust _ => f.loops ≠ [] ∧ P (f.pc + 1) S
  | .leave => P (f.pc + 1) S.leave
  | .finish => S.loops = 0

section Actions

variable {P : Nat → Shape → Prop} {S : Shape} {f : Frame}

theorem promises_store {r : Nat} (h : P (f.pc + 1) (S.fill r)) (v : Value) :
    Promises (f.Follows P S) (f.store r v) := by
  unfold store
  split
  · exact .ok h
  · exact .error _

theorem promises_branch {target : Nat} (hon : P (f.pc + 1) S) (htarget : P target S) (a : Nat)
    (taken : Bool) : Promises (f.Follows P S) (f.branch a taken target) := by
  refine .bind fun v => ?_
  split
  · exact .ok htarget
  · exact .ok hon

theorem promises_enterLoop {a target : Nat} (hon : P (f.pc + 1) (S.fill a).enter)
    (htarget : P target S) (hosts : HostTypes) :
    Promises (f.Follows P S) (f.enterLoop hosts a target) := by
  refine .bind fun v => ?_
  split
  · exact .ok htarget
  · exact .ok hon
  · exact .error _

theorem promises_nextItem {a target : Nat} (hon : P (f.pc + 1) S) (htarget : P target (S.fill a)) :
    Promises (f.Follows P S) (f.nextItem a target) := by
  unfold nextItem
  split
  · exact .error _
  · next hloops => exact .ok ⟨by simp [hloops], hon⟩
  · next hloops =>
    split
    · exact .ok ⟨by simp [hloops], htarget⟩
    · exact .error _

theorem promises_callFunction {a : Nat} (h : P (f.pc + 1) (S.fill a)) (functions : Functions)
    (count : Nat) : Promises (f.Follows P S) (f.callFunction functions a count) := by
  refine .bind fun v => ?_
  split
  · split
    · exact .ok h
    · exact .bind fun args => .ok h
  · exact .error _

theorem promises_callMethod {a : Nat} (h : P (f.pc + 1) (S.fill a)) (hosts : HostTypes)
    (count : Nat) : Promises (f.Follows P S) (f.callMethod hosts a count) := by
  refine .bind fun target => .bind fun v => ?_
  split
  · refine .bind fun args => ?_
    split
    · exact .ok h
    · exact .error _
  · exact .error _

theorem promises_fillFormat {a : Nat} (h : P (f.pc + 1) (S.fill a)) (count : Nat) :
    Promises (f.Follows P S) (f.fillFormat a count) := by
  refine .bind fun template => ?_
  split
  · exact .error _
  · refine .bind fun args => ?_
    split
    · exact .ok h
    · exact .error _

/-- A built-in function on texts writes the register that it reads, and only sometimes. -/
theorem promises_textAction (hmono : ∀ pc T U, T ≤ U → P pc T → P pc U) (h : P (f.pc + 1) S)
    (op : Opcode) (a : Nat) : Promises (f.Follows P S) (f.textAction op a) := by
  refine .bind fun v => ?_
  split
  · exact .ok h
  · exact .ok (hmono _ _ _ (S.le_fill a) h)

/-- The action of an instruction leads where the instruction may lead. -/
theorem action_follows (hmono : ∀ pc T U, T ≤ U → P pc T → P pc U) {hosts : HostTypes}
    {functions : Functions} {vars : Vars} {i : Instruction}
    (hreads : ∀ r, i.op.Reads i.a.toNat i.b.toNat r → r ∈ S.filled)
    (hways : ∀ w ∈ i.op.ways i.a.toNat i.b.toNat f.pc S, P w.1 w.2)
    (hfinish : i.op = .finish → S.loops = 0) :
    Promises (f.Follows P S) (f.action hosts functions vars i) := by
  obtain ⟨op, a, b⟩ := i
  cases op <;> simp only [Opcode.ways, List.forall_mem_cons, List.not_mem_nil, false_implies,
    implies_true, and_true] at hways
  case loadConst | loadVar | move | array | map | markOutput =>
    exact .bind fun _ => promises_store hways _
  case loadInt | loadTrue | loadFalse | loadNull => exact promises_store hways _
  case loopCount | loopIndex | loopHasNext =>
    simp only [action]
    split
    · exact .error _
    · exact .bind fun _ => promises_store hways _
  case add | subtract | multiply | divide | modulo | equals | notEquals | test | gt | ge | lt | le
      | not | range =>
    exact .bind fun _ => .ok hways
  case concat => exact .bind fun _ => .bind fun _ => .ok hways
  case member => exact .bind fun _ => .bind fun _ => .bind fun _ => .ok hways
  case setVar => exact .bind fun _ => .bind fun _ => .ok hways
  case appendText | append => exact .bind fun _ => .ok hways
  case jump => exact .ok hways
  case jumpIfFalse | jumpIfTrue => exact promises_branch hways.1 hways.2 _ _
  case iterStart => exact promises_enterLoop hways.1 hways.2 hosts
  case iterNext => exact promises_nextItem hways.1 hways.2
  case loopPop =>
    simp only [action]
    split
    · exact .error _
    · exact .ok hways
  case inclusion => exact .bind fun _ => .ok hways
  case inclusionWith => exact .bind fun _ => .ok ⟨hreads _ (.inr rfl), hways⟩
  case wrap => exact .bind fun _ => .bind fun _ => .ok hways
  case call => exact promises_callFunction hways functions _
  case method => exact promises_callMethod hways hosts _
  case lower | upper | form => exact promises_textAction hmono hways _ _
  case format => exact promises_fillFormat hways _
  case finish => exact .ok (hfinish rfl)

end Actions

/-! ### Frames that differ in registers -/

section Congruence

variable {f : Frame} {registers : Array Value}

theorem register_congr {r : Nat} (h : registers[r]? = f.registers[r]?) :
    ({ f with registers } : Frame).register r = f.register r := by
  simp only [register, h]

theorem run_congr (hsize : registers.size = f.registers.size) (first count : Nat)
    (h : ∀ r, first ≤ r ∧ r < first + count → registers[r]? = f.registers[r]?) :
    ({ f with registers } : Frame).run first count = f.run first count := by
  have hruns : registers.extract first (first + count) =
      f.registers.extract first (first + count) := by
    refine Array.ext_getElem? fun i => ?_
    rw [Array.getElem?_extract, Array.getElem?_extract, hsize]
    split
    · next hi => exact h _ ⟨Nat.le_add_right _ _, by omega⟩
    · rfl
  simp only [run, hruns, hsize]

theorem store_congr (hsize : registers.size = f.registers.size) (r : Nat) (v : Value) :
    ({ f with registers } : Frame).store r v = f.store r v := by
  simp only [store, hsize]

theorem constant_congr (n : Nat) : ({ f with registers } : Frame).constant n = f.constant n := rfl

theorem name_congr (n : Nat) : ({ f with registers } : Frame).name n = f.name n := rfl

/-- The action of an instruction depends on no registers but those that the instruction reads. -/
theorem action_congr {hosts : HostTypes} {functions : Functions} {vars : Vars} {i : Instruction}
    (hsize : registers.size = f.registers.size)
    (h : ∀ r, i.op.Reads i.a.toNat i.b.toNat r → registers[r]? = f.registers[r]?) :
    ({ f with registers } : Frame).action hosts functions vars i =
      f.action hosts functions vars i := by
  have hstore := fun r v => store_congr hsize r v
  obtain ⟨op, a, b⟩ := i
  cases op
  case loadConst | loadInt | loadTrue | loadFalse | loadNull | loadVar | appendText | jump
      | loopPop | loopCount | loopIndex | loopHasNext | markOutput | finish =>
    simp only [action, constant_congr, name_congr, hstore]
  case iterNext => simp only [action, nextItem, hsize]
  case append | not | jumpIfFalse | jumpIfTrue | iterStart | inclusion | lower | upper | form =>
    have ha := register_congr (h _ rfl)
    simp only [action, branch, enterLoop, templateName, textAction, ha]
  case setVar | move =>
    have hb := register_congr (h _ rfl)
    simp only [action, name_congr, hstore, hb]
  case add | subtract | multiply | divide | modulo | concat | equals | notEquals | gt | ge | lt
      | le | test | range | member | inclusionWith | wrap =>
    have ha := register_congr (h _ (.inl rfl))
    have hb := register_congr (h _ (.inr rfl))
    simp only [action, arithOf, equal, orderOf, rangeOf, templateName, atMark, ha, hb]
  case array => simp only [action, hstore, run_congr hsize _ _ h]
  case map => simp only [action, mapOfRun, hstore, run_congr hsize _ _ h]
  case call | format =>
    simp only [Opcode.Reads] at h
    have ha := register_congr (h _ ⟨Nat.le_refl _, by omega⟩)
    have hrun := run_congr hsize (a.toNat + 1) b.toNat fun r hr => h r ⟨by omega, hr.2⟩
    simp only [action, callFunction, fillFormat, ha, hrun]
  case method =>
    simp only [Opcode.Reads] at h
    have ha := register_congr (h _ ⟨Nat.le_refl _, by omega⟩)
    have hname := register_congr (h (a.toNat + 1) ⟨by omega, by omega⟩)
    have hrun := run_congr hsize (a.toNat + 2) b.toNat fun r hr => h r ⟨by omega, hr.2⟩
    simp only [action, callMethod, ha, hname, hrun]

end Congruence

end Frame

/-- Two register files stay the same in what is known of them when the same value is put into the
same register of both. -/
theorem Keeps.put_both {P P' : Nat → Prop} {a b : Array Value} (h : Keeps P a b) {dst : Nat}
    (hP : ∀ r, P' r → r = dst ∨ P r) (v : Value) :
    Keeps P' (a.setIfInBounds dst v) (b.setIfInBounds dst v) := by
  refine ⟨by simp [h.size], fun r hr => ?_⟩
  rw [Array.getElem?_setIfInBounds, Array.getElem?_setIfInBounds, h.size]
  split
  · rfl
  · next hne => exact h.kept r ((hP r hr).resolve_left fun h => hne h.symm)

/-- Two frames are in the same place, in as many loops as its shape says, and differ at most in
registers that it does not know of. -/
structure Frame.Alike (shape : Nat → Shape) (f g : Frame) : Prop where
  same : ∃ registers, g = { f with registers }
  loops : f.loops.length = (shape f.pc).loops
  kept : Keeps (· ∈ (shape f.pc).filled) f.registers g.registers

/-- Two steps are the same but for registers that the shapes do not know of. -/
inductive Step.Alike (shape : Nat → Shape) : Step σ → Step σ → Prop
  | next {f g : Frame} (w : World σ) : f.Alike shape g → Alike shape (.next f w) (.next g w)
  | finish (output : String) (w : World σ) :
    Alike shape (.finish output w) (.finish output w)
  | fault (fault : Fault) (p : Program) (pc : Nat) (w : World σ) :
    Alike shape (.fault fault p pc w) (.fault fault p pc w)
  | render {f g : Frame} (p : Program) (kept : Option Vars) {resume : Resume} (w : World σ) :
    f.Alike shape g →
    (∀ (ctx : Context σ) output,
      (f.resume ctx output resume).Alike shape (g.resume ctx output resume)) →
    Alike shape (.render p kept f resume w) (.render p kept g resume w)

namespace Frame

variable {shape : Nat → Shape} {f g : Frame} {ctx : Context σ} {w : World σ}

theorem Alike.refl (h : f.loops.length = (shape f.pc).loops) : f.Alike shape f :=
  ⟨⟨_, rfl⟩, h, .refl _⟩

/-- Two frames that have come to a place in the same way are alike there. -/
theorem Alike.arrive (f : Frame) {S : Shape} {a b : Array Value} (h : Keeps (· ∈ S.filled) a b)
    {pc : Nat} {loops : List LoopRecord} (hloops : loops.length = S.loops) (hS : shape pc ≤ S)
    (output : String) :
    Alike shape { f with pc, registers := a, loops, output }
      { f with pc, registers := b, loops, output } :=
  ⟨⟨b, rfl⟩, hloops.trans hS.1.symm, h.mono fun _ hr => hS.2 hr⟩

theorem descend_alike (h : f.Alike shape g) {p : Program} {scope : Option Vars} {resume : Resume}
    (hresume : ∀ (ctx : Context σ) output,
      (f.resume ctx output resume).Alike shape (g.resume ctx output resume)) :
    Step.Alike shape (f.descend ctx w p scope resume) (g.descend ctx w p scope resume) := by
  obtain ⟨registers, rfl⟩ := h.same
  unfold descend
  rw [show ({ f with registers } : Frame).tooDeep? ctx.limits = f.tooDeep? ctx.limits from rfl]
  split
  · exact .fault _ _ _ _
  · split <;> exact .render _ _ _ h hresume

theorem load_alike (h : f.Alike shape g) {name : String} {go go' : Program → World σ → Step σ}
    (hgo : ∀ p w, Step.Alike shape (go p w) (go' p w)) :
    Step.Alike shape (f.load ctx w name go) (g.load ctx w name go') := by
  obtain ⟨registers, rfl⟩ := h.same
  unfold load
  split
  · exact hgo _ _
  · exact .fault _ _ _ _

/-- Frames that are alike are so when both carry out an action that follows the shapes. -/
theorem perform_alike (h : f.Alike shape g) {a : Action}
    (ha : f.Follows (fun pc S => shape pc ≤ S) (shape f.pc) a) :
    Step.Alike shape (f.perform ctx w a) (g.perform ctx w a) := by
  have halike := h
  obtain ⟨⟨registers, rfl⟩, hloops, hkept⟩ := h
  have put (r : Nat) (v : Value) : Keeps (· ∈ ((shape f.pc).fill r).filled)
      (f.registers.setIfInBounds r v) (registers.setIfInBounds r v) :=
    hkept.put_both (fun _ hr => hr) v
  have fill {r : Nat} (hr : shape (f.pc + 1) ≤ (shape f.pc).fill r) (ctx : Context σ)
      (output : String) : (f.resume ctx output (.intoRegister r)).Alike shape
        (({ f with registers } : Frame).resume ctx output (.intoRegister r)) :=
    .arrive f (put r _) hloops hr _
  cases a with
  | store cautions r v => exact .next _ (.arrive f (put r v) hloops ha _)
  | write s => exact .next _ (.arrive f hkept hloops ha _)
  | append v => cases v <;> exact .next _ (.arrive f hkept hloops ha _)
  | assign name v => exact .next _ (.arrive f hkept hloops ha _)
  | skip => exact .next _ (.arrive f hkept hloops ha _)
  | goto pc => exact .next _ (.arrive f hkept hloops ha _)
  | enter r first rest =>
    exact .next _ (.arrive f (S := ((shape f.pc).fill r).enter) (put r first)
      (congrArg (· + 1) hloops) ha _)
  | next r item record pc =>
    have hlength : (record :: f.loops.tail).length = (shape f.pc).loops := by
      rw [← hloops, List.length_cons, List.length_tail,
        Nat.sub_add_cancel (List.length_pos_iff.2 ha.1)]
    exact .next _ (.arrive f (put r item) hlength ha.2 _)
  | exhaust record =>
    have hlength : (record :: f.loops.tail).length = (shape f.pc).loops := by
      rw [← hloops, List.length_cons, List.length_tail,
        Nat.sub_add_cancel (List.length_pos_iff.2 ha.1)]
    exact .next _ (.arrive f hkept hlength ha.2 _)
  | leave =>
    have hlength : f.loops.tail.length = (shape f.pc).leave.loops := by
      rw [List.length_tail, hloops]
      rfl
    exact .next _ (.arrive f (S := (shape f.pc).leave) hkept hlength ha _)
  | call r name function args =>
    simp only [perform]
    split
    · exact .next _ (.arrive f (put r _) hloops ha _)
    · exact .fault _ _ _ _
  | inclusion r name =>
    rw [perform, perform]
    exact load_alike halike fun p w => descend_alike halike (fill ha)
  | inclusionWith r bindings name =>
    rw [perform, perform]
    refine load_alike halike fun p w => ?_
    rw [register_congr (hkept.kept _ ha.1)]
    split
    · exact descend_alike halike (fill ha.2)
    · exact .fault _ _ _ _
    · exact .fault _ _ _ _
  | wrap name before content =>
    have behind (ctx : Context σ) (output : String) :
        (f.resume ctx output (.behind before)).Alike shape
          (({ f with registers } : Frame).resume ctx output (.behind before)) :=
      .arrive f hkept hloops ha _
    rw [perform, perform]
    exact load_alike halike fun p w => descend_alike halike behind
  | finish => exact .finish _ _

/-- Frames that are alike take the same step. -/
theorem step_alike (ctx : Context σ) (w : World σ) (hp : f.program.HasShapes shape)
    (h : f.Alike shape g) :
    Step.Alike shape (f.step ctx w) (g.step ctx w) := by
  obtain ⟨registers, rfl⟩ := h.same
  unfold step
  dsimp only
  split
  · exact .fault _ _ _ _
  · next i hi =>
    have hreads := hp.reads hi
    rw [action_congr h.kept.size fun r hr => h.kept.kept r (hreads r hr)]
    split
    · next a ha =>
      exact perform_alike h
        (action_follows (fun _ _ _ h h' => h'.trans h) hreads (hp.ways hi) (hp.finish hi) a ha)
    · exact .fault _ _ _ _

theorem descend_ne_finish (f : Frame) (w : World σ) (p : Program) (scope : Option Vars)
    (resume : Resume) (output : String) (v : World σ) :
    f.descend ctx w p scope resume ≠ .finish output v := by
  unfold descend
  split
  · exact nofun
  · split <;> exact nofun

theorem load_ne_finish (f : Frame) (w : World σ) (name : String) {go : Program → World σ → Step σ}
    {output : String} {v : World σ} (hgo : ∀ p w, go p w ≠ .finish output v) :
    f.load ctx w name go ≠ .finish output v := by
  unfold load
  split
  · exact hgo _ _
  · exact nofun

/-- Nothing but the end of a program ends it. -/
theorem eq_finish_of_perform {a : Action} {output : String} {v : World σ}
    (h : f.perform ctx w a = .finish output v) : a = .finish := by
  cases a with
  | finish => rfl
  | call r name function args =>
    simp only [perform] at h
    split at h <;> cases h
  | inclusion r name =>
    rw [perform] at h
    exact absurd h (load_ne_finish f w name fun p w => descend_ne_finish f w p _ _ _ _)
  | inclusionWith r bindings name =>
    rw [perform] at h
    refine absurd h (load_ne_finish f w name fun p w => ?_)
    split
    · exact descend_ne_finish f w p _ _ _ _
    · rintro ⟨⟩
    · rintro ⟨⟩
  | wrap name before content =>
    rw [perform] at h
    exact absurd h (load_ne_finish f w name fun p w => descend_ne_finish f w p _ _ _ _)
  | append v => cases v <;> cases h
  | _ => cases h

/-- A frame that ends is in no loop. -/
theorem loops_of_finish (hp : f.program.HasShapes shape)
    (hloops : f.loops.length = (shape f.pc).loops) {output : String} {v : World σ}
    (h : f.step ctx w = .finish output v) : f.loops = [] := by
  unfold step at h
  dsimp only at h
  split at h
  · cases h
  · next i hi =>
    split at h
    · next a ha =>
      have hfollows := action_follows (P := fun pc S => shape pc ≤ S) (fun _ _ _ h h' => h'.trans h)
        (hp.reads hi) (hp.ways hi) (hp.finish hi) a ha
      rw [eq_finish_of_perform h] at hfollows
      exact List.length_eq_zero_iff.1 (hloops.trans hfollows)
    · cases h

end Frame

end Stencil
