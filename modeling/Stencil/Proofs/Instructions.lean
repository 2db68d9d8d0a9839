import Mathlib.Algebra.Group.Nat.Defs
import Stencil.Proofs.Numbering
import Stencil.Proofs.Runs

/-!
# What single instructions do

The action of each instruction of an expression, read from the registers it is about, and the acts
that a frame performs in one step.

* `HoldsRun`: values in registers in a row;
* `Frame.action_binary`, `Frame.action_array`, …: the actions of instructions;
* `Frame.Sets`, `Frame.Refuses`: instructions that only set a register, or do nothing;
* `Performs.settle`, `Performs.jump`, `Performs.branch`, …: single steps as acts.
-/

namespace Stencil

variable {σ α : Type}

/-! ### Registers -/

/-- The registers from `first` on have the given values. -/
def HoldsRun (registers : Array Value) (first : Nat) (vs : List Value) : Prop :=
  ∀ i v, vs[i]? = some v → registers[first + i]? = some v

theorem holdsRun_nil (registers : Array Value) (first : Nat) : HoldsRun registers first [] := nofun

theorem HoldsRun.cons {registers : Array Value} {first : Nat} {v : Value} {vs : List Value}
    (hv : registers[first]? = some v) (hvs : HoldsRun registers (first + 1) vs) :
    HoldsRun registers first (v :: vs) := by
  intro i u hu
  cases i with
  | zero => rwa [← Option.some.inj hu]
  | succ i =>
    rw [Nat.add_comm i 1, ← Nat.add_assoc]
    exact hvs i u hu

theorem HoldsRun.take {registers : Array Value} {first : Nat} {vs : List Value}
    (h : HoldsRun registers first vs) (n : Nat) : HoldsRun registers first (vs.take n) := by
  intro i v hv
  rw [List.getElem?_take] at hv
  split at hv
  · exact h i v hv
  · cases hv

/-- A key without a value at the end is passed over. -/
theorem Value.addPairs_take (entries : Bindings Value) (vs : List Value) :
    addPairs entries (vs.take (2 * (vs.length / 2))) = addPairs entries vs := by
  induction entries, vs using addPairs.induct with
  | case1 entries key value rest h =>
    rw [List.length_cons, List.length_cons, show 2 * ((rest.length + 1 + 1) / 2) =
      2 * (rest.length / 2) + 1 + 1 by omega, List.take_succ_cons, List.take_succ_cons, addPairs,
      addPairs, if_pos h, if_pos h]
  | case2 entries key value rest h ih =>
    rw [List.length_cons, List.length_cons, show 2 * ((rest.length + 1 + 1) / 2) =
      2 * (rest.length / 2) + 1 + 1 by omega, List.take_succ_cons, List.take_succ_cons, addPairs,
      addPairs, if_neg h, if_neg h, ih]
  | case3 vs entries h =>
    match vs, h with
    | [], _ => rfl
    | [_], _ => simp [addPairs]
    | key :: value :: rest, h => exact absurd rfl (h key value rest)

theorem Value.mapOf_take (vs : List Value) : mapOf (vs.take (2 * (vs.length / 2))) = mapOf vs := by
  rw [mapOf, addPairs_take, mapOf]

/-! ### Numbers as values -/

theorem Decimal.toWord?_cases (n : Nat) :
    (∃ word, toWord? n = some word ∧ word.toInt = n) ∨ (toWord? n = none ∧ 2 ^ 63 ≤ n) := by
  unfold toWord?
  by_cases hn : -0x8000000000000000 ≤ (n : Int) ∧ (n : Int) < 0x8000000000000000
  · exact .inl ⟨_, if_pos hn, Int64.toInt_ofInt_of_le (by omega) (by omega)⟩
  · exact .inr ⟨if_neg hn, by omega⟩

/-- A number is its own value unless it is too large. -/
theorem measured_cases (n : Nat) (tooLarge : InternalFault) :
    (∃ word : Int64, measured n tooLarge = .ok (.int word) ∧ word.toInt = n) ∨
      (measured n tooLarge = internalFault tooLarge ∧ 2 ^ 63 ≤ n) := by
  have hcases := Decimal.toWord?_cases n
  unfold measured Value.ofNat?
  generalize Decimal.toWord? n = x at hcases ⊢
  obtain ⟨word, rfl, hn⟩ | ⟨rfl, hn⟩ := hcases
  · exact .inl ⟨word, rfl, hn⟩
  · exact .inr ⟨rfl, hn⟩

namespace Frame

variable {f : Frame}

theorem register_eq_ok {r : Nat} {v : Value} (h : f.registers[r]? = some v) :
    f.register r = .ok v := by
  simp only [register, h]

theorem run_eq_ok {first : Nat} {vs : List Value} (h : HoldsRun f.registers first vs)
    (hroom : first + vs.length ≤ f.registers.size) : f.run first vs.length = .ok vs := by
  rw [run, if_pos hroom]
  congr 1
  refine List.ext_getElem? fun i => ?_
  rw [Array.getElem?_toList, Array.getElem?_extract, Nat.min_eq_left hroom, Nat.add_sub_cancel_left]
  split
  · next hi =>
    have hv := List.getElem?_eq_getElem hi
    rw [hv]
    exact h i _ hv
  · next hi => exact (List.getElem?_eq_none (Nat.le_of_not_lt hi)).symm

theorem constant_eq_ok {n : Nat} {c : Constant} (h : f.program.pool[n]? = some c) :
    f.constant n = .ok c := by
  simp only [constant, h]

theorem name_eq_ok {n : Nat} {s : String} (h : f.program.pool[n]? = some (.str s)) :
    f.name n = .ok s := by
  rw [name, constant_eq_ok h]
  rfl

theorem store_eq_ok {r : Nat} (h : r < f.registers.size) (v : Value) :
    f.store r v = .ok (.store [] r v) := if_pos h

/-! ### Actions -/

variable {hosts : HostTypes} {functions : Functions} {vars : Vars} {x y : UInt32} {a b : Nat}

/-- The action that writes what has been settled into a register. -/
def storing (r : Nat) (result : Except Fault (List Caution × Value)) : Except Fault Action :=
  result.map fun p => .store p.1 r p.2

theorem action_loadNull (hx : x.toNat = a) (h : a < f.registers.size) :
    f.action hosts functions vars ⟨.loadNull, x, y⟩ = storing a (.ok ([], .null)) := by
  subst hx
  exact store_eq_ok h .null

theorem action_loadBool (t : Bool) (hx : x.toNat = a) (h : a < f.registers.size) :
    f.action hosts functions vars ⟨if t then .loadTrue else .loadFalse, x, y⟩ =
      storing a (.ok ([], .bool t)) := by
  subst hx
  cases t <;> exact store_eq_ok h _

theorem action_loadInt (hx : x.toNat = a) (h : a < f.registers.size) :
    f.action hosts functions vars ⟨.loadInt, x, y⟩ =
      storing a (.ok ([], .int (Int64.ofNat y.toNat))) := by
  subst hx
  exact store_eq_ok h _

theorem action_loadConst {c : Constant} (hx : x.toNat = a)
    (hy : f.program.pool[y.toNat]? = some c) (h : a < f.registers.size) :
    f.action hosts functions vars ⟨.loadConst, x, y⟩ = storing a (.ok ([], c.value)) := by
  subst hx
  simp only [action, constant_eq_ok hy]
  exact store_eq_ok h c.value

theorem action_loadVar {name : String} (hx : x.toNat = a)
    (hy : f.program.pool[y.toNat]? = some (.str name)) (h : a < f.registers.size) :
    f.action hosts functions vars ⟨.loadVar, x, y⟩ =
      storing a (.ok ([], (vars.get? name).getD .null)) := by
  subst hx
  simp only [action, name_eq_ok hy]
  exact store_eq_ok h _

theorem action_move {v : Value} (hx : x.toNat = a) (hy : y.toNat = b)
    (hb : f.registers[b]? = some v) (h : a < f.registers.size) :
    f.action hosts functions vars ⟨.move, x, y⟩ = storing a (.ok ([], v)) := by
  subst hx hy
  simp only [action, register_eq_ok hb]
  exact store_eq_ok h v

theorem action_setVar {name : String} {v : Value} (hx : f.program.pool[x.toNat]? = some (.str name))
    (hy : y.toNat = b) (hb : f.registers[b]? = some v) :
    f.action hosts functions vars ⟨.setVar, x, y⟩ = .ok (.assign name v) := by
  subst hy
  simp only [action, name_eq_ok hx, register_eq_ok hb]
  rfl

/-- What may be a fault is written if it is none. -/
theorem storing_plainly {ε : Type} {fault : ε → Fault} {r : Except ε Value}
    {result : Except Fault Value} (h : result = match r with
      | .ok v => .ok v
      | .error e => .error (fault e)) :
    (do return .store [] a (← result)) = storing a (plainly fault r) := by
  subst h
  cases r <;> rfl

theorem action_binary (op : BinaryOp) {u v : Value} (hx : x.toNat = a) (hy : y.toNat = b)
    (ha : f.registers[a]? = some u) (hb : f.registers[b]? = some v) :
    f.action hosts functions vars ⟨op.opcode, x, y⟩ = storing a (op.apply hosts u v) := by
  subst hx hy
  have ha := register_eq_ok ha
  have hb := register_eq_ok hb
  -- Each family of operators has an action that takes the operator as an argument.
  cases op with
  | arith op =>
    have haction : f.action hosts functions vars ⟨(BinaryOp.arith op).opcode, x, y⟩ =
        (do return .store [] x.toNat (← f.arithOf op x.toNat y.toNat)) := by
      cases op <;> rfl
    rw [haction]
    refine storing_plainly ?_
    simp only [arithOf, ha, hb, bind, Except.bind]
    cases Value.arith op u v <;> rfl
  | order test =>
    have haction : f.action hosts functions vars ⟨(BinaryOp.order test).opcode, x, y⟩ =
        (do return .store [] x.toNat (← f.orderOf test x.toNat y.toNat)) := by
      cases test <;> rfl
    rw [haction]
    refine storing_plainly ?_
    simp only [orderOf, ha, hb, bind, Except.bind]
    cases Value.compare u v <;> rfl
  | range =>
    refine storing_plainly ?_
    simp only [rangeOf, ha, hb, bind, Except.bind]
    cases Value.range u v <;> rfl
  | concat =>
    simp only [action, BinaryOp.opcode, ha, hb]
    rfl
  | equals | notEquals =>
    simp only [action, BinaryOp.opcode, equal, ha, hb]
    rfl
  | member =>
    simp only [action, BinaryOp.opcode, BinaryOp.apply, ha, hb, bind, Except.bind]
    cases Value.member hosts u v <;> rfl

theorem action_not {v : Value} (hx : x.toNat = a) (ha : f.registers[a]? = some v) :
    f.action hosts functions vars ⟨.not, x, y⟩ = storing a (.ok ([], .bool !v.isTruthy)) := by
  subst hx
  simp only [action, register_eq_ok ha]
  rfl

theorem action_text (op : TextOp) {v : Value} (hx : x.toNat = a)
    (ha : f.registers[a]? = some v) :
    f.action hosts functions vars ⟨op.opcode, x, y⟩ =
      if v.isNull then .ok .skip else storing a (.ok ([], op.apply v)) := by
  subst hx
  cases op <;>
    simp only [action, TextOp.opcode, textAction, register_eq_ok ha, TextOp.apply, bind,
      Except.bind] <;>
    cases v.isNull <;> rfl

theorem action_fact (fact : LoopFact) (hx : x.toNat = a) (h : a < f.registers.size) :
    f.action hosts functions vars ⟨fact.opcode, x, y⟩ =
      match f.loops.head? with
      | none => .error (.type (.noLoop fact.opcode))
      | some l => storing a (plainly id (l.answer fact.opcode)) := by
  subst hx
  have hstore : ∀ l : LoopRecord, (do f.store x.toNat (← l.answer fact.opcode)) =
      storing x.toNat (plainly id (l.answer fact.opcode)) := by
    intro l
    cases l.answer fact.opcode with
    | ok v => exact store_eq_ok h v
    | error fault => rfl
  cases hl : f.loops with
  | nil => cases fact <;> simp only [action, LoopFact.opcode, hl] <;> rfl
  | cons l ls =>
    refine Eq.trans ?_ (hstore l)
    cases fact <;> simp only [action, LoopFact.opcode, hl]

theorem action_array {vs : List Value} (hx : x.toNat = a) (hy : y.toNat = vs.length)
    (hvs : HoldsRun f.registers a vs) (hroom : a + vs.length ≤ f.registers.size)
    (h : a < f.registers.size) :
    f.action hosts functions vars ⟨.array, x, y⟩ = storing a (.ok ([], .array vs)) := by
  subst hx
  simp only [action, hy, run_eq_ok hvs hroom]
  exact store_eq_ok h _

theorem action_map {vs : List Value} (hx : x.toNat = a) (hy : y.toNat = vs.length / 2)
    (hvs : HoldsRun f.registers a vs) (hroom : a + vs.length ≤ f.registers.size)
    (hlimit : f.registers.size < operandLimit) (h : a < f.registers.size) :
    f.action hosts functions vars ⟨.map, x, y⟩ = storing a (mapOfPairs vs) := by
  subst hx
  -- The instruction counts pairs and never reads a value without a partner at the end.
  have hlength : (vs.take (2 * (vs.length / 2))).length = 2 * (vs.length / 2) := by
    rw [List.length_take]
    omega
  have hrun := run_eq_ok (hvs.take (2 * (vs.length / 2))) (by omega)
  rw [hlength] at hrun
  have hmap : f.mapOfRun x.toNat (vs.length / 2) =
      (Value.mapOf vs).mapError fun e => .type (.collection e) := by
    rw [mapOfRun, if_neg (by omega), hrun]
    simp only [bind, Except.bind, Value.mapOf_take]
    cases Value.mapOf vs <;> rfl
  simp only [action, hy, hmap, mapOfPairs]
  cases Value.mapOf vs with
  | ok v => exact store_eq_ok h v
  | error e => rfl

theorem action_format {t : Value} {vs : List Value} (hx : x.toNat = a) (hy : y.toNat = vs.length)
    (ha : f.registers[a]? = some t) (hvs : HoldsRun f.registers (a + 1) vs)
    (hroom : a + 1 + vs.length ≤ f.registers.size) :
    f.action hosts functions vars ⟨.format, x, y⟩ = storing a (formatOf t vs) := by
  subst hx
  simp only [action, fillFormat, formatOf, hy, register_eq_ok ha, run_eq_ok hvs hroom, bind,
    Except.bind]
  split
  · rfl
  · cases Format.format t.text vs <;> rfl

theorem action_method {target : Value} {name : String} {vs : List Value} (hx : x.toNat = a)
    (hy : y.toNat = vs.length) (ha : f.registers[a]? = some target)
    (hname : f.registers[a + 1]? = some (.str name)) (hvs : HoldsRun f.registers (a + 2) vs)
    (hroom : a + 2 + vs.length ≤ f.registers.size) :
    f.action hosts functions vars ⟨.method, x, y⟩ =
      storing a (plainly .member (target.answer hosts name vs)) := by
  subst hx
  simp only [action, callMethod, hy, register_eq_ok ha, register_eq_ok hname, run_eq_ok hvs hroom,
    bind, Except.bind]
  cases target.answer hosts name vs <;> rfl

theorem action_call {name : String} {vs : List Value} (hx : x.toNat = a) (hy : y.toNat = vs.length)
    (ha : f.registers[a]? = some (.str name)) (hvs : HoldsRun f.registers (a + 1) vs)
    (hroom : a + 1 + vs.length ≤ f.registers.size) :
    f.action hosts functions vars ⟨.call, x, y⟩ =
      match functions.get? name with
      | none => storing a (.ok ([.unknownFunction name], .null))
      | some function => .ok (.call a name function vs) := by
  subst hx
  simp only [action, callFunction, hy, register_eq_ok ha, run_eq_ok hvs hroom, bind, Except.bind]
  cases functions.get? name <;> rfl

theorem action_jump (hx : x.toNat = a) :
    f.action hosts functions vars ⟨.jump, x, y⟩ = .ok (.goto a) := by
  subst hx
  rfl

theorem action_jumpIfFalse {v : Value} (hx : x.toNat = a) (hy : y.toNat = b)
    (ha : f.registers[a]? = some v) :
    f.action hosts functions vars ⟨.jumpIfFalse, x, y⟩ =
      .ok (if v.isTruthy then .skip else .goto b) := by
  subst hx hy
  simp only [action, branch, register_eq_ok ha, bind, Except.bind]
  cases v.isTruthy <;> rfl

theorem action_jumpIfTrue {v : Value} (hx : x.toNat = a) (hy : y.toNat = b)
    (ha : f.registers[a]? = some v) :
    f.action hosts functions vars ⟨.jumpIfTrue, x, y⟩ =
      .ok (if v.isTruthy then .goto b else .skip) := by
  subst hx hy
  simp only [action, branch, register_eq_ok ha, bind, Except.bind]
  cases v.isTruthy <;> rfl

/-! ### Actions of statements -/

theorem action_appendText {s : String} (hx : f.program.pool[x.toNat]? = some (.str s)) :
    f.action hosts functions vars ⟨.appendText, x, y⟩ = .ok (.write s) := by
  simp only [action, name_eq_ok hx]
  rfl

theorem action_append {v : Value} (hx : x.toNat = a) (ha : f.registers[a]? = some v) :
    f.action hosts functions vars ⟨.append, x, y⟩ = .ok (.append v) := by
  subst hx
  simp only [action, register_eq_ok ha]
  rfl

theorem action_test {u v : Value} (hx : x.toNat = a) (hy : y.toNat = b)
    (ha : f.registers[a]? = some u) (hb : f.registers[b]? = some v) :
    f.action hosts functions vars ⟨.test, x, y⟩ = storing a (.ok ([], .bool (u.eq v))) := by
  subst hx hy
  simp only [action, equal, register_eq_ok ha, register_eq_ok hb]
  rfl

theorem action_iterStart {v : Value} (hx : x.toNat = a) (hy : y.toNat = b)
    (ha : f.registers[a]? = some v) :
    f.action hosts functions vars ⟨.iterStart, x, y⟩ =
      match v.items hosts with
      | .ok [] => .ok (.goto b)
      | .ok (first :: rest) => .ok (.enter a first rest)
      | .error e => .error (.type (.collection e)) := by
  subst hx hy
  simp only [action, enterLoop, register_eq_ok ha, bind, Except.bind]
  rcases v.items hosts with _ | _ | ⟨_, _⟩ <;> rfl

theorem action_iterNext {l : LoopRecord} {ls : List LoopRecord} (hx : x.toNat = a)
    (hy : y.toNat = b) (hl : f.loops = l :: ls) (h : a < f.registers.size) :
    f.action hosts functions vars ⟨.iterNext, x, y⟩ =
      match l.rest with
      | [] => .ok (.exhaust ⟨l.index + 1, []⟩)
      | item :: rest => .ok (.next a item ⟨l.index + 1, rest⟩ b) := by
  subst hx hy
  simp only [action, nextItem, hl]
  obtain ⟨index, _ | ⟨item, rest⟩⟩ := l
  · rfl
  · exact if_pos h

theorem action_loopPop {l : LoopRecord} {ls : List LoopRecord} (hl : f.loops = l :: ls) :
    f.action hosts functions vars ⟨.loopPop, x, y⟩ = .ok .leave := by
  simp only [action, hl]
  rfl

theorem templateName_eq {v : Value} (ha : f.registers[a]? = some v) :
    f.templateName a = if v.isNull then .error (.load .nullName) else .ok v.text := by
  simp only [templateName, register_eq_ok ha, bind, Except.bind]
  cases v.isNull <;> rfl

theorem action_inclusion {v : Value} (hx : x.toNat = a) (ha : f.registers[a]? = some v) :
    f.action hosts functions vars ⟨.inclusion, x, y⟩ =
      if v.isNull then .error (.load .nullName) else .ok (.inclusion a v.text) := by
  subst hx
  simp only [action, templateName_eq ha]
  cases v.isNull <;> rfl

theorem action_inclusionWith {v : Value} (hx : x.toNat = a) (hy : y.toNat = b)
    (ha : f.registers[a]? = some v) :
    f.action hosts functions vars ⟨.inclusionWith, x, y⟩ =
      if v.isNull then .error (.load .nullName) else .ok (.inclusionWith a b v.text) := by
  subst hx hy
  simp only [action, templateName_eq ha]
  cases v.isNull <;> rfl

theorem action_markOutput (hx : x.toNat = a) (h : a < f.registers.size) :
    f.action hosts functions vars ⟨.markOutput, x, y⟩ =
      storing a (plainly id (measured f.output.utf8ByteSize .outputTooLarge)) := by
  subst hx
  show (do f.store x.toNat (← measured f.output.utf8ByteSize .outputTooLarge)) = _
  generalize measured f.output.utf8ByteSize .outputTooLarge = mark
  cases mark with
  | ok v => exact store_eq_ok h v
  | error fault => rfl

theorem action_wrap {v : Value} {before content : String} (hx : x.toNat = a) (hy : y.toNat = b)
    (hb : f.atMark b = .ok (before, content)) (ha : f.registers[a]? = some v) :
    f.action hosts functions vars ⟨.wrap, x, y⟩ =
      if v.isNull then .error (.load .nullName) else .ok (.wrap v.text before content) := by
  subst hx hy
  simp only [action, hb, templateName_eq ha, bind, Except.bind]
  cases v.isNull <;> rfl

/-- The instruction sets its first register to the value and does nothing else. -/
def Sets (f : Frame) (i : Instruction) (v : Value) : Prop :=
  ∀ hosts functions vars, f.action hosts functions vars i = .ok (.store [] i.a.toNat v)

/-- The instruction is refused and does nothing. -/
def Refuses (f : Frame) (i : Instruction) (fault : Fault) : Prop :=
  ∀ hosts functions vars, f.action hosts functions vars i = .error fault

/-- A frame with values in its registers. -/
def holding (registers : Array Value) : Frame where
  program := default
  depth := 0
  pc := 0
  registers
  loops := []
  output := ""

end Frame

/-! ### Steps -/

namespace Frame

/-- The frame at another instruction and with other registers. -/
def moved (f : Frame) (pc : Nat) (registers : Array Value) : Frame := { f with pc, registers }

theorem step_of_ok {ctx : Context σ} {f : Frame} {w : World σ} {i : Instruction} {a : Action}
    (hi : f.program.instructions[f.pc]? = some i)
    (ha : f.action ctx.hosts ctx.functions w.vars i = .ok a) :
    f.step ctx w = f.perform ctx (w.note (.instruction f.pc i.op f.loops.length)) a := by
  simp only [step, hi]
  rw [show (w.note (.instruction f.pc i.op f.loops.length)).vars = w.vars from rfl, ha]

theorem step_of_error {ctx : Context σ} {f : Frame} {w : World σ} {i : Instruction} {fault : Fault}
    (hi : f.program.instructions[f.pc]? = some i)
    (ha : f.action ctx.hosts ctx.functions w.vars i = .error fault) :
    f.step ctx w = f.stop (w.note (.instruction f.pc i.op f.loops.length)) fault := by
  simp only [step, hi]
  rw [show (w.note (.instruction f.pc i.op f.loops.length)).vars = w.vars from rfl, ha]

end Frame

theorem Program.Has.lineAt {p : Program} {n : Nat} {d : Draft} (h : p.Has n d) :
    p.lineAt n = d.line := by
  obtain ⟨_, _, _, _, _, hl⟩ := h
  rw [Program.lineAt, hl]
  rfl

theorem Site.silent_warnAll (site : Site σ) {p : Program} (hsource : p.source = site.source)
    (pc : Nat) (cautions : List Caution) (w : World σ) :
    (w.warnAll p pc cautions).silent =
      cautions.foldl (site.warn (p.lineAt pc)) w.silent := by
  induction cautions generalizing w with
  | nil => rfl
  | cons c cs ih =>
    show ((w.warn p pc c).warnAll p pc cs).silent = _
    rw [ih, World.silent_warn, hsource]
    rfl

/-- The action of a draft: what every instruction is going to do that carries the draft out. -/
def Draft.Acts (d : Draft) (site : Site σ) (f : Frame) (w : World σ) (a : Except Fault Action) :
    Prop :=
  ∀ x y, d.a.IsNumber f.program.pool x → d.b.IsNumber f.program.pool y →
    f.action site.ctx.hosts site.ctx.functions w.vars ⟨d.op, x, y⟩ = a

section Steps

variable {site : Site σ} {n : Nat} {f g : Frame} {v w : World σ} {d : Draft}

/-- The step of a frame at an instruction that has an action. -/
theorem Draft.Acts.step {a : Action} (h : d.Acts site f w (.ok a)) (hd : f.program.Has f.pc d) :
    ∃ e, f.step site.ctx w = f.perform site.ctx (w.note e) a := by
  obtain ⟨x, y, hi, hx, hy, -⟩ := hd
  exact ⟨_, Frame.step_of_ok hi (h x y hx hy)⟩

theorem Matches.next {a : α} {Q : α → Frame → Prop} (hs : f.step site.ctx w = .next g v)
    (hQ : Q a g) : Matches site.ctx n (some (.ok a, v.silent)) f w Q :=
  ⟨g, v, .step hs, rfl, hQ⟩

theorem Matches.fault {Q : α → Frame → Prop} {fault : Fault} {p : Program} {pc : Nat}
    (hs : f.step site.ctx w = .fault fault p pc v) :
    Matches site.ctx n (some (.error [⟨fault, p.source, p.lineAt pc⟩], v.silent)) f w Q := by
  refine ⟨1, (.error ⟨⟨fault, p, pc⟩, []⟩, v), ?_, rfl⟩
  rw [Frame.exec, hs]

/-- A fault that arises before the action. -/
theorem Performs.blame (hsource : f.program.source = site.source) (hd : f.program.Has f.pc d)
    {fault : Fault} (h : d.Acts site f w (.error fault)) {Q : α → Frame → Prop} :
    Performs site.ctx n (site.blame d.line fault) f w Q := by
  have hline := hd.lineAt
  obtain ⟨x, y, hi, hx, hy, -⟩ := hd
  have hm := Matches.fault (n := n) (Q := Q) (Frame.step_of_error hi (h x y hx hy))
  rw [World.silent_note, hsource, hline] at hm
  exact hm

/-- A value that is written into a register, with warnings, unless there is a fault. -/
theorem Performs.settle (hsource : f.program.source = site.source) (hd : f.program.Has f.pc d)
    {dst : Nat} {r : Except Fault (List Caution × Value)}
    (h : d.Acts site f w (Frame.storing dst r)) :
    Performs site.ctx n (site.settle d.line r) f w fun u g => g = (f.put dst u).advance := by
  cases r with
  | error fault => exact .blame hsource hd h
  | ok p =>
    obtain ⟨cautions, u⟩ := p
    obtain ⟨e, hs⟩ := Draft.Acts.step (a := .store cautions dst u) h hd
    have hm := Matches.next (n := n) (Q := fun u g => g = (f.put dst u).advance) hs rfl
    rw [site.silent_warnAll hsource, hd.lineAt, World.silent_note] at hm
    exact hm

/-- A step that only goes elsewhere, and counts. -/
theorem Performs.goto_succ {x : Act σ α} {Q : α → Frame → Prop} (hd : f.program.Has f.pc d)
    {pc : Nat} (h : d.Acts site f w (.ok (.goto pc)))
    (hx : ∀ v, Performs site.ctx n x (f.goto pc) v Q) : Performs site.ctx (n + 1) x f w Q := by
  obtain ⟨e, hs⟩ := h.step hd
  exact .step_succ hs (World.silent_note w e) (hx _)

/-- A step that only goes on, and counts. -/
theorem Performs.skip_succ {x : Act σ α} {Q : α → Frame → Prop} (hd : f.program.Has f.pc d)
    (h : d.Acts site f w (.ok .skip)) (hx : ∀ v, Performs site.ctx n x f.advance v Q) :
    Performs site.ctx (n + 1) x f w Q := by
  obtain ⟨e, hs⟩ := h.step hd
  exact .step_succ hs (World.silent_note w e) (hx _)

section Branches

variable {registers : Array Value} {pc target a : Nat} {line : UInt32} {t : Value}
variable {x y : Act σ α} {Q : α → Frame → Prop}

theorem Performs.jump (hd : f.program.Has pc (.jumpTo target line))
    (hx : ∀ v, Performs site.ctx n x (f.moved target registers) v Q) :
    Performs site.ctx n x (f.moved pc registers) w Q :=
  (goto_succ (f := f.moved pc registers) hd (fun _ _ hx _ => Frame.action_jump hx) hx).le
    (Nat.le_succ n)

/-- A choice that goes elsewhere if the register `a` is false. -/
theorem Performs.branch_succ (hd : f.program.Has pc (.branchTo .jumpIfFalse a target line))
    (ha : registers[a]? = some t)
    (hyes : ∀ v, Performs site.ctx n x (f.moved (pc + 1) registers) v Q)
    (hno : ∀ v, Performs site.ctx n y (f.moved target registers) v Q) :
    Performs site.ctx (n + 1) (if t.isTruthy then x else y) (f.moved pc registers) w Q := by
  have haction : (Draft.branchTo .jumpIfFalse a target line).Acts site (f.moved pc registers) w
      (.ok (if t.isTruthy then .skip else .goto target)) :=
    fun _ _ hx hy => Frame.action_jumpIfFalse hx hy ha
  by_cases ht : t.isTruthy
  · rw [if_pos ht] at haction ⊢
    exact skip_succ (f := f.moved pc registers) hd haction hyes
  · rw [if_neg ht] at haction ⊢
    exact goto_succ (f := f.moved pc registers) hd haction hno

theorem Performs.branch (hd : f.program.Has pc (.branchTo .jumpIfFalse a target line))
    (ha : registers[a]? = some t)
    (hyes : ∀ v, Performs site.ctx n x (f.moved (pc + 1) registers) v Q)
    (hno : ∀ v, Performs site.ctx n y (f.moved target registers) v Q) :
    Performs site.ctx n (if t.isTruthy then x else y) (f.moved pc registers) w Q :=
  (branch_succ hd ha hyes hno).le (Nat.le_succ n)

/-- A choice that goes elsewhere if the register `a` is true. -/
theorem Performs.branchTrue (hd : f.program.Has pc (.branchTo .jumpIfTrue a target line))
    (ha : registers[a]? = some t)
    (hyes : ∀ v, Performs site.ctx n x (f.moved target registers) v Q)
    (hno : ∀ v, Performs site.ctx n y (f.moved (pc + 1) registers) v Q) :
    Performs site.ctx n (if t.isTruthy then x else y) (f.moved pc registers) w Q := by
  have haction : (Draft.branchTo .jumpIfTrue a target line).Acts site (f.moved pc registers) w
      (.ok (if t.isTruthy then .goto target else .skip)) :=
    fun _ _ hx hy => Frame.action_jumpIfTrue hx hy ha
  by_cases ht : t.isTruthy
  · rw [if_pos ht] at haction ⊢
    exact (goto_succ (f := f.moved pc registers) hd haction hyes).le (Nat.le_succ n)
  · rw [if_neg ht] at haction ⊢
    exact (skip_succ (f := f.moved pc registers) hd haction hno).le (Nat.le_succ n)

/-- A value that is known before may be put into a register. -/
theorem Performs.load {d : Draft} (hd : f.program.Has pc d) {u : Value}
    (h : d.Acts site (f.moved pc registers) w (Frame.storing a (.ok ([], u))))
    (hx : ∀ v, Performs site.ctx n x (f.moved (pc + 1) (registers.setIfInBounds a u)) v Q) :
    Performs site.ctx n x (f.moved pc registers) w Q := by
  obtain ⟨e, hs⟩ := Draft.Acts.step (f := f.moved pc registers) (a := .store [] a u) h hd
  exact (step_succ hs (World.silent_note w e) (hx _)).le (Nat.le_succ n)

end Branches

/-- An assignment to a variable. -/
theorem Performs.assign {name : String} {u : Value} (hd : f.program.Has f.pc d)
    (h : d.Acts site f w (.ok (.assign name u))) :
    Performs site.ctx n (Act.assign name u) f w fun _ g => g = f.advance := by
  obtain ⟨e, hs⟩ := h.step hd
  have hm := Matches.next (n := n) (a := ()) (Q := fun _ g => g = f.advance) hs rfl
  rw [show ({ w.note e with vars := (w.note e).vars.set name u } : World σ).silent =
    { w.silent with vars := w.silent.vars.set name u } by
      rw [← World.silent_note w e]; rfl] at hm
  exact hm

/-- A call of a function of the host application. -/
theorem Performs.call {name : String} {args : List Value} {function : Function} {dst : Nat}
    (hsource : f.program.source = site.source) (hd : f.program.Has f.pc d)
    (h : d.Acts site f w (.ok (.call dst name function args))) :
    Performs site.ctx n
      (fun w => site.settle d.line (plainly (.function name) (function args))
        (w.record (.call name args)))
      f w fun u g => g = (f.put dst u).advance := by
  obtain ⟨e, hs⟩ := h.step hd
  have hsilent : ((w.note e).record (.call name args)).silent =
      w.silent.record (.call name args) := by simp
  unfold Performs
  dsimp only
  cases hr : function args with
  | ok u =>
    have hs' : f.step site.ctx w =
        .next (f.put dst u).advance ((w.note e).record (.call name args)) := by
      rw [hs, Frame.perform, hr]
    have hm := Matches.next (n := n) (Q := fun u g => g = (f.put dst u).advance) hs' rfl
    rw [hsilent] at hm
    exact hm
  | error message =>
    have hs' : f.step site.ctx w = .fault (.function name message) f.program f.pc
        ((w.note e).record (.call name args)) := by
      rw [hs, Frame.perform, hr]
      rfl
    have hm := Matches.fault (n := n) (Q := fun u g => g = (f.put dst u).advance) hs'
    rw [hsilent, hsource, hd.lineAt] at hm
    exact hm

/-- A value that is written out. -/
theorem Performs.write {registers : Array Value} {pc a : Nat} {line : UInt32} {u : Value}
    (hsource : f.program.source = site.source)
    (hd : f.program.Has pc (.onRegister .append a line)) (ha : registers[a]? = some u) :
    Performs site.ctx n (site.write line u) (f.moved pc registers) w fun p g =>
      p.flow = .on ∧ g = (f.write p.text).moved (pc + 1) registers := by
  have hacts : (Draft.onRegister .append a line).Acts site (f.moved pc registers) w
      (.ok (.append u)) := fun _ _ hx _ => Frame.action_append hx ha
  obtain ⟨e, hs⟩ := hacts.step (f := f.moved pc registers) hd
  have plain : ∀ s, (f.moved pc registers).appendValue site.ctx (w.note e) u =
      ((f.moved pc registers).write s, w.note e) →
      Performs site.ctx n (Pure.pure ⟨s, .on⟩ : Act σ Passage) (f.moved pc registers) w fun p g =>
        p.flow = .on ∧ g = (f.write p.text).moved (pc + 1) registers := by
    intro s happend
    simp only [Frame.perform, happend] at hs
    exact .step hs (World.silent_note w e) (.pure ⟨rfl, rfl⟩)
  cases u with
  | null =>
    have hm := Matches.next (n := n) (a := (⟨site.ctx.limits.placeholder, .on⟩ : Passage))
      (Q := fun p g => p.flow = .on ∧ g = (f.write p.text).moved (pc + 1) registers) hs ⟨rfl, rfl⟩
    rw [World.silent_warn, World.silent_note, show (f.moved pc registers).program.source = _ from
      hsource, show (f.moved pc registers).program.lineAt (f.moved pc registers).pc = line from
      hd.lineAt] at hm
    exact hm
  | _ => exact plain _ rfl

end Steps

end Stencil
