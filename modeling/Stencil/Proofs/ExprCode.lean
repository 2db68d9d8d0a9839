import Mathlib.Data.List.Forall2
import Stencil.Proofs.Evaluation
import Stencil.Proofs.Extent
import Stencil.Proofs.Instructions

/-!
# The code of expressions

The code of an expression leaves the expression's value in its register. It disturbs no register
below the first free one, and neither the output nor the loops.

* `Keeps`: registers that have not changed;
* `Scope.Holds`: the variables of loops are in their registers;
* `Expr.Correct`: the code of an expression does what the expression means;
* `Expr.correct`: the code of every expression does.
-/

namespace Stencil

variable {σ : Type}

/-! ### Registers that are kept -/

/-- The registers of the given kind have not changed. -/
structure Keeps (P : Nat → Prop) (registers after : Array Value) : Prop where
  size : after.size = registers.size
  kept : ∀ r, P r → after[r]? = registers[r]?

namespace Keeps

variable {P P' : Nat → Prop} {a b c : Array Value}

theorem refl (a : Array Value) : Keeps P a a := ⟨rfl, fun _ _ => rfl⟩

theorem trans (h : Keeps P a b) (h' : Keeps P' b c) (hP : ∀ r, P r → P' r) : Keeps P a c :=
  ⟨h'.size.trans h.size, fun r hr => (h'.kept r (hP r hr)).trans (h.kept r hr)⟩

theorem mono (h : Keeps P' a b) (hP : ∀ r, P r → P' r) : Keeps P a b :=
  ⟨h.size, fun r hr => h.kept r (hP r hr)⟩

theorem put (h : Keeps P a b) {dst : Nat} (hdst : ¬P dst) (v : Value) :
    Keeps P a (b.setIfInBounds dst v) := by
  refine ⟨by rw [Array.size_setIfInBounds, h.size], fun r hr => ?_⟩
  rw [Array.getElem?_setIfInBounds_ne, h.kept r hr]
  rintro rfl
  exact hdst hr

/-- Writing the first free register disturbs none below it. -/
theorem put_free (a : Array Value) (free : Nat) (v : Value) :
    Keeps (· < free) a (a.setIfInBounds free v) :=
  (refl (P := (· < free)) a).put (Nat.lt_irrefl free) v

end Keeps

/-- The registers that belong to no part of an expression with the given ones. -/
def Spared (dst free r : Nat) : Prop := r < free ∧ r ≠ dst

/-! ### Variables of loops -/

/-- The variables of loops are in their registers, which are below `base`. -/
def Scope.Holds (base : Nat) (registers : Array Value) (scope : Scope)
    (locals : List (String × Value)) : Prop :=
  List.Forall₂ (fun s l => s.1 = l.1 ∧ s.2 < base ∧ registers[s.2]? = some l.2) scope locals

namespace Scope.Holds

variable {base : Nat} {registers : Array Value} {scope : Scope} {locals : List (String × Value)}

theorem mono (h : Scope.Holds base registers scope locals) {base' : Nat} {after : Array Value}
    (hbase : base ≤ base') (hkept : ∀ r < base, after[r]? = registers[r]?) :
    Scope.Holds base' after scope locals := by
  refine List.Forall₂.imp (fun s l ⟨hname, hlt, hv⟩ => ⟨hname, by omega, ?_⟩) h
  rw [hkept _ hlt, hv]

theorem cons (h : Scope.Holds base registers scope locals) (name : String) {slot : Nat} {v : Value}
    (hslot : slot < base) (hv : registers[slot]? = some v) :
    Scope.Holds base registers ((name, slot) :: scope) ((name, v) :: locals) :=
  List.Forall₂.cons ⟨rfl, hslot, hv⟩ h

/-- A name is a variable of a loop on both sides or on none. -/
theorem lookup (h : Scope.Holds base registers scope locals) (name : String) :
    (∃ slot v, scope.lookup name = some slot ∧ locals.lookup name = some v ∧
      registers[slot]? = some v) ∨
    (scope.lookup name = none ∧ locals.lookup name = none) := by
  induction h with
  | nil => exact .inr ⟨rfl, rfl⟩
  | @cons s l _ _ hsl _ ih =>
    obtain ⟨other, slot⟩ := s
    obtain ⟨other', v⟩ := l
    obtain ⟨rfl, -, hv⟩ := hsl
    simp only [List.lookup_cons]
    split
    · exact .inl ⟨slot, v, rfl, rfl, hv⟩
    · exact ih

end Scope.Holds

/-! ### Correct code -/

/-- The frame is in the template of the site, and in the loops of the environment. -/
structure Site.Fits (site : Site σ) (f : Frame) (env : Env) : Prop where
  source : f.program.source = site.source
  depth : f.depth = site.depth
  loop : f.loops.head? = env.loop

/-- There is room for code that writes `count` registers from `dst` on and uses `need` registers
from `free` on, and the variables of loops are in registers below all these. -/
structure Room (env : Env) (scope : Scope) (base dst count free need : Nat)
    (registers : Array Value) : Prop where
  holds : Scope.Holds base registers scope env.locals
  base_le : base ≤ dst
  below : dst + count ≤ free
  room : free + need ≤ registers.size
  limit : registers.size < operandLimit

namespace Room

variable {env : Env} {scope : Scope} {base dst count free need dst' count' free' need' : Nat}
variable {registers after : Array Value}

theorem dst_lt_size (h : Room env scope base dst 1 free need registers) :
    dst < registers.size := by
  have := h.below
  have := h.room
  omega

/-- There is room for a part whose registers belong to the whole. -/
theorem part (h : Room env scope base dst count free need registers) (hbase : base ≤ dst')
    (hbelow : dst' + count' ≤ free') (hroom : free' + need' ≤ registers.size) :
    Room env scope base dst' count' free' need' registers :=
  ⟨h.holds, hbase, hbelow, hroom, h.limit⟩

/-- There still is room when another part has been evaluated. -/
theorem keeps (h : Room env scope base dst count free need registers) {P : Nat → Prop}
    (hk : Keeps P registers after) (hP : ∀ r < base, P r) :
    Room env scope base dst count free need after where
  holds := h.holds.mono (Nat.le_refl base) fun r hr => hk.kept r (hP r hr)
  base_le := h.base_le
  below := h.below
  room := hk.size ▸ h.room
  limit := hk.size ▸ h.limit

/-- Behind such a part, there is room for another one that has no register of its own yet. -/
theorem behind (h : Room env scope base dst count free need registers) {bound : Nat}
    (hk : Keeps (· < bound) registers after) (hbound : base ≤ bound) (hbase : base ≤ free')
    (hroom : free' + need' ≤ registers.size) : Room env scope free' free' 0 free' need' after where
  holds := h.holds.mono hbase fun r hr => hk.kept r (Nat.lt_of_lt_of_le hr hbound)
  base_le := Nat.le_refl free'
  below := Nat.le_refl free'
  room := hk.size ▸ hroom
  limit := hk.size ▸ h.limit

end Room

/-- The frame has gone on to another instruction with the value `v` in the register `dst`, and
nothing else has changed that matters. -/
def Frame.Yields (f : Frame) (registers : Array Value) (pc dst free : Nat) (v : Value) (g : Frame) :
    Prop :=
  ∃ after, g = f.moved pc after ∧ Keeps (Spared dst free) registers after ∧ after[dst]? = some v

theorem Frame.Yields.after {f g : Frame} {registers mid : Array Value} {pc dst free free' : Nat}
    {v : Value} (h : f.Yields mid pc dst free' v g) (hkeep : Keeps (Spared dst free) registers mid)
    (hfree : free ≤ free') : f.Yields registers pc dst free v g := by
  obtain ⟨after, rfl, hkeep', hv⟩ := h
  exact ⟨after, rfl, hkeep.trans hkeep' fun r hr => ⟨Nat.lt_of_lt_of_le hr.1 hfree, hr.2⟩, hv⟩

theorem Frame.Yields.put {f : Frame} {registers before : Array Value} {pc dst free : Nat}
    (h : Keeps (Spared dst free) registers before) (hdst : dst < registers.size) (v : Value) :
    f.Yields registers (pc + 1) dst free v ((f.moved pc before).put dst v).advance :=
  ⟨_, rfl, h.put (fun hr => hr.2 rfl) v, Array.getElem?_setIfInBounds_self_of_lt (h.size ▸ hdst)⟩

/-- The last instruction of an expression, which writes the value. -/
theorem Performs.yield {site : Site σ} {n : Nat} {f : Frame} {env : Env} (hfit : site.Fits f env)
    {registers before : Array Value} {pc dst free : Nat} {w : World σ}
    (hkeep : Keeps (Spared dst free) registers before) (hdst : dst < registers.size) {d : Draft}
    (hd : f.program.Has pc d) {r : Except Fault (List Caution × Value)}
    (h : d.Acts site (f.moved pc before) w (Frame.storing dst r)) :
    Performs site.ctx n (site.settle d.line r) (f.moved pc before) w
      (f.Yields registers (pc + 1) dst free) := by
  refine (Performs.settle (f := f.moved pc before) hfit.source hd h).mono ?_
  rintro v _ rfl
  exact .put hkeep hdst v

/-- The code of an expression does what the expression means. -/
def Expr.Correct (site : Site σ) (n : Nat) (f : Frame) (env : Env) (e : Expr) : Prop :=
  ∀ ⦃scope : Scope⦄ ⦃base dst free pc : Nat⦄ ⦃registers : Array Value⦄ ⦃w : World σ⦄,
    Room env scope base dst 1 free e.registers registers →
    f.program.HasAll pc (e.code scope dst free pc) →
    Performs site.ctx n (e.eval site env) (f.moved pc registers) w
      (f.Yields registers (pc + e.size) dst free)

/-- The code of expressions in a row leaves their values in a row. -/
def Expr.AllCorrect (site : Site σ) (n : Nat) (f : Frame) (env : Env) (es : List Expr) : Prop :=
  ∀ ⦃scope : Scope⦄ ⦃base dst free pc : Nat⦄ ⦃registers : Array Value⦄ ⦃w : World σ⦄,
    Room env scope base dst es.length free (Expr.registersAll es) registers →
    f.program.HasAll pc (Expr.codeRun scope dst free pc es) →
    Performs site.ctx n (Expr.evalAll site env es) (f.moved pc registers) w fun vs g =>
      vs.length = es.length ∧ ∃ after, g = f.moved (pc + Expr.sizes es) after ∧
        Keeps (· < dst) registers after ∧ HoldsRun after dst vs

namespace Expr

variable {site : Site σ} {n : Nat} {f : Frame} {env : Env}

/-- An expression behind a part that may have disturbed the expression's registers, but no other
ones. -/
theorem Correct.resume {e : Expr} (he : e.Correct site n f env) {scope : Scope}
    {base dst free free' pc : Nat} {regs mid : Array Value} {w : World σ}
    (hroom : Room env scope base dst 1 free' e.registers regs)
    (hkeep : Keeps (Spared dst free) regs mid) (hdst : dst < free) (hfree : free ≤ free')
    (hcode : f.program.HasAll pc (e.code scope dst free' pc)) :
    Performs site.ctx n (e.eval site env) (f.moved pc mid) w
      (f.Yields regs (pc + e.size) dst free) := by
  have hb := hroom.base_le
  have hmid : Room env scope base dst 1 free' e.registers mid :=
    hroom.keeps hkeep fun r hr => ⟨by omega, by omega⟩
  exact (he hmid hcode).mono fun u g hg => hg.after hkeep hfree

/-! ### Single instructions -/

/-- An expression of one instruction. -/
theorem Correct.single (hfit : site.Fits f env) {e : Expr} (line : UInt32)
    (result : World σ → Except Fault (List Caution × Value)) (hsize : e.size = 1)
    (heval : ∀ w, e.eval site env w = site.settle line (result w) w)
    (hcode : ∀ scope base dst free pc regs (w : World σ),
      Room env scope base dst 1 free e.registers regs →
      ∃ d, e.code scope dst free pc = [d] ∧ d.line = line ∧
        d.Acts site (f.moved pc regs) w (Frame.storing dst (result w.silent))) :
    e.Correct site n f env := by
  intro scope base dst free pc regs w hroom hall
  obtain ⟨d, hd, rfl, hacts⟩ := hcode scope base dst free pc regs w hroom
  rw [hd, Program.hasAll_cons] at hall
  have hkeep := Keeps.refl (P := Spared dst free) regs
  have hyield := Performs.yield (n := n) hfit hkeep hroom.dst_lt_size hall.1 hacts
  unfold Performs at hyield ⊢
  rw [heval, hsize]
  exact hyield

theorem correct_null (hfit : site.Fits f env) (line : UInt32) :
    (null line).Correct site n f env := by
  refine Correct.single hfit line (fun _ => .ok ([], .null)) rfl (fun _ => rfl) ?_
  intro scope base dst free pc regs w hroom
  exact ⟨_, rfl, rfl, fun x y hx hy => Frame.action_loadNull hx hroom.dst_lt_size⟩

theorem correct_bool (hfit : site.Fits f env) (b : Bool) (line : UInt32) :
    (bool b line).Correct site n f env := by
  refine Correct.single hfit line (fun _ => .ok ([], .bool b)) rfl (fun _ => rfl) ?_
  intro scope base dst free pc regs w hroom
  exact ⟨_, rfl, rfl, fun x y hx hy => Frame.action_loadBool b hx hroom.dst_lt_size⟩

theorem correct_int (hfit : site.Fits f env) (k : Int64) (line : UInt32) :
    (int k line).Correct site n f env := by
  refine Correct.single hfit line (fun _ => .ok ([], .int k)) rfl (fun _ => rfl) ?_
  intro scope base dst free pc regs w hroom
  refine ⟨_, rfl, ?_, fun x y hx hy => ?_⟩
  · simp only [Draft.loadInteger]
    split <;> rfl
  · -- Only numbers that are too large for an operand, or negative, are constants.
    unfold Draft.loadInteger at hx hy ⊢
    split
    · next hk =>
      rw [if_pos hk] at hx hy
      have hword : Int64.ofNat k.toInt.toNat = k := by
        rw [← Int64.ofInt_eq_ofNat, Int.toNat_of_nonneg hk.1, Int64.ofInt_toInt]
      rw [Frame.action_loadInt hx hroom.dst_lt_size, show y.toNat = k.toInt.toNat from hy, hword]
    · next hk =>
      rw [if_neg hk] at hx hy
      exact Frame.action_loadConst hx hy hroom.dst_lt_size

theorem correct_float (hfit : site.Fits f env) (bits : UInt64) (line : UInt32) :
    (float bits line).Correct site n f env := by
  refine Correct.single hfit line (fun _ => .ok ([], .float (Float.ofBits bits))) rfl
    (fun _ => rfl) ?_
  intro scope base dst free pc regs w hroom
  exact ⟨_, rfl, rfl, fun x y hx hy => Frame.action_loadConst hx hy hroom.dst_lt_size⟩

theorem correct_str (hfit : site.Fits f env) (s : String) (line : UInt32) :
    (str s line).Correct site n f env := by
  refine Correct.single hfit line (fun _ => .ok ([], .str s)) rfl (fun _ => rfl) ?_
  intro scope base dst free pc regs w hroom
  exact ⟨_, rfl, rfl, fun x y hx hy => Frame.action_loadConst hx hy hroom.dst_lt_size⟩

theorem correct_var (hfit : site.Fits f env) (name : String) (line : UInt32) :
    (var name line).Correct site n f env := by
  refine Correct.single hfit line (fun w => .ok ([],
    (env.locals.lookup name).getD ((w.vars.get? name).getD .null))) rfl (fun w => ?_) ?_
  · simp only [eval, Env.read]
    cases env.locals.lookup name <;> rfl
  · intro scope base dst free pc regs w hroom
    refine ⟨_, rfl, ?_, ?_⟩
    · simp only [Draft.loadVariable]
      split <;> rfl
    · rcases hroom.holds.lookup name with ⟨slot, v, hslot, hv, hr⟩ | ⟨hslot, hv⟩
      · simp only [Draft.loadVariable, hslot, hv]
        exact fun x y hx hy => Frame.action_move hx hy hr hroom.dst_lt_size
      · simp only [Draft.loadVariable, hslot, hv]
        exact fun x y hx hy => Frame.action_loadVar hx hy hroom.dst_lt_size

theorem correct_loopFact (hfit : site.Fits f env) (fact : LoopFact) (line : UInt32) :
    (loopFact fact line).Correct site n f env := by
  refine Correct.single hfit line (fun _ => env.loop.elim (.error (.type (.noLoop fact.opcode)))
    fun l => plainly id (l.answer fact.opcode)) rfl (fun _ => ?_) ?_
  · simp only [eval, Site.fact]
    cases env.loop <;> rfl
  · intro scope base dst free pc regs w hroom
    refine ⟨_, rfl, rfl, fun x y hx hy => (Frame.action_fact fact hx hroom.dst_lt_size).trans ?_⟩
    rw [show (f.moved pc regs).loops.head? = env.loop from hfit.loop]
    cases env.loop <;> rfl

/-! ### Operators -/

theorem correct_binary (hfit : site.Fits f env) (op : BinaryOp) {left right : Expr}
    (hleft : left.Correct site n f env) (hright : right.Correct site n f env) (line : UInt32) :
    (binary op left right line).Correct site n f env := by
  intro scope base dst free pc regs w hroom hcode
  have hr := hroom.room
  have hd := hroom.below
  have hb := hroom.base_le
  simp only [registers] at hr
  simp only [code, Program.hasAll_append, Program.hasAll_cons, Program.hasAll_nil, length_code,
    List.length_append, ← Nat.add_assoc, and_true] at hcode
  obtain ⟨⟨hl, hrr⟩, hop⟩ := hcode
  refine (hleft (hroom.part hb hd (by omega)) hl).bind ?_
  rintro u _ v ⟨mid, rfl, hkeep, hu⟩
  have hmid : Room env scope base (free + left.registers) 1 (free + left.registers + 1)
      right.registers mid :=
    (hroom.part (by omega) (by omega) (by omega)).keeps hkeep fun r hr => ⟨by omega, by omega⟩
  refine (hright hmid hrr).bind ?_
  rintro u' _ v' ⟨after, rfl, hkeep', hu'⟩
  have hu : after[dst]? = some u := by
    rw [← hu]
    exact hkeep'.kept dst ⟨by omega, by omega⟩
  simp only [size, ← Nat.add_assoc]
  -- The right operand has its own register, so that the left one's value is still there.
  refine Performs.yield hfit (hkeep.trans hkeep' ?_) hroom.dst_lt_size hop ?_
  · exact fun r hr => ⟨by have := hr.1; omega, by have := hr.1; omega⟩
  · exact fun x y hx hy => Frame.action_binary op hx hy hu hu'

theorem correct_and {left right : Expr}
    (hleft : left.Correct site n f env) (hright : right.Correct site n f env) (line : UInt32) :
    (and left right line).Correct site n f env := by
  intro scope base dst free pc regs w hroom hcode
  have hr := hroom.room
  have hd := hroom.below
  have hb := hroom.base_le
  simp only [registers] at hr
  simp only [code, Program.hasAll_append, Program.hasAll_cons, Program.hasAll_nil, length_code,
    List.length_append, List.length_singleton, ← Nat.add_assoc, and_true] at hcode
  obtain ⟨⟨hl, hbranch⟩, hrr⟩ := hcode
  simp only [size, ← Nat.add_assoc]
  refine (hleft (hroom.part hb hd (by omega)) hl).bind ?_
  rintro u _ v ⟨mid, rfl, hkeep, hu⟩
  refine Performs.branch hbranch hu (fun v => ?_) fun v => ?_
  · exact hright.resume (hroom.part hb (by omega) (by omega)) hkeep hd (by omega) hrr
  · exact .pure ⟨mid, rfl, hkeep, hu⟩

theorem correct_or {left right : Expr}
    (hleft : left.Correct site n f env) (hright : right.Correct site n f env) (line : UInt32) :
    (or left right line).Correct site n f env := by
  intro scope base dst free pc regs w hroom hcode
  have hr := hroom.room
  have hd := hroom.below
  have hb := hroom.base_le
  simp only [registers] at hr
  simp only [code, Program.hasAll_append, Program.hasAll_cons, Program.hasAll_nil, length_code,
    List.length_append, List.length_singleton, ← Nat.add_assoc, and_true] at hcode
  obtain ⟨⟨hl, hbranch⟩, hrr⟩ := hcode
  simp only [size, ← Nat.add_assoc]
  refine (hleft (hroom.part hb hd (by omega)) hl).bind ?_
  rintro u _ v ⟨mid, rfl, hkeep, hu⟩
  refine Performs.branchTrue hbranch hu (fun v => ?_) fun v => ?_
  · exact .pure ⟨mid, rfl, hkeep, hu⟩
  · exact hright.resume (hroom.part hb (by omega) (by omega)) hkeep hd (by omega) hrr

theorem correct_not (hfit : site.Fits f env) {operand : Expr}
    (hoperand : operand.Correct site n f env) (line : UInt32) :
    (not operand line).Correct site n f env := by
  intro scope base dst free pc regs w hroom hcode
  simp only [code, Program.hasAll_append, Program.hasAll_cons, Program.hasAll_nil, length_code,
    and_true] at hcode
  obtain ⟨ho, hop⟩ := hcode
  refine (hoperand hroom ho).bind ?_
  rintro u _ v ⟨mid, rfl, hkeep, hu⟩
  exact Performs.yield hfit (r := .ok ([], _)) hkeep hroom.dst_lt_size hop
    fun x y hx _ => Frame.action_not hx hu

theorem correct_choice {test yes no : Expr}
    (htest : test.Correct site n f env) (hyes : yes.Correct site n f env)
    (hno : no.Correct site n f env) (line : UInt32) :
    (choice test yes no line).Correct site n f env := by
  intro scope base dst free pc regs w hroom hcode
  have hr := hroom.room
  have hd := hroom.below
  have hb := hroom.base_le
  simp only [registers] at hr
  simp only [code, Program.hasAll_append, Program.hasAll_cons, Program.hasAll_nil, length_code,
    List.length_append, List.length_singleton, ← Nat.add_assoc, and_true] at hcode
  obtain ⟨⟨⟨⟨ht, hbranch⟩, hy⟩, hjump⟩, hn⟩ := hcode
  simp only [size, ← Nat.add_assoc]
  refine (htest (hroom.part (by omega) (by omega) (by omega)) ht).bind ?_
  rintro u _ v ⟨mid, rfl, hkeep, hu⟩
  have hkeep : Keeps (Spared dst free) regs mid :=
    hkeep.mono fun r hr => ⟨by have := hr.1; omega, by have := hr.1; omega⟩
  refine Performs.branch hbranch hu (fun v => ?_) fun v => ?_
  · refine (hyes.resume (hroom.part hb (by omega) (by omega)) hkeep hd (by omega) hy).andThen ?_
    rintro u _ v ⟨after, rfl, hkeep', hu'⟩
    exact Performs.jump hjump fun v => .pure ⟨after, rfl, hkeep', hu'⟩
  · exact hno.resume (hroom.part hb (by omega) (by omega)) hkeep hd (by omega) hn

theorem correct_assign (name : String) {value : Expr} (hvalue : value.Correct site n f env)
    (line : UInt32) : (assign name value line).Correct site n f env := by
  intro scope base dst free pc regs w hroom hcode
  simp only [code, Program.hasAll_append, Program.hasAll_cons, Program.hasAll_nil, length_code,
    and_true] at hcode
  obtain ⟨hv, hset⟩ := hcode
  refine (hvalue hroom hv).bind ?_
  rintro u _ v ⟨mid, rfl, hkeep, hu⟩
  refine (Performs.assign (f := f.moved (pc + value.size) mid) hset fun x y hx hy =>
    Frame.action_setVar hx hy hu).bind ?_
  rintro _ _ v rfl
  exact .pure ⟨mid, rfl, hkeep, hu⟩

theorem correct_textCall (hfit : site.Fits f env) (op : TextOp) {arg : Expr}
    (harg : arg.Correct site n f env) (line : UInt32) :
    (textCall op arg line).Correct site n f env := by
  intro scope base dst free pc regs w hroom hcode
  simp only [code, Program.hasAll_append, Program.hasAll_cons, Program.hasAll_nil, length_code,
    and_true] at hcode
  obtain ⟨ha, hop⟩ := hcode
  refine (harg hroom ha).bind ?_
  rintro u _ v ⟨mid, rfl, hkeep, hu⟩
  have haction : ∀ x y, x.toNat = dst → Frame.action site.ctx.hosts site.ctx.functions v.vars
      (f.moved (pc + arg.size) mid) ⟨op.opcode, x, y⟩ = if u.isNull then .ok .skip
        else Frame.storing dst (.ok ([], op.apply u)) :=
    fun x y hx => Frame.action_text op hx hu
  by_cases hnull : u.isNull
  · -- The register is left as it is, which is null already.
    have hu' : op.apply u = u := by
      cases u <;> first | rfl | cases hnull
    rw [hu']
    simp only [hnull, if_true] at haction
    exact (Performs.skip_succ (f := f.moved (pc + arg.size) mid) hop
      (fun x y hx _ => haction x y hx) fun v => .pure ⟨mid, rfl, hkeep, hu⟩).le (Nat.le_succ n)
  · simp only [hnull] at haction
    exact Performs.yield hfit (r := .ok ([], _)) hkeep hroom.dst_lt_size hop
      fun x y hx _ => haction x y hx

/-! ### Expressions in a row -/

theorem allCorrect_nil : AllCorrect site n f env [] := by
  intro scope base dst free pc regs w hroom hcode
  exact .pure ⟨rfl, regs, rfl, .refl regs, holdsRun_nil regs dst⟩

theorem AllCorrect.cons {e : Expr} {es : List Expr} (he : e.Correct site n f env)
    (hes : AllCorrect site n f env es) : AllCorrect site n f env (e :: es) := by
  intro scope base dst free pc regs w hroom hcode
  have hr := hroom.room
  have hd := hroom.below
  have hb := hroom.base_le
  simp only [registersAll, List.length_cons] at hr hd
  simp only [codeRun, Program.hasAll_append, length_code] at hcode
  obtain ⟨hfirst, hrest⟩ := hcode
  refine (he (hroom.part hb (by omega) (by omega)) hfirst).bind ?_
  rintro u _ v ⟨mid, rfl, hkeep, hu⟩
  have hmid : Room env scope base (dst + 1) es.length (free + e.registers) (registersAll es) mid :=
    (hroom.part (by omega) (by omega) (by omega)).keeps hkeep fun r hr => ⟨by omega, by omega⟩
  refine (hes hmid hrest).bind ?_
  rintro us _ v ⟨hlength, after, rfl, hkeep', hus⟩
  refine .pure ⟨by rw [List.length_cons, List.length_cons, hlength], after, ?_, ?_, ?_⟩
  · rw [sizes, Nat.add_assoc]
  · exact (hkeep.mono fun r hr => ⟨by omega, by omega⟩).trans hkeep' fun r hr => by omega
  · exact .cons (by rw [hkeep'.kept dst (Nat.lt_succ_self dst), hu]) hus

/-! ### Instructions on runs -/

/-- The code of an expression without its last move leaves the value in the first free register. -/
def Lands (site : Site σ) (n : Nat) (f : Frame) (env : Env) (e : Expr) : Prop :=
  ∀ ⦃scope : Scope⦄ ⦃base free pc : Nat⦄ ⦃regs : Array Value⦄ ⦃w : World σ⦄,
    Room env scope base free 0 free e.registers regs →
    f.program.HasAll pc (e.code scope free free pc).dropLast →
    Performs site.ctx n (e.eval site env) (f.moved pc regs) w
      (f.Yields regs (pc + (e.size - 1)) free free)

theorem append_pair (ds : List Draft) (d e : Draft) : ds ++ [d, e] = ds ++ [d] ++ [e] := by simp

/-- If only the last move is missing, the whole code is correct. -/
theorem Lands.correct (hfit : site.Fits f env) {e : Expr} (h : e.Lands site n f env)
    (hpos : 0 < e.registers) (line : UInt32)
    (hcode : ∀ scope free pc, ∃ ds, ∀ dst,
      e.code scope dst free pc = ds ++ [.onRegisters .move dst free line]) :
    e.Correct site n f env := by
  intro scope base dst free pc regs w hroom hall
  have hr := hroom.room
  have hd := hroom.below
  have hb := hroom.base_le
  obtain ⟨ds, hds⟩ := hcode scope free pc
  -- The register of the expression occurs in the last move only.
  have hcode : e.code scope dst free pc =
      (e.code scope free free pc).dropLast ++ [.onRegisters .move dst free line] := by
    rw [hds, hds, List.dropLast_concat]
  have hlength := congrArg List.length hcode
  rw [List.length_append, List.length_singleton, length_code] at hlength
  rw [hcode, Program.hasAll_append, Program.hasAll_cons] at hall
  obtain ⟨hland, hmove, -⟩ := hall
  rw [show (e.code scope free free pc).dropLast.length = e.size - 1 by omega] at hmove
  refine (h (hroom.part (by omega) (Nat.le_refl _) hr) hland).andThen ?_
  rintro u _ v ⟨mid, rfl, hkeep, hu⟩
  have hkeep : Keeps (Spared dst free) regs mid :=
    hkeep.mono fun r hr => ⟨hr.1, by have := hr.1; omega⟩
  rw [show pc + e.size = pc + (e.size - 1) + 1 by omega]
  refine Performs.yield hfit (r := .ok ([], u)) hkeep (by omega) hmove ?_
  exact fun x y hx hy => Frame.action_move hx hy hu (hkeep.size ▸ hroom.dst_lt_size)

theorem lands_array (hfit : site.Fits f env) {items : List Expr}
    (hitems : AllCorrect site n f env items) (line : UInt32) :
    (array items line).Lands site n f env := by
  intro scope base free pc regs w hroom hcode
  have hr := hroom.room
  have hb := hroom.base_le
  simp only [registers] at hr
  simp only [code, List.dropLast_append_cons, List.dropLast_cons_cons, List.dropLast_singleton,
    Program.hasAll_append, Program.hasAll_cons, Program.hasAll_nil, length_codeRun,
    and_true] at hcode
  obtain ⟨hrun, hop⟩ := hcode
  refine (hitems (hroom.part hb (by omega) (by omega)) hrun).bind ?_
  rintro vs _ v ⟨hlength, mid, rfl, hkeep, hvs⟩
  have hsize := hkeep.size
  rw [← hlength] at hop
  refine Performs.yield hfit (r := .ok ([], _)) (hkeep.mono fun r hr => hr.1) (by omega) hop ?_
  exact fun x y hx hy => Frame.action_array hx hy hvs (by show _ ≤ mid.size; omega)
    (by show _ < mid.size; omega)

theorem lands_map (hfit : site.Fits f env) {pairs : List Expr}
    (hpairs : AllCorrect site n f env pairs) (line : UInt32) :
    (map pairs line).Lands site n f env := by
  intro scope base free pc regs w hroom hcode
  have hr := hroom.room
  have hb := hroom.base_le
  have hl := hroom.limit
  simp only [registers] at hr
  simp only [code, List.dropLast_append_cons, List.dropLast_cons_cons, List.dropLast_singleton,
    Program.hasAll_append, Program.hasAll_cons, Program.hasAll_nil, length_codeRun,
    and_true] at hcode
  obtain ⟨hrun, hop⟩ := hcode
  refine (hpairs (hroom.part hb (by omega) (by omega)) hrun).bind ?_
  rintro vs _ v ⟨hlength, mid, rfl, hkeep, hvs⟩
  have hsize := hkeep.size
  rw [← hlength] at hop
  refine Performs.yield hfit (hkeep.mono fun r hr => hr.1) (by omega) hop ?_
  exact fun x y hx hy => Frame.action_map hx hy hvs (by show _ ≤ mid.size; omega)
    (by show mid.size < _; omega) (by show _ < mid.size; omega)

theorem lands_format (hfit : site.Fits f env) {template : Expr} {args : List Expr}
    (htemplate : template.Correct site n f env) (hargs : AllCorrect site n f env args)
    (nameLine line : UInt32) : (format template args nameLine line).Lands site n f env := by
  intro scope base free pc regs w hroom hcode
  have hr := hroom.room
  have hb := hroom.base_le
  simp only [registers] at hr
  simp only [code, List.dropLast_append_cons, List.dropLast_cons_cons, List.dropLast_singleton,
    Program.hasAll_append, Program.hasAll_cons, Program.hasAll_nil, length_code, length_codeRun,
    List.length_append, ← Nat.add_assoc, and_true] at hcode
  obtain ⟨⟨ht, hrun⟩, hop⟩ := hcode
  refine (htemplate (hroom.part hb (by omega) (by omega)) ht).bind ?_
  rintro u _ v ⟨mid, rfl, hkeep, hu⟩
  have hmid : Room env scope base (free + 1) args.length
      (free + args.length + 1 + template.registers) (registersAll args) mid :=
    (hroom.part (by omega) (by omega) (by omega)).keeps hkeep fun r hr => ⟨by omega, by omega⟩
  refine (hargs hmid hrun).bind ?_
  rintro vs _ v ⟨hlength, after, rfl, hkeep', hvs⟩
  have hsize := hkeep.size
  have hsize' := hkeep'.size
  have hu' : after[free]? = some u := by rw [hkeep'.kept free (Nat.lt_succ_self free), hu]
  rw [← hlength] at hop
  rw [show pc + ((format template args nameLine line).size - 1) =
    pc + template.size + sizes args + 1 by simp only [size]; omega]
  refine Performs.yield hfit ((hkeep.mono fun r hr => ⟨by have := hr.1; omega, hr.2⟩).trans hkeep'
    fun r hr => by have := hr.1; omega) (by omega) hop ?_
  exact fun x y hx hy => Frame.action_format hx hy hu' hvs (by show _ ≤ after.size; omega)

theorem lands_call (hfit : site.Fits f env) (name : String) {args : List Expr}
    (hargs : AllCorrect site n f env args) (nameLine line : UInt32) :
    (call name args nameLine line).Lands site n f env := by
  intro scope base free pc regs w hroom hcode
  have hr := hroom.room
  have hb := hroom.base_le
  simp only [registers] at hr
  simp only [code, List.dropLast_append_cons, List.dropLast_cons_cons, List.dropLast_singleton,
    Program.hasAll_append, Program.hasAll_cons, Program.hasAll_nil, length_codeRun,
    List.length_append, List.length_singleton, ← Nat.add_assoc, and_true] at hcode
  obtain ⟨⟨hname, hrun⟩, hop⟩ := hcode
  rw [show pc + ((call name args nameLine line).size - 1) = pc + 1 + sizes args + 1 by
    simp only [size]; omega]
  refine Performs.load hname (fun x y hx hy => Frame.action_loadConst hx hy ?_) fun v => ?_
  · show free < regs.size
    omega
  have hkeep := Keeps.put_free regs free (.str name)
  have hnamed : (regs.setIfInBounds free (.str name))[free]? = some (.str name) :=
    Array.getElem?_setIfInBounds_self_of_lt (by omega)
  have hmid : Room env scope base (free + 1) args.length (free + args.length + 1)
      (registersAll args) (regs.setIfInBounds free (.str name)) :=
    (hroom.part (by omega) (by omega) (by omega)).keeps hkeep fun r hr => by omega
  refine (hargs hmid hrun).bind ?_
  rintro vs _ v ⟨hlength, after, rfl, hkeep', hvs⟩
  have hsize := hkeep.size
  have hsize' := hkeep'.size
  have hnamed' : after[free]? = some (.str name) := by
    rw [hkeep'.kept free (Nat.lt_succ_self free), hnamed]
  have hkept : Keeps (Spared free free) regs after :=
    (hkeep.mono fun r hr => hr.1).trans hkeep' fun r hr => by have := hr.1; omega
  have haction : ∀ x y, x.toNat = free → y.toNat = args.length →
      Frame.action site.ctx.hosts site.ctx.functions v.vars
        (f.moved (pc + 1 + sizes args) after) ⟨.call, x, y⟩ = _ :=
    fun x y hx hy => Frame.action_call hx (hy.trans hlength.symm) hnamed' hvs
      (by show _ ≤ after.size; omega)
  unfold Site.call
  cases hfunction : site.ctx.functions.get? name with
  | none =>
    rw [hfunction] at haction
    exact Performs.yield hfit hkept (by omega) hop haction
  | some function =>
    rw [hfunction] at haction
    refine (Performs.call (f := f.moved (pc + 1 + sizes args) after) hfit.source hop
      haction).mono ?_
    rintro u _ rfl
    exact .put hkept (by omega) u

theorem lands_method (hfit : site.Fits f env) {object : Expr} (name : String) {args : List Expr}
    (hobject : object.Correct site n f env) (hargs : AllCorrect site n f env args)
    (nameLine line : UInt32) : (method object name args nameLine line).Lands site n f env := by
  intro scope base free pc regs w hroom hcode
  have hr := hroom.room
  have hb := hroom.base_le
  simp only [registers] at hr
  simp only [code, List.dropLast_append_cons, List.dropLast_cons_cons, List.dropLast_singleton,
    Program.hasAll_append, Program.hasAll_cons, Program.hasAll_nil, length_code, length_codeRun,
    List.length_append, List.length_singleton, ← Nat.add_assoc, and_true] at hcode
  obtain ⟨⟨⟨ho, hname⟩, hrun⟩, hop⟩ := hcode
  rw [show pc + ((method object name args nameLine line).size - 1) =
    pc + object.size + 1 + sizes args + 1 by simp only [size]; omega]
  refine (hobject (hroom.part hb (by omega) (by omega)) ho).bind ?_
  rintro u _ v ⟨mid, rfl, hkeep, hu⟩
  have hsize := hkeep.size
  refine Performs.load hname (fun x y hx hy => Frame.action_loadConst hx hy ?_) fun v => ?_
  · show free + 1 < mid.size
    omega
  have hkeep₂ := Keeps.put_free mid (free + 1) (.str name)
  have hnamed : (mid.setIfInBounds (free + 1) (.str name))[free + 1]? = some (.str name) :=
    Array.getElem?_setIfInBounds_self_of_lt (by omega)
  have hmid : Room env scope base (free + 2) args.length
      (free + args.length + 2 + object.registers) (registersAll args)
      (mid.setIfInBounds (free + 1) (.str name)) :=
    ((hroom.part (by omega) (by omega) (by omega)).keeps hkeep fun r hr =>
      ⟨by omega, by omega⟩).keeps hkeep₂ fun r hr => by omega
  refine (hargs hmid hrun).bind ?_
  rintro vs _ v ⟨hlength, after, rfl, hkeep', hvs⟩
  have hsize₂ := hkeep₂.size
  have hsize' := hkeep'.size
  have hu' : after[free]? = some u := by
    rw [hkeep'.kept free (by omega), hkeep₂.kept free (Nat.lt_succ_self free), hu]
  have hnamed' : after[free + 1]? = some (.str name) := by
    rw [hkeep'.kept (free + 1) (by omega), hnamed]
  rw [← hlength] at hop
  refine Performs.yield hfit ?_ (by omega) hop fun x y hx hy =>
    Frame.action_method hx hy hu' hnamed' hvs (by show _ ≤ after.size; omega)
  refine ((hkeep.mono fun r hr => ⟨by have := hr.1; omega, hr.2⟩).trans hkeep₂ ?_).trans hkeep' ?_
  · exact fun r hr => by have := hr.1; omega
  · exact fun r hr => by have := hr.1; omega

/-! ### All expressions -/

mutual

/-- The code of every expression is correct. -/
theorem correct (hfit : site.Fits f env) : (e : Expr) → e.Correct site n f env
  | null line => correct_null hfit line
  | bool b line => correct_bool hfit b line
  | int k line => correct_int hfit k line
  | float bits line => correct_float hfit bits line
  | str s line => correct_str hfit s line
  | var name line => correct_var hfit name line
  | loopFact fact line => correct_loopFact hfit fact line
  | binary op left right line =>
    correct_binary hfit op (correct hfit left) (correct hfit right) line
  | and left right line => correct_and (correct hfit left) (correct hfit right) line
  | or left right line => correct_or (correct hfit left) (correct hfit right) line
  | not operand line => correct_not hfit (correct hfit operand) line
  | choice test yes no line =>
    correct_choice (correct hfit test) (correct hfit yes) (correct hfit no) line
  | assign name value line => correct_assign name (correct hfit value) line
  | textCall op arg line => correct_textCall hfit op (correct hfit arg) line
  | array items line => by
    refine (lands_array hfit (allCorrect hfit items) line).correct hfit ?_ line fun _ _ _ => ?_
    · simp only [registers]
      omega
    · exact ⟨_, fun _ => append_pair _ _ _⟩
  | map pairs line => by
    refine (lands_map hfit (allCorrect hfit pairs) line).correct hfit ?_ line fun _ _ _ => ?_
    · simp only [registers]
      omega
    · exact ⟨_, fun _ => append_pair _ _ _⟩
  | format template args nameLine line =>
    (lands_format hfit (correct hfit template) (allCorrect hfit args) nameLine line).correct hfit
      (registers_pos _ rfl) line fun _ _ _ => ⟨_, fun _ => append_pair _ _ _⟩
  | call name args nameLine line =>
    (lands_call hfit name (allCorrect hfit args) nameLine line).correct hfit
      (registers_pos _ rfl) line fun _ _ _ => ⟨_, fun _ => append_pair _ _ _⟩
  | method object name args nameLine line =>
    (lands_method hfit name (correct hfit object) (allCorrect hfit args) nameLine line).correct
      hfit (registers_pos _ rfl) line fun _ _ _ => ⟨_, fun _ => append_pair _ _ _⟩

theorem allCorrect (hfit : site.Fits f env) : (es : List Expr) → AllCorrect site n f env es
  | [] => allCorrect_nil
  | e :: rest => .cons (correct hfit e) (allCorrect hfit rest)

end

/-- The code of a call but its last move. -/
theorem lands_of_isCall (hfit : site.Fits f env) : (e : Expr) → e.isCall → e.Lands site n f env
  | format template args nameLine line, _ =>
    lands_format hfit (correct hfit template) (allCorrect hfit args) nameLine line
  | call name args nameLine line, _ => lands_call hfit name (allCorrect hfit args) nameLine line
  | method object name args nameLine line, _ =>
    lands_method hfit name (correct hfit object) (allCorrect hfit args) nameLine line

/-- An expression whose value is not needed. -/
theorem effect_performs (hfit : site.Fits f env) (e : Expr) {scope : Scope} {free pc : Nat}
    {regs : Array Value} {w : World σ}
    (hroom : Room env scope free free 0 free e.effectRegisters regs)
    (hcode : f.program.HasAll pc (e.effect scope free pc)) :
    Performs site.ctx n (e.eval site env) (f.moved pc regs) w fun _ g =>
      ∃ after, g = f.moved (pc + e.effectSize) after ∧ Keeps (· < free) regs after := by
  have hr := hroom.room
  unfold effect at hcode
  unfold effectSize
  unfold effectRegisters at hr
  split
  · next h =>
    rw [if_pos h] at hcode hr
    refine (lands_of_isCall hfit e h (hroom.part (Nat.le_refl _) (by omega) hr) hcode).mono ?_
    rintro u g ⟨after, hg, hkeep, -⟩
    exact ⟨after, hg, hkeep.mono fun r hr => ⟨hr, by omega⟩⟩
  · next h =>
    rw [if_neg h] at hcode hr
    refine (correct hfit e (hroom.part (Nat.le_refl _) (by omega) (by omega)) hcode).mono ?_
    rintro u g ⟨after, hg, hkeep, -⟩
    exact ⟨after, hg, hkeep.mono fun r hr => ⟨by omega, by omega⟩⟩

end Expr

end Stencil
