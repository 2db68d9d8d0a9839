import Mathlib.Data.String.Basic
import Stencil.Proofs.ExprCode
import Stencil.Proofs.Nesting

/-!
# The code of statements

The code of a statement writes the statement's passage behind the output and comes to the
instruction that the passage leads to. It disturbs no register below the first free one, and leaves
the loops as they were.

* `Frame.Writes`: a frame has written a passage;
* `Stmt.Correct`: the code of a statement does what the statement means;
* `Stmt.correct`: the code of every statement does.
-/

namespace Stencil

variable {σ : Type}

/-! ### Passages in the output -/

namespace Frame

@[simp] theorem write_empty (f : Frame) : f.write "" = f := by simp [write]

@[simp] theorem write_write (f : Frame) (s t : String) :
    (f.write s).write t = f.write (s ++ t) := by
  simp [write, String.append_assoc]

/-- The frame has written a passage and gone where the passage leads: to the instruction `after`, or
out of the innermost loop, or on with it. -/
def Writes (f : Frame) (registers : Array Value) (free : Nat) (jumps : Jumps) (after : Nat)
    (p : Passage) (g : Frame) : Prop :=
  ∃ registers', g = (f.write p.text).moved
      (match p.flow with
        | .on => after
        | .last => jumps.last
        | .next => jumps.next) registers' ∧
    Keeps (· < free) registers registers'

variable {f g : Frame} {registers mid : Array Value} {free free' after : Nat} {jumps : Jumps}

theorem writes_nothing (f : Frame) (registers : Array Value) (free : Nat) (jumps : Jumps)
    (pc : Nat) : f.Writes registers free jumps pc ⟨"", .on⟩ (f.moved pc registers) :=
  ⟨registers, by rw [write_empty], .refl registers⟩

/-- A passage behind another one makes one passage. -/
theorem Writes.behind {p : Passage} {s : String} (h : (f.write s).Writes mid free' jumps after p g)
    (hkeep : Keeps (· < free) registers mid) (hfree : free ≤ free') :
    f.Writes registers free jumps after (p.behind s) g := by
  obtain ⟨registers', rfl, hkeep'⟩ := h
  exact ⟨registers', by rw [write_write]; rfl,
    hkeep.trans hkeep' fun r hr => Nat.lt_of_lt_of_le hr hfree⟩

theorem Writes.mono {p : Passage} (h : f.Writes mid free' jumps after p g)
    (hkeep : Keeps (· < free) registers mid) (hfree : free ≤ free') :
    f.Writes registers free jumps after p g := by
  obtain ⟨registers', rfl, hkeep'⟩ := h
  exact ⟨registers', rfl, hkeep.trans hkeep' fun r hr => Nat.lt_of_lt_of_le hr hfree⟩

end Frame

/-- The frame in a loop. -/
def Frame.within (f : Frame) (l : LoopRecord) : Frame := { f with loops := l :: f.loops }

theorem Site.Fits.write {site : Site σ} {f : Frame} {env : Env} (h : site.Fits f env) (s : String) :
    site.Fits (f.write s) env := ⟨h.source, h.depth, h.loop⟩

theorem String.utf8ByteSize_write (f : Frame) (s : String) :
    (f.write s).output.utf8ByteSize = f.output.utf8ByteSize + s.utf8ByteSize :=
  String.utf8ByteSize_append

/-- A value for which there is one more register keeps all registers below. -/
theorem Keeps.below {free : Nat} {registers after : Array Value}
    (h : Keeps (Spared free (free + 1)) registers after) : Keeps (· < free) registers after :=
  h.mono fun _ hr => ⟨Nat.lt_succ_of_lt hr, Nat.ne_of_lt hr⟩

/-- A jump behind a statement. -/
theorem Performs.leave {site : Site σ} {n : Nat} {f g : Frame} {v : World σ}
    {registers : Array Value} {free after target : Nat} {jumps : Jumps} {line : UInt32}
    {p : Passage} (hp : f.Writes registers free jumps after p g)
    (hjump : f.program.Has after (.jumpTo target line)) :
    Performs site.ctx n (Pure.pure p : Act σ Passage) g v
      (f.Writes registers free jumps target) := by
  obtain ⟨text, flow⟩ := p
  obtain ⟨registers', rfl, hkeep⟩ := hp
  cases flow with
  | on =>
    exact Performs.jump (f := f.write text) hjump fun v => .pure ⟨registers', rfl, hkeep⟩
  | last => exact .pure ⟨registers', rfl, hkeep⟩
  | next => exact .pure ⟨registers', rfl, hkeep⟩

/-- The code of a statement does what the statement means. -/
def Stmt.Correct (site : Site σ) (n : Nat) (s : Stmt) : Prop :=
  ∀ ⦃f : Frame⦄ ⦃env : Env⦄ ⦃scope : Scope⦄ ⦃jumps : Jumps⦄ ⦃free pc : Nat⦄
    ⦃registers : Array Value⦄ ⦃w : World σ⦄, site.Fits f env →
    Room env scope free free 0 free s.registers registers →
    f.program.HasAll pc (s.code scope jumps free pc) →
    Performs site.ctx n (s.part site env f.output.utf8ByteSize) (f.moved pc registers) w
      (f.Writes registers free jumps (pc + s.size))

/-- The same for statements in a row. -/
def Stmt.AllCorrect (site : Site σ) (n : Nat) (body : List Stmt) : Prop :=
  ∀ ⦃f : Frame⦄ ⦃env : Env⦄ ⦃scope : Scope⦄ ⦃jumps : Jumps⦄ ⦃free pc : Nat⦄
    ⦃registers : Array Value⦄ ⦃w : World σ⦄, site.Fits f env →
    Room env scope free free 0 free (Stmt.registersAll body) registers →
    f.program.HasAll pc (Stmt.codes scope jumps free pc body) →
    Performs site.ctx n (Stmt.parts site body env f.output.utf8ByteSize) (f.moved pc registers) w
      (f.Writes registers free jumps (pc + Stmt.sizes body))

/-- The same for the arms of a switch, whose subject is in the register `subject`. -/
def Arm.AllCorrect (site : Site σ) (n : Nat) (arms : List Arm) : Prop :=
  ∀ ⦃f : Frame⦄ ⦃env : Env⦄ ⦃scope : Scope⦄ ⦃jumps : Jumps⦄ ⦃subject free pc : Nat⦄
    ⦃registers : Array Value⦄ ⦃v : Value⦄ ⦃w : World σ⦄, site.Fits f env →
    Room env scope subject subject 2 free (Arm.registersAll arms) registers →
    registers[subject]? = some v →
    f.program.HasAll pc (Arm.codes scope jumps subject (pc + Arm.sizes arms) free pc arms) →
    Performs site.ctx n (Arm.parts site v arms env f.output.utf8ByteSize) (f.moved pc registers) w
      (f.Writes registers subject jumps (pc + Arm.sizes arms))

namespace Stmt

variable {site : Site σ} {n : Nat}

theorem Correct.le {s : Stmt} (h : s.Correct site n) {m : Nat} (hmn : m ≤ n) : s.Correct site m :=
  fun _ _ _ _ _ _ _ _ hfit hroom hcode => (h hfit hroom hcode).le hmn

/-- A statement behind a part that has kept the registers below `free`. -/
theorem Correct.resume {s : Stmt} (hs : s.Correct site n) {f : Frame} {env : Env} {scope : Scope}
    {jumps : Jumps} {base dst count top need free free' pc : Nat} {registers mid : Array Value}
    {w : World σ} (hfit : site.Fits f env)
    (hroom : Room env scope base dst count top need registers)
    (hkeep : Keeps (· < free) registers mid) (hbase : base ≤ free) (hfree : free ≤ free')
    (hsize : free' + s.registers ≤ registers.size)
    (hcode : f.program.HasAll pc (s.code scope jumps free' pc)) :
    Performs site.ctx n (s.part site env f.output.utf8ByteSize) (f.moved pc mid) w
      (f.Writes registers free jumps (pc + s.size)) := by
  have hmid : Room env scope free' free' 0 free' s.registers mid :=
    hroom.behind hkeep hbase (by omega) hsize
  exact (hs hfit hmid hcode).mono fun p g hp => hp.mono hkeep hfree

/-! ### Statements in a row -/

theorem allCorrect_nil : AllCorrect site n [] := by
  intro f env scope jumps free pc registers w hfit hroom hcode
  exact .pure (f.writes_nothing registers free jumps pc)

theorem AllCorrect.cons {s : Stmt} {rest : List Stmt} (hs : s.Correct site n)
    (hrest : AllCorrect site n rest) : AllCorrect site n (s :: rest) := by
  intro f env scope jumps free pc registers w hfit hroom hcode
  have hr := hroom.room
  simp only [registersAll] at hr
  simp only [codes, Program.hasAll_append, length_code] at hcode
  obtain ⟨hfirst, hothers⟩ := hcode
  refine (hs hfit (hroom.part (Nat.le_refl _) (Nat.le_refl _) (by omega)) hfirst).bind ?_
  rintro ⟨text, flow⟩ _ v ⟨mid, rfl, hkeep⟩
  cases flow with
  | on =>
    have hmid : Room env scope (free + s.registers) (free + s.registers) 0 (free + s.registers)
        (registersAll rest) mid :=
      hroom.behind hkeep (Nat.le_refl free) (Nat.le_add_right _ _) (by omega)
    have hbehind := hrest (hfit.write text) hmid hothers (w := v)
    rw [String.utf8ByteSize_write] at hbehind
    refine hbehind.bind ?_
    rintro p g _ hp
    rw [sizes, ← Nat.add_assoc]
    exact .pure (hp.behind hkeep (Nat.le_add_right _ _))
  | last => exact .pure ⟨mid, rfl, hkeep⟩
  | next => exact .pure ⟨mid, rfl, hkeep⟩

/-! ### Choices -/

theorem correct_block {body : List Stmt} (h : AllCorrect site n body) :
    (block body).Correct site n := h

theorem correct_when {test : Expr} {body : Stmt} (hbody : body.Correct site n) (line : UInt32) :
    (when test body line).Correct site n := by
  intro f env scope jumps free pc registers w hfit hroom hcode
  have hr := hroom.room
  simp only [Stmt.registers] at hr
  simp only [code, Program.hasAll_append, Program.hasAll_cons, Program.hasAll_nil,
    Expr.length_code, List.length_append, List.length_singleton, ← Nat.add_assoc, and_true] at hcode
  obtain ⟨⟨ht, hbranch⟩, hb⟩ := hcode
  simp only [size, ← Nat.add_assoc]
  refine (test.correct hfit (hroom.part (Nat.le_refl _) (Nat.le_refl _) (by omega)) ht).bind ?_
  rintro u _ v ⟨mid, rfl, hkeep, hu⟩
  have hkeep : Keeps (· < free) registers mid := hkeep.below
  refine Performs.branch hbranch hu (fun v => ?_) fun v => ?_
  · exact hbody.resume hfit hroom hkeep (Nat.le_refl free) (by omega) (by omega) hb
  · exact .pure ⟨mid, by rw [Frame.write_empty], hkeep⟩

theorem correct_choice {test : Expr} {yes no : Stmt} (hyes : yes.Correct site n)
    (hno : no.Correct site n) (line : UInt32) : (choice test yes no line).Correct site n := by
  intro f env scope jumps free pc registers w hfit hroom hcode
  have hr := hroom.room
  simp only [Stmt.registers] at hr
  simp only [code, Program.hasAll_append, Program.hasAll_cons, Program.hasAll_nil, length_code,
    Expr.length_code, List.length_append, List.length_singleton, ← Nat.add_assoc, and_true] at hcode
  obtain ⟨⟨⟨⟨ht, hbranch⟩, hy⟩, hjump⟩, hn⟩ := hcode
  simp only [size, ← Nat.add_assoc]
  refine (test.correct hfit (hroom.part (Nat.le_refl _) (Nat.le_refl _) (by omega)) ht).bind ?_
  rintro u _ v ⟨mid, rfl, hkeep, hu⟩
  have hkeep : Keeps (· < free) registers mid := hkeep.below
  refine Performs.branch hbranch hu (fun v => ?_) fun v => ?_
  · refine (hyes.resume hfit hroom hkeep (Nat.le_refl free) (by omega) (by omega) hy).andThen ?_
    intro p g v hp
    exact Performs.leave hp hjump
  · exact hno.resume hfit hroom hkeep (Nat.le_refl free) (by omega) (by omega) hn

/-! ### Text and values -/

theorem correct_text (s : String) (line : UInt32) : (text s line).Correct site n := by
  intro f env scope jumps free pc registers w hfit hroom hcode
  rw [code, Program.hasAll_cons] at hcode
  have hacts : Draft.Acts ⟨.appendText, .const (.str s), .none, line⟩ site
      (f.moved pc registers) w (.ok (.write s)) := fun x y hx _ => Frame.action_appendText hx
  obtain ⟨e, hs⟩ := hacts.step (f := f.moved pc registers) hcode.1
  have hm := Matches.next (n := n) (Q := f.Writes registers free jumps (pc + 1)) (a := ⟨s, .on⟩) hs
    ⟨registers, rfl, .refl registers⟩
  rw [World.silent_note] at hm
  exact hm

theorem correct_output (value : Expr) (line : UInt32) : (output value line).Correct site n := by
  intro f env scope jumps free pc registers w hfit hroom hcode
  have hr := hroom.room
  simp only [Stmt.registers] at hr
  simp only [code, Program.hasAll_append, Program.hasAll_cons, Program.hasAll_nil,
    Expr.length_code, and_true] at hcode
  obtain ⟨hv, happend⟩ := hcode
  refine (value.correct hfit (hroom.part (Nat.le_refl _) (Nat.le_refl _) (by omega)) hv).bind ?_
  rintro u _ v ⟨mid, rfl, hkeep, hu⟩
  refine (Performs.write hfit.source happend hu).mono ?_
  rintro ⟨text, flow⟩ _ ⟨rfl, rfl⟩
  exact ⟨mid, rfl, hkeep.below⟩

theorem correct_eval (e : Expr) : (eval e).Correct site n := by
  intro f env scope jumps free pc registers w hfit hroom hcode
  refine (e.effect_performs hfit hroom hcode).bind ?_
  rintro _ _ v ⟨mid, rfl, hkeep⟩
  exact .pure ⟨mid, by rw [Frame.write_empty]; rfl, hkeep⟩

theorem correct_last (line : UInt32) : (last line).Correct site n := by
  intro f env scope jumps free pc registers w hfit hroom hcode
  rw [code, Program.hasAll_cons] at hcode
  exact Performs.jump hcode.1 fun v => .pure ⟨registers, by rw [Frame.write_empty], .refl registers⟩

theorem correct_next (line : UInt32) : (next line).Correct site n := by
  intro f env scope jumps free pc registers w hfit hroom hcode
  rw [code, Program.hasAll_cons] at hcode
  exact Performs.jump hcode.1 fun v => .pure ⟨registers, by rw [Frame.write_empty], .refl registers⟩

/-! ### Switches -/

theorem arms_nil : Arm.AllCorrect site n [] := by
  intro f env scope jumps subject free pc registers v w hfit hroom hv hcode
  exact .pure (f.writes_nothing registers subject jumps pc)

theorem arms_test {value : Expr} {body : Stmt} {rest : List Arm} (hbody : body.Correct site n)
    (hrest : Arm.AllCorrect site n rest) (line : UInt32) :
    Arm.AllCorrect site n (.test value body line :: rest) := by
  intro f env scope jumps subject free pc registers v w hfit hroom hv hcode
  have hr := hroom.room
  have hd := hroom.below
  simp only [Arm.registersAll, Arm.registers] at hr
  simp only [Arm.codes, Arm.code, Arm.sizes, Arm.size, Program.hasAll_append, Program.hasAll_cons,
    Program.hasAll_nil, length_code, Expr.length_code, List.length_append,
    List.length_cons, List.length_nil, ← Nat.add_assoc, Nat.zero_add, and_true] at hcode
  obtain ⟨⟨⟨⟨hvalue, hmove, htest, hbranch⟩, hb⟩, hjump⟩, hothers⟩ := hcode
  simp only [Arm.sizes, Arm.size, ← Nat.add_assoc]
  refine (value.correct hfit (hroom.part (by omega) (Nat.le_refl _) (by omega)) hvalue).bind ?_
  rintro u _ w' ⟨mid, rfl, hkeep, hu⟩
  have hsize := hkeep.size
  have hmid : mid[subject]? = some v := by rw [hkeep.kept subject ⟨by omega, by omega⟩, hv]
  refine Performs.load hmove (fun x y hx hy => Frame.action_move hx hy hmid ?_) fun w' => ?_
  · show subject + 1 < mid.size
    omega
  refine Performs.load htest (fun x y hx hy => Frame.action_test hx hy
    (Array.getElem?_setIfInBounds_self_of_lt (by omega)) (v := u) ?_) fun w' => ?_
  · show (mid.setIfInBounds (subject + 1) v)[free]? = some u
    rw [Array.getElem?_setIfInBounds_ne (by omega), hu]
  have hlow : Keeps (· < subject + 1) registers mid :=
    hkeep.mono fun r hr => ⟨by omega, by omega⟩
  have htested : Keeps (· < subject + 1) registers
      ((mid.setIfInBounds (subject + 1) v).setIfInBounds (subject + 1) (.bool (v.eq u))) :=
    (hlow.put (Nat.lt_irrefl _) v).put (Nat.lt_irrefl _) _
  have hkept := htested.mono (P := (· < subject)) fun r hr => Nat.lt_succ_of_lt hr
  refine Performs.branch (t := .bool (v.eq u)) hbranch
    (Array.getElem?_setIfInBounds_self_of_lt (by rw [Array.size_setIfInBounds]; omega))
    (fun w' => ?_) fun w' => ?_
  · refine (hbody.resume hfit hroom hkept (Nat.le_refl subject) (by omega) (by omega) hb).andThen ?_
    intro p g w' hp
    exact Performs.leave hp hjump
  · have hroom' : Room env scope subject subject 2 (free + (1 + value.registers + body.registers))
        (Arm.registersAll rest) _ :=
      (hroom.part (Nat.le_refl _) (by omega) (by omega)).keeps htested fun r hr => by omega
    have hsubject : ((mid.setIfInBounds (subject + 1) v).setIfInBounds (subject + 1)
        (.bool (v.eq u)))[subject]? = some v := by
      rw [htested.kept subject (Nat.lt_succ_self subject), hv]
    exact (hrest hfit hroom' hsubject hothers).mono fun p g hp => hp.mono hkept (Nat.le_refl _)

theorem arms_always {body : Stmt} (hbody : body.Correct site n) (line : UInt32) (rest : List Arm) :
    Arm.AllCorrect site n (.always body line :: rest) := by
  intro f env scope jumps subject free pc registers v w hfit hroom hv hcode
  have hr := hroom.room
  have hd := hroom.below
  simp only [Arm.registersAll, Arm.registers] at hr
  simp only [Arm.codes, Arm.code, Arm.sizes, Arm.size, Program.hasAll_append, Program.hasAll_cons,
    Program.hasAll_nil, length_code, List.length_append, List.length_cons, List.length_nil,
    ← Nat.add_assoc, Nat.zero_add, and_true] at hcode
  obtain ⟨⟨⟨⟨hload, hbranch⟩, hb⟩, hjump⟩, -⟩ := hcode
  simp only [Arm.sizes, Arm.size, ← Nat.add_assoc]
  refine Performs.load hload (fun x y hx hy => Frame.action_loadBool true hx ?_) fun w' => ?_
  · show subject + 1 < registers.size
    omega
  have hkept := (Keeps.put_free registers (subject + 1) (.bool true)).mono (P := (· < subject))
    fun r hr => Nat.lt_succ_of_lt hr
  have htrue : (registers.setIfInBounds (subject + 1) (.bool true))[subject + 1]? =
      some (.bool true) := Array.getElem?_setIfInBounds_self_of_lt (by omega)
  -- The test is true, so that the jump over the body is never taken.
  refine (Performs.skip_succ (f := f.moved (pc + 1) _) hbranch (fun x y hx hy =>
    Frame.action_jumpIfFalse (v := .bool true) hx hy htrue) fun w' => ?_).le (Nat.le_succ n)
  refine (hbody.resume hfit hroom hkept (Nat.le_refl subject) (by omega) (by omega) hb).andThen ?_
  intro p g w' hp
  exact Performs.leave hp hjump

theorem correct_switch {subject : Expr} {arms : List Arm} (harms : Arm.AllCorrect site n arms) :
    (switch subject arms).Correct site n := by
  intro f env scope jumps free pc registers w hfit hroom hcode
  have hr := hroom.room
  simp only [Stmt.registers] at hr
  simp only [code, Program.hasAll_append, Expr.length_code] at hcode
  obtain ⟨hs, ha⟩ := hcode
  simp only [size, ← Nat.add_assoc]
  refine (subject.correct hfit (hroom.part (Nat.le_refl _) (by omega) (by omega)) hs).bind ?_
  rintro v _ w' ⟨mid, rfl, hkeep, hv⟩
  have hkeep' : Keeps (· < free) registers mid := hkeep.mono fun r hr => ⟨by omega, by omega⟩
  have hroom' : Room env scope free free 2 (free + 2 + subject.registers) (Arm.registersAll arms)
      mid := (hroom.part (Nat.le_refl _) (by omega) (by omega)).keeps hkeep' fun r hr => hr
  exact (harms hfit hroom' hv ha).mono fun p g hp => hp.mono hkeep' (Nat.le_refl _)

/-! ### Loops with a test -/

/-- What comes behind a round of a loop, if the loop goes on at the instruction `again` and is left
at the instruction `after`. -/
theorem afterRound_performs {f g : Frame} {registers : Array Value} {free again after : Nat}
    {jumps : Jumps} {w : World σ} {others : Part σ} {p : Passage}
    (hp : f.Writes registers free ⟨after, again⟩ again p g)
    (hothers : ∀ registers' w', Keeps (· < free) registers registers' →
      Performs site.ctx n (others (f.write p.text).output.utf8ByteSize)
        ((f.write p.text).moved again registers') w'
        ((f.write p.text).Writes registers' free jumps after)) :
    Performs site.ctx n (Part.afterRound p others f.output.utf8ByteSize) g w
      (f.Writes registers free jumps after) := by
  obtain ⟨text, flow⟩ := p
  obtain ⟨registers', rfl, hkeep⟩ := hp
  rw [String.utf8ByteSize_write] at hothers
  have hgo : ∀ w', Performs site.ctx n
      (do return (← others (f.output.utf8ByteSize + text.utf8ByteSize)).behind text)
      ((f.write text).moved again registers') w' (f.Writes registers free jumps after) := by
    intro w'
    refine (hothers registers' w' hkeep).bind ?_
    exact fun q g w' hq => .pure (hq.behind hkeep (Nat.le_refl free))
  cases flow with
  | on => exact hgo w
  | next => exact hgo w
  | last => exact .pure ⟨registers', rfl, hkeep⟩

theorem loop_performs {test : Expr} {body : Stmt} (hbody : body.Correct site n) {env : Env}
    {scope : Scope} {jumps : Jumps} {free pc : Nat} {line : UInt32} (k : Nat) {f : Frame}
    {registers : Array Value} {w : World σ} (hfit : site.Fits f env)
    (hroom : Room env scope free free 0 free (loop test body line).registers registers)
    (hcode : f.program.HasAll pc ((loop test body line).code scope jumps free pc)) :
    Performs site.ctx (min n k)
      (Part.loop (test.eval site env) (body.part site env) k f.output.utf8ByteSize)
      (f.moved pc registers) w
      (f.Writes registers free jumps (pc + (loop test body line).size)) := by
  -- Every round costs one unit of the bound `k` and, at its jump back, one step of the machine.
  induction k generalizing f registers w with
  | zero =>
    rw [Nat.min_zero]
    exact rfl
  | succ k ih =>
    have hr := hroom.room
    have hall := hcode
    simp only [Stmt.registers] at hr
    simp only [code, Program.hasAll_append, Program.hasAll_cons, Program.hasAll_nil, length_code,
      Expr.length_code, List.length_append, List.length_singleton, ← Nat.add_assoc, and_true]
      at hcode
    obtain ⟨⟨⟨ht, hbranch⟩, hb⟩, hjump⟩ := hcode
    simp only [size, ← Nat.add_assoc] at ih ⊢
    refine Performs.le (n := min n k + 1) ?_ (by omega)
    refine (test.correct hfit (hroom.part (Nat.le_refl _) (Nat.le_refl _) (by omega)) ht).bind ?_
    rintro u _ v ⟨mid, rfl, hkeep, hu⟩
    have hkeep : Keeps (· < free) registers mid := hkeep.below
    refine Performs.branch_succ hbranch hu (fun v => ?_) fun v => ?_
    · refine ((hbody.le (Nat.min_le_left n k)).resume hfit hroom hkeep (Nat.le_refl free)
        (by omega) (by omega) hb).bind ?_
      intro p g v hp
      rw [← pure_bind p fun p => Part.afterRound p _ _]
      refine (Performs.leave hp hjump).bind ?_
      intro p g v hp
      refine afterRound_performs hp fun registers' v hkeep' => ?_
      exact ih (hfit.write p.text) (hroom.keeps hkeep' fun r hr => hr) hall
    · exact .pure ⟨mid, by rw [Frame.write_empty], hkeep⟩

theorem correct_loop (hfuel : n ≤ site.fuel) {test : Expr} {body : Stmt}
    (hbody : body.Correct site n) (line : UInt32) : (loop test body line).Correct site n := by
  intro f env scope jumps free pc registers w hfit hroom hcode
  have h := loop_performs hbody site.fuel (w := w) hfit hroom hcode
  rw [Nat.min_eq_left hfuel] at h
  exact h

/-! ### Loops along collections -/

theorem leaveLoop_performs {α : Type} {f : Frame} {l : LoopRecord} {registers : Array Value}
    {pc : Nat} {line : UInt32} {w : World σ} {x : Act σ α} {Q : α → Frame → Prop}
    (hd : f.program.Has pc ⟨.loopPop, .none, .none, line⟩)
    (hx : ∀ v, Performs site.ctx n x (f.moved (pc + 1) registers) v Q) :
    Performs site.ctx n x ((f.within l).moved pc registers) w Q := by
  have hacts : Draft.Acts ⟨.loopPop, .none, .none, line⟩ site ((f.within l).moved pc registers) w
      (.ok .leave) := fun _ _ _ _ => Frame.action_loopPop rfl
  obtain ⟨e, hs⟩ := hacts.step (f := (f.within l).moved pc registers) hd
  exact .step hs (by rw [World.silent_note, World.silent_note]) (hx _)

/-- What comes behind a round of a loop along a collection, at its instruction that asks for the
next item. -/
theorem nextRound_performs {f : Frame} {index : Nat} {rest : List Value} {registers : Array Value}
    {free start again : Nat} (jumps : Jumps) {line : UInt32} {w : World σ}
    {body : Value → LoopRecord → Part σ} (hfree : free < registers.size)
    (hnext : f.program.Has again (.branchTo .iterNext free start line))
    (hpop : f.program.Has (again + 1) ⟨.loopPop, .none, .none, line⟩)
    (hothers : ∀ item others v, rest = item :: others →
      Performs site.ctx n (Part.along body (index + 1) rest f.output.utf8ByteSize)
        ((f.within ⟨index + 1, others⟩).moved start (registers.setIfInBounds free item)) v
        (f.Writes (registers.setIfInBounds free item) free jumps (again + 2))) :
    Performs site.ctx n (Part.along body (index + 1) rest f.output.utf8ByteSize)
      ((f.within ⟨index, rest⟩).moved again registers) w
      (f.Writes registers free jumps (again + 2)) := by
  have hacts : (Draft.branchTo .iterNext free start line).Acts site
      ((f.within ⟨index, rest⟩).moved again registers) w _ :=
    fun _ _ hx hy => Frame.action_iterNext hx hy rfl hfree
  cases rest with
  | nil =>
    obtain ⟨e, hs⟩ := Draft.Acts.step (f := (f.within ⟨index, []⟩).moved again registers)
      (a := .exhaust ⟨index + 1, []⟩) hacts hnext
    refine .step hs (World.silent_note w e) ?_
    exact leaveLoop_performs hpop fun v => .pure (f.writes_nothing registers free jumps _)
  | cons item others =>
    obtain ⟨e, hs⟩ := Draft.Acts.step
      (f := (f.within ⟨index, item :: others⟩).moved again registers)
      (a := .next free item ⟨index + 1, others⟩ start) hacts hnext
    refine .step hs (World.silent_note w e) ((hothers item others _ rfl).mono fun p g hp => ?_)
    exact hp.mono (.put_free registers free item) (Nat.le_refl free)

theorem along_performs {body : Stmt} (hbody : body.Correct site n) {env : Env} {scope : Scope}
    (jumps : Jumps) {var : String} {need free start again : Nat} {line : UInt32}
    {f : Frame} {index : Nat} {item : Value} {rest : List Value} {registers : Array Value}
    {w : World σ} (hfit : site.Fits f env)
    (hroom : Room env scope free free 1 (free + 1 + need) body.registers registers)
    (hitem : registers[free]? = some item) (hagain : again = start + body.size)
    (hcode : f.program.HasAll start
      (body.code ((var, free) :: scope) ⟨again + 1, again⟩ (free + 1 + need) start))
    (hnext : f.program.Has again (.branchTo .iterNext free start line))
    (hpop : f.program.Has (again + 1) ⟨.loopPop, .none, .none, line⟩) :
    Performs site.ctx n
      (Part.along (fun item record => body.part site (env.enter var item record)) index
        (item :: rest) f.output.utf8ByteSize)
      ((f.within ⟨index, rest⟩).moved start registers) w
      (f.Writes registers free jumps (again + 2)) := by
  have hr := hroom.room
  have hroom' : Room (env.enter var item ⟨index, rest⟩) ((var, free) :: scope) (free + 1 + need)
      (free + 1 + need) 0 (free + 1 + need) body.registers registers :=
    ⟨(hroom.holds.mono (by omega) fun _ _ => rfl).cons var (by omega) hitem, Nat.le_refl _,
      Nat.le_refl _, hr, hroom.limit⟩
  refine (hbody (f := f.within ⟨index, rest⟩) ⟨hfit.source, hfit.depth, rfl⟩ hroom' hcode).bind ?_
  rintro ⟨text, flow⟩ _ v ⟨registers', rfl, hkeep⟩
  rw [← hagain]
  have hkeep : Keeps (· < free) registers registers' := hkeep.mono fun r hr => by omega
  have hsize := hkeep.size
  have hothers : ∀ v, Performs site.ctx n
      (do return (← Part.along (fun item record => body.part site (env.enter var item record))
        (index + 1) rest (f.output.utf8ByteSize + text.utf8ByteSize)).behind text)
      (((f.write text).within ⟨index, rest⟩).moved again registers') v
      (f.Writes registers free jumps (again + 2)) := by
    intro v
    rw [← String.utf8ByteSize_write]
    refine (nextRound_performs (f := f.write text) jumps (by omega) hnext hpop ?_).bind
      fun p g v hp => .pure (hp.behind hkeep (Nat.le_refl free))
    rintro item' others v rfl
    refine along_performs hbody jumps (hfit.write text) ?_ ?_ hagain hcode hnext hpop
    · have hkeep' : Keeps (· < free) registers (registers'.setIfInBounds free item') :=
        hkeep.put (Nat.lt_irrefl free) item'
      exact hroom.keeps hkeep' fun r hr => hr
    · exact Array.getElem?_setIfInBounds_self_of_lt (by omega)
  -- A round that ends early meets the next item just as one that comes to its end does.
  cases flow with
  | on => exact hothers v
  | next => exact hothers v
  | last =>
    exact leaveLoop_performs (f := f.write text) hpop fun v => .pure ⟨registers', rfl, hkeep⟩
termination_by rest.length

theorem correct_foreach {source : Expr} {body : Stmt} (hbody : body.Correct site n)
    (var : String) (line : UInt32) : (foreach var source body line).Correct site n := by
  intro f env scope jumps free pc registers w hfit hroom hcode
  have hr := hroom.room
  simp only [Stmt.registers] at hr
  simp only [code, Program.hasAll_append, Program.hasAll_cons, Program.hasAll_nil, length_code,
    Expr.length_code, List.length_append, List.length_singleton, ← Nat.add_assoc, and_true] at hcode
  obtain ⟨⟨⟨hs, hstart⟩, hb⟩, hnext, hpop⟩ := hcode
  rw [show pc + (foreach var source body line).size = pc + source.size + 1 + body.size + 2 by
    simp only [size]; omega]
  refine (source.correct hfit (hroom.part (Nat.le_refl _) (Nat.le_refl _) (by omega)) hs).bind ?_
  rintro u _ v ⟨mid, rfl, hkeep, hu⟩
  have hkeep : Keeps (· < free) registers mid := hkeep.below
  have hsize := hkeep.size
  have hacts : (Draft.branchTo .iterStart free (pc + source.size + 1 + body.size + 2) line).Acts
      site (f.moved (pc + source.size) mid) v _ := fun _ _ hx hy => Frame.action_iterStart hx hy hu
  unfold Site.items
  rcases hitems : u.items site.ctx.hosts with error | _ | ⟨first, rest⟩ <;> rw [hitems] at hacts
  · exact (Performs.blame (f := f.moved (pc + source.size) mid)
      (d := .branchTo .iterStart free _ line) (α := List Value) (Q := fun _ _ => False)
      hfit.source hstart hacts).bind fun _ _ _ h => h.elim
  · obtain ⟨e, hs⟩ := Draft.Acts.step (f := f.moved (pc + source.size) mid) hacts hstart
    exact .step hs (World.silent_note v e) (.pure ⟨mid, by rw [Frame.write_empty]; rfl, hkeep⟩)
  · obtain ⟨e, hs⟩ := Draft.Acts.step (f := f.moved (pc + source.size) mid) hacts hstart
    have hput : Keeps (· < free) registers (mid.setIfInBounds free first) :=
      hkeep.put (Nat.lt_irrefl free) first
    have hroom' : Room env scope free free 1 (free + 1 + source.registers) body.registers
        (mid.setIfInBounds free first) :=
      (hroom.part (Nat.le_refl _) (by omega) (by omega)).keeps hput fun r hr => hr
    have hfirst : (mid.setIfInBounds free first)[free]? = some first :=
      Array.getElem?_setIfInBounds_self_of_lt (by omega)
    refine .step hs (by rw [World.silent_note, World.silent_note]) ?_
    refine (along_performs hbody jumps (f := f) hfit hroom' hfirst rfl hb hnext hpop).mono ?_
    exact fun p g hp => hp.mono hput (Nat.le_refl free)

/-! ### Other templates -/

/-- An instruction that asks for the template that a value names. -/
theorem render_performs (hready : site.Ready n) {f : Frame} {w : World σ} {d : Draft}
    (hsource : f.program.source = site.source) (hdepth : f.depth = site.depth)
    (hd : f.program.Has f.pc d) {path : Value} {a : Action} (scope : Option (Vars → Vars))
    (resume : Resume)
    (hacts : d.Acts site f w (if path.isNull then .error (.load .nullName) else .ok a))
    (hperform : ∀ w, f.perform site.ctx w a = f.load site.ctx w path.text fun p v =>
      f.descend site.ctx v p (scope.map (· v.vars)) resume) :
    Performs site.ctx n (site.render d.line scope path) f w fun output g =>
      g = f.resume site.ctx output resume := by
  cases hnull : path.isNull with
  | true =>
    rw [hnull, if_pos rfl] at hacts
    have hrender : site.render (σ := σ) d.line scope path =
        site.blame d.line (.load .nullName) := by
      unfold Site.render Site.load
      rw [hnull, if_pos rfl]
      rfl
    rw [hrender]
    exact .blame hsource hd hacts
  | false =>
    rw [hnull, if_neg Bool.false_ne_true] at hacts
    obtain ⟨e, hs⟩ := hacts.step hd
    exact .render hready hdepth hsource hd.lineAt hnull (World.silent_note w e)
      (hs.trans (hperform _))

/-- The output of a template, which is in a register, is written. -/
theorem writeOutput_performs {f : Frame} {registers : Array Value} {free pc : Nat} {line : UInt32}
    {w : World σ} (jumps : Jumps) {output : String} (hsource : f.program.source = site.source)
    (hfree : free < registers.size) (hd : f.program.Has (pc + 1) (.onRegister .append free line)) :
    Performs site.ctx n (site.writeOutput line output)
      ((f.moved pc registers).resume site.ctx output (.intoRegister free)) w
      (f.Writes registers free jumps (pc + 2)) := by
  refine (Performs.write hsource hd (Array.getElem?_setIfInBounds_self_of_lt hfree)).mono ?_
  rintro ⟨text, flow⟩ _ ⟨rfl, rfl⟩
  exact ⟨_, rfl, .put_free registers free _⟩

theorem correct_inclusion (hready : site.Ready n) (path : Expr) (line : UInt32) :
    (inclusion path line).Correct site n := by
  intro f env scope jumps free pc registers w hfit hroom hcode
  have hr := hroom.room
  simp only [Stmt.registers] at hr
  simp only [code, Program.hasAll_append, Program.hasAll_cons, Program.hasAll_nil,
    Expr.length_code, and_true] at hcode
  obtain ⟨hp, hinclude, happend⟩ := hcode
  refine (path.correct hfit (hroom.part (Nat.le_refl _) (Nat.le_refl _) (by omega)) hp).bind ?_
  rintro u _ v ⟨mid, rfl, hkeep, hu⟩
  have hkeep : Keeps (· < free) registers mid := hkeep.below
  have hsize := hkeep.size
  refine (render_performs hready (f := f.moved (pc + path.size) mid) hfit.source hfit.depth hinclude
    none (.intoRegister free) (fun _ _ hx _ => Frame.action_inclusion hx hu) fun _ => rfl).bind ?_
  rintro output _ v rfl
  refine (writeOutput_performs (f := f) jumps hfit.source (by omega) happend).mono fun p g hp => ?_
  exact hp.mono hkeep (Nat.le_refl free)

theorem correct_inclusionWith (hready : site.Ready n) (path : Expr) (bindings : List Expr)
    (line : UInt32) : (inclusionWith path bindings line).Correct site n := by
  intro f env scope jumps free pc registers w hfit hroom hcode
  have hr := hroom.room
  have hl := hroom.limit
  simp only [Stmt.registers] at hr
  simp only [code, Program.hasAll_append, Program.hasAll_cons, Program.hasAll_nil,
    Expr.length_code, Expr.length_codeRun, List.length_append, ← Nat.add_assoc, and_true] at hcode
  obtain ⟨⟨hp, hrun⟩, hmap, hinclude, happend⟩ := hcode
  simp only [size, ← Nat.add_assoc]
  refine (path.correct hfit (hroom.part (Nat.le_refl _) (Nat.le_refl _) (by omega)) hp).bind ?_
  rintro u _ v ⟨mid, rfl, hkeep, hu⟩
  have hroom' : Room env scope free (free + 1 + path.registers) bindings.length
      (free + 1 + path.registers + max bindings.length 1) (Expr.registersAll bindings) mid :=
    (hroom.part (by omega) (by omega) (by omega)).keeps hkeep fun r hr => ⟨by omega, by omega⟩
  refine (Expr.allCorrect hfit bindings hroom' hrun).bind ?_
  rintro vs _ v ⟨hlength, mid', rfl, hkeep', hvs⟩
  have hsize := hkeep.size
  have hsize' := hkeep'.size
  have hu : mid'[free]? = some u := by rw [hkeep'.kept free (by omega), hu]
  have hkeep : Keeps (· < free) registers mid' := hkeep.below.trans hkeep' fun r hr => by omega
  rw [← hlength] at hmap
  have hacts : (Draft.onRun .map (free + 1 + path.registers) (vs.length / 2) line).Acts site
      (f.moved (pc + path.size + Expr.sizes bindings) mid') v
      (Frame.storing (free + 1 + path.registers) (mapOfPairs vs)) :=
    fun _ _ hx hy => Frame.action_map hx hy hvs (by show _ ≤ mid'.size; omega)
      (by show mid'.size < _; omega) (by show _ < mid'.size; omega)
  unfold Site.inclusionWith
  unfold mapOfPairs Value.mapOf at hacts
  cases hpairs : Value.addPairs [] vs with
  | error e =>
    rw [hpairs] at hacts
    exact Performs.blame (f := f.moved _ mid') hfit.source hmap hacts
  | ok extra =>
    rw [hpairs] at hacts
    refine Performs.load hmap hacts fun v => ?_
    have hkeep : Keeps (· < free) registers
        (mid'.setIfInBounds (free + 1 + path.registers) (.map extra)) := hkeep.put (by omega) _
    have hu : (mid'.setIfInBounds (free + 1 + path.registers) (.map extra))[free]? = some u := by
      rw [Array.getElem?_setIfInBounds_ne (by omega), hu]
    have hextra : (mid'.setIfInBounds (free + 1 + path.registers) (.map extra))[
        free + 1 + path.registers]? = some (.map extra) :=
      Array.getElem?_setIfInBounds_self_of_lt (by omega)
    refine (render_performs hready (f := f.moved (pc + path.size + Expr.sizes bindings + 1) _)
      hfit.source hfit.depth hinclude (some (·.setAll extra)) (.intoRegister free)
      (fun _ _ hx hy => Frame.action_inclusionWith hx hy hu) fun w => ?_).bind ?_
    · simp only [Frame.perform, Frame.register_eq_ok (f := f.moved _ _) hextra]
      rfl
    · rintro output _ v rfl
      refine (writeOutput_performs (f := f) jumps hfit.source ?_ happend).mono fun p g hp => ?_
      · exact (Array.getElem?_eq_some_iff.1 hu).1
      · exact hp.mono hkeep (Nat.le_refl free)

theorem cutChars_append (cs ds : List Char) :
    Text.cutChars (String.utf8Len cs) (cs ++ ds) = some (cs, ds) := by
  induction cs with
  | nil => rw [String.utf8Len_nil, List.nil_append, Text.cutChars]
  | cons c cs ih =>
    have hc := c.utf8Size_pos
    obtain ⟨n, hn⟩ : ∃ n, String.utf8Len cs + c.utf8Size = n + 1 :=
      ⟨_, (Nat.succ_pred (by omega)).symm⟩
    rw [String.utf8Len_cons, hn, List.cons_append, Text.cutChars, if_pos (by omega), ← hn,
      Nat.add_sub_cancel, ih]
    rfl

theorem cut_append (s t : String) : Text.cut s.utf8ByteSize (s ++ t) = some (s, t) := by
  rw [Text.cut, ← String.utf8Len_toList, String.toList_append, cutChars_append]
  simp

/-- The output before a mark and the text behind it. -/
theorem atMark_write {f : Frame} {registers : Array Value} {mark : Nat} {word : Int64}
    (hword : word.toInt = f.output.utf8ByteSize) (hmark : registers[mark]? = some (.int word))
    (pc : Nat) (s : String) :
    ((f.write s).moved pc registers).atMark mark = .ok (f.output, s) := by
  have hregister : ((f.write s).moved pc registers).register mark = .ok (.int word) :=
    Frame.register_eq_ok hmark
  rw [Frame.atMark, hregister]
  simp only [bind, Except.bind, hword]
  rw [if_neg (by omega), Int.toNat_natCast,
    show ((f.write s).moved pc registers).output = f.output ++ s from rfl, cut_append]
  rfl

theorem mark_performs {f : Frame} {registers : Array Value} {free pc : Nat} {line : UInt32}
    {w : World σ} (hsource : f.program.source = site.source) (hfree : free < registers.size)
    (hd : f.program.Has pc (.onRegister .markOutput free line)) :
    Performs site.ctx n (site.mark line f.output.utf8ByteSize) (f.moved pc registers) w
      fun _ g => ∃ word : Int64, word.toInt = f.output.utf8ByteSize ∧
        g = f.moved (pc + 1) (registers.setIfInBounds free (.int word)) := by
  have hacts : (Draft.onRegister .markOutput free line).Acts site (f.moved pc registers) w
      (Frame.storing free (plainly id (measured f.output.utf8ByteSize .outputTooLarge))) :=
    fun _ _ hx _ => Frame.action_markOutput hx hfree
  have hcases := measured_cases f.output.utf8ByteSize .outputTooLarge
  unfold Site.mark
  generalize measured f.output.utf8ByteSize .outputTooLarge = mark at hacts hcases ⊢
  obtain ⟨word, rfl, hword⟩ | ⟨rfl, -⟩ := hcases
  · exact Performs.load hd hacts fun v => .pure ⟨word, hword, rfl⟩
  · exact (Performs.blame (f := f.moved pc registers) (Q := fun _ _ => False) hsource hd
      hacts).bind nofun

theorem correct_wrapper (hready : site.Ready n) (path : Expr) {body : Stmt}
    (hbody : body.Correct site n) (line : UInt32) : (wrapper path body line).Correct site n := by
  intro f env scope jumps free pc registers w hfit hroom hcode
  have hr := hroom.room
  simp only [Stmt.registers] at hr
  simp only [code, Program.hasAll_append, Program.hasAll_cons, Program.hasAll_nil, length_code,
    Expr.length_code, List.length_append, List.length_singleton, ← Nat.add_assoc, and_true] at hcode
  simp only [size, ← Nat.add_assoc]
  rw [part]
  unfold Site.wrap
  refine (mark_performs hfit.source (by omega) hcode.1.1.1).bind ?_
  rintro _ _ v ⟨word, hword, rfl⟩
  obtain ⟨⟨⟨-, hb⟩, hp⟩, hwrap⟩ := hcode
  have hfree : (registers.setIfInBounds free (.int word))[free]? = some (.int word) :=
    Array.getElem?_setIfInBounds_self_of_lt (by omega)
  have hset := Keeps.put_free registers free (.int word)
  have hsize := hset.size
  refine (hbody hfit (hroom.behind hset (by omega) (by omega) (by omega)) hb).bind ?_
  rintro ⟨text, flow⟩ _ v ⟨mid, rfl, hkeep⟩
  have hkept : Keeps (· < free) registers mid := hset.trans hkeep fun r hr => Nat.lt_succ_of_lt hr
  -- A body that is left by a jump is not wrapped: its text stays in the output.
  cases flow with
  | last => exact .pure ⟨mid, rfl, hkept⟩
  | next => exact .pure ⟨mid, rfl, hkept⟩
  | on =>
    have hsize' := hkeep.size
    have hroom' : Room env scope free (free + 1 + body.registers) 1 (free + 1 + body.registers + 1)
        path.registers mid :=
      (hroom.part (by omega) (Nat.le_refl _) (by omega)).keeps hkept fun r hr => hr
    refine (path.correct (hfit.write text) hroom' hp).bind ?_
    rintro u _ v ⟨after, rfl, hkeep', hu⟩
    have hfree : after[free]? = some (.int word) := by
      rw [hkeep'.kept free ⟨by omega, by omega⟩, hkeep.kept free (Nat.lt_succ_self free), hfree]
    refine (render_performs hready
      (f := (f.write text).moved (pc + 1 + body.size + path.size) after)
      hfit.source hfit.depth hwrap (some (·.set "content" (.raw text))) (.behind f.output)
      (fun _ _ hx hy => Frame.action_wrap hx hy (atMark_write hword hfree _ text) hu)
      fun _ => rfl).bind ?_
    rintro output _ v rfl
    exact .pure ⟨after, rfl, hkept.trans hkeep' fun r hr => ⟨by omega, by omega⟩⟩

/-! ### All statements -/

mutual

/-- The code of every statement is correct. -/
theorem correct (hready : site.Ready n) : (s : Stmt) → s.Correct site n
  | block body => correct_block (allCorrect hready body)
  | text s line => correct_text s line
  | output value line => correct_output value line
  | eval e => correct_eval e
  | when _ body line => correct_when (correct hready body) line
  | choice _ yes no line => correct_choice (correct hready yes) (correct hready no) line
  | switch _ arms => correct_switch (armsCorrect hready arms)
  | foreach var _ body line => correct_foreach (correct hready body) var line
  | loop _ body line => correct_loop hready.fuel (correct hready body) line
  | last line => correct_last line
  | next line => correct_next line
  | inclusion path line => correct_inclusion hready path line
  | inclusionWith path bindings line => correct_inclusionWith hready path bindings line
  | wrapper path body line => correct_wrapper hready path (correct hready body) line

theorem allCorrect (hready : site.Ready n) : (body : List Stmt) → AllCorrect site n body
  | [] => allCorrect_nil
  | s :: rest => .cons (correct hready s) (allCorrect hready rest)

theorem armsCorrect (hready : site.Ready n) : (arms : List Arm) → Arm.AllCorrect site n arms
  | [] => arms_nil
  | .test _ body line :: rest => arms_test (correct hready body) (armsCorrect hready rest) line
  | .always body line :: rest => arms_always (correct hready body) line rest

end

end Stmt

end Stencil
