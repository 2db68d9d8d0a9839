import Mathlib.Data.List.Basic
import Stencil.Template.Code

/-!
# What numbering leaves of drafts

`Builder.addAll` turns drafts into instructions: operands become numbers, and constants move into
the pool. Nothing of a draft gets lost on the way.

* `Operand.IsNumber`: a number stands for an operand of a draft;
* `Program.Has`, `Program.HasAll`: an instruction of a program carries out a draft, and
  instructions in a row carry out a list of drafts;
* `Builder.Extends`: a builder keeps everything that was in an earlier one;
* `Stmt.program_spec`: the program of a template carries out the template's code.
-/

namespace Stencil

/-! ### Results -/

theorem bind_eq_ok {ε α β : Type} {x : Except ε α} {k : α → Except ε β} {b : β} :
    x >>= k = .ok b ↔ ∃ a, x = .ok a ∧ k a = .ok b := by
  cases x with
  | error e => exact ⟨nofun, nofun⟩
  | ok a =>
    refine ⟨fun h => ⟨a, rfl, h⟩, ?_⟩
    rintro ⟨_, ⟨⟩, h⟩
    exact h

theorem pure_eq_ok {ε α : Type} {a b : α} : (pure a : Except ε α) = .ok b ↔ a = b :=
  ⟨Except.ok.inj, congrArg _⟩

/-! ### The pool -/

/-- A constant is at the place that it was given. -/
theorem Pool.intern_getElem? (pool : Array Constant) (c : Constant) :
    (Pool.intern pool c).1[(Pool.intern pool c).2]? = some c := by
  unfold Pool.intern
  split
  · next n h =>
    rw [Array.idxOf?_eq_map_finIdxOf?_val, Option.map_eq_some_iff] at h
    obtain ⟨i, hi, rfl⟩ := h
    have hc := (Array.finIdxOf?_eq_some_iff.1 hi).1
    simpa using hc
  · simp

/-- The constants that were there keep their places. -/
theorem Pool.getElem?_intern {pool : Array Constant} {n : Nat} {d : Constant}
    (h : pool[n]? = some d) (c : Constant) : (Pool.intern pool c).1[n]? = some d := by
  unfold Pool.intern
  split
  · exact h
  · obtain ⟨hn, -⟩ := Array.getElem?_eq_some_iff.1 h
    rw [Array.getElem?_push_lt hn, ← h, Array.getElem?_eq_getElem hn]

/-! ### Numbers -/

/-- The number `x` stands for an operand of a draft. -/
def Operand.IsNumber (pool : Array Constant) (x : UInt32) : Operand → Prop
  | .none => x = 0
  | .register r => x.toNat = r
  | .const c => pool[x.toNat]? = some c
  | .target pc => x.toNat = pc
  | .number n => x.toNat = n

theorem operand_eq_ok {what : Extent} {n : Nat} {x : UInt32} (h : operand what n = .ok x) :
    x.toNat = n := by
  unfold operand at h
  split at h
  · next hn =>
    cases h
    rw [UInt32.toNat_ofNat']
    exact Nat.mod_eq_of_lt hn
  · cases h

theorem operand_of_le {what : Extent} {n : Nat} (h : operandLimit ≤ n) :
    operand what n = .error (.tooLarge what) := if_neg (Nat.not_lt.2 h)

theorem exists_operand (what : Extent) {n : Nat} (h : n < operandLimit) :
    ∃ x, operand what n = .ok x ∧ x.toNat = n := by
  have hok : operand what n = .ok (UInt32.ofNat n) := if_pos h
  exact ⟨_, hok, operand_eq_ok hok⟩

@[simp] theorem operand_toNat (what : Extent) (x : UInt32) : operand what x.toNat = .ok x :=
  (if_pos x.toNat_lt).trans (congrArg Except.ok UInt32.ofNat_toNat)

/-- Instruction `n` of a program carries out a draft. -/
def Program.Has (p : Program) (n : Nat) (d : Draft) : Prop :=
  ∃ x y, p.instructions[n]? = some ⟨d.op, x, y⟩ ∧ d.a.IsNumber p.pool x ∧ d.b.IsNumber p.pool y ∧
    p.lines[n]? = some d.line

/-- The instructions from number `pc` on carry out drafts. -/
def Program.HasAll (p : Program) (pc : Nat) : List Draft → Prop
  | [] => True
  | d :: rest => p.Has pc d ∧ p.HasAll (pc + 1) rest

@[simp] theorem Program.hasAll_nil (p : Program) (pc : Nat) : p.HasAll pc [] := trivial

@[simp] theorem Program.hasAll_cons {p : Program} {pc : Nat} {d : Draft} {rest : List Draft} :
    p.HasAll pc (d :: rest) ↔ p.Has pc d ∧ p.HasAll (pc + 1) rest := Iff.rfl

@[simp] theorem Program.hasAll_append {p : Program} {pc : Nat} {ds es : List Draft} :
    p.HasAll pc (ds ++ es) ↔ p.HasAll pc ds ∧ p.HasAll (pc + ds.length) es := by
  induction ds generalizing pc with
  | nil => simp
  | cons d ds ih =>
    rw [List.cons_append, hasAll_cons, ih, hasAll_cons, and_assoc, List.length_cons,
      Nat.add_right_comm, ← Nat.add_assoc]

theorem Program.HasAll.getElem? {p : Program} {pc : Nat} {ds : List Draft} (h : p.HasAll pc ds)
    {n : Nat} {d : Draft} (hd : ds[n]? = some d) : p.Has (pc + n) d := by
  induction ds generalizing pc n with
  | nil => simp at hd
  | cons e ds ih =>
    cases n with
    | zero => simpa using Option.some.inj hd ▸ h.1
    | succ n =>
      have := ih h.2 (by simpa using hd)
      rwa [Nat.add_assoc, Nat.add_comm 1 n] at this

/-! ### Builders -/

/-- The builder `c` keeps everything that is in `b`. -/
structure Builder.Extends (b c : Builder) : Prop where
  instructions : ∀ {n : Nat} {i : Instruction},
    b.instructions[n]? = some i → c.instructions[n]? = some i
  lines : ∀ {n : Nat} {line : UInt32}, b.lines[n]? = some line → c.lines[n]? = some line
  pool : ∀ {n : Nat} {k : Constant}, b.pool[n]? = some k → c.pool[n]? = some k
  registers : c.registers = b.registers
  maxDepth : c.maxDepth = b.maxDepth

namespace Builder

theorem Extends.refl (b : Builder) : b.Extends b := ⟨id, id, id, rfl, rfl⟩

theorem Extends.trans {b c d : Builder} (h : b.Extends c) (h' : c.Extends d) : b.Extends d where
  instructions hn := h'.instructions (h.instructions hn)
  lines hn := h'.lines (h.lines hn)
  pool hn := h'.pool (h.pool hn)
  registers := h'.registers.trans h.registers
  maxDepth := h'.maxDepth.trans h.maxDepth

end Builder

theorem Operand.IsNumber.mono {b c : Builder} (h : b.Extends c) {x : UInt32} {o : Operand}
    (ho : o.IsNumber b.pool x) : o.IsNumber c.pool x := by
  cases o with
  | const k => exact h.pool ho
  | _ => exact ho

namespace Builder

theorem Extends.has {b c : Builder} (h : b.Extends c) {source : Source} {n : Nat} {d : Draft}
    (hd : (b.build source).Has n d) : (c.build source).Has n d := by
  obtain ⟨x, y, hi, hx, hy, hl⟩ := hd
  exact ⟨x, y, h.instructions hi, hx.mono h, hy.mono h, h.lines hl⟩

theorem constant_eq_ok {b c : Builder} {k : Constant} {x : UInt32}
    (h : b.constant k = .ok (c, x)) :
    b.Extends c ∧ c.pool[x.toNat]? = some k ∧
      c.instructions = b.instructions ∧ c.lines = b.lines := by
  simp only [constant, bind_eq_ok] at h
  obtain ⟨index, hi, h⟩ := h
  cases h
  refine ⟨⟨id, id, fun hn => Pool.getElem?_intern hn k, rfl, rfl⟩, ?_, rfl, rfl⟩
  rw [operand_eq_ok hi]
  exact Pool.intern_getElem? b.pool k

theorem number_eq_ok {b c : Builder} {o : Operand} {x : UInt32}
    (h : b.number o = .ok (c, x)) :
    b.Extends c ∧ o.IsNumber c.pool x ∧ c.instructions = b.instructions ∧ c.lines = b.lines := by
  have plain : ∀ {what : Extent} {n : Nat},
      (do return (b, ← operand what n) : Except CompileError (Builder × UInt32)) = .ok (c, x) →
        b = c ∧ x.toNat = n := by
    intro what n h
    obtain ⟨y, hy, h⟩ := bind_eq_ok.1 h
    cases h
    exact ⟨rfl, operand_eq_ok hy⟩
  cases o with
  | none =>
    cases h
    exact ⟨.refl b, rfl, rfl, rfl⟩
  | const k => exact constant_eq_ok h
  | register r =>
    obtain ⟨rfl, hx⟩ := plain h
    exact ⟨.refl b, hx, rfl, rfl⟩
  | target pc =>
    obtain ⟨rfl, hx⟩ := plain h
    exact ⟨.refl b, hx, rfl, rfl⟩
  | number n =>
    obtain ⟨rfl, hx⟩ := plain h
    exact ⟨.refl b, hx, rfl, rfl⟩

theorem extends_emit (b : Builder) (op : Opcode) (x y : UInt32) (line : UInt32) :
    b.Extends ((b.setLine line).emit op x y) where
  instructions h := by
    obtain ⟨hn, -⟩ := Array.getElem?_eq_some_iff.1 h
    rw [← h]
    exact (Array.getElem?_push_lt hn).trans (Array.getElem?_eq_getElem hn).symm
  lines h := by
    obtain ⟨hn, -⟩ := Array.getElem?_eq_some_iff.1 h
    rw [← h]
    exact (Array.getElem?_push_lt hn).trans (Array.getElem?_eq_getElem hn).symm
  pool h := h
  registers := rfl
  maxDepth := rfl

/-- The builder `c` arises from `b` by adding `n` instructions, each with a line. -/
structure Grows (b c : Builder) (n : Nat) : Prop extends b.Extends c where
  size : c.instructions.size = b.instructions.size + n
  lineCount : b.lines.size = b.instructions.size → c.lines.size = c.instructions.size

theorem add_eq_ok {b c : Builder} {d : Draft} (h : b.add d = .ok c)
    (hb : b.lines.size = b.instructions.size) (source : Source) :
    b.Grows c 1 ∧ (c.build source).Has b.instructions.size d := by
  simp only [add, bind_eq_ok, pure_eq_ok] at h
  obtain ⟨⟨b₁, x⟩, hp, ⟨b₂, y⟩, hq, rfl⟩ := h
  obtain ⟨e₁, hx, hi₁, hl₁⟩ := number_eq_ok hp
  obtain ⟨e₂, hy, hi₂, hl₂⟩ := number_eq_ok hq
  have hi : b₂.instructions = b.instructions := hi₂.trans hi₁
  have hl : b₂.lines = b.lines := hl₂.trans hl₁
  have e₃ := b₂.extends_emit d.op x y d.line
  refine ⟨⟨e₁.trans (e₂.trans e₃), ?_, fun _ => ?_⟩, x, y, ?_, ?_, ?_, ?_⟩
  · simp [emit, setLine, hi]
  · simp [emit, setLine, hi, hl, hb]
  · simp [build, emit, setLine, hi]
  · exact (hx.mono e₂).mono e₃
  · exact hy.mono e₃
  · simp [build, emit, setLine, ← hb, hl]

theorem addAll_eq_ok {b c : Builder} {ds : List Draft} (h : b.addAll ds = .ok c)
    (hb : b.lines.size = b.instructions.size) (source : Source) :
    b.Grows c ds.length ∧ (c.build source).HasAll b.instructions.size ds := by
  induction ds generalizing b with
  | nil =>
    cases h
    exact ⟨⟨.refl _, rfl, id⟩, trivial⟩
  | cons d ds ih =>
    obtain ⟨b₁, h₁, h⟩ := bind_eq_ok.1 h
    obtain ⟨g₁, hd⟩ := add_eq_ok h₁ hb source
    obtain ⟨g₂, hds⟩ := ih h (g₁.lineCount hb)
    rw [g₁.size] at hds
    refine ⟨⟨g₁.toExtends.trans g₂.toExtends, ?_, fun _ => g₂.lineCount (g₁.lineCount hb)⟩,
      g₂.toExtends.has hd, hds⟩
    rw [g₂.size, g₁.size, List.length_cons]
    omega

end Builder

/-! ### Programs -/

/-- What a template's program has in common with the template. -/
structure Stmt.IsProgram (s : Stmt) (source : Source) (p : Program) : Prop where
  code : p.HasAll 0 s.drafts
  size : p.instructions.size = s.drafts.length
  lines : p.lines.size = p.instructions.size
  source : p.source = source
  registers : p.registerCount.toNat = s.registers
  limit : s.registers < operandLimit

theorem Program.compile_eq_ok {tree : Node} {source : Source} {p : Program}
    (h : Program.compile tree source = .ok p) :
    ∃ s, Stmt.ofNode false tree = .ok s ∧ s.program source = .ok p :=
  bind_eq_ok.1 h

theorem Program.exists_of_isOk {tree : Node} {source : Source}
    (h : (Program.compile tree source).isOk) : ∃ p, Program.compile tree source = .ok p := by
  cases hp : Program.compile tree source with
  | ok p => exact ⟨p, rfl⟩
  | error e =>
    rw [hp] at h
    cases h

theorem Stmt.program_spec {s : Stmt} {source : Source} {p : Program}
    (h : s.program source = .ok p) : s.IsProgram source p := by
  simp only [Stmt.program, bind, Except.bind] at h
  split at h
  · cases h
  · next hr =>
    split at h
    · cases h
    · next b hb =>
      cases h
      have hlimit : s.registers < operandLimit := by
        by_contra hlimit
        simp [show operandLimit ≤ s.registers by omega] at hr
      obtain ⟨g, hall⟩ := Builder.addAll_eq_ok hb rfl source
      have hregisters : b.registers = s.registers := g.registers
      have hsize : b.instructions.size = s.drafts.length := by simpa using g.size
      refine ⟨hall, hsize, g.lineCount rfl, rfl, ?_, hlimit⟩
      show (UInt64.ofNat b.registers).toNat = s.registers
      rw [hregisters, UInt64.toNat_ofNat']
      exact Nat.mod_eq_of_lt (Nat.lt_trans hlimit (by decide))

end Stencil
