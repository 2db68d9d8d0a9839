import Mathlib.Data.Int.Basic
import Stencil.Proofs.Instructions

/-!
# Exact arithmetic

Two integers make the integer that the operator makes of them in mathematics, or no value at all:
a result that does not fit 64 bits is an error and never another integer. A quotient and its
remainder exist together or fail together.

* `Decimal.IsWord`: the integers that fit;
* `Value.IsDivision`: a division that is cut off after the point;
* `Value.integerArith_whole`, `Value.integerArith_divides`: the operators on two integers;
* `Frame.Computes`: what an instruction makes of two registers;
* `Frame.arith_exact`: the arithmetic instructions on all values.
-/

namespace Stencil

/-! ### Words -/

namespace Decimal

/-- The integer fits a word of 64 bits. -/
def IsWord (n : Int) : Prop := Int64.minValue.toInt ≤ n ∧ n ≤ Int64.maxValue.toInt

theorem isWord_iff {n : Int} : IsWord n ↔ -0x8000000000000000 ≤ n ∧ n < 0x8000000000000000 := by
  have hmin : Int64.minValue.toInt = -0x8000000000000000 := by decide
  have hmax : Int64.maxValue.toInt = 0x7FFFFFFFFFFFFFFF := by decide
  rw [IsWord, hmin, hmax]
  omega

theorem toInt_ofInt {n : Int} (h : IsWord n) : (Int64.ofInt n).toInt = n := by
  rw [isWord_iff] at h
  exact Int64.toInt_ofInt_of_le (by omega) (by omega)

theorem toWord?_eq_some {n : Int} (h : IsWord n) : toWord? n = some (Int64.ofInt n) :=
  if_pos (isWord_iff.1 h)

theorem toWord?_eq_none {n : Int} (h : ¬IsWord n) : toWord? n = none :=
  if_neg (mt isWord_iff.2 h)

theorem isWord_toInt (x : Int64) : IsWord x.toInt := ⟨x.minValue_le_toInt, x.toInt_le⟩

/-- A remainder is smaller than a word. -/
theorem isWord_tmod (x : Int) {y : Int64} (hy : y ≠ 0) : IsWord (x.tmod y.toInt) := by
  have hpos : 0 < y.toInt.natAbs := Int.natAbs_pos.2 fun h => hy (Int64.toInt_inj.1 h)
  have hsmall : (x.tmod y.toInt).natAbs < y.toInt.natAbs := by
    rw [Int.natAbs_tmod]
    exact Nat.mod_lt _ hpos
  have hword := isWord_iff.1 (isWord_toInt y)
  exact isWord_iff.2 (by omega)

end Decimal

open Decimal (IsWord)

/-! ### Operators on integers -/

namespace Value

/-- The division of `n` by `k` that is cut off after the point. -/
structure IsDivision (n k quotient remainder : Int) : Prop where
  sum : quotient * k + remainder = n
  small : remainder.natAbs < k.natAbs
  truncated : quotient = n.tdiv k
  sign : remainder = 0 ∨ remainder.sign = n.sign

theorem sign_tmod (n k : Int) : n.tmod k = 0 ∨ (n.tmod k).sign = n.sign := by
  rcases Int.lt_trichotomy n 0 with hn | rfl | hn
  · have hneg := Int.tmod_nonneg k (show 0 ≤ -n by omega)
    rw [Int.neg_tmod] at hneg
    rcases Int.lt_or_eq_of_le (show n.tmod k ≤ 0 by omega) with h | h
    · exact .inr (by rw [Int.sign_eq_neg_one_of_neg h, Int.sign_eq_neg_one_of_neg hn])
    · exact .inl h
  · exact .inl (Int.zero_tmod k)
  · rcases Int.lt_or_eq_of_le (Int.tmod_nonneg k (Int.le_of_lt hn)) with h | h
    · exact .inr (by rw [Int.sign_eq_one_of_pos h, Int.sign_eq_one_of_pos hn])
    · exact .inl h.symm

theorem isDivision {k : Int} (n : Int) (hk : k ≠ 0) :
    IsDivision n k (n.tdiv k) (n.tmod k) where
  sum := by rw [Int.mul_comm]; exact Int.mul_tdiv_add_tmod n k
  small := by
    rw [Int.natAbs_tmod]
    exact Nat.mod_lt _ (Int.natAbs_pos.2 hk)
  truncated := rfl
  sign := sign_tmod n k

/-- A sum, difference or product is exact if it fits, and an error otherwise. -/
theorem integerArith_whole {op : ArithOp} (hop : ¬(op = .divide ∨ op = .modulo)) (x y : Int64) :
    (IsWord (exactResult op x.toInt y.toInt) →
        integerArith op x y = .ok (Int64.ofInt (exactResult op x.toInt y.toInt))) ∧
      (¬IsWord (exactResult op x.toInt y.toInt) → integerArith op x y = .error (.overflow op)) := by
  have hmod : op ≠ .modulo := fun h => hop (.inr h)
  rw [integerArith, if_neg fun hzero => hop hzero.1]
  refine ⟨fun hword => ?_, fun hword => ?_⟩
  · rw [Decimal.toWord?_eq_some hword]
    exact congrArg Except.ok (if_neg hmod)
  · rw [Decimal.toWord?_eq_none hword]

/-- Both parts of a division by zero are errors. -/
theorem integerArith_zero (op : ArithOp) (hop : op = .divide ∨ op = .modulo) (x : Int64) :
    integerArith op x 0 = .error (.divisionByZero op) := if_pos ⟨hop, rfl⟩

/-- Both parts of a division are errors if the quotient does not fit. -/
theorem integerArith_tooLarge (op : ArithOp) (hop : op = .divide ∨ op = .modulo) {x y : Int64}
    (hy : y ≠ 0) (h : ¬IsWord (x.toInt.tdiv y.toInt)) :
    integerArith op x y = .error (.overflow op) := by
  have hexact : exactResult op x.toInt y.toInt = x.toInt.tdiv y.toInt := by
    rcases hop with rfl | rfl <;> rfl
  rw [integerArith, if_neg fun hzero => hy hzero.2, hexact, Decimal.toWord?_eq_none h]

/-- Both parts of any other division are exact. -/
theorem integerArith_divides {x y : Int64} (hy : y ≠ 0) (h : IsWord (x.toInt.tdiv y.toInt)) :
    ∃ q r, integerArith .divide x y = .ok q ∧ integerArith .modulo x y = .ok r ∧
      IsDivision x.toInt y.toInt q.toInt r.toInt := by
  refine ⟨Int64.ofInt (x.toInt.tdiv y.toInt), Int64.ofInt (x.toInt.tmod y.toInt), ?_, ?_, ?_⟩
  · rw [integerArith, if_neg fun hzero => hy hzero.2, exactResult, Decimal.toWord?_eq_some h]
    rfl
  · rw [integerArith, if_neg fun hzero => hy hzero.2, exactResult, Decimal.toWord?_eq_some h]
    rfl
  · rw [Decimal.toInt_ofInt h, Decimal.toInt_ofInt (Decimal.isWord_tmod _ hy)]
    exact isDivision _ fun hzero => hy (Int64.toInt_inj.1 hzero)

/-! ### Operators on all values -/

/-- The integers and the doubles, which arithmetic is about. -/
inductive IsOperand : Value → Prop
  | int (n : Int64) : IsOperand (.int n)
  | float (x : Float) : IsOperand (.float x)

theorem arith_leftOperand (op : ArithOp) {a : Value} (b : Value) (ha : ¬a.IsOperand) :
    arith op a b = .error (.leftOperand op a.typeName) := by
  cases a with
  | int n => exact absurd (.int n) ha
  | float x => exact absurd (.float x) ha
  | _ => rfl

theorem arith_rightOperand (op : ArithOp) {a b : Value} (ha : a.IsOperand) (hb : ¬b.IsOperand) :
    arith op a b = .error (.rightOperand op b.typeName) := by
  cases b with
  | int n => exact absurd (.int n) hb
  | float x => exact absurd (.float x) hb
  | _ => cases ha <;> rfl

end Value

/-! ### Arithmetic instructions -/

namespace Frame

/-- A result is written into a register, and nothing else is done. An error is a fault, so that
there is no action at all. -/
def arithAction (r : Nat) : Except ArithError Value → Except Fault Action
  | .ok v => .ok (.store [] r v)
  | .error e => .error (.type (.arith e))

/-- The frame goes on with the result in a register, or stops where it is and as it is. -/
def arithStep {σ : Type} (f : Frame) (w : World σ) (r : Nat) : Except ArithError Value → Step σ
  | .ok v => .next (f.put r v).advance w
  | .error e => .fault (.type (.arith e)) f.program f.pc w

/-- What an arithmetic instruction makes of two registers. The world is as it was but for the
record of the step. -/
structure Computes (f : Frame) (op : ArithOp) (x y : UInt32) (result : Except ArithError Value) :
    Prop where
  action : ∀ hosts functions vars,
    f.action hosts functions vars ⟨(BinaryOp.arith op).opcode, x, y⟩ = arithAction x.toNat result
  step : ∀ {σ : Type} (ctx : Context σ) (w : World σ),
    f.program.instructions[f.pc]? = some ⟨(BinaryOp.arith op).opcode, x, y⟩ →
      f.step ctx w = f.arithStep
        (w.note (.instruction f.pc (BinaryOp.arith op).opcode f.loops.length)) x.toNat result

variable {f : Frame} {x y : UInt32} {a b : Value}

theorem computes (op : ArithOp) (ha : f.registers[x.toNat]? = some a)
    (hb : f.registers[y.toNat]? = some b) : f.Computes op x y (a.arith op b) := by
  have haction : ∀ hosts functions vars,
      f.action hosts functions vars ⟨(BinaryOp.arith op).opcode, x, y⟩ =
        arithAction x.toNat (a.arith op b) := by
    intro hosts functions vars
    rw [action_binary (.arith op) rfl rfl ha hb, BinaryOp.apply]
    cases a.arith op b <;> rfl
  refine ⟨haction, fun ctx w hi => ?_⟩
  have hstep := haction ctx.hosts ctx.functions w.vars
  generalize a.arith op b = result at hstep ⊢
  cases result with
  | ok v => exact step_of_ok hi hstep
  | error e => exact step_of_error hi hstep

/-- The instruction writes the exact integer, or fails because it does not fit. -/
def ComputesInteger (f : Frame) (op : ArithOp) (x y : UInt32) (exact : Int) : Prop :=
  (IsWord exact → ∃ n : Int64, n.toInt = exact ∧ f.Computes op x y (.ok (.int n))) ∧
    (¬IsWord exact → f.Computes op x y (.error (.overflow op)))

/-- All five instructions on two integers. -/
structure ComputesExactly (f : Frame) (x y : UInt32) (n k : Int64) : Prop where
  add : f.ComputesInteger .add x y (n.toInt + k.toInt)
  subtract : f.ComputesInteger .subtract x y (n.toInt - k.toInt)
  multiply : f.ComputesInteger .multiply x y (n.toInt * k.toInt)
  byZero : k = 0 → f.Computes .divide x y (.error (.divisionByZero .divide)) ∧
    f.Computes .modulo x y (.error (.divisionByZero .modulo))
  tooLarge : k ≠ 0 → ¬IsWord (n.toInt.tdiv k.toInt) →
    f.Computes .divide x y (.error (.overflow .divide)) ∧
      f.Computes .modulo x y (.error (.overflow .modulo))
  divides : k ≠ 0 → IsWord (n.toInt.tdiv k.toInt) →
    ∃ q r : Int64, f.Computes .divide x y (.ok (.int q)) ∧ f.Computes .modulo x y (.ok (.int r)) ∧
      Value.IsDivision n.toInt k.toInt q.toInt r.toInt

section Integers
variable {n k : Int64}

theorem computes_integer {op : ArithOp} {result : Except ArithError Int64}
    (hn : f.registers[x.toNat]? = some (.int n)) (hk : f.registers[y.toNat]? = some (.int k))
    (h : Value.integerArith op n k = result) : f.Computes op x y (result.map .int) :=
  h ▸ computes op hn hk

theorem computesInteger (op : ArithOp) (hop : ¬(op = .divide ∨ op = .modulo))
    (hn : f.registers[x.toNat]? = some (.int n)) (hk : f.registers[y.toNat]? = some (.int k)) :
    f.ComputesInteger op x y (Value.exactResult op n.toInt k.toInt) := by
  obtain ⟨hfits, hlarge⟩ := Value.integerArith_whole hop n k
  exact ⟨fun hword => ⟨_, Decimal.toInt_ofInt hword, computes_integer hn hk (hfits hword)⟩,
    fun hword => computes_integer hn hk (hlarge hword)⟩

theorem computesExactly (hn : f.registers[x.toNat]? = some (.int n))
    (hk : f.registers[y.toNat]? = some (.int k)) : f.ComputesExactly x y n k where
  add := computesInteger .add (by decide) hn hk
  subtract := computesInteger .subtract (by decide) hn hk
  multiply := computesInteger .multiply (by decide) hn hk
  byZero hzero := by
    subst hzero
    exact ⟨computes_integer hn hk (Value.integerArith_zero _ (.inl rfl) n),
      computes_integer hn hk (Value.integerArith_zero _ (.inr rfl) n)⟩
  tooLarge hnonzero hlarge :=
    ⟨computes_integer hn hk (Value.integerArith_tooLarge _ (.inl rfl) hnonzero hlarge),
      computes_integer hn hk (Value.integerArith_tooLarge _ (.inr rfl) hnonzero hlarge)⟩
  divides hnonzero hword := by
    obtain ⟨q, r, hq, hr, hdivision⟩ := Value.integerArith_divides hnonzero hword
    exact ⟨q, r, computes_integer hn hk hq, computes_integer hn hk hr, hdivision⟩

end Integers

/-- Arithmetic on two registers is exact on integers or fails. It refuses whatever is no number,
and blames the left operand if both are none. -/
theorem arith_exact (ha : f.registers[x.toNat]? = some a) (hb : f.registers[y.toNat]? = some b) :
    (∀ n k, a = .int n → b = .int k → f.ComputesExactly x y n k) ∧
    (¬a.IsOperand → ∀ op, f.Computes op x y (.error (.leftOperand op a.typeName))) ∧
    (a.IsOperand → ¬b.IsOperand →
      ∀ op, f.Computes op x y (.error (.rightOperand op b.typeName))) := by
  refine ⟨?_, fun hleft op => ?_, fun hleft hright op => ?_⟩
  · rintro n k rfl rfl
    exact computesExactly ha hb
  · exact Value.arith_leftOperand op b hleft ▸ computes op ha hb
  · exact Value.arith_rightOperand op hleft hright ▸ computes op ha hb

/-- The least integer has no quotient by minus one, and a text is blamed before null. -/
theorem arith_exact_least :
    (holding #[.int Int64.minValue, .int (-1)]).ComputesExactly 0 1 Int64.minValue (-1) ∧
      ¬IsWord (Int64.minValue.toInt.tdiv (-1 : Int64).toInt) ∧
      ∀ op, (holding #[.str "a", .null]).Computes op 0 1 (.error (.leftOperand op "string")) :=
  ⟨(arith_exact rfl rfl).1 _ _ rfl rfl, by rw [Decimal.isWord_iff]; decide,
    (arith_exact (a := .str "a") (b := .null) rfl rfl).2.1 nofun⟩

end Frame

end Stencil
