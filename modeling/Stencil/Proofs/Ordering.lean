import Stencil.Proofs.Instructions
import Stencil.Proofs.Rounding

/-!
# Order and equality together

Two values have an order if both are numbers, both are truth values or both are texts. The tests
of the order and the test for equality then say the same about them, whichever of the two is on
the left; on all other values every test of the order fails.

* `Value.AreOrdered`: the pairs of values that have an order;
* `Value.Ranks`: the order of two values, as all comparisons see it;
* `Value.AreOrdered.ranks`, `Value.areOrdered_of_compare`: the ordered values are those that can
  be compared;
* `Frame.order_coherent`: what the instructions answer about two values.
-/

namespace Stencil

namespace Value

/-! ### Values that have an order -/

/-- The integers, and the doubles that are numbers. -/
inductive IsNumber : Value → Prop
  | int (n : Int64) : IsNumber (.int n)
  | float {x : Float} (h : x.isNaN = false) : IsNumber (.float x)

/-- The truth values. -/
inductive IsTruth : Value → Prop
  | bool (t : Bool) : IsTruth (.bool t)

/-- The plain and the raw texts. -/
inductive IsText : Value → Prop
  | str (s : String) : IsText (.str s)
  | raw (s : String) : IsText (.raw s)

/-- Values that have an order. -/
inductive AreOrdered (a b : Value) : Prop
  | numbers (ha : a.IsNumber) (hb : b.IsNumber)
  | truths (ha : a.IsTruth) (hb : b.IsTruth)
  | texts (ha : a.IsText) (hb : b.IsText)

theorem AreOrdered.symm {a b : Value} (h : AreOrdered a b) : AreOrdered b a := by
  cases h with
  | numbers ha hb => exact .numbers hb ha
  | truths ha hb => exact .truths hb ha
  | texts ha hb => exact .texts hb ha

/-- All comparisons see the two values in the same order. -/
structure Ranks (a b : Value) (o : Ordering) : Prop where
  compare : a.compare b = .ok o
  equal : a.eq b = (o == .eq)

/-! ### Kinds of values -/

theorem compare_swap_and_beq {α : Type} [LinearOrder α] (x y : α) :
    Ord.compare y x = (Ord.compare x y).swap ∧ (x == y) = (Ord.compare x y == .eq) := by
  refine ⟨?_, ?_⟩
  · rw [← cmp_eq_compare, ← cmp_eq_compare, cmp_swap]
  · rw [Bool.eq_iff_iff, beq_iff_eq, beq_iff_eq, compare_eq_iff_eq]

theorem swap_beq_eq (o : Ordering) : (o.swap == .eq) = (o == .eq) := by cases o <;> rfl

/-- Two values of a type with a linear order rank as its elements do. -/
theorem ranks_of_linear {α : Type} [LinearOrder α] {a b : Value} {x y : α}
    (hab : a.compare b = .ok (Ord.compare x y)) (hba : b.compare a = .ok (Ord.compare y x))
    (heq : a.eq b = (x == y)) (heq' : b.eq a = (y == x)) : ∃ o, Ranks a b o ∧ Ranks b a o.swap := by
  obtain ⟨hswap, hbeq⟩ := compare_swap_and_beq x y
  obtain ⟨-, hbeq'⟩ := compare_swap_and_beq y x
  exact ⟨_, ⟨hab, heq.trans hbeq⟩, hswap ▸ ⟨hba, heq'.trans hbeq'⟩⟩

/-- Two numbers of which one is a double rank as doubles do. -/
theorem ranks_of_doubles {a b : Value} {x y : Float} (hx : x.isNaN = false) (hy : y.isNaN = false)
    (hab : a.compare b = compareDoubles x y) (hba : b.compare a = compareDoubles y x)
    (heq : a.eq b = (x == y)) (heq' : b.eq a = (x == y)) : ∃ o, Ranks a b o ∧ Ranks b a o.swap := by
  obtain ⟨o, ho⟩ : ∃ o, Double.order x y = some o := by
    rw [← Option.ne_none_iff_exists', Ne, Double.order_eq_none_iff, hx, hy]
    decide
  have hback : Double.order y x = some o.swap := by rw [Double.order_swap, ho]; rfl
  rw [Double.beq_eq, ho] at heq heq'
  rw [Double.compareDoubles_eq, ho] at hab
  rw [Double.compareDoubles_eq, hback] at hba
  exact ⟨o, ⟨hab, heq⟩, ⟨hba, heq'.trans (swap_beq_eq o).symm⟩⟩

/-- Ordered values can be compared from both sides. -/
theorem AreOrdered.ranks {a b : Value} (h : AreOrdered a b) :
    ∃ o, Ranks a b o ∧ Ranks b a o.swap := by
  cases h with
  | numbers ha hb =>
    cases ha with
    | int n =>
      cases hb with
      | int k =>
        have hbeq : ∀ n k : Int64, (n == k) = (n.toInt == k.toInt) := fun n k => by
          rw [Bool.eq_iff_iff, beq_iff_eq, beq_iff_eq, Int64.toInt_inj]
        exact ranks_of_linear rfl rfl (by rw [eq, hbeq]) (by rw [eq, hbeq])
      | float hy =>
        exact ranks_of_doubles (Double.isNaN_toDouble n) hy rfl rfl (by rw [eq]) (by rw [eq])
    | float hx =>
      cases hb with
      | int k =>
        exact ranks_of_doubles hx (Double.isNaN_toDouble k) rfl rfl
          (by rw [eq, Double.beq_comm]) (by rw [eq, Double.beq_comm])
      | float hy =>
        exact ranks_of_doubles hx hy rfl rfl (by rw [eq]) (by rw [eq, Double.beq_comm])
  | truths ha hb =>
    cases ha with
    | bool s =>
      cases hb with
      | bool t => exact ranks_of_linear rfl rfl (by rw [eq]) (by rw [eq])
  | texts ha hb =>
    cases ha with
    | str s | raw s =>
      cases hb with
      | str t | raw t => exact ranks_of_linear rfl rfl (by rw [eq]) (by rw [eq])

theorem isNaN_of_compareDoubles {x y : Float} {o : Ordering} (h : compareDoubles x y = .ok o) :
    x.isNaN = false ∧ y.isNaN = false := by
  rw [Double.compareDoubles_eq] at h
  cases horder : Double.order x y with
  | none => rw [horder] at h; cases h
  | some o =>
    have hnumbers := mt Double.order_eq_none_iff.2 (by rw [horder]; exact Option.some_ne_none o)
    rwa [not_or, Bool.not_eq_true, Bool.not_eq_true] at hnumbers

/-- Only ordered values can be compared. -/
theorem areOrdered_of_compare {a b : Value} {o : Ordering} (h : a.compare b = .ok o) :
    AreOrdered a b := by
  unfold compare at h
  split at h
  · exact .numbers (.int _) (.int _)
  · exact .numbers (.int _) (.float (isNaN_of_compareDoubles h).2)
  · exact .numbers (.float (isNaN_of_compareDoubles h).1) (.int _)
  · exact .numbers (.float (isNaN_of_compareDoubles h).1) (.float (isNaN_of_compareDoubles h).2)
  · exact .truths (.bool _) (.bool _)
  · exact .texts (.str _) (.str _)
  · exact .texts (.str _) (.raw _)
  · exact .texts (.raw _) (.str _)
  · exact .texts (.raw _) (.raw _)
  all_goals cases h

end Value

/-! ### The answers of instructions -/

namespace Frame

variable {f : Frame} {x y : UInt32} {a b : Value}

theorem sets_order {o : Ordering} (test : OrderTest) (ha : f.registers[x.toNat]? = some a)
    (hb : f.registers[y.toNat]? = some b) (h : a.compare b = .ok o) :
    f.Sets ⟨(BinaryOp.order test).opcode, x, y⟩ (.bool (test.holds o)) := by
  intro hosts functions vars
  rw [action_binary (.order test) rfl rfl ha hb, BinaryOp.apply, h]
  rfl

theorem refuses_order (test : OrderTest) (ha : f.registers[x.toNat]? = some a)
    (hb : f.registers[y.toNat]? = some b) (h : ¬Value.AreOrdered a b) :
    ∃ e, f.Refuses ⟨(BinaryOp.order test).opcode, x, y⟩ (.type (.order e)) := by
  cases hcompare : a.compare b with
  | ok o => exact absurd (Value.areOrdered_of_compare hcompare) h
  | error e =>
    refine ⟨e, fun hosts functions vars => ?_⟩
    rw [action_binary (.order test) rfl rfl ha hb, BinaryOp.apply, hcompare]
    rfl

theorem sets_equals (ha : f.registers[x.toNat]? = some a)
    (hb : f.registers[y.toNat]? = some b) : f.Sets ⟨.equals, x, y⟩ (.bool (a.eq b)) :=
  fun _ _ _ => action_binary .equals rfl rfl ha hb

/-- The tests of two registers fit together: one of less, equal and greater holds, and the two
other tests are the negations of less and greater. -/
structure Coheres (f : Frame) (x y : UInt32) (less equal greater : Bool) : Prop where
  lt : f.Sets ⟨.lt, x, y⟩ (.bool less)
  gt : f.Sets ⟨.gt, x, y⟩ (.bool greater)
  le : f.Sets ⟨.le, x, y⟩ (.bool !greater)
  ge : f.Sets ⟨.ge, x, y⟩ (.bool !less)
  equals : f.Sets ⟨.equals, x, y⟩ (.bool equal)
  single : [less, equal, greater].count true = 1

theorem coheres_of_ranks {o : Ordering} (ha : f.registers[x.toNat]? = some a)
    (hb : f.registers[y.toNat]? = some b) (h : a.Ranks b o) :
    f.Coheres x y (o == .lt) (o == .eq) (o == .gt) where
  lt := sets_order .lt ha hb h.compare
  gt := sets_order .gt ha hb h.compare
  le := sets_order .le ha hb h.compare
  ge := sets_order .ge ha hb h.compare
  equals := h.equal ▸ sets_equals ha hb
  single := by cases o <;> rfl

/-- No test of the order of two registers answers. -/
def RefusesOrder (f : Frame) (x y : UInt32) : Prop :=
  ∀ op ∈ [Opcode.lt, .gt, .le, .ge], ∃ e, f.Refuses ⟨op, x, y⟩ (.type (.order e))

theorem refusesOrder_of_not_areOrdered (ha : f.registers[x.toNat]? = some a)
    (hb : f.registers[y.toNat]? = some b) (h : ¬Value.AreOrdered a b) : f.RefusesOrder x y := by
  simp only [RefusesOrder, List.forall_mem_cons]
  exact ⟨refuses_order .lt ha hb h, refuses_order .gt ha hb h, refuses_order .le ha hb h,
    refuses_order .ge ha hb h, List.forall_mem_nil _⟩

/-- All tests of the order of two values answer, and fit together and with the test for equality,
if the values have an order. Otherwise all of them fail. -/
theorem order_coherent (ha : f.registers[x.toNat]? = some a)
    (hb : f.registers[y.toNat]? = some b) :
    (Value.AreOrdered a b →
      ∃ less equal greater, f.Coheres x y less equal greater ∧ f.Coheres y x greater equal less) ∧
    (¬Value.AreOrdered a b → f.RefusesOrder x y ∧ f.RefusesOrder y x) := by
  refine ⟨fun h => ?_, fun h => ?_⟩
  · obtain ⟨o, hranks, hback⟩ := h.ranks
    have hcoheres := coheres_of_ranks hb ha hback
    refine ⟨o == .lt, o == .eq, o == .gt, coheres_of_ranks ha hb hranks, ?_⟩
    cases o <;> exact hcoheres
  · exact ⟨refusesOrder_of_not_areOrdered ha hb h,
      refusesOrder_of_not_areOrdered hb ha (mt Value.AreOrdered.symm h)⟩

theorem order_coherent_mixed :
    (∃ less equal greater, (holding #[.int 1, .float 1.5]).Coheres 0 1 less equal greater ∧
      (holding #[.int 1, .float 1.5]).Coheres 1 0 greater equal less) ∧
    (holding #[.null, .int 1]).RefusesOrder 0 1 ∧ (holding #[.null, .int 1]).RefusesOrder 1 0 := by
  refine ⟨(order_coherent rfl rfl).1 (.numbers (.int 1) (.float (by decide +kernel))),
    (order_coherent rfl rfl).2 ?_⟩
  rintro (⟨⟨⟩, -⟩ | ⟨⟨⟩, -⟩ | ⟨⟨⟩, -⟩)

end Frame

end Stencil
