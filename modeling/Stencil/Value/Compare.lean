import Stencil.Value.Basic

/-!
# Equality and order of values

* `Value.eq`: the relation behind `==`, `!=` and the arms of a switch. Integers and doubles are
  compared as doubles, plain and raw texts by their characters, maps without regard to the order of
  their keys, host objects by identity;
* `Value.compare`: the order behind `<`, `<=`, `>` and `>=`, on numbers, truth values and texts.
-/

namespace Stencil

/-- The double nearest to an integer. -/
def toDouble (n : Int64) : Float := Float.ofInt n.toInt

/-- Why two values have no order. -/
inductive OrderError
  | null
  | nan
  | mixed (left right : String)
  | unordered (type : String)
  deriving DecidableEq

namespace Value

mutual

/-- Are two values equal? -/
def eq : Value → Value → Bool
  | null, null => true
  | bool a, bool b => a == b
  | int a, int b => a == b
  | float a, float b => a == b
  | int a, float b => toDouble a == b
  | float a, int b => toDouble b == a
  | str a, str b => a == b
  | str a, raw b => a == b
  | raw a, str b => a == b
  | raw a, raw b => a == b
  | array as, array bs => eqItems as bs
  | map as, map bs => as.length == bs.length && eqEntries as bs
  | host _ a _ _, host _ b _ _ => a == b
  | _, _ => false

/-- Are two lists of the same length and equal item by item? -/
def eqItems : List Value → List Value → Bool
  | [], [] => true
  | a :: as, b :: bs => a.eq b && eqItems as bs
  | _, _ => false

/-- Is every entry found, with an equal value, in the other map? -/
def eqEntries : List (String × Value) → List (String × Value) → Bool
  | [], _ => true
  | (k, a) :: as, bs =>
    (match Bindings.get? bs k with
      | some b => a.eq b
      | none => false) && eqEntries as bs

end

/-- The order of two doubles, if neither is not-a-number. -/
def compareDoubles (a b : Float) : Except OrderError Ordering :=
  if a < b then .ok .lt
  else if a == b then .ok .eq
  else if b < a then .ok .gt
  else .error .nan

/-- The order of two values. -/
def compare : Value → Value → Except OrderError Ordering
  | int a, int b => .ok (Ord.compare a.toInt b.toInt)
  | int a, float b => compareDoubles (toDouble a) b
  | float a, int b => compareDoubles a (toDouble b)
  | float a, float b => compareDoubles a b
  | bool a, bool b => .ok (Ord.compare a b)
  | str a, str b => .ok (Ord.compare a b)
  | str a, raw b => .ok (Ord.compare a b)
  | raw a, str b => .ok (Ord.compare a b)
  | raw a, raw b => .ok (Ord.compare a b)
  | null, _ => .error .null
  | array _, _ => .error (.unordered "array")
  | map _, _ => .error (.unordered "map")
  | host type _ _ _, _ => .error (.unordered type)
  | a, b => .error (.mixed a.typeName b.typeName)

end Value

/-- The four tests of the order. -/
inductive OrderTest
  | gt
  | ge
  | lt
  | le
  deriving DecidableEq

/-- Does the test hold of two values in the given order? -/
def OrderTest.holds : OrderTest → Ordering → Bool
  | .gt, o => o == .gt
  | .ge, o => o != .lt
  | .lt, o => o == .lt
  | .le, o => o != .gt

end Stencil
