import Stencil.Value.Compare
import Stencil.Decimal.Numeral
import Stencil.Decimal.Binary

/-!
# Arithmetic

The five operators on numbers. Two integers give an integer, exactly or not at all; a double on
either side makes the result a double.
-/

namespace Stencil

/-- The arithmetic operators. -/
inductive ArithOp
  | add
  | subtract
  | multiply
  | divide
  | modulo
  deriving DecidableEq

/-- The sign of an operator, as messages show it. -/
def ArithOp.symbol : ArithOp → String
  | add => "+"
  | subtract => "-"
  | multiply => "*"
  | divide => "/"
  | modulo => "%"

/-- Why an operation has no result. -/
inductive ArithError
  | leftOperand (op : ArithOp) (type : String)
  | rightOperand (op : ArithOp) (type : String)
  | divisionByZero (op : ArithOp)
  | overflow (op : ArithOp)
  deriving DecidableEq

namespace Value

/-- The exact result on whole numbers; quotients are cut off after the point. The remainder counts
as out of range together with its quotient. -/
def exactResult (op : ArithOp) (x y : Int) : Int :=
  match op with
  | .add => x + y
  | .subtract => x - y
  | .multiply => x * y
  | .divide | .modulo => x.tdiv y

/-- An operator on integers. -/
def integerArith (op : ArithOp) (x y : Int64) : Except ArithError Int64 :=
  if (op = .divide ∨ op = .modulo) ∧ y = 0 then .error (.divisionByZero op)
  else
    match Decimal.toWord? (exactResult op x.toInt y.toInt) with
    | none => .error (.overflow op)
    | some n => .ok (if op = .modulo then Int64.ofInt (x.toInt.tmod y.toInt) else n)

/-- An operator on doubles. -/
def doubleArith : ArithOp → Float → Float → Float
  | .add, x, y => x + y
  | .subtract, x, y => x - y
  | .multiply, x, y => x * y
  | .divide, x, y => x / y
  | .modulo, x, y => Decimal.remainder x y

/-- An operator on values. A left operand that is no number is reported first. -/
def arith (op : ArithOp) : Value → Value → Except ArithError Value
  | int x, int y => int <$> integerArith op x y
  | int x, float y => .ok (float (doubleArith op (toDouble x) y))
  | float x, int y => .ok (float (doubleArith op x (toDouble y)))
  | float x, float y => .ok (float (doubleArith op x y))
  | int _, b => .error (.rightOperand op b.typeName)
  | float _, b => .error (.rightOperand op b.typeName)
  | a, _ => .error (.leftOperand op a.typeName)

end Value

end Stencil
