import Stencil.Loader.Error
import Stencil.Format.Fill
import Stencil.Value.Collection

/-!
# Faults

What can stop a render, grouped by the side that is to blame.

* `TypeFault`, `LoadFault`, `InternalFault`: faults of values, of loading, and of the program
  itself;
* `Fault`: all faults, with `kind` and `message`.
-/

namespace Stencil

/-- Faults of values that do not fit what is done with them. -/
inductive TypeFault
  | arith (error : ArithError)
  | order (error : OrderError)
  | collection (error : CollectionError)
  | format (error : Format.FormatError)
  | nullFormat
  | noLoop (op : Opcode)
  deriving DecidableEq

/-- Faults of loading another template. -/
inductive LoadFault
  | nullName
  | load (error : LoadError)
  deriving DecidableEq

/-- Faults of a program that no template is compiled to. -/
inductive InternalFault
  | pastEnd (pc : Nat)
  | register (r : Nat)
  | run (first count : Nat)
  | pool (n : Nat)
  | notText (n : Nat) (c : Constant)
  | leaveWithoutLoop
  | advanceWithoutLoop
  | functionName (type : String)
  | methodName (type : String)
  | bindings
  | mark
  | mapTooLarge
  | outputTooLarge
  | loopTooLong
  deriving DecidableEq

/-- What can stop a render. -/
inductive Fault
  | type (fault : TypeFault)
  | member (error : MemberError)
  /-- A function of the host application refused. -/
  | function (name message : String)
  | load (fault : LoadFault)
  /-- Templates are nested as deep as allowed. -/
  | limit (most : Nat)
  | internal (fault : InternalFault)
  deriving DecidableEq

/-- The text of an error of arithmetic. -/
def ArithError.message : ArithError → String
  | leftOperand op type => s!"lhs for '{op.symbol}' must be Number, got {type}"
  | rightOperand op type => s!"rhs for '{op.symbol}' must be Number, got {type}"
  | divisionByZero op => s!"integer division by zero in '{op.symbol}'"
  | overflow op => s!"integer overflow in '{op.symbol}'"

/-- The text of an error of order. -/
def OrderError.message : OrderError → String
  | null => "cannot order null"
  | nan => "cannot order NaN"
  | mixed left right => s!"cannot compare {left} with {right}"
  | unordered type => s!"{type} is not orderable"

/-- The text of an error of a collection. -/
def CollectionError.message : CollectionError → String
  | rangeStart type =>
    s!"Left side of range construction operator should be Integer, got {type}"
  | rangeEnd type => s!"Right side of range construction operator should be Integer, got {type}"
  | nullKey => "map key is null"
  | arrayIndex type => s!"array index must be an integer, got {type}"
  | notIndexable type => s!"cannot index into {type}"
  | overNull => "cannot iterate over null"
  | notIterable type => s!"{type} is not iterable"

/-- How messages call what an instruction asks about a loop. -/
def loopFactName : Opcode → String
  | .loopCount => "loop.count"
  | .loopIndex => "loop.index"
  | _ => "loop.has_next"

/-- The text of a fault of values. -/
def TypeFault.message : TypeFault → String
  | arith error => error.message
  | order error => error.message
  | collection error => error.message
  | format error => error.message
  | nullFormat => "sprintf: format is null"
  | noLoop op => s!"{loopFactName op} used outside of FOREACH"

/-- The text of a fault of loading. -/
def LoadFault.message : LoadFault → String
  | nullName => "template name is null"
  | load error => error.message

/-- The text of a fault of the program. -/
def InternalFault.message : InternalFault → String
  | pastEnd pc => s!"pc {pc} past end of program"
  | register r => s!"register {r} out of range"
  | run first count => s!"register run {first}+{count} out of range"
  | pool n => s!"pool index {n} out of range"
  | notText n c => s!"pool entry {n} is {c.listing}, expected a string"
  | leaveWithoutLoop => "LOOP_POP with an empty loop stack"
  | advanceWithoutLoop => "ITER_NEXT with an empty loop stack"
  | functionName type => s!"function name is {type}"
  | methodName type => s!"method name is {type}"
  | bindings => "INCLUDE_WITH bindings are not a map"
  | mark => "WRAP output mark is invalid"
  | mapTooLarge => "map literal too large"
  | outputTooLarge => "output too large to mark"
  | loopTooLong => "loop too long"

/-- Which side is to blame for a fault. -/
inductive FaultKind
  | type
  | host
  | function
  | load
  | limit
  | internal
  deriving DecidableEq

/-- The name of a kind of fault. -/
def FaultKind.name : FaultKind → String
  | type => "type"
  | host => "host"
  | function => "function"
  | load => "load"
  | limit => "limit"
  | internal => "internal"

namespace Fault

/-- Which side is to blame. -/
def kind : Fault → FaultKind
  | type _ => .type
  | member _ => .host
  | function _ _ => .function
  | load _ => .load
  | limit _ => .limit
  | internal _ => .internal

/-- The text of a fault. -/
def message : Fault → String
  | type fault => fault.message
  | member error => error.message
  | function name message => s!"{name}: {message}"
  | load fault => fault.message
  | limit most => s!"include depth limit of {most} exceeded"
  | internal fault => fault.message

end Fault

end Stencil
