/-!
# Operation codes

An instruction has an operation code and two operands, `a` and `b`. The kinds of the operands say
what their numbers mean.

* `Opcode`: the operation codes, in the order of their numbers;
* `Opcode.kinds`, `Opcode.isTargetFirst`: what the operands mean;
* `Opcode.extent`: how many registers after the first an instruction reads;
* `Opcode.name`, `Opcode.index`, `Opcode.ofName?`, `Opcode.ofIndex?`: names and numbers.
-/

namespace Stencil

/-- The numbers of operands are below this. -/
def operandLimit : Nat := 0x100000000

/-- What an operand means. -/
inductive OperandKind
  /-- Nothing; the operand is zero. -/
  | unused
  | register
  | pool
  /-- The number of an instruction. -/
  | target
  /-- The number itself. -/
  | immediate
  deriving DecidableEq

/-- The name of a kind of operand. -/
def OperandKind.name : OperandKind → String
  | unused => "Unused"
  | register => "Reg"
  | pool => "Pool"
  | target => "Target"
  | immediate => "Imm"

/-- What an instruction does. -/
inductive Opcode
  /-- Register `a` becomes `pool b`. -/
  | loadConst
  /-- Register `a` becomes `b`. -/
  | loadInt
  | loadTrue
  | loadFalse
  | loadNull
  /-- Register `a` becomes the variable named by `pool b`. -/
  | loadVar
  /-- Sets the variable named by `pool a` to register `b`. -/
  | setVar
  /-- Register `a` becomes register `b`. -/
  | move
  /-- Writes `pool a` out as it is. -/
  | appendText
  /-- Writes register `a` out, escaped unless it is raw. -/
  | append
  | add
  | subtract
  | multiply
  | divide
  | modulo
  | concat
  | equals
  | notEquals
  | gt
  | ge
  | lt
  | le
  | not
  /-- The test of an arm of a switch; does the same as `equals`. -/
  | test
  /-- Register `a` becomes the array of the `b` registers from `a` on. -/
  | array
  /-- Register `a` becomes the map of the `b` keys and values from `a` on. -/
  | map
  /-- Register `a` becomes the integers from `a` to `b`. -/
  | range
  /-- Register `a` becomes member `b` of `a`. -/
  | member
  | jump
  | jumpIfFalse
  | jumpIfTrue
  /-- Enters a loop along `a` and puts the first item there; goes to `b` if there is none. -/
  | iterStart
  /-- Puts the next item into `a` and goes to `b`; goes on if there is none. -/
  | iterNext
  /-- Leaves the innermost loop. -/
  | loopPop
  | loopCount
  | loopIndex
  | loopHasNext
  /-- Renders the template named by `a` with the same variables; register `a` becomes its
  output. -/
  | inclusion
  /-- The same with a copy of the variables, extended by the map in `b`. -/
  | inclusionWith
  /-- Register `a` becomes the length of the output. -/
  | markOutput
  /-- Renders the template named by `a` around the output since the mark in `b`. -/
  | wrap
  /-- Register `a` becomes the answer of the function named by `a` to the `b` registers from `a
  + 1` on. -/
  | call
  /-- Register `a` becomes the answer of the object in `a` to the method named by `a + 1` and
  the `b` registers from `a + 2` on. -/
  | method
  | lower
  | upper
  | form
  /-- Register `a` becomes the format in `a`, filled with the `b` registers from `a + 1` on. -/
  | format
  /-- Ends the program. -/
  | finish
  deriving DecidableEq, Inhabited

namespace Opcode

/-- All operation codes in the order of their numbers. -/
def all : List Opcode :=
  [.loadConst, .loadInt, .loadTrue, .loadFalse, .loadNull, .loadVar, .setVar, .move, .appendText,
   .append, .add, .subtract, .multiply, .divide, .modulo, .concat, .equals, .notEquals, .gt,
   .ge, .lt, .le, .not, .test, .array, .map, .range, .member, .jump, .jumpIfFalse, .jumpIfTrue,
   .iterStart, .iterNext, .loopPop, .loopCount, .loopIndex, .loopHasNext, .inclusion,
   .inclusionWith, .markOutput, .wrap, .call, .method, .lower, .upper, .form, .format, .finish]

/-- The name of an operation code in listings. -/
def name : Opcode → String
  | loadConst => "LOAD_CONST"
  | loadInt => "LOAD_INT"
  | loadTrue => "LOAD_TRUE"
  | loadFalse => "LOAD_FALSE"
  | loadNull => "LOAD_NULL"
  | loadVar => "LOAD_VAR"
  | setVar => "SET_VAR"
  | move => "MOVE"
  | appendText => "APPEND_RAW"
  | append => "APPEND"
  | add => "ADD"
  | subtract => "SUBTRACT"
  | multiply => "MULTIPLY"
  | divide => "DIVIDE"
  | modulo => "MODULO"
  | concat => "CONCAT"
  | equals => "EQUALS"
  | notEquals => "NOT_EQUALS"
  | gt => "GT"
  | ge => "GE"
  | lt => "LT"
  | le => "LE"
  | not => "NOT"
  | test => "MATCH"
  | array => "MAKE_ARRAY"
  | map => "MAKE_MAP"
  | range => "MAKE_RANGE"
  | member => "GET_ATTR"
  | jump => "JUMP"
  | jumpIfFalse => "JUMP_IF_FALSE"
  | jumpIfTrue => "JUMP_IF_TRUE"
  | iterStart => "ITER_START"
  | iterNext => "ITER_NEXT"
  | loopPop => "LOOP_POP"
  | loopCount => "LOOP_COUNT"
  | loopIndex => "LOOP_INDEX"
  | loopHasNext => "LOOP_HAS_NEXT"
  | inclusion => "INCLUDE"
  | inclusionWith => "INCLUDE_WITH"
  | markOutput => "MARK_OUTPUT"
  | wrap => "WRAP"
  | call => "FUNCALL"
  | method => "METHOD_CALL"
  | lower => "LC"
  | upper => "UC"
  | form => "URI_ESCAPE"
  | format => "SPRINTF"
  | finish => "RETURN"

/-- The number of an operation code. -/
def index (op : Opcode) : Nat := all.idxOf op

/-- The operation code with the given number. -/
def ofIndex? (n : Nat) : Option Opcode := all[n]?

/-- The operation code with the given name. -/
def ofName? (s : String) : Option Opcode := all.find? (·.name == s)

/-- What the operands `a` and `b` mean. -/
def kinds : Opcode → OperandKind × OperandKind
  | .loadConst | .loadVar => (.register, .pool)
  | .loadInt | .array | .map | .call | .method | .format => (.register, .immediate)
  | .loadTrue | .loadFalse | .loadNull | .append | .not | .loopCount | .loopIndex | .loopHasNext
  | .inclusion | .markOutput | .lower | .upper | .form => (.register, .unused)
  | .setVar => (.pool, .register)
  | .move | .add | .subtract | .multiply | .divide | .modulo | .concat | .equals | .notEquals
  | .gt | .ge | .lt | .le | .test | .range | .member | .inclusionWith | .wrap =>
    (.register, .register)
  | .appendText => (.pool, .unused)
  | .jump => (.target, .unused)
  | .jumpIfFalse | .jumpIfTrue | .iterStart | .iterNext => (.register, .target)
  | .loopPop | .finish => (.unused, .unused)

/-- How far the last register that an instruction reads lies behind register `a`, for the count
`b`. Like the numbers of operands it stays below `operandLimit`. -/
def extent (op : Opcode) (b : Nat) : Nat :=
  match op with
  | array => b - 1
  | map => min (2 * b) (operandLimit - 1) - 1
  | call | format => b
  | method => min (b + 1) (operandLimit - 1)
  | _ => 0

/-- Is the target of a jump operand `a` rather than `b`? -/
def isTargetFirst (op : Opcode) : Bool := op == jump

@[simp] theorem ofIndex?_index (op : Opcode) : ofIndex? op.index = some op := by
  cases op <;> decide

@[simp] theorem ofName?_name (op : Opcode) : ofName? op.name = some op := by cases op <;> decide

end Opcode

end Stencil
