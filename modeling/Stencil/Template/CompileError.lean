import Stencil.Tree.Tag

/-!
# Why a tree is no template

* `Reason`: what is wrong with a node;
* `Extent`: what a program can have too much of;
* `CompileError`: the errors of compilation, with `message` and `line?`.
-/

namespace Stencil

/-- What is wrong with a node. -/
inductive Reason
  | badInteger (text : String)
  | badDouble (text : String)
  | missingChild (index : Nat)
  | statementAsValue
  | unpairedMap
  | unpairedBindings
  | notAnArm
  | armShape
  | armOutsideSwitch
  | jumpOutsideLoop
  | methodName
  | notCallable (callee : Tag)
  deriving DecidableEq

/-- The text of a reason. -/
def Reason.message : Reason → String
  | badInteger text => s!"invalid integer literal '{text}'"
  | badDouble text => s!"invalid double literal '{text}'"
  | missingChild index => s!"missing child {index}"
  | statementAsValue => "statement used as a value"
  | unpairedMap => "map literal needs key/value pairs"
  | unpairedBindings => "INCLUDE WITH needs name/value pairs"
  | notAnArm => "SWITCH may only contain CASE arms"
  | armShape => "CASE takes an optional condition and a body"
  | armOutsideSwitch => "CASE outside of SWITCH"
  | jumpOutsideLoop => "LAST/NEXT outside of a loop"
  | methodName => "method name must be a plain name"
  | notCallable callee => s!"cannot call a '{callee.name}' node"

/-- What a program can have too much of. -/
inductive Extent
  | registers
  | pool
  | target
  | count
  deriving DecidableEq

/-- How messages call an extent. -/
def Extent.name : Extent → String
  | registers => "register count"
  | pool => "constant pool"
  | target => "jump target"
  | count => "element count"

/-- The number of arguments that a built-in function takes. -/
inductive Arity
  | one
  | atLeastOne
  deriving DecidableEq

/-- How messages call a number of arguments. -/
def Arity.name : Arity → String
  | one => "1"
  | atLeastOne => "at least 1"

/-- Why a tree cannot be compiled. -/
inductive CompileError
  | arity (function : String) (expected : Arity) (found : Nat) (line : UInt32)
  /-- The node only makes a value, and the value would be lost. -/
  | voidContext (tag : Tag) (line : UInt32)
  | unsupported (tag : Tag) (reason : Reason) (line : UInt32)
  | tooLarge (what : Extent)
  deriving DecidableEq

namespace CompileError

/-- The text of the error. -/
def message : CompileError → String
  | arity function expected found line =>
    s!"line {line.toNat}: '{function}' takes {expected.name} argument(s) but {found} were given"
  | voidContext tag line => s!"line {line.toNat}: '{tag.name}' in void context"
  | unsupported tag reason line =>
    s!"line {line.toNat}: unsupported '{tag.name}' node: {reason.message}"
  | tooLarge what => s!"template too large: {what.name} exceeds operand range"

/-- The line of the node at fault. -/
def line? : CompileError → Option UInt32
  | arity _ _ _ line => some line
  | voidContext _ line => some line
  | unsupported _ _ line => some line
  | tooLarge _ => none

end CompileError

end Stencil
