import Stencil.Value.Basic
import Stencil.Text.Basic

/-!
# What the host application offers

Templates reach the objects of the host application by the fields, the methods and the items of
their types, and its functions by name. A member of a type reads the state that an object carries,
and gives nothing for an object whose state is not the kind it expects.

* `MemberError`: why a field cannot be read or a method cannot be called;
* `HostTypes.field`, `HostTypes.call`, `HostTypes.items?`: the three uses of an object;
* `Function`, `Functions`: a function answers its arguments with a value or with a message that says
  why it has none;
* `HostType.describe`, `Functions.describe`: descriptions that list names.
-/

namespace Stencil

/-! ### Members that are not there -/

/-- Why a field or a method gives no value. -/
inductive MemberError
  | noField (type name : String)
  | noMethod (type name : String)
  /-- The method of a host object refused. -/
  | methodFailed (type name message : String)
  | tooManyArguments (type name : String) (most given : Nat)
  /-- `exists` was asked without a key. -/
  | missingKey
  /-- `substr` was asked without a start. -/
  | missingStart
  | substrArgument (type : String)
  | fieldName (type : String)
  | methodOfNull (name : String)
  deriving DecidableEq

/-- The text of the error. -/
def MemberError.message : MemberError → String
  | noField type name => s!"{type} has no field '{name}'"
  | noMethod type name => s!"{type} has no method '{name}'"
  | methodFailed type name message => s!"{type}.{name}: {message}"
  | tooManyArguments type name most given =>
    s!"{type}.{name} takes at most {most} argument(s) but {given} were given"
  | missingKey => "map.exists takes 1 argument(s) but 0 were given"
  | missingStart => "string.substr takes 1 or 2 argument(s) but 0 were given"
  | substrArgument type => s!"string.substr expects integer arguments, got {type}"
  | fieldName type => s!"attribute name must be a string, got {type}"
  | methodOfNull name => s!"cannot call method '{name}' on null"

/-! ### Objects -/

/-- What templates can reach of the objects of one type. -/
structure HostType where
  name : String
  fields : Bindings (Value → Option Value) := []
  methods : Bindings (Value → List Value → Option (Except String Value)) := []
  /-- What a loop over an object walks along, if the type allows loops at all. -/
  items : Option (Value → Option (List Value)) := none

namespace HostType

/-- A description of the type that lists its members. -/
def describe (t : HostType) : String :=
  "TypeDescriptor \x7b name: " ++ Text.quoted t.name
    ++ ", fields: " ++ Text.nameList t.fields.names
    ++ ", methods: " ++ Text.nameList t.methods.names
    ++ ", iterable: " ++ (if t.items.isSome then "true" else "false") ++ " \x7d"

end HostType

/-- The types of the host application, by name. -/
abbrev HostTypes := Bindings HostType

namespace HostTypes

/-- The field of an object of the given type and state. -/
def field (types : HostTypes) (type : String) (state : Value) (name : String) :
    Except MemberError Value :=
  match (types.get? type).bind fun t => (t.fields.get? name).bind fun read => read state with
  | some value => .ok value
  | none => .error (.noField type name)

/-- The answer of a method of an object of the given type and state. -/
def call (types : HostTypes) (type : String) (state : Value) (name : String) (args : List Value) :
    Except MemberError Value :=
  match (types.get? type).bind fun t => (t.methods.get? name).bind fun run => run state args with
  | some (.ok value) => .ok value
  | some (.error message) => .error (.methodFailed type name message)
  | none => .error (.noMethod type name)

/-- What a loop over an object of the given type and state walks along. -/
def items? (types : HostTypes) (type : String) (state : Value) : Option (List Value) :=
  (types.get? type).bind fun t => t.items.bind fun list => list state

end HostTypes

/-! ### Functions -/

/-- A function that templates may call. -/
abbrev Function := List Value → Except String Value

/-- The functions of a renderer, by name. -/
abbrev Functions := Bindings Function

/-- A description of the table that lists its names. -/
def Functions.describe (functions : Functions) : String :=
  "FunctionRegistry \x7b functions: " ++ Text.nameList functions.names ++ " \x7d"

end Stencil
