import Stencil.Value.Collection
import Stencil.Decimal.Numeral
import Stencil.Text.Case

/-!
# Methods of built-in values

Arrays, maps and texts answer a few methods of their own.

* `Value.method`: the answer of a built-in value;
* `Value.substr`: a part of a text, counted in characters.
-/

namespace Stencil.Value

/-- A number as an integer, if it fits. -/
def ofNat? (n : Nat) : Option Value := (Decimal.toWord? n).map int

/-- A count as a value; null stands for one that is too large. -/
def count (n : Nat) : Value := (ofNat? n).getD null

/-- The argument of `substr` at a position, which has to be an integer. -/
def substrArgument (args : List Value) (i : Nat) : Except MemberError (Option Int64) :=
  match args[i]? with
  | none => .ok none
  | some (int n) => .ok (some n)
  | some v => .error (.substrArgument v.typeName)

/-- The part of a text from a start on, of a given length or up to the end. A start that counts
back beyond the beginning is the beginning, and a negative length is zero. -/
def substr (s : String) (args : List Value) : Except MemberError Value := do
  match ← substrArgument args 0 with
  | none => throw .missingStart
  | some start =>
    let chars := s.toList
    let first := (position start chars.length).getD 0
    match ← substrArgument args 1 with
    | none => return str (String.ofList (chars.drop first))
    | some n => return str (String.ofList ((chars.drop first).take n.toInt.toNat))

/-- Refuses more than `most` arguments of the method `name`. -/
def atMost (most : Nat) (v : Value) (name : String) (args : List Value) :
    Except MemberError Unit :=
  if most < args.length then .error (.tooManyArguments v.typeName name most args.length)
  else .ok ()

/-- The text of an array's items with a separator, a blank if none is given, between them. -/
def join (items args : List Value) : Value :=
  str (((args.head?.map text).getD " ").intercalate (items.map text))

/-- The methods of arrays. -/
def arrayMethod (v : Value) (items : List Value) (name : String) (args : List Value) :
    Except MemberError Value :=
  match name with
  | "size" | "length" => do v.atMost 0 name args; return count items.length
  | "first" => do v.atMost 0 name args; return items.head?.getD null
  | "last" => do v.atMost 0 name args; return items.getLast?.getD null
  | "reverse" => do v.atMost 0 name args; return array items.reverse
  | "join" => do v.atMost 1 name args; return join items args
  | _ => .error (.noMethod v.typeName name)

/-- The methods of maps. -/
def mapMethod (v : Value) (entries : Bindings Value) (name : String) (args : List Value) :
    Except MemberError Value :=
  match name with
  | "size" | "length" => do v.atMost 0 name args; return count entries.length
  | "keys" => do v.atMost 0 name args; return array (entries.map fun p => str p.1)
  | "values" => do v.atMost 0 name args; return array (entries.map Prod.snd)
  | "exists" => do
    v.atMost 1 name args
    match args with
    | [] => throw .missingKey
    | key :: _ => return bool (entries.has key.text)
  | _ => .error (.noMethod v.typeName name)

/-- The methods of plain and raw texts. -/
def textMethod (v : Value) (s : String) (name : String) (args : List Value) :
    Except MemberError Value :=
  match name with
  | "size" | "length" => do v.atMost 0 name args; return count s.length
  | "upper" => do v.atMost 0 name args; return str (Text.upper s)
  | "lower" => do v.atMost 0 name args; return str (Text.lower s)
  | "substr" => do v.atMost 2 name args; substr s args
  | _ => .error (.noMethod v.typeName name)

/-- The answer of a built-in value to a method. -/
def method (v : Value) (name : String) (args : List Value) : Except MemberError Value :=
  match v with
  | array items => arrayMethod v items name args
  | map entries => mapMethod v entries name args
  | str s | raw s => textMethod v s name args
  | _ => .error (.noMethod v.typeName name)

end Stencil.Value
