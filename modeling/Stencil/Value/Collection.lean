import Stencil.Value.Text
import Stencil.Host

/-!
# Collections

Ranges, maps, indexing, and the items that a loop walks along.

* `Value.range`: the integers from one bound to the other, both included;
* `Value.mapOf`: the map that arises from keys and values in turn;
* `Value.position`: the position of an index that may count from the end;
* `Value.items`: the items of an array, the keys of a map, the items of a host object.
-/

namespace Stencil

/-- Why a collection cannot be built, indexed or walked along. -/
inductive CollectionError
  | rangeStart (type : String)
  | rangeEnd (type : String)
  | nullKey
  | arrayIndex (type : String)
  | notIndexable (type : String)
  | overNull
  | notIterable (type : String)
  deriving DecidableEq

namespace Value

/-- The integers from `low` to `high`, both included. -/
def integersFrom (low high : Int64) : List Value :=
  (List.range (high.toInt - low.toInt + 1).toNat).map fun i => int (low + Int64.ofNat i)

/-- The range between two values. -/
def range : Value → Value → Except CollectionError Value
  | int low, int high => .ok (array (integersFrom low high))
  | int _, b => .error (.rangeEnd b.typeName)
  | a, _ => .error (.rangeStart a.typeName)

/-- Writes keys and values, which take turns, into a map. The text of a key is its name. -/
def addPairs : Bindings Value → List Value → Except CollectionError (Bindings Value)
  | entries, key :: value :: rest =>
    if key.isNull then .error .nullKey else addPairs (entries.set key.text value) rest
  | entries, _ => .ok entries

/-- The map of keys and values, which take turns. -/
def mapOf (pairs : List Value) : Except CollectionError Value := map <$> addPairs [] pairs

/-- The position of an index in a list of the given length; a negative one counts from the end. -/
def position (index : Int64) (length : Nat) : Option Nat :=
  if 0 ≤ index.toInt then some index.toInt.toNat
  else if index.toInt.natAbs ≤ length then some (length - index.toInt.natAbs)
  else none

/-- The item of an array at an index, null where there is none. -/
def item (items : List Value) (index : Int64) : Value :=
  ((position index items.length).bind (items[·]?)).getD null

/-- What a loop over a value walks along. -/
def items (types : HostTypes) : Value → Except CollectionError (List Value)
  | array items => .ok items
  | map entries => .ok (entries.map fun p => str p.1)
  | host type _ _ state =>
    match types.items? type state with
    | some items => .ok items
    | none => .error (.notIterable type)
  | null => .error .overNull
  | v => .error (.notIterable v.typeName)

end Value

end Stencil
