import Infra.Store.Basic

/-!
# Mapping keys

Which values can be keys, and which keys are the same. A tuple or frozen set is a key when all its
items are, and two of them are the same key when their items are; other containers are no keys.

* `Store.isKey` : whether a value can be a key or an element of a set;
* `Store.sameKey` : whether two keys are the same;
* `Store.insertEntry`, `Store.distinct` : entries and elements without repeated keys;
* `Store.putEntry`, `Store.dropEntry`, `Store.append` : changes of the containers of a store.

Items are older than the tuple that holds them or are no keys, so a depth of
`Store.containerCount` always suffices.
-/

namespace Infra

/-- The name of the type of a value in messages. -/
def Value.typeName : Value → String
  | .null => "NoneType"
  | .bool _ => "bool"
  | .int _ => "int"
  | .float _ => "float"
  | .text _ => "str"
  | .bytes _ => "bytes"
  | .path _ => "PosixPath"
  | .moment _ => "datetime"
  | .module => "module"
  | .function => "function"
  | .mapping _ => "dict"
  | .sequence _ => "list"
  | .entity _ => "Resource"
  | .reference _ => "AttrRef"
  | .output _ => "BackendOutput"
  | .intrinsic _ => "Intrinsic"
  | .constructor _ => "type"
  | .definition _ => "Composite"
  | .composite _ => "CompositeInstance"

/-- The name of the type of a container in messages. -/
def Shape.typeName : Shape → String
  | .list => "list"
  | .tuple => "tuple"
  | .set => "set"
  | .frozenSet => "frozenset"

namespace Store

variable (s : Store)

/-- Whether the value can be a key, looking to some depth. -/
def isKeyTo : Nat → Value → Bool
  | 0, _ => false
  | depth + 1, v =>
    match v with
    | .mapping _ => false
    | .sequence id =>
      let q := s.sequence id
      match q.shape with
      | .list | .set => false
      | .tuple | .frozenSet => q.items.all (isKeyTo depth)
    | _ => true

/-- Whether the value can be a key or an element of a set. -/
def isKey (v : Value) : Bool := s.isKeyTo (s.containerCount + 1) v

/-- Whether two keys are the same, looking to some depth. -/
def sameKeyTo : Nat → Value → Value → Bool
  | 0, _, _ => false
  | depth + 1, a, b =>
    a.sameScalar b ||
      match a, b with
      | .sequence i, .sequence j =>
        let p := s.sequence i
        let q := s.sequence j
        match p.shape, q.shape with
        | .tuple, .tuple =>
          p.items.length == q.items.length &&
            (p.items.zip q.items).all fun pair => sameKeyTo depth pair.1 pair.2
        | .frozenSet, .frozenSet =>
          p.items.length == q.items.length &&
            p.items.all fun item => q.items.any (sameKeyTo depth item)
        | _, _ => false
      | _, _ => false

/-- Whether two keys are the same. -/
def sameKey (a b : Value) : Bool := s.sameKeyTo (s.containerCount + 1) a b

/-- The value stored under a key. -/
def valueAt? (entries : List (Value × Value)) (key : Value) : Option Value :=
  (entries.find? fun entry => s.sameKey entry.1 key).map (·.2)

/-- Sets an entry. A key that is there already keeps its place. -/
def insertEntry (entries : List (Value × Value)) (key value : Value) : List (Value × Value) :=
  if entries.any fun entry => s.sameKey entry.1 key then
    entries.map fun entry => if s.sameKey entry.1 key then (entry.1, value) else entry
  else entries ++ [(key, value)]

/-- Removes an entry. -/
def eraseEntry (entries : List (Value × Value)) (key : Value) : List (Value × Value) :=
  entries.filter fun entry => !s.sameKey entry.1 key

/-- The first occurrences of the items as elements of a set. -/
def distinct (items : List Value) : List Value :=
  items.foldl (fun kept item => if kept.any (s.sameKey · item) then kept else kept ++ [item]) []

/-- The fault of using a value as a key that cannot be one. -/
def notKey (v : Value) : Fault :=
  .wrongType ("unhashable type: '" ++ (match v with
    | .sequence id => (s.sequence id).shape.typeName
    | _ => v.typeName) ++ "'")

/-- Sets an entry of a mapping, where the key can be one. -/
def putEntry (id : Nat) (key v : Value) : Except Fault Store :=
  if s.isKey key then .ok (s.setMapping id (s.insertEntry (s.mapping id) key v))
  else .error (s.notKey key)

/-- Removes an entry of a mapping, which has to be there. -/
def dropEntry (id : Nat) (name : String) : Except Fault Store :=
  match s.valueAt? (s.mapping id) (.text name) with
  | some _ => .ok (s.setMapping id (s.eraseEntry (s.mapping id) (.text name)))
  | none => .error (.missingKey name)

/-- Adds an item at the end of a sequence. -/
def append (id : Nat) (v : Value) : Store :=
  let q := s.sequence id
  { s with sequences := s.sequences.set id { q with items := q.items ++ [v] } }

end Store
end Infra
