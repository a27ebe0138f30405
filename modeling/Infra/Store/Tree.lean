import Infra.Store.Basic

/-!
# Trees of values

A document that is written from a value holds its lists, tuples and mappings as trees.

* `Store.tree` : the tree that a value spreads out to.

Sets and objects have no tree of their own and stay as they are. The containers inside each other
are all different unless they form a circle, so their number is a depth that suffices.
-/

namespace Infra
namespace Store

variable (s : Store)

/-- The tree of a value, to some depth. -/
def treeTo : Nat → Value → Datum
  | 0, v => .leaf v
  | depth + 1, v =>
    match v with
    | .sequence id =>
      match (s.sequence id).shape with
      | .list | .tuple => .list ((s.sequence id).items.map (treeTo depth))
      | .set | .frozenSet => .leaf v
    | .mapping id => .table ((s.mapping id).map fun entry => (entry.1, treeTo depth entry.2))
    | v => .leaf v

/-- The tree that a value spreads out to. -/
def tree (v : Value) : Datum := s.treeTo (s.containerCount + 1) v

end Store
end Infra
