import Infra.Value

/-!
# Bound log context

Fields that every event carries until they are unbound. A scope binds fields for its body: on
leaving it, each of its fields is as it was on entering, and the others are as the body left them.

* `LogContext.bind`, `LogContext.unbind` : the operations; `LogContext.complete` : fields that take
  no other's place;
* `LogContext.enter`, `LogContext.leave` : a scope, with what it saved in between.
-/

namespace Infra

/-- The fields that are bound, in order of binding. -/
abbrev LogContext := List (String × Datum)

/-- What a scope keeps for its end: the names it binds, and the values that some of them had. -/
structure SavedScope where
  names : List String
  saved : LogContext
  deriving Repr

namespace LogContext

/-- Binds fields. -/
def bind (c fields : LogContext) : LogContext :=
  fields.foldl (fun c field => Named.insert c field.1 field.2) c

/-- Adds the fields under new names. -/
def complete (c fields : LogContext) : LogContext :=
  fields.foldl (fun c field => if (c.lookup field.1).isSome then c else c ++ [field]) c

/-- Unbinds names; a name that is not bound is passed over. -/
def unbind (c : LogContext) (names : List String) : LogContext := names.foldl Named.erase c

/-- Begins a scope. -/
def enter (c fields : LogContext) : LogContext × SavedScope :=
  let names := fields.map (·.1)
  (c.bind fields, ⟨names, c.filter fun field => names.contains field.1⟩)

/-- Ends a scope. -/
def leave (c : LogContext) (scope : SavedScope) : LogContext :=
  bind (c.unbind scope.names) scope.saved

end LogContext
end Infra
