import Infra.Value

/-!
# Log events

What the library reports of its own work: a level, the name of the reporting part, an event and
its fields. Operations return their events beside their results; a logger renders them.

* `Level` : the levels and their order; `Event` : one report;
* `Logged` : a result with the events that led to it.
-/

namespace Infra

/-- How much an event matters. -/
inductive Level
  | debug | info | warning | error | critical
  deriving DecidableEq, Repr

namespace Level

/-- The rank of a level; a logger drops events below its own. -/
def rank : Level → Nat
  | debug => 10
  | info => 20
  | warning => 30
  | error => 40
  | critical => 50

/-- The written form of a level. -/
def label : Level → String
  | debug => "debug"
  | info => "info"
  | warning => "warning"
  | error => "error"
  | critical => "critical"

/-- The names of the methods of a logger, with the level at which each reports. -/
def methods : List (String × Level) :=
  [("debug", debug), ("info", info), ("msg", info), ("warning", warning), ("warn", warning),
   ("error", error), ("err", error), ("exception", error), ("critical", critical),
   ("fatal", critical)]

/-- The level of the method of a name. -/
def ofMethod? (name : String) : Option Level := methods.lookup name

end Level

/-- A report of some part of the library. -/
structure Event where
  level : Level
  logger : String
  event : String
  fields : List (String × Datum)
  deriving Repr

/-- A result with the events that led to it. -/
structure Logged (α : Type) where
  events : List Event
  result : α
  deriving Repr

namespace Logged

/-- A result without events. -/
protected def pure {α : Type} (a : α) : Logged α := ⟨[], a⟩

/-- A result with the events of both parts, in order. -/
protected def bind {α β : Type} (a : Logged α) (f : α → Logged β) : Logged β :=
  let b := f a.result
  ⟨a.events ++ b.events, b.result⟩

instance : Monad Logged where
  pure := Logged.pure
  bind := Logged.bind

@[simp] theorem result_pure {α : Type} (a : α) : (pure a : Logged α).result = a := rfl

@[simp] theorem result_bind {α β : Type} (a : Logged α) (f : α → Logged β) :
    (a >>= f).result = (f a.result).result := rfl

@[simp] theorem result_mapM {α β : Type} (f : α → Logged β) (items : List α) :
    (items.mapM f).result = items.map fun a => (f a).result := by
  have loop : ∀ (items : List α) (done : List β),
      (List.mapM.loop f items done).result = done.reverse ++ items.map fun a => (f a).result := by
    intro items
    induction items with
    | nil => exact fun done => (List.append_nil _).symm
    | cons a rest ih =>
      intro done
      rw [List.mapM.loop, result_bind, ih, List.reverse_cons, List.append_assoc]
      rfl
  exact loop items []

/-- Reports an event. -/
def tell (event : Event) : Logged Unit := ⟨[event], ()⟩

end Logged
end Infra
