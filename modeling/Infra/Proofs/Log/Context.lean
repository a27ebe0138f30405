import Infra.Log.Context
import Infra.Proofs.Named

/-!
# Look-up in the log context

* `LogContext.lookup_bind`, `LogContext.lookup_unbind` : what is bound under a name after fields are
  bound or names unbound; `LogContext.Distinct.bind`, `LogContext.Distinct.unbind` : the names that
  are bound stay different;
* `LogContext.mem_names_bind`, `LogContext.mem_names_complete` : the names of fields after more are
  bound or added; `LogContext.complete_of_mem`, `LogContext.complete_of_not_mem` : one field that is
  added comes last, or not at all;
* `LogContext.lookup_leave` : what the end of a scope leaves.
-/

namespace Infra

namespace LogContext

variable {c : LogContext}

/-- The names that are bound are different. -/
def Distinct (c : LogContext) : Prop := (c.map (·.1)).Nodup

/-! ## Fields bound -/

theorem bind_eq (c fields : LogContext) : c.bind fields = Named.setAll c fields := rfl

theorem mem_names_bind {fields : LogContext} {name : String} :
    name ∈ (c.bind fields).map (·.1) ↔ name ∈ c.map (·.1) ∨ name ∈ fields.map (·.1) := by
  rw [bind_eq, Named.mem_names_setAll]

theorem lookup_bind (c fields : LogContext) (name : String) :
    (c.bind fields).lookup name = (fields.reverse.lookup name).or (c.lookup name) := by
  rw [bind_eq, Named.lookup_setAll]

/-- Fields of other names leave what is bound under a name. -/
theorem lookup_bind_of_not_mem {fields : LogContext} {name : String}
    (other : name ∉ fields.map (·.1)) : (c.bind fields).lookup name = c.lookup name := by
  have absent : fields.reverse.lookup name = none :=
    lookup_eq_none_iff_not_mem.mpr (by simpa using other)
  rw [lookup_bind, absent, Option.none_or]

theorem lookup_unbind (c : LogContext) (names : List String) (name : String) :
    (c.unbind names).lookup name = if name ∈ names then none else c.lookup name := by
  unfold unbind
  induction names generalizing c with
  | nil => rfl
  | cons first rest ih =>
    have erased : (Named.erase c first).lookup name =
        if name = first then none else c.lookup name := by
      unfold Named.erase
      rw [Named.lookup_filter c (· != first) name]
      by_cases same : name = first
      · simp [same]
      · simp [same]
    rw [List.foldl_cons, ih, erased]
    by_cases later : name ∈ rest
    · rw [if_pos later, if_pos (List.mem_cons_of_mem _ later)]
    · rw [if_neg later]
      by_cases same : name = first
      · rw [if_pos same, if_pos (same ▸ List.mem_cons_self)]
      · rw [if_neg same, if_neg (by simp [same, later])]

theorem Distinct.bind (h : c.Distinct) (fields : LogContext) : (c.bind fields).Distinct := by
  rw [bind_eq]
  exact Named.nodup_setAll h fields

theorem Distinct.unbind (h : c.Distinct) (names : List String) : (c.unbind names).Distinct := by
  unfold LogContext.unbind
  induction names generalizing c with
  | nil => exact h
  | cons first rest ih => exact ih (h.sublist (List.filter_sublist.map _))

/-! ## Fields added -/

theorem complete_of_mem {name : String} (known : name ∈ c.map (·.1)) (value : Datum) :
    c.complete [(name, value)] = c :=
  if_pos (Named.isSome_lookup_iff.mpr known)

theorem complete_of_not_mem {name : String} (new : name ∉ c.map (·.1)) (value : Datum) :
    c.complete [(name, value)] = c ++ [(name, value)] :=
  if_neg (mt Named.isSome_lookup_iff.mp new)

theorem mem_names_complete {fields : LogContext} {name : String} :
    name ∈ (c.complete fields).map (·.1) ↔ name ∈ c.map (·.1) ∨ name ∈ fields.map (·.1) := by
  induction fields generalizing c with
  | nil => simp [complete]
  | cons field rest ih =>
    have first : name ∈ (c.complete [field]).map (·.1) ↔ name ∈ c.map (·.1) ∨ name = field.1 := by
      by_cases known : field.1 ∈ c.map (·.1)
      · rw [complete_of_mem known]
        exact ⟨.inl, fun either => either.elim id fun eq => eq ▸ known⟩
      · rw [complete_of_not_mem known, List.map_append, List.mem_append]
        simp
    have parts : c.complete (field :: rest) = (c.complete [field]).complete rest := rfl
    rw [parts, ih, first, List.map_cons, List.mem_cons, or_assoc]

/-! ## Scopes -/

/-- The end of a scope puts back what its names had when it began, and leaves all others. -/
theorem lookup_leave (h : c.Distinct) (fields now : LogContext) (name : String) :
    (now.leave (c.enter fields).2).lookup name =
      if name ∈ fields.map (·.1) then c.lookup name else now.lookup name := by
  let names := fields.map (·.1)
  let saved : LogContext := c.filter fun field => names.contains field.1
  have distinct : saved.Distinct := h.sublist (List.filter_sublist.map _)
  have held : saved.reverse.lookup name = if names.contains name then c.lookup name else none := by
    rw [Named.lookup_reverse distinct, Named.lookup_filter c names.contains]
  show ((now.unbind names).bind saved).lookup name = if name ∈ names then _ else _
  rw [lookup_bind, held, lookup_unbind]
  by_cases mem : name ∈ names
  · rw [if_pos (List.contains_iff_mem.mpr mem), if_pos mem, if_pos mem, Option.or_none]
  · rw [if_neg (mt List.contains_iff_mem.mp mem), if_neg mem, if_neg mem, Option.none_or]

end LogContext

end Infra
