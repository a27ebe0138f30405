/-!
# Tables of objects

The objects of one kind, numbered from zero in the order in which they were made. An object is
never removed, so its number is its identity.

* `Table.get`, `Table.push`, `Table.set`, `Table.modify` : the operations;
* `get_push_of_lt`, `get_push_size`, `get_set_self`, `get_set_of_ne`, `get_modify` : what they do to
  `get`; `modify_eq_self` : a change that changes nothing.
-/

namespace Infra

/-- The objects of one kind, numbered from zero. -/
structure Table (α : Type) where
  objects : Array α
  deriving Repr

namespace Table

variable {α : Type}

def empty : Table α := ⟨#[]⟩

/-- The number of objects. -/
def size (t : Table α) : Nat := t.objects.size

/-- The object of a number; a number that was never given out has a default object. -/
def get [Inhabited α] (t : Table α) (i : Nat) : α := t.objects[i]?.getD default

/-- Adds an object, whose number is the size of the table before. -/
def push (t : Table α) (a : α) : Table α := ⟨t.objects.push a⟩

/-- Replaces the object of a number. -/
def set (t : Table α) (i : Nat) (a : α) : Table α := ⟨t.objects.setIfInBounds i a⟩

/-- Changes the object of a number. -/
def modify [Inhabited α] (t : Table α) (i : Nat) (f : α → α) : Table α := t.set i (f (t.get i))

@[simp] theorem size_push (t : Table α) (a : α) : (t.push a).size = t.size + 1 := by
  simp [size, push]

@[simp] theorem size_set (t : Table α) (i : Nat) (a : α) : (t.set i a).size = t.size := by
  simp [size, set]

theorem get_push_of_lt [Inhabited α] {t : Table α} {i : Nat} (h : i < t.size) (a : α) :
    (t.push a).get i = t.get i := by
  unfold size at h
  simp [get, push, Array.getElem?_push, Nat.ne_of_lt h]

@[simp] theorem get_push_size [Inhabited α] (t : Table α) (a : α) :
    (t.push a).get t.size = a := by
  simp [get, push, size]

theorem get_set_self [Inhabited α] {t : Table α} {i : Nat} (h : i < t.size) (a : α) :
    (t.set i a).get i = a := by
  unfold size at h
  simp [get, set, h]

theorem get_set_of_ne [Inhabited α] (t : Table α) {i j : Nat} (h : i ≠ j) (a : α) :
    (t.set i a).get j = t.get j := by
  simp [get, set, Array.getElem?_setIfInBounds_ne h]

theorem get_modify [Inhabited α] (t : Table α) (i j : Nat) (f : α → α) :
    (t.modify i f).get j = if i = j ∧ j < t.size then f (t.get j) else t.get j := by
  unfold modify
  by_cases eq : i = j
  · subst eq
    by_cases lt : i < t.size
    · rw [get_set_self lt, if_pos ⟨rfl, lt⟩]
    · rw [if_neg fun h => lt h.2]
      unfold size at lt
      simp [get, set, lt]
  · rw [get_set_of_ne _ eq, if_neg fun h => eq h.1]

/-- A change that leaves the object as it is leaves the table as it is. -/
theorem modify_eq_self [Inhabited α] {t : Table α} {i : Nat} {f : α → α}
    (h : i < t.size → f (t.get i) = t.get i) : t.modify i f = t := by
  unfold modify set
  by_cases lt : i < t.size
  · rw [h lt]
    unfold size at lt
    simp [get, lt, Array.setIfInBounds]
  · unfold size at lt
    simp [Array.setIfInBounds, lt]

@[simp] theorem size_modify [Inhabited α] (t : Table α) (i : Nat) (f : α → α) :
    (t.modify i f).size = t.size :=
  size_set t i _

end Table
end Infra
