/-!
# Room for nested calls

A reader that calls itself for nested parts of a document ends where no more calls can be nested.

* `Room` : how many calls can still be nested;
* `Room.enter` : what is left of it within some calls.
-/

namespace Infra

/-- How many calls can still be nested: a number of them, or any. -/
abbrev Room := Option Nat

/-- The room that is left within some calls; a refusal where there is none for them. -/
def Room.enter {ε : Type} (room : Room) (calls : Nat) (refusal : ε) : Except ε Room :=
  match room with
  | none => .ok none
  | some n => if calls ≤ n then .ok (some (n - calls)) else .error refusal

@[simp] theorem Room.enter_none {ε : Type} (calls : Nat) (refusal : ε) :
    Room.enter none calls refusal = .ok none := rfl

end Infra
