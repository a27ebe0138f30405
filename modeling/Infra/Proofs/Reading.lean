import Infra.Decimal.Reading
import Infra.Room
import Mathlib.Data.List.Infix

/-!
# What readers leave

A reader takes characters from the front of a text and leaves the rest, or refuses the text for a
reason that stands in it.

* `Remains rest cs o` : what an optional reading of `cs` leaves is an end of `cs`;
* `Grounds` : when a refusal is founded on a text; `Leaves g rest cs x` : what a reading of `cs`
  leaves is an end of `cs`, and its refusal is founded on `cs`;
* `Remains.bind`, `Leaves.bind` : so it is for a chain of readings;
* `Leaves.enter` : a reading that takes room for nested calls; `openings` : how many a text needs at
  most;
* `HasDigits` : a text with a run of as many digits.
-/

namespace Infra

open Decimal (isDigit)

variable {α β ε : Type} {cs ds : List Char}

/-! ## Optional readings -/

/-- What is left, if anything is read, is an end of the characters. -/
def Remains (rest : α → List Char) (cs : List Char) (o : Option α) : Prop :=
  ∀ a, o = some a → rest a <:+ cs

namespace Remains

variable {rest : α → List Char} {rest' : β → List Char} {o : Option α}

theorem none : Remains rest cs Option.none := nofun

theorem some {a : α} (h : rest a <:+ cs) : Remains rest cs (Option.some a) := by
  rintro _ ⟨⟩
  exact h

theorem mono (h : Remains rest cs o) (le : cs <:+ ds) : Remains rest ds o :=
  fun a read => (h a read).trans le

theorem bind {f : α → Option β} (first : Remains rest cs o)
    (next : ∀ a, Remains rest' (rest a) (f a)) : Remains rest' cs (o >>= f) := by
  intro b read
  obtain ⟨a, here, later⟩ := Option.bind_eq_some_iff.mp read
  exact (next a b later).trans (first a here)

theorem map {f : α → β} (first : Remains rest cs o) (same : ∀ a, rest' (f a) = rest a) :
    Remains rest' cs (o.map f) := by
  intro b read
  obtain ⟨a, here, rfl⟩ := Option.map_eq_some_iff.mp read
  rw [same]
  exact first a here

/-- What reads nothing may come first. -/
theorem after {p : Option β} {f : β → Option α} (next : ∀ b, Remains rest cs (f b)) :
    Remains rest cs (p >>= f) := by
  intro a read
  obtain ⟨b, -, later⟩ := Option.bind_eq_some_iff.mp read
  exact next b a later

/-- A value that is made of what is read leaves what the reading does. -/
theorem mapFst {o : Option (α × List Char)} (h : Remains Prod.snd cs o) (le : cs <:+ ds)
    (f : α → β) : Remains Prod.snd ds (do let (a, after) ← o; Option.some (f a, after)) := by
  refine (h.bind ?_).mono le
  rintro ⟨_, _⟩
  exact .some List.suffix_rfl

theorem ite {c : Prop} [Decidable c] {p : Option α} (first : Remains rest cs o)
    (second : Remains rest cs p) : Remains rest cs (if c then o else p) := by
  split
  · exact first
  · exact second

theorem getD {a : α} (h : Remains rest cs o) (standard : rest a <:+ cs) :
    rest (o.getD a) <:+ cs := by
  cases o with
  | none => exact standard
  | some b => exact h b rfl

end Remains

/-! ## Readings that may be refused -/

/-- When a refusal is founded on a text. What is found in an end of a text is found in the text. -/
structure Grounds (ε : Type) where
  Founded : ε → List Char → Prop
  mono : ∀ {e cs ds}, Founded e cs → cs <:+ ds → Founded e ds

/-- What is left is an end of the characters, and a refusal is founded on them. -/
inductive Leaves (g : Grounds ε) (rest : α → List Char) (cs : List Char) : Except ε α → Prop
  | ok {a : α} : rest a <:+ cs → Leaves g rest cs (.ok a)
  | error {e : ε} : g.Founded e cs → Leaves g rest cs (.error e)

namespace Leaves

variable {g : Grounds ε} {rest : α → List Char} {rest' : β → List Char} {x : Except ε α}

theorem mono (h : Leaves g rest cs x) (le : cs <:+ ds) : Leaves g rest ds x := by
  cases h with
  | ok left => exact .ok (left.trans le)
  | error founded => exact .error (g.mono founded le)

/-- Another ground that a refusal on an end of the text has. -/
theorem imp {g' : Grounds ε} (h : Leaves g rest cs x) (le : cs <:+ ds)
    (founded : ∀ e, g.Founded e cs → g'.Founded e ds) : Leaves g' rest ds x := by
  cases h with
  | ok left => exact .ok (left.trans le)
  | error here => exact .error (founded _ here)

theorem bind {f : α → Except ε β} (first : Leaves g rest cs x)
    (next : ∀ a, Leaves g rest' (rest a) (f a)) : Leaves g rest' cs (x >>= f) := by
  cases first with
  | ok left => exact (next _).mono left
  | error founded => exact .error founded

/-- A value that is made of what is read leaves what the reading does. -/
theorem mapFst {x : Except ε (α × List Char)} (h : Leaves g Prod.snd cs x) (le : cs <:+ ds)
    (f : α → β) : Leaves g Prod.snd ds (do let (a, after) ← x; .ok (f a, after)) := by
  refine (h.bind ?_).mono le
  rintro ⟨_, _⟩
  exact .ok List.suffix_rfl

theorem left {a : α} (h : Leaves g rest cs (.ok a)) : rest a <:+ cs := by
  cases h with
  | ok left => exact left

theorem founded {e : ε} (h : Leaves g rest cs (.error e)) : g.Founded e cs := by
  cases h with
  | error founded => exact founded

end Leaves

/-! ## Nested parts -/

/-- The characters that open a nested part. -/
def isOpening (c : Char) : Bool := c == '[' || c == '\x7b'

/-- How often a text may open a nested part. -/
def openings (cs : List Char) : Nat := cs.countP isOpening

theorem openings_le (le : cs <:+ ds) : openings cs ≤ openings ds := le.sublist.countP_le

theorem openings_cons {c : Char} (opens : isOpening c = true) (cs : List Char) :
    openings (c :: cs) = openings cs + 1 := List.countP_cons_of_pos opens

/-- There is room for fewer calls than some. -/
def Room.Below (room : Room) (calls : Nat) : Prop := ∃ n, room = some n ∧ n < calls

theorem Room.Below.mono {room : Room} {less more : Nat} (h : room.Below less) (le : less ≤ more) :
    room.Below more := by
  obtain ⟨n, eq, lt⟩ := h
  exact ⟨n, eq, Nat.lt_of_lt_of_le lt le⟩

/-- A reading that takes room for calls is refused where there is less, and leaves as much less to
what comes after. -/
theorem Leaves.enter {g : Grounds ε} {rest : α → List Char} {room : Room} {calls : Nat}
    {refusal : ε} {f : Room → Except ε α} (short : room.Below calls → g.Founded refusal cs)
    (next : ∀ inner : Room, (∀ k, inner.Below k → room.Below (k + calls)) →
      Leaves g rest cs (f inner)) :
    Leaves g rest cs (room.enter calls refusal >>= f) := by
  cases room with
  | none => exact next none fun _ ⟨_, never, _⟩ => nomatch never
  | some n =>
    unfold Room.enter
    dsimp only
    split
    · next le =>
      refine next (some (n - calls)) ?_
      rintro k ⟨m, eq, lt⟩
      cases eq
      exact ⟨n, rfl, by omega⟩
    · next more => exact .error (short ⟨n, rfl, by omega⟩)

/-! ## Digits -/

/-- A run of decimal digits, which underscores may part, has as many digits. -/
def HasDigits (count : Nat) (cs : List Char) : Prop :=
  ∃ run, run <:+: cs ∧ (∀ c ∈ run, isDigit c = true ∨ c = '_') ∧
    (run.filter isDigit).length = count

theorem HasDigits.mono {count : Nat} (h : HasDigits count cs) (le : cs <:+ ds) :
    HasDigits count ds := by
  obtain ⟨run, inside, marks, length⟩ := h
  exact ⟨run, inside.trans le.isInfix, marks, length⟩

/-- Digits at the front of an end of a text are a run in it. -/
theorem hasDigits_takeWhile (le : cs <:+ ds) :
    HasDigits (cs.takeWhile isDigit).length ds := by
  have digits : ∀ c ∈ cs.takeWhile isDigit, isDigit c = true :=
    List.all_eq_true.mp List.all_takeWhile
  refine ⟨cs.takeWhile isDigit, (List.takeWhile_prefix _).isInfix.trans le.isInfix,
    fun c mem => .inl (digits c mem), ?_⟩
  rw [List.filter_eq_self.mpr digits]

end Infra
