import Infra.FileTree
import Infra.Proofs.Except
import Mathlib.Data.List.Induction

/-!
# What writing keeps of a tree

* `Path.IsName` : a text that is one name below a directory; `FileTree.resolve_below` : such names
  below a path lead below its place;
* `FileTree.IsDir`, `FileTree.HasFile` : a directory, or a file with its content, at a place;
* `FileTree.Keeps` : a later tree has the directories of an earlier one, and its files but for those
  at some places; `Keeps.trans`, `Keeps.resolve` : paths lead to the same places afterwards;
* `FileTree.keeps_makeDirectories`, `FileTree.write_spec` : one operation;
* `FileTree.Writes` : files written one after the other, with directories made in between;
  `Writes.spec` : every path then leads to its place, where the last file written is.
-/

namespace Infra

/-! ## Names -/

namespace Path

/-- The text is one name below a directory. -/
structure IsName (name : String) : Prop where
  not_empty : name ≠ ""
  not_same : name ≠ "."
  not_up : name ≠ ".."
  one : '/' ∉ name.toList

theorem pieces_of_not_mem {cs : List Char} (one : '/' ∉ cs) : pieces cs = [cs] := by
  induction cs with
  | nil => rfl
  | cons c rest ih =>
    obtain ⟨here, later⟩ : c ≠ '/' ∧ '/' ∉ rest := by simpa [eq_comm] using one
    simp [pieces, here, ih later]

theorem rootOf_of_not_mem {cs : List Char} (one : '/' ∉ cs) : rootOf cs = "" := by
  unfold rootOf
  split
  · simp at one
  · simp at one
  · simp at one
  · rfl

theorem IsName.ofString {name : String} (h : IsName name) : Path.ofString name = ⟨"", [name]⟩ := by
  have filled : name.toList.isEmpty = false := by simpa using h.not_empty
  have other : (name.toList != ['.']) = true :=
    bne_iff_ne.mpr fun same => h.not_same (String.toList_inj.mp same)
  simp [Path.ofString, pieces_of_not_mem h.one, rootOf_of_not_mem h.one, filled, other]

end Path

namespace FileTree

variable {α : Type} {t u v : FileTree α}

/-- There is a directory at the place. -/
def IsDir (t : FileTree α) (place : List String) : Prop :=
  ∃ entries, t.at? place = some (directory entries)

/-- There is a file with the content at the place. -/
def HasFile (t : FileTree α) (place : List String) (content : α) : Prop :=
  t.at? place = some (file content)

/-! ## Places -/

theorem isDirectory_iff : t.isDirectory = true ↔ ∃ entries, t = directory entries := by
  cases t with
  | file content => simp [isDirectory]
  | directory entries => simp [isDirectory]

theorem isDir_nil_iff : t.IsDir [] ↔ t.isDirectory = true := by
  rw [isDirectory_iff, IsDir]
  simp [at?]

theorem at?_cons (t : FileTree α) (name : String) (rest : List String) :
    t.at? (name :: rest) = (t.entries.lookup name).bind fun inner => inner.at? rest := rfl

theorem at?_append (t : FileTree α) (place rest : List String) :
    t.at? (place ++ rest) = (t.at? place).bind fun inner => inner.at? rest := by
  induction place generalizing t with
  | nil => rfl
  | cons name place ih =>
    rw [List.cons_append, at?_cons, at?_cons, Option.bind_assoc]
    exact congrArg _ (funext ih)

theorem isDir_of_at?_below {place rest : List String} {name : String}
    (h : t.at? (place ++ name :: rest) = some u) : t.IsDir place := by
  rw [at?_append] at h
  obtain ⟨inner, here, below⟩ := Option.bind_eq_some_iff.mp h
  cases inner with
  | directory own => exact ⟨own, here⟩
  | file content => cases below

theorem IsDir.of_append {place rest : List String} (h : t.IsDir (place ++ rest)) :
    t.IsDir place := by
  cases rest with
  | nil => rwa [List.append_nil] at h
  | cons name rest =>
    obtain ⟨entries, found⟩ := h
    exact isDir_of_at?_below found

theorem IsDir.dropLast {place : List String} (h : t.IsDir place) : t.IsDir place.dropLast := by
  rcases List.eq_nil_or_concat place with rfl | ⟨parent, name, rfl⟩
  · exact h
  · rw [List.concat_eq_append] at h ⊢
    rw [List.dropLast_concat]
    exact h.of_append

theorem lookup_insertEntry_of_ne {name other : String} (ne : other ≠ name) (new : FileTree α)
    (entries : List (String × FileTree α)) :
    (insertEntry name new entries).lookup other = entries.lookup other := by
  have unlike : (other == name) = false := beq_eq_false_iff_ne.mpr ne
  induction entries with
  | nil => rw [insertEntry, List.lookup_cons, unlike]
  | cons entry rest ih =>
    obtain ⟨key, held⟩ := entry
    unfold insertEntry
    split
    · next same =>
      obtain rfl : key = name := same
      rw [List.lookup_cons, List.lookup_cons, unlike]
    · split
      · rw [List.lookup_cons, unlike]
      · rw [List.lookup_cons, List.lookup_cons, ih]

theorem at?_put_cons (t : FileTree α) (name : String) (place : List String) (new : FileTree α)
    (rest : List String) : (t.put (name :: place) new).at? (name :: rest) =
      (((t.entries.lookup name).getD empty).put place new).at? rest := by
  rw [at?_cons, put, entries, lookup_insertEntry, Option.bind_some]

theorem at?_put_cons_of_ne {first name : String} (ne : first ≠ name) (t : FileTree α)
    (place : List String) (new : FileTree α) (rest : List String) :
    (t.put (name :: place) new).at? (first :: rest) = t.at? (first :: rest) := by
  rw [at?_cons, put, entries, lookup_insertEntry_of_ne ne, at?_cons]

theorem isDir_put_above (t : FileTree α) (above : List String) (name : String) (rest : List String)
    (new : FileTree α) : (t.put (above ++ name :: rest) new).IsDir above := by
  have found : (t.put (above ++ name :: rest) new).at? (above ++ name :: rest) = some new :=
    at?_put_self _ _ _
  exact isDir_of_at?_below found

/-- Beside the place of what was put, the tree is as it was. -/
theorem at?_put_beside {place other : List String} (above : ¬ other <+: place)
    (below : ¬ place <+: other) (t new : FileTree α) :
    (t.put place new).at? other = t.at? other := by
  induction place generalizing t other with
  | nil => exact absurd List.nil_prefix below
  | cons name place ih =>
    cases other with
    | nil => exact absurd List.nil_prefix above
    | cons first other =>
      by_cases same : first = name
      · subst same
        rw [List.cons_prefix_cons, eq_self, true_and] at above below
        rw [at?_put_cons, ih above below, at?_cons]
        cases t.entries.lookup first with
        | some inner => rfl
        | none =>
          -- A new directory is empty, and the other place is not the directory itself.
          cases other with
          | nil => exact absurd List.nil_prefix above
          | cons second other => rfl
      · exact at?_put_cons_of_ne same t place new other

/-! ## What is kept -/

/-- The directories of a tree are directories later on, and so are its files, but for those at the
changed places. -/
structure Keeps (changed : List String → Prop) (t u : FileTree α) : Prop where
  directories : ∀ place, t.IsDir place → u.IsDir place
  files : ∀ place content, ¬ changed place → t.HasFile place content → u.HasFile place content

namespace Keeps

variable {changed : List String → Prop}

theorem refl (t : FileTree α) : Keeps changed t t := ⟨fun _ => id, fun _ _ _ => id⟩

theorem trans (h : Keeps changed t u) (k : Keeps changed u v) : Keeps changed t v where
  directories place dir := k.directories place (h.directories place dir)
  files place content same held := k.files place content same (h.files place content same held)

theorem mono {more : List String → Prop} (h : Keeps changed t u)
    (sub : ∀ place, changed place → more place) : Keeps more t u where
  directories := h.directories
  files place content same := h.files place content fun is => same (sub place is)

end Keeps

/-- What is put below a directory, where no directory was, keeps all else. -/
theorem keeps_put {parent : List String} {name : String} (dir : t.IsDir parent)
    (free : ¬ t.IsDir (parent ++ [name])) (new : FileTree α) :
    Keeps (· = parent ++ [name]) t (t.put (parent ++ [name]) new) := by
  refine ⟨fun place is => ?_, fun place content other held => ?_⟩
  · by_cases above : place <+: parent ++ [name]
    · obtain ⟨rest, led⟩ := above
      cases rest with
      | nil => exact absurd (led ▸ (List.append_nil place).symm ▸ is) free
      | cons first rest => exact led ▸ isDir_put_above t place first rest new
    · have beside : ¬ parent ++ [name] <+: place := by
        rintro ⟨rest, rfl⟩
        exact free is.of_append
      exact is.imp fun entries found => (at?_put_beside above beside t new).trans found
  · have above : ¬ place <+: parent ++ [name] := fun prefixed => by
      rcases List.prefix_concat_iff.mp prefixed with same | ⟨rest, rfl⟩
      · exact other same
      · obtain ⟨entries, found⟩ := dir.of_append
        cases found.symm.trans held
    have beside : ¬ parent ++ [name] <+: place := by
      rintro ⟨rest, rfl⟩
      cases rest with
      | nil => exact other (List.append_nil _)
      | cons first rest => exact free (isDir_of_at?_below held)
    exact (at?_put_beside above beside t new).trans held

/-! ## Paths -/

theorem step_isDir {place next : List String} {name : String} (dir : t.IsDir place)
    (h : t.step place name = .ok next) : t.IsDir next := by
  unfold step at h
  split at h
  · cases h
    exact dir.dropLast
  · dsimp only at h
    split at h
    · next inner found =>
      split at h
      · next is =>
        cases h
        obtain ⟨entries, rfl⟩ := isDirectory_iff.mp is
        exact ⟨entries, found⟩
      · cases h
    · cases h

theorem foldlM_step_isDir {names : List String} {place next : List String} (dir : t.IsDir place)
    (h : names.foldlM t.step place = .ok next) : t.IsDir next := by
  induction names generalizing place with
  | nil =>
    cases h
    exact dir
  | cons name rest ih =>
    rw [List.foldlM_cons] at h
    obtain ⟨middle, first, later⟩ := bind_eq_ok_iff.mp h
    exact ih (step_isDir dir first) later

theorem Keeps.step {changed : List String → Prop} (k : Keeps changed t u)
    {place next : List String} {name : String} (h : t.step place name = .ok next) :
    u.step place name = .ok next := by
  unfold FileTree.step at h ⊢
  split
  · next up => rwa [if_pos up] at h
  · next down =>
    rw [if_neg down] at h
    dsimp only at h ⊢
    split at h
    · next inner found =>
      split at h
      · next is =>
        cases h
        obtain ⟨entries, rfl⟩ := isDirectory_iff.mp is
        obtain ⟨own, kept⟩ := k.directories _ ⟨entries, found⟩
        rw [kept]
        rfl
      · cases h
    · cases h

theorem Keeps.foldlM_step {changed : List String → Prop} (k : Keeps changed t u)
    {names place next : List String} (h : names.foldlM t.step place = .ok next) :
    names.foldlM u.step place = .ok next := by
  induction names generalizing place with
  | nil => exact h
  | cons name rest ih =>
    rw [List.foldlM_cons] at h ⊢
    obtain ⟨middle, first, later⟩ := bind_eq_ok_iff.mp h
    exact bind_eq_ok_iff.mpr ⟨middle, k.step first, ih later⟩

/-- The place where the directories on a path end and its last name begins. -/
theorem resolve_eq_ok_iff {p : Path} {place : List String} :
    t.resolve p = .ok place ↔ p.root.isEmpty = true ∧
      ∃ parent, p.names.dropLast.foldlM t.step [] = .ok parent ∧
        place = match p.names.getLast? with
          | none => parent
          | some name => if name = ".." then parent.dropLast else parent ++ [name] := by
  unfold resolve
  cases p.root.isEmpty with
  | false =>
    simp only [Bool.not_false, if_true, Bool.false_eq_true, false_and, iff_false]
    intro same
    cases same
  | true =>
    simp only [Bool.not_true, Bool.false_eq_true, if_false, true_and]
    show (_ >>= _) = _ ↔ _
    rw [bind_eq_ok_iff]
    refine exists_congr fun parent => and_congr_right fun _ => ?_
    cases p.names.getLast? with
    | none => exact ⟨fun same => (Except.ok.inj same).symm, fun same => congrArg _ same.symm⟩
    | some name => exact ⟨fun same => (Except.ok.inj same).symm, fun same => congrArg _ same.symm⟩

theorem foldlM_step_of_not_mem {names place next : List String} (down : ".." ∉ names)
    (h : names.foldlM t.step place = .ok next) : next = place ++ names := by
  induction names generalizing place with
  | nil =>
    cases h
    rw [List.append_nil]
  | cons name rest ih =>
    obtain ⟨here, later⟩ : name ≠ ".." ∧ ".." ∉ rest := by simpa [eq_comm] using down
    rw [List.foldlM_cons] at h
    obtain ⟨middle, first, others⟩ := bind_eq_ok_iff.mp h
    have below : middle = place ++ [name] := by
      unfold step at first
      rw [if_neg here] at first
      dsimp only at first
      split at first
      · split at first
        · cases first
          rfl
        · cases first
      · cases first
    rw [ih later others, below, List.append_assoc, List.singleton_append]

/-- Names below a path lead below the place of the path. -/
theorem resolve_below {p : Path} {names place : List String} {name : String}
    (down : ".." ∉ names) (last : name ≠ "..")
    (h : t.resolve ⟨p.root, p.names ++ names ++ [name]⟩ = .ok place) :
    ∃ base, p.names.foldlM t.step [] = .ok base ∧ place = base ++ names ++ [name] := by
  obtain ⟨-, parent, led, rfl⟩ := resolve_eq_ok_iff.mp h
  rw [List.dropLast_concat, List.foldlM_append] at led
  obtain ⟨base, first, others⟩ := bind_eq_ok_iff.mp led
  refine ⟨base, first, ?_⟩
  rw [List.getLast?_concat]
  dsimp only
  rw [if_neg last, foldlM_step_of_not_mem down others]

/-- A path leads to the same place in a tree that keeps the directories. -/
theorem Keeps.resolve {changed : List String → Prop} (k : Keeps changed t u) {p : Path}
    {place : List String} (h : t.resolve p = .ok place) : u.resolve p = .ok place := by
  obtain ⟨relative, parent, led, last⟩ := resolve_eq_ok_iff.mp h
  exact resolve_eq_ok_iff.mpr ⟨relative, parent, k.foldlM_step led, last⟩

theorem isDir_or_below {p : Path} {place : List String} (root : t.IsDir [])
    (h : t.resolve p = .ok place) :
    t.IsDir place ∨ ∃ parent name, t.IsDir parent ∧ place = parent ++ [name] := by
  obtain ⟨-, parent, led, rfl⟩ := resolve_eq_ok_iff.mp h
  have dir := foldlM_step_isDir root led
  split
  · exact .inl dir
  · split
    · exact .inl dir.dropLast
    · exact .inr ⟨parent, _, dir, rfl⟩

/-! ## Operations -/

theorem keeps_makeFrom {names place : List String} (dir : t.IsDir place)
    (h : t.makeFrom place names = .ok u) : Keeps (fun _ => False) t u := by
  induction names generalizing t place with
  | nil =>
    cases h
    exact .refl _
  | cons name rest ih =>
    unfold makeFrom at h
    split at h
    · exact ih dir.dropLast h
    · dsimp only at h
      split at h
      · next inner found =>
        split at h
        · next is =>
          obtain ⟨entries, rfl⟩ := isDirectory_iff.mp is
          exact ih ⟨entries, found⟩ h
        · split at h <;> cases h
      · next missing =>
        have absent : ¬ t.IsDir (place ++ [name]) := fun ⟨entries, found⟩ => by
          cases missing.symm.trans found
        have put := keeps_put dir absent empty
        have made : Keeps (fun _ => False) t (t.put (place ++ [name]) empty) := by
          refine ⟨put.directories, fun other content _ held => put.files other content ?_ held⟩
          rintro rfl
          cases missing.symm.trans held
        exact made.trans (ih ⟨[], at?_put_self _ _ _⟩ h)

theorem keeps_makeDirectories {p : Path} (root : t.IsDir [])
    (h : t.makeDirectories p = .ok u) : Keeps (fun _ => False) t u := by
  unfold makeDirectories at h
  split at h
  · exact keeps_makeFrom root h
  · cases h

/-- A file is written at the place of its path, and all else is kept. -/
theorem write_spec {p : Path} {content : α} (root : t.IsDir []) (h : t.write p content = .ok u) :
    ∃ place, t.resolve p = .ok place ∧ u.HasFile place content ∧ Keeps (· = place) t u := by
  obtain ⟨place, led, later⟩ := bind_eq_ok_iff.mp h
  refine ⟨place, led, ?_⟩
  split at later
  · cases later
  · next free =>
    cases later
    refine ⟨at?_put_self _ _ _, ?_⟩
    rcases isDir_or_below root led with ⟨entries, found⟩ | ⟨parent, name, dir, rfl⟩
    · exact absurd found (free entries)
    · exact keeps_put dir (fun ⟨entries, found⟩ => free entries found) _

/-! ## Several files -/

/-- Files are written one after the other, and directories are made in between. -/
inductive Writes : FileTree α → List (Path × α) → FileTree α → Prop
  | done {t : FileTree α} : Writes t [] t
  | make {t u v : FileTree α} {p : Path} {files : List (Path × α)} :
    t.makeDirectories p = .ok u → Writes u files v → Writes t files v
  | write {t u v : FileTree α} {p : Path} {content : α} {files : List (Path × α)} :
    t.write p content = .ok u → Writes u files v → Writes t ((p, content) :: files) v

theorem Writes.append {files more : List (Path × α)} (h : Writes t files u)
    (k : Writes u more v) : Writes t (files ++ more) v := by
  induction h with
  | done => exact k
  | make made _ ih => exact .make made (ih k)
  | write wrote _ ih => exact .write wrote (ih k)

theorem writes_of_foldlM {files : List (Path × α)}
    (h : files.foldlM (fun t file => t.write file.1 file.2) t = .ok u) : Writes t files u := by
  induction files generalizing t with
  | nil =>
    cases h
    exact .done
  | cons file rest ih =>
    rw [List.foldlM_cons] at h
    obtain ⟨middle, first, later⟩ := bind_eq_ok_iff.mp h
    exact .write first (ih later)

/-- All else is kept, the path of each file leads to a place, and a file is there unless a later one
has the same place. -/
theorem Writes.spec {files : List (Path × α)} (h : Writes t files u) (root : t.IsDir []) :
    Keeps (fun place => ∃ written ∈ files, u.resolve written.1 = .ok place) t u ∧
      (∀ written ∈ files, ∃ place, u.resolve written.1 = .ok place) ∧
      ∀ before written after, files = before ++ written :: after →
        (∀ later ∈ after, u.resolve later.1 ≠ u.resolve written.1) →
          u.fileAt? written.1 = some written.2 := by
  induction h with
  | done => exact ⟨.refl _, nofun, fun before _ _ split => by simp at split⟩
  | make made _ ih =>
    have kept := keeps_makeDirectories root made
    obtain ⟨later, each, last⟩ := ih (kept.directories [] root)
    exact ⟨(kept.mono nofun).trans later, each, last⟩
  | @write t u v p content files wrote _ ih =>
    obtain ⟨place, led, here, kept⟩ := write_spec root wrote
    obtain ⟨later, each, last⟩ := ih (kept.directories [] root)
    have leads : v.resolve p = .ok place := later.resolve (kept.resolve led)
    refine ⟨?_, ?_, fun before written after split alone => ?_⟩
    · refine (kept.mono fun other same => ⟨_, List.mem_cons_self, same ▸ leads⟩).trans
        (later.mono fun other => ?_)
      exact fun ⟨written, mem, same⟩ => ⟨written, List.mem_cons_of_mem _ mem, same⟩
    · exact List.forall_mem_cons.mpr ⟨⟨place, leads⟩, each⟩
    · cases before with
      | cons first before => exact last before written after (List.cons_eq_cons.mp split).2 alone
      | nil =>
        obtain ⟨rfl, rfl⟩ := List.cons_eq_cons.mp split
        have left : v.HasFile place content := later.files place content
          (fun ⟨written, mem, same⟩ => alone written mem (same.trans leads.symm)) here
        unfold fileAt? find?
        rw [leads]
        dsimp only
        rw [left]

theorem exists_last {β : Type} {p : β → Prop} {items : List β} {item : β} (mem : item ∈ items)
    (h : p item) :
    ∃ before last after, items = before ++ last :: after ∧ p last ∧ ∀ later ∈ after, ¬ p later := by
  induction items using List.reverseRecOn with
  | nil => cases mem
  | append_singleton items final ih =>
    by_cases own : p final
    · exact ⟨items, final, [], rfl, own, nofun⟩
    · have inside : item ∈ items := by
        rcases List.mem_append.mp mem with inside | last
        · exact inside
        · exact absurd (List.mem_singleton.mp last ▸ h) own
      obtain ⟨before, last, after, rfl, held, alone⟩ := ih inside
      refine ⟨before, last, after ++ [final], by simp, held, fun later among => ?_⟩
      rcases List.mem_append.mp among with earlier | same
      · exact alone later earlier
      · exact List.mem_singleton.mp same ▸ own

/-- All files are there exactly when those of one place agree. -/
theorem Writes.all_iff {files : List (Path × α)} (h : Writes t files u) (root : t.IsDir []) :
    (∀ written ∈ files, u.fileAt? written.1 = some written.2) ↔
      ∀ written ∈ files, ∀ other ∈ files,
        u.resolve written.1 = u.resolve other.1 → written.2 = other.2 := by
  obtain ⟨-, each, last⟩ := h.spec root
  constructor
  · intro there written mem other mem_other same
    have here : u.fileAt? written.1 = u.fileAt? other.1 := by simp only [fileAt?, find?, same]
    rw [there written mem, there other mem_other] at here
    exact Option.some.inj here
  · intro agree written mem
    -- At the place of a file is the last one that was written there.
    obtain ⟨before, final, after, split, same, alone⟩ := exists_last
      (p := fun other : Path × α => u.resolve other.1 = u.resolve written.1) mem rfl
    have here : u.fileAt? written.1 = u.fileAt? final.1 := by simp only [fileAt?, find?, same]
    have first := agree written mem final (by simp [split]) same.symm
    rw [here, last before final after split fun later inside eq =>
      alone later inside (eq.trans same), first]

end FileTree
end Infra
