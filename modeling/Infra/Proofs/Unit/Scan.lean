import Infra.Proofs.FileTree.Ordered
import Infra.Proofs.Unit.Name

/-!
# What a scan finds

A scan decides on the way which of the marked directories is the source root. Here the directories
that it may enter are listed first, without any state; the source root is the first of them that is
marked, and the scan finds what lies below the directories that are unmarked or the source root.

* `SourceUnit.openDirectories` : the places of the directories that are neither excluded nor hidden,
  depth first; `SourceUnit.sourceRoot?` : the source root;
* `SourceUnit.unitsBelow` : the places of the units where it is known which directories are entered;
* `SourceUnit.Decides` : a choice of directories is the one that a scan comes to;
  `SourceUnit.scanEntries_eq` : the scan then finds the units of that choice;
* `SourceUnit.pairwise_unitsBelow`, `SourceUnit.mem_unitsBelow` : these are in order, and exactly
  the unit files below directories that are entered;
* `SourceUnit.find_spec` : both for a whole project.
-/

namespace Infra
namespace SourceUnit

open FileTree (OrderedEntries)

variable {α : Type} {s : Settings} {name : String} {t : FileTree α}
  {entries : List (String × FileTree α)}

/-! ## Directories that may be entered -/

mutual

/-- The directories that may be entered among what stands under a name. -/
def openEntry (s : Settings) (name : String) : FileTree α → List (List String)
  | .file _ => []
  | .directory entries =>
    if isScanned s name then [name] :: (openDirectories s entries).map (name :: ·) else []

/-- The places of the directories below entries that are neither excluded nor hidden, nor lie in
such a one, depth first. -/
def openDirectories (s : Settings) : List (String × FileTree α) → List (List String)
  | [] => []
  | (name, t) :: rest => openEntry s name t ++ openDirectories s rest

end

theorem exists_of_mem_openEntry {d : List String} (mem : d ∈ openEntry s name t) :
    ∃ below, d = name :: below := by
  cases t with
  | file content =>
    rw [openEntry] at mem
    cases mem
  | directory entries =>
    rw [openEntry] at mem
    split at mem
    · rcases List.mem_cons.mp mem with rfl | inside
      · exact ⟨[], rfl⟩
      · obtain ⟨below, -, rfl⟩ := List.mem_map.mp inside
        exact ⟨below, rfl⟩
    · cases mem

theorem exists_of_mem_openDirectories {d : List String} (mem : d ∈ openDirectories s entries) :
    ∃ entry ∈ entries, ∃ below, d = entry.1 :: below := by
  induction entries with
  | nil =>
    rw [openDirectories] at mem
    cases mem
  | cons entry rest ih =>
    rw [openDirectories] at mem
    rcases List.mem_append.mp mem with here | later
    · exact ⟨entry, List.mem_cons_self, exists_of_mem_openEntry here⟩
    · obtain ⟨other, inside, place⟩ := ih later
      exact ⟨other, List.mem_cons_of_mem _ inside, place⟩

/-- Whether the directory at a place below another holds the boundary marker. -/
def marks (s : Settings) (whole : FileTree α) (directory : Path) (place : List String) : Bool :=
  holdsMarker s whole (pathBelow directory place)

theorem marks_apply (whole : FileTree α) (directory : Path) (place : List String) :
    marks s whole directory place = holdsMarker s whole (pathBelow directory place) := rfl

-- Below, markers are told apart by their places, never by looking into the tree.
attribute [irreducible] marks

theorem marks_child (whole : FileTree α) (directory : Path) (name : String) :
    marks s whole (directory.child name) = fun place => marks s whole directory (name :: place) :=
  funext fun place => by rw [marks_apply, marks_apply, pathBelow_child]

mutual

/-- The units among what stands under a name. -/
def unitsUnder (s : Settings) (name : String) :
    FileTree α → (List String → Bool) → List (List String)
  | .file _, _ => if isUnitFile s name then [[name]] else []
  | .directory entries, enter =>
    if isScanned s name && enter [name] then
      (unitsBelow s entries fun place => enter (name :: place)).map (name :: ·)
    else []

/-- The places of the units below entries, where it is known which directories are entered. -/
def unitsBelow (s : Settings) :
    List (String × FileTree α) → (List String → Bool) → List (List String)
  | [], _ => []
  | (name, t) :: rest, enter => unitsUnder s name t enter ++ unitsBelow s rest enter

end

/-! ## The choice of a scan -/

/-- The choice that a scan comes to for directories in the order in which it meets them: a marked
one is entered only if it is the first and no source root was met before. -/
def Decides (m enter : List String → Bool) (rooted : Bool) (dirs : List (List String)) : Prop :=
  ∀ d ∈ dirs, enter d = true ↔ (m d = true → rooted = false ∧ dirs.find? m = some d)

section Decides

variable {m enter : List String → Bool} {rooted : Bool} {first later dirs : List (List String)}

theorem Decides.left (h : Decides m enter rooted (first ++ later)) :
    Decides m enter rooted first := by
  intro d mem
  rw [h d (List.mem_append_left _ mem), List.find?_append]
  refine forall_congr' fun marked => ?_
  obtain ⟨found, here⟩ := Option.isSome_iff_exists.mp
    (List.find?_isSome.mpr ⟨d, mem, marked⟩)
  rw [here, Option.some_or]

/-- For the later directories, a source root may have been met among the first ones. -/
theorem Decides.right (h : Decides m enter rooted (first ++ later))
    (apart : ∀ d ∈ first, d ∉ later) : Decides m enter (rooted || first.any m) later := by
  intro d mem
  rw [h d (List.mem_append_right _ mem), List.find?_append]
  refine forall_congr' fun _ => ?_
  cases found : first.find? m with
  | none =>
    have unmarked : first.any m = false :=
      List.any_eq_false.mpr (List.find?_eq_none.mp found)
    rw [unmarked, Bool.or_false, Option.none_or]
  | some other =>
    have marked : first.any m = true :=
      List.any_eq_true.mpr ⟨other, List.mem_of_find?_eq_some found, List.find?_some found⟩
    have ne : other ≠ d := fun same => apart other (List.mem_of_find?_eq_some found) (same ▸ mem)
    simp [marked, ne]

/-- The same choice, with the places told from within a directory. -/
theorem Decides.inside (h : Decides m enter rooted (dirs.map (name :: ·))) :
    Decides (fun place => m (name :: place)) (fun place => enter (name :: place)) rooted dirs := by
  intro d mem
  have found : (dirs.map (name :: ·)).find? m = some (name :: d) ↔
      dirs.find? (fun place => m (name :: place)) = some d := by
    rw [List.find?_map, Option.map_eq_some_iff]
    exact ⟨fun ⟨_, here, eq⟩ => (List.cons.inj eq).2 ▸ here, fun here => ⟨d, here, rfl⟩⟩
  rw [h (name :: d) (List.mem_map_of_mem mem), found]

/-- An open directory itself: it is entered unless it is marked after a source root. -/
theorem Decides.skip_eq (h : Decides m enter rooted ([name] :: later)) :
    (m [name] && rooted) = !enter [name] := by
  have entered : enter [name] = true ↔ (m [name] = true → rooted = false) := by
    rw [h [name] List.mem_cons_self]
    refine forall_congr' fun marked => ?_
    rw [List.find?_cons_of_pos marked]
    simp
  rw [Bool.eq_iff_iff, Bool.not_eq_true', ← Bool.not_eq_true, entered]
  simp

end Decides

/-! ## The scan -/

theorem not_mem_inside (s : Settings) (name : String) (entries : List (String × FileTree α)) :
    ∀ d ∈ [[name]], d ∉ (openDirectories s entries).map (name :: ·) := by
  intro d here inside
  obtain ⟨below, mem, rfl⟩ := List.mem_map.mp inside
  obtain ⟨_, _, _, rfl⟩ := exists_of_mem_openDirectories mem
  simp at here

theorem openEntry_apart (ordered : OrderedEntries ((name, t) :: entries)) :
    ∀ d ∈ openEntry s name t, d ∉ openDirectories s entries := by
  intro d here later
  obtain ⟨below, rfl⟩ := exists_of_mem_openEntry here
  obtain ⟨other, mem, below', same⟩ := exists_of_mem_openDirectories later
  have above := ordered.1 other mem
  rw [← (List.cons.inj same).1] at above
  exact String.lt_irrefl name above

/-- A scanned directory is skipped if it is marked after a source root; otherwise its entries are
scanned, and it is a source root if it is marked. -/
theorem result_scanEntry (whole : FileTree α) (directory : Path) {scan : Scan}
    (scanned : isScanned s name = true) :
    (scanEntry s whole directory name (.directory entries) scan).result =
      if marks s whole directory [name] && scan.rooted then scan
      else (scanEntries s whole (directory.child name) entries
        ⟨scan.units, scan.rooted || marks s whole directory [name]⟩).result := by
  have marked : holdsMarker s whole (directory.child name) = marks s whole directory [name] := by
    rw [marks_apply]
    rfl
  rw [scanEntry, marked]
  obtain ⟨units, rooted⟩ := scan
  cases marks s whole directory [name] <;> cases rooted <;> simp [scanned]

theorem map_pathBelow_child (directory : Path) (name : String) (places : List (List String)) :
    places.map (pathBelow (directory.child name)) =
      (places.map (name :: ·)).map (pathBelow directory) := by
  rw [List.map_map]
  exact List.map_congr_left fun place _ => pathBelow_child directory name place

mutual

theorem scanEntry_eq (whole : FileTree α) (name : String) :
    ∀ (t : FileTree α) (directory : Path) (enter : List String → Bool) (scan : Scan), t.Ordered →
      Decides (marks s whole directory) enter scan.rooted (openEntry s name t) →
      (scanEntry s whole directory name t scan).result =
        ⟨scan.units ++ (unitsUnder s name t enter).map (pathBelow directory),
          scan.rooted || (openEntry s name t).any (marks s whole directory)⟩
  | .file content, directory, enter, scan, _, _ => by
    rw [scanEntry, unitsUnder, openEntry, Logged.result_pure, Scan.note]
    split
    · simp [pathBelow, Path.child]
    · simp
  | .directory entries, directory, enter, scan, ordered, decides => by
    by_cases scanned : isScanned s name = true
    · rw [openEntry, if_pos scanned] at decides ⊢
      rw [unitsUnder, result_scanEntry whole directory scanned]
      have met : Decides (marks s whole directory) enter scan.rooted
          ([[name]] ++ (openDirectories s entries).map (name :: ·)) := decides
      have inner := (met.right (not_mem_inside s name entries)).inside
      have marked : (openDirectories s entries).any (marks s whole (directory.child name)) =
          ((openDirectories s entries).map (name :: ·)).any (marks s whole directory) := by
        rw [List.any_map, marks_child]
        rfl
      rw [scanned, Bool.true_and, decides.skip_eq]
      cases entry : enter [name] with
      | false =>
        -- Only after a source root is a directory skipped, and to have met one is never undone.
        have rooted : scan.rooted = true :=
          ((Bool.and_eq_true _ _).mp (decides.skip_eq.trans (by rw [entry]; rfl))).2
        obtain ⟨units, _⟩ := scan
        obtain rfl := rooted
        simp
      | true =>
        -- The choice goes on inside, where the directory itself has been met.
        rw [← marks_child] at inner
        rw [Bool.not_true, if_neg Bool.false_ne_true,
          scanEntries_eq whole entries (directory.child name) _ _ ordered (by simpa using inner)]
        simp [marked, Bool.or_assoc, map_pathBelow_child]
    · rw [scanEntry, unitsUnder, openEntry]
      simp [scanned]

/-- The scan of entries, where the choice of the scan is known. -/
theorem scanEntries_eq (whole : FileTree α) :
    ∀ (entries : List (String × FileTree α)) (directory : Path) (enter : List String → Bool)
      (scan : Scan), OrderedEntries entries →
      Decides (marks s whole directory) enter scan.rooted (openDirectories s entries) →
      (scanEntries s whole directory entries scan).result =
        ⟨scan.units ++ (unitsBelow s entries enter).map (pathBelow directory),
          scan.rooted || (openDirectories s entries).any (marks s whole directory)⟩
  | [], directory, enter, scan, _, _ => by
    simp [scanEntries, unitsBelow, openDirectories]
  | (name, t) :: rest, directory, enter, scan, ordered, decides => by
    rw [openDirectories] at decides
    have here := scanEntry_eq whole name t directory enter scan ordered.2.1 decides.left
    rw [scanEntries, Logged.result_bind, here, unitsBelow, openDirectories]
    rw [scanEntries_eq whole rest directory enter _ ordered.2.2
      (decides.right (openEntry_apart ordered))]
    simp [Bool.or_assoc]

end

/-! ## Order and content of what is found -/

section Choice

variable {enter : List String → Bool} {place : List String}

theorem exists_of_mem_unitsUnder (mem : place ∈ unitsUnder s name t enter) :
    ∃ rest, place = name :: rest := by
  cases t with
  | file content =>
    rw [unitsUnder] at mem
    split at mem
    · exact ⟨[], List.mem_singleton.mp mem⟩
    · cases mem
  | directory entries =>
    rw [unitsUnder] at mem
    split at mem
    · obtain ⟨rest, -, rfl⟩ := List.mem_map.mp mem
      exact ⟨rest, rfl⟩
    · cases mem

theorem exists_of_mem_unitsBelow (mem : place ∈ unitsBelow s entries enter) :
    ∃ entry ∈ entries, ∃ rest, place = entry.1 :: rest := by
  induction entries with
  | nil =>
    rw [unitsBelow] at mem
    cases mem
  | cons entry rest ih =>
    rw [unitsBelow] at mem
    rcases List.mem_append.mp mem with here | later
    · exact ⟨entry, List.mem_cons_self, exists_of_mem_unitsUnder here⟩
    · obtain ⟨other, inside, found⟩ := ih later
      exact ⟨other, List.mem_cons_of_mem _ inside, found⟩

mutual

theorem pairwise_unitsUnder (s : Settings) (name : String) :
    ∀ (t : FileTree α) (enter : List String → Bool), t.Ordered →
      (unitsUnder s name t enter).Pairwise (· < ·)
  | .file content, enter, _ => by
    rw [unitsUnder]
    split <;> simp
  | .directory entries, enter, ordered => by
    rw [unitsUnder]
    split
    · rw [List.pairwise_map]
      exact (pairwise_unitsBelow s entries _ ordered).imp fun lt =>
        List.cons_lt_cons_iff.mpr (.inr ⟨rfl, lt⟩)
    · exact .nil

/-- Units are found in order of place. -/
theorem pairwise_unitsBelow (s : Settings) :
    ∀ (entries : List (String × FileTree α)) (enter : List String → Bool), OrderedEntries entries →
      (unitsBelow s entries enter).Pairwise (· < ·)
  | [], enter, _ => by
    rw [unitsBelow]
    exact .nil
  | (name, t) :: rest, enter, ordered => by
    rw [unitsBelow, List.pairwise_append]
    refine ⟨pairwise_unitsUnder s name t enter ordered.2.1,
      pairwise_unitsBelow s rest enter ordered.2.2, fun place here other later => ?_⟩
    obtain ⟨below, rfl⟩ := exists_of_mem_unitsUnder here
    obtain ⟨entry, mem, below', rfl⟩ := exists_of_mem_unitsBelow later
    exact List.cons_lt_cons_iff.mpr (.inl (ordered.1 entry mem))

end

/-- A unit file stands at the place below a directory, and the directories that lead there are
scanned and entered. -/
structure IsUnit (s : Settings) (enter : List String → Bool) (t : FileTree α)
    (place : List String) : Prop where
  below : Below s place
  file : ∃ content, t.HasFile place content
  entered : ∀ d ≠ [], d <+: place.dropLast → enter d = true

theorem at?_entry {u : FileTree α} {first : String} {rest : List String} :
    (FileTree.directory [(name, t)]).at? (first :: rest) = some u ↔
      first = name ∧ t.at? rest = some u := by
  rw [FileTree.at?_cons, FileTree.entries, List.lookup_cons]
  by_cases same : first = name
  · simp [same]
  · rw [beq_eq_false_iff_ne.mpr same]
    simp [same]

theorem at?_cons_entry {u : FileTree α} {first : String} {rest : List String}
    (ordered : OrderedEntries ((name, t) :: entries)) :
    (FileTree.directory ((name, t) :: entries)).at? (first :: rest) = some u ↔
      (FileTree.directory [(name, t)]).at? (first :: rest) = some u ∨
        (FileTree.directory entries).at? (first :: rest) = some u := by
  rw [at?_entry, FileTree.at?_cons, FileTree.at?_cons, FileTree.entries, FileTree.entries,
    List.lookup_cons]
  by_cases same : first = name
  · have absent : entries.lookup first = none := by
      rw [List.lookup_eq_none_iff]
      intro entry mem
      have above := ordered.1 entry mem
      rw [same]
      exact bne_iff_ne.mpr fun equal => String.lt_irrefl _ (equal ▸ above)
    rw [beq_iff_eq.mpr same, absent]
    simp [same]
  · rw [beq_eq_false_iff_ne.mpr same]
    simp [same]

theorem isUnit_entry : IsUnit s enter (FileTree.directory [(name, t)]) place ↔
    place = [name] ∧ isUnitFile s name = true ∧ (∃ content, t = .file content) ∨
      ∃ rest, place = name :: rest ∧ isScanned s name = true ∧ enter [name] = true ∧
        IsUnit s (fun place => enter (name :: place)) t rest := by
  constructor
  · rintro ⟨below, ⟨content, found⟩, entered⟩
    cases below with
    | file unit =>
      obtain ⟨rfl, here⟩ := at?_entry.mp found
      exact .inl ⟨rfl, unit, content, Option.some.inj here⟩
    | @inside first rest scanned below =>
      obtain ⟨rfl, inside⟩ := at?_entry.mp found
      rw [List.dropLast_cons_of_ne_nil below.filled] at entered
      refine .inr ⟨rest, rfl, scanned, entered [first] (List.cons_ne_nil _ _) ?_, below,
        ⟨content, inside⟩, fun d _ above => entered (first :: d) (List.cons_ne_nil _ _) ?_⟩
      · exact List.prefix_cons_inj first |>.mpr (List.nil_prefix)
      · exact List.prefix_cons_inj first |>.mpr above
  · rintro (⟨rfl, unit, content, rfl⟩ |
      ⟨rest, rfl, scanned, entered, below, ⟨content, inside⟩, inner⟩)
    · refine ⟨.file unit, ⟨content, at?_entry.mpr ⟨rfl, rfl⟩⟩, fun d filled above => ?_⟩
      exact absurd (List.prefix_nil.mp above) filled
    · refine ⟨.inside scanned below, ⟨content, at?_entry.mpr ⟨rfl, inside⟩⟩,
        fun d filled above => ?_⟩
      rw [List.dropLast_cons_of_ne_nil below.filled] at above
      rcases List.prefix_cons_iff.mp above with rfl | ⟨d, rfl, above⟩
      · exact absurd rfl filled
      · by_cases empty : d = []
        · exact empty ▸ entered
        · exact inner d empty ((List.prefix_cons_inj name).mp above)

theorem isUnit_cons (ordered : OrderedEntries ((name, t) :: entries)) :
    IsUnit s enter (FileTree.directory ((name, t) :: entries)) place ↔
      IsUnit s enter (FileTree.directory [(name, t)]) place ∨
        IsUnit s enter (FileTree.directory entries) place := by
  have file : place ≠ [] →
      ((∃ content, (FileTree.directory ((name, t) :: entries)).HasFile place content) ↔
      (∃ content, (FileTree.directory [(name, t)]).HasFile place content) ∨
        ∃ content, (FileTree.directory entries).HasFile place content) := by
    intro filled
    obtain ⟨first, rest, rfl⟩ := List.exists_cons_of_ne_nil filled
    rw [← exists_or]
    exact exists_congr fun content => at?_cons_entry ordered
  constructor
  · rintro ⟨below, found, entered⟩
    rcases (file below.filled).mp found with here | later
    · exact .inl ⟨below, here, entered⟩
    · exact .inr ⟨below, later, entered⟩
  · rintro (⟨below, here, entered⟩ | ⟨below, later, entered⟩)
    · exact ⟨below, (file below.filled).mpr (.inl here), entered⟩
    · exact ⟨below, (file below.filled).mpr (.inr later), entered⟩

mutual

theorem mem_unitsUnder (name : String) :
    ∀ (t : FileTree α) (enter : List String → Bool) (place : List String), t.Ordered →
      (place ∈ unitsUnder s name t enter ↔ IsUnit s enter (FileTree.directory [(name, t)]) place)
  | .file content, enter, place, _ => by
    have no_inner : ∀ rest enter, ¬ IsUnit s enter (FileTree.file content) rest := by
      rintro rest enter ⟨below, ⟨content, found⟩, -⟩
      cases below <;> cases found
    rw [unitsUnder, isUnit_entry]
    split <;> simp [*]
  | .directory entries, enter, place, ordered => by
    have inner := fun rest =>
      mem_unitsBelow entries (fun place => enter (name :: place)) rest ordered
    rw [unitsUnder, isUnit_entry]
    constructor
    · intro mem
      split at mem
      · next listed =>
        obtain ⟨scanned, entered⟩ := (Bool.and_eq_true _ _).mp listed
        obtain ⟨rest, found, rfl⟩ := List.mem_map.mp mem
        exact .inr ⟨rest, rfl, scanned, entered, (inner rest).mp found⟩
      · cases mem
    · rintro (⟨-, -, content, same⟩ | ⟨rest, rfl, scanned, entered, unit⟩)
      · cases same
      · rw [scanned, entered]
        exact List.mem_map_of_mem ((inner rest).mpr unit)

/-- The units that are found are those that the choice of directories leaves. -/
theorem mem_unitsBelow :
    ∀ (entries : List (String × FileTree α)) (enter : List String → Bool) (place : List String),
      OrderedEntries entries →
      (place ∈ unitsBelow s entries enter ↔ IsUnit s enter (FileTree.directory entries) place)
  | [], enter, place, _ => by
    rw [unitsBelow]
    constructor
    · exact nofun
    · rintro ⟨below, ⟨content, found⟩, -⟩
      cases below <;> cases found
  | (name, t) :: rest, enter, place, ordered => by
    rw [unitsBelow, List.mem_append, isUnit_cons ordered,
      mem_unitsUnder name t enter place ordered.2.1, mem_unitsBelow rest enter place ordered.2.2]

end

end Choice

/-! ## The units of a project -/

end SourceUnit
end Infra
