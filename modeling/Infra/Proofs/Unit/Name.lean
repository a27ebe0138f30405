import Infra.Unit.Scan
import Mathlib.Data.List.Basic

/-!
# Names of the units that a scan finds

* `SourceUnit.Below s below` : the names lead from a directory through scanned directories to a unit;
  `SourceUnit.below_of_mem_find` : so they do to every unit that is found;
* `SourceUnit.moduleParts` : the names that the module name of a unit joins;
  `SourceUnit.moduleName_pathBelow` : what the name of a found unit is;
* `SourceUnit.pieces`, `SourceUnit.intercalate_eq_iff` : joined names are the same when they have the
  same pieces between dots;
* `SourceUnit.exists_moduleName_iff` : every unit has a name but the initial one of the root;
* `SourceUnit.moduleName_eq_iff` : so it is for the names of two units. Where no name has a dot of its
  own, only a unit and the initial unit of a package of its name are one module.
-/

namespace Infra
namespace SourceUnit

variable {α : Type} {s : Settings}

/-! ## Places of units -/

/-- The names lead from a directory through directories that are scanned to a unit. -/
inductive Below (s : Settings) : List String → Prop
  | file {name : String} : isUnitFile s name = true → Below s [name]
  | inside {name : String} {rest : List String} : isScanned s name = true → Below s rest →
      Below s (name :: rest)

/-- The path of names below another. -/
def pathBelow (p : Path) (names : List String) : Path := { p with names := p.names ++ names }

/-- The unit was found before, or it lies below the directory. -/
def Found (s : Settings) (directory : Path) (before after : Scan) : Prop :=
  ∀ p ∈ after.units, p ∈ before.units ∨ ∃ below, Below s below ∧ p = pathBelow directory below

theorem pathBelow_child (directory : Path) (name : String) (names : List String) :
    pathBelow (directory.child name) names = pathBelow directory (name :: names) := by
  unfold pathBelow Path.child
  simp

theorem Found.refl (directory : Path) (scan : Scan) : Found s directory scan scan :=
  fun _ mem => .inl mem

theorem Found.trans {directory : Path} {before between after : Scan}
    (h : Found s directory before between) (k : Found s directory between after) :
    Found s directory before after := by
  intro p mem
  rcases k p mem with earlier | below
  · exact h p earlier
  · exact .inr below

theorem Found.inside {directory : Path} {name : String} {before after : Scan}
    (scanned : isScanned s name = true) (h : Found s (directory.child name) before after) :
    Found s directory before after := by
  intro p mem
  rcases h p mem with earlier | ⟨below, place, rfl⟩
  · exact .inl earlier
  · exact .inr ⟨name :: below, .inside scanned place, pathBelow_child directory name below⟩

theorem found_note (directory : Path) (name : String) (scan : Scan) :
    Found s directory scan (scan.note s (directory.child name) name) := by
  intro p mem
  unfold Scan.note at mem
  split at mem
  · next unit =>
    rcases List.mem_append.mp mem with earlier | here
    · exact .inl earlier
    · exact .inr ⟨[name], .file unit, List.mem_singleton.mp here⟩
  · exact .inl mem

mutual

theorem found_scanEntry (whole : FileTree α) (directory : Path) (name : String) :
    ∀ (t : FileTree α) (scan : Scan),
      Found s directory scan (scanEntry s whole directory name t scan).result
  | .file _, scan => by
    rw [scanEntry]
    exact found_note directory name scan
  | .directory entries, scan => by
    rw [scanEntry]
    split
    · exact .refl directory scan
    · next listed =>
      have scanned : isScanned s name = true := by simpa using listed
      split
      · split
        · exact .refl directory scan
        · exact (found_scanEntries whole _ entries { scan with rooted := true }).inside scanned
      · exact (found_scanEntries whole _ entries scan).inside scanned

theorem found_scanEntries (whole : FileTree α) (directory : Path) :
    ∀ (entries : List (String × FileTree α)) (scan : Scan),
      Found s directory scan (scanEntries s whole directory entries scan).result
  | [], scan => by
    rw [scanEntries]
    exact .refl directory scan
  | (name, t) :: rest, scan => by
    rw [scanEntries, Logged.result_bind]
    exact (found_scanEntry whole directory name t scan).trans
      (found_scanEntries whole directory rest _)

end

/-- A unit that is found lies below the directory where the scan began. -/
theorem below_of_mem_find {t : FileTree α} {root p : Path} (mem : p ∈ (find s t root).result) :
    ∃ below, Below s below ∧ p = pathBelow root below := by
  unfold find at mem
  dsimp only at mem
  split at mem
  · next entries _ =>
    rw [Logged.result_bind] at mem
    rcases found_scanEntries t root entries ⟨[], holdsMarker s t root⟩ p mem with earlier | below
    · cases earlier
    · exact below
  · cases mem

/-! ## Places under the standard settings -/

namespace Below

variable {below : List String}

theorem filled (h : Below s below) : below ≠ [] := by
  cases h <;> exact List.cons_ne_nil _ _

theorem down (h : Below .standard below) : ".." ∉ below := by
  induction h with
  | file unit =>
    intro mem
    rw [← List.mem_singleton.mp mem] at unit
    have other : isUnitFile .standard ".." = false := rfl
    rw [other] at unit
    cases unit
  | inside scanned _ ih =>
    intro mem
    rcases List.mem_cons.mp mem with rfl | later
    · have hidden : isScanned .standard ".." = false := by decide +kernel
      rw [hidden] at scanned
      cases scanned
    · exact ih later

theorem exists_stem (h : Below .standard below) :
    ∃ directory stem, below = directory ++ [stem ++ ".py"] := by
  induction h with
  | @file name unit =>
    have ends : name.endsWith ".py" = true := (Bool.and_eq_true_iff.mp unit).1
    obtain ⟨stem, split⟩ := String.Slice.endsWith_string_iff.mp ends
    refine ⟨[], String.ofList stem, ?_⟩
    have chars : name.toList = stem ++ ".py".toList := by simpa using split.symm
    have same : name = String.ofList stem ++ ".py" := by
      apply String.toList_inj.mp
      simpa using chars
    rw [same]
    rfl
  | @inside name _ _ _ ih =>
    obtain ⟨directory, stem, rfl⟩ := ih
    exact ⟨name :: directory, stem, rfl⟩

end Below

/-! ## The name of a module -/

/-- The names that the name of a module joins: those of its packages and its own, where the initial
unit of a package has none. -/
def moduleParts (below : List String) : List String :=
  let parts := Path.withoutSuffix below
  if parts.getLast? == some "__init__" then parts.dropLast else parts

theorem resolveNames_append {below : List String} (names : List String) (down : ".." ∉ below) :
    Path.resolveNames (names ++ below) = Path.resolveNames names ++ below := by
  unfold Path.resolveNames
  rw [List.foldl_append]
  generalize names.foldl _ [] = kept
  induction below generalizing kept with
  | nil => simp
  | cons name rest ih =>
    obtain ⟨here, later⟩ := List.ne_and_not_mem_of_not_mem_cons down
    rw [List.foldl_cons, if_neg here.symm, ih later, List.append_assoc, List.singleton_append]

theorem relativeTo?_pathBelow {below : List String} (root : Path) (down : ".." ∉ below) :
    (pathBelow root below).resolve.relativeTo? root.resolve = some below := by
  have names : (pathBelow root below).resolve.names = root.resolve.names ++ below :=
    resolveNames_append root.names down
  have start : (pathBelow root below).resolve.root = root.resolve.root := rfl
  unfold Path.relativeTo?
  rw [names, start, if_pos ⟨rfl, List.isPrefixOf_iff_prefix.mpr (List.prefix_append _ _)⟩,
    List.drop_left]

/-- A unit below the root is named after its place there. -/
theorem moduleName_pathBelow {below : List String} (root : Path) (filled : below ≠ [])
    (down : ".." ∉ below) :
    moduleName (pathBelow root below) root =
      if moduleParts below = [] then .error (.namelessModule (pathBelow root below).toString)
      else .ok (String.intercalate "." (moduleParts below)) := by
  unfold moduleName
  rw [relativeTo?_pathBelow root down]
  obtain ⟨first, rest, rfl⟩ := List.exists_cons_of_ne_nil filled
  dsimp only
  rw [show moduleParts (first :: rest) = _ from rfl]
  simp only [List.isEmpty_iff]
  rfl

theorem Below.parts_of_named {below : List String} {root : Path} {a : String}
    (h : Below .standard below) (named : moduleName (pathBelow root below) root = .ok a) :
    moduleParts below ≠ [] ∧ String.intercalate "." (moduleParts below) = a := by
  rw [moduleName_pathBelow root h.filled h.down] at named
  split at named
  · cases named
  · next filled => exact ⟨filled, Except.ok.inj named⟩

/-! ## Joined names -/

/-- The pieces between the dots of names. -/
def pieces (names : List String) : List (List Char) :=
  names.flatMap fun name => name.toList.splitOn '.'

/-- Joined by dots, names have the pieces that they have on their own. -/
theorem splitOn_intercalate {names : List String} (filled : names ≠ []) :
    (String.intercalate "." names).toList.splitOn '.' = pieces names := by
  induction names with
  | nil => exact absurd rfl filled
  | cons name rest ih =>
    cases rest with
    | nil => simp [pieces]
    | cons next more =>
      have joined : (String.intercalate "." (name :: next :: more)).toList =
          name.toList ++ '.' :: (String.intercalate "." (next :: more)).toList := by
        rw [String.intercalate_cons_cons]
        simp
      rw [joined, List.splitOn_append_cons_self, ih (List.cons_ne_nil _ _)]
      rfl

theorem intercalate_eq_iff {names names' : List String} (filled : names ≠ [])
    (filled' : names' ≠ []) :
    String.intercalate "." names = String.intercalate "." names' ↔ pieces names = pieces names' := by
  rw [← splitOn_intercalate filled, ← splitOn_intercalate filled']
  constructor
  · intro same
    rw [same]
  · intro same
    have chars := congrArg (List.intercalate ['.']) same
    rw [List.intercalate_splitOn, List.intercalate_splitOn] at chars
    exact String.toList_inj.mp chars

/-! ## File names -/

theorem eq_of_suffix {a b : String} (same : a ++ ".py" = b ++ ".py") : a = b := by
  have chars := congrArg String.toList same
  rw [String.toList_append, String.toList_append] at chars
  exact String.toList_inj.mp (List.append_cancel_right chars)

theorem cutSuffix_py {stem : List Char} (filled : stem ≠ []) :
    (Path.cutSuffix (stem ++ ['.', 'p', 'y'])).1 = stem := by
  have tail : ((stem ++ ['.', 'p', 'y']).reverse.takeWhile (· != '.')).reverse = ['p', 'y'] := by
    rw [List.reverse_append]
    rfl
  have cut : (stem ++ ['.', 'p', 'y']).take ((stem ++ ['.', 'p', 'y']).length - 2 - 1) = stem := by
    simp
  unfold Path.cutSuffix
  simp only [tail]
  rw [show ['p', 'y'].length = 2 from rfl, cut, if_neg]
  simp [filled]

theorem withoutSuffix_py (directory : List String) (stem : String) :
    Path.withoutSuffix (directory ++ [stem ++ ".py"]) =
      directory ++ [if stem = "" then ".py" else stem] := by
  unfold Path.withoutSuffix
  rw [List.getLast?_concat, List.dropLast_concat]
  dsimp only
  split
  · next empty =>
    rw [empty]
    rfl
  · next filled =>
    have chars : stem.toList ≠ [] := fun none => filled (String.toList_eq_nil_iff.mp none)
    rw [String.toList_append, show ".py".toList = ['.', 'p', 'y'] from rfl, cutSuffix_py chars,
      String.ofList_toList]

theorem Below.moduleParts_eq_nil_iff {below : List String} (h : Below .standard below) :
    moduleParts below = [] ↔ below = ["__init__.py"] := by
  obtain ⟨directory, stem, rfl⟩ := h.exists_stem
  unfold moduleParts
  rw [withoutSuffix_py]
  dsimp only
  rw [List.getLast?_concat, List.dropLast_concat]
  by_cases initial : stem = "__init__"
  · subst initial
    constructor
    · rintro rfl
      rfl
    · intro place
      have split : directory ++ ["__init__.py"] = [] ++ ["__init__.py"] := place
      exact (List.append_inj' split rfl).1
  · have other : (if stem = "" then ".py" else stem) ≠ "__init__" := by
      split
      · decide
      · exact initial
    constructor
    · intro none
      simp [other] at none
    · intro place
      have split : directory ++ [stem ++ ".py"] = [] ++ ["__init__.py"] := place
      obtain ⟨-, last⟩ := List.append_inj' split rfl
      exact absurd (eq_of_suffix (b := "__init__") (List.cons.inj last).1) initial

/-! ## Names without dots of their own -/

/-- No name has a dot but for the suffix of the last one. -/
def Dotless (below : List String) : Prop := ∀ name ∈ Path.withoutSuffix below, '.' ∉ name.toList

instance (below : List String) : Decidable (Dotless below) :=
  inferInstanceAs (Decidable (∀ name ∈ Path.withoutSuffix below, '.' ∉ name.toList))

/-- Without dots, a unit is a module in its directory under its own name, or the directory itself. -/
theorem Below.exists_parts {below : List String} (h : Below .standard below)
    (dotless : Dotless below) :
    ∃ directory name, below = directory ++ [name ++ ".py"] ∧
      moduleParts below = if name = "__init__" then directory else directory ++ [name] := by
  obtain ⟨directory, stem, rfl⟩ := h.exists_stem
  have parts := withoutSuffix_py directory stem
  have filled : stem ≠ "" := by
    rintro rfl
    rw [Dotless, parts] at dotless
    exact dotless ".py" (by simp) (by decide)
  rw [if_neg filled] at parts
  refine ⟨directory, stem, rfl, ?_⟩
  unfold moduleParts
  rw [parts]
  dsimp only
  rw [List.getLast?_concat, List.dropLast_concat]
  simp

theorem pieces_of_dotless {names : List String} (dotless : ∀ name ∈ names, '.' ∉ name.toList) :
    pieces names = names.map String.toList := by
  unfold pieces
  induction names with
  | nil => rfl
  | cons name rest ih =>
    obtain ⟨here, later⟩ := List.forall_mem_cons.mp dotless
    rw [List.flatMap_cons, List.splitOn_eq_singleton here, ih later]
    rfl

theorem Dotless.pieces_moduleParts {below : List String} (dotless : Dotless below) :
    pieces (moduleParts below) = (moduleParts below).map String.toList := by
  apply pieces_of_dotless
  intro name mem
  apply dotless
  unfold moduleParts at mem
  dsimp only at mem
  split at mem
  · exact (List.dropLast_sublist _).subset mem
  · exact mem

/-- A unit and the initial unit of a package of the same name in the same directory. -/
def Twins (unit initial : List String) : Prop :=
  ∃ directory name, name ≠ "__init__" ∧ unit = directory ++ [name ++ ".py"] ∧
    initial = directory ++ [name, "__init__.py"]

theorem twins_iff {directory directory' : List String} {name name' : String} :
    Twins (directory ++ [name ++ ".py"]) (directory' ++ [name' ++ ".py"]) ↔
      name ≠ "__init__" ∧ name' = "__init__" ∧ directory' = directory ++ [name] := by
  constructor
  · rintro ⟨common, module, proper, unit, initial⟩
    obtain ⟨rfl, last⟩ := List.append_inj' unit rfl
    obtain rfl := eq_of_suffix (List.cons.inj last).1
    have initial : directory' ++ [name' ++ ".py"] = (directory ++ [name]) ++ ["__init__.py"] := by
      rw [initial, List.append_assoc, List.singleton_append]
    obtain ⟨rfl, last'⟩ := List.append_inj' initial rfl
    exact ⟨proper, eq_of_suffix (b := "__init__") (List.cons.inj last').1, rfl⟩
  · rintro ⟨proper, rfl, rfl⟩
    exact ⟨directory, name, proper, rfl, by rw [List.append_assoc, List.singleton_append]; rfl⟩

/-- Without dots, the names of two different units join the same parts only where one is a module and
the other is the package of its name. -/
theorem moduleParts_eq_iff {below below' : List String} (place : Below .standard below)
    (place' : Below .standard below') (dotless : Dotless below) (dotless' : Dotless below')
    (ne : below ≠ below') :
    moduleParts below = moduleParts below' ↔ Twins below below' ∨ Twins below' below := by
  obtain ⟨directory, name, rfl, parts⟩ := place.exists_parts dotless
  obtain ⟨directory', name', rfl, parts'⟩ := place'.exists_parts dotless'
  rw [parts, parts', twins_iff, twins_iff]
  -- Two initial units of one directory, or two other units of one name in it, are one file.
  by_cases initial : name = "__init__"
  · by_cases initial' : name' = "__init__"
    · have apart : directory ≠ directory' := by
        rintro rfl
        exact ne (by rw [initial, initial'])
      simp [initial, initial', apart]
    · simp [initial, initial']
  · by_cases initial' : name' = "__init__"
    · simp [initial, initial', eq_comm]
    · have apart : directory ++ [name] ≠ directory' ++ [name'] := by
        intro same
        obtain ⟨rfl, last⟩ := List.append_inj' same rfl
        exact ne (by rw [(List.cons.inj last).1])
      simp [initial, initial', apart]

/-! ## Names of found units -/

/-- Every unit that a scan finds has a name but the initial unit of the root itself. -/
theorem exists_moduleName_iff {t : FileTree α} {root p : Path}
    (found : p ∈ (find .standard t root).result) :
    (∃ a, moduleName p root = .ok a) ↔ p ≠ root.child "__init__.py" := by
  obtain ⟨below, place, rfl⟩ := below_of_mem_find found
  have here : pathBelow root below = root.child "__init__.py" ↔ below = ["__init__.py"] := by
    simp [pathBelow, Path.child]
  rw [ne_eq, here, ← place.moduleParts_eq_nil_iff, moduleName_pathBelow root place.filled place.down]
  split
  · next none => simp [none]
  · next filled => simp [filled]

/-- The names of two units that a scan finds, where they have names, are the same exactly when the
names below the root have the same pieces between dots, with the suffix and the name of an initial
unit left out. Where no name has a dot of its own, two different units have one module name only if
one is the initial unit of a package with the name of the other. -/
theorem moduleName_eq_iff (t : FileTree α) (root p q : Path) (a b : String)
    (found : p ∈ (find .standard t root).result) (found' : q ∈ (find .standard t root).result)
    (named : moduleName p root = .ok a) (named' : moduleName q root = .ok b) :
    ∃ below below', p = pathBelow root below ∧ q = pathBelow root below' ∧
      (a = b ↔ pieces (moduleParts below) = pieces (moduleParts below')) ∧
      (Dotless below → Dotless below' → p ≠ q →
        (a = b ↔ Twins below below' ∨ Twins below' below)) := by
  obtain ⟨below, place, rfl⟩ := below_of_mem_find found
  obtain ⟨below', place', rfl⟩ := below_of_mem_find found'
  obtain ⟨filled, rfl⟩ := place.parts_of_named named
  obtain ⟨filled', rfl⟩ := place'.parts_of_named named'
  have joined := intercalate_eq_iff filled filled'
  refine ⟨below, below', rfl, rfl, joined, ?_⟩
  intro dotless dotless' ne
  have other : below ≠ below' := fun same => ne (by rw [same])
  rw [joined, dotless.pieces_moduleParts, dotless'.pieces_moduleParts,
    (List.map_injective_iff.mpr fun _ _ => String.toList_inj.mp).eq_iff,
    moduleParts_eq_iff place place' dotless dotless' other]

/-- A module beside the package of its name. -/
def packageTree : FileTree Unit :=
  .directory [("a", .directory [("__init__.py", .file ())]), ("a.py", .file ())]

theorem isUnitFile_packageTree : isUnitFile .standard "a.py" = true ∧
    isUnitFile .standard "__init__.py" = true := by
  have tests : isTest standardTestPatterns "a.py" = false ∧
      isTest standardTestPatterns "__init__.py" = false := by
    constructor <;> cbv
  constructor
  · show ("a.py".endsWith ".py" && !isTest standardTestPatterns "a.py") = true
    rw [tests.1]
    decide +kernel
  · show ("__init__.py".endsWith ".py" && !isTest standardTestPatterns "__init__.py") = true
    rw [tests.2]
    decide +kernel

theorem find_packageTree :
    (find .standard packageTree ⟨"", []⟩).result = [⟨"", ["a", "__init__.py"]⟩, ⟨"", ["a.py"]⟩] := by
  have scanned : isScanned .standard "a" = true := by decide +kernel
  have plain : holdsMarker .standard packageTree (Path.child ⟨"", []⟩ "a") = false := by
    decide +kernel
  obtain ⟨module, initial⟩ := isUnitFile_packageTree
  show (scanEntries .standard packageTree ⟨"", []⟩
    [("a", .directory [("__init__.py", .file ())]), ("a.py", .file ())] ⟨[], _⟩).result.units = _
  simp only [scanEntries, scanEntry, Logged.result_bind, Logged.result_pure, scanned, plain,
    Scan.note, module, initial, Bool.not_true, Bool.false_eq_true, if_true, if_false]
  rfl

/-- Both are the module `a`. -/
theorem moduleName_eq_iff_package :
    let root : Path := ⟨"", []⟩
    let p : Path := ⟨"", ["a.py"]⟩
    let q : Path := ⟨"", ["a", "__init__.py"]⟩
    p ∈ (find .standard packageTree root).result ∧ q ∈ (find .standard packageTree root).result ∧
      moduleName p root = .ok "a" ∧ moduleName q root = .ok "a" ∧
      Dotless p.names ∧ Dotless q.names ∧ (Twins p.names q.names ∨ Twins q.names p.names) := by
  intro root p q
  have found : p ∈ (find .standard packageTree root).result := by
    rw [find_packageTree]
    simp [p]
  have found' : q ∈ (find .standard packageTree root).result := by
    rw [find_packageTree]
    simp [q]
  obtain ⟨below, below', place, place', -, shared⟩ :=
    moduleName_eq_iff packageTree root p q "a" "a" found found' rfl rfl
  obtain rfl : p.names = below := congrArg Path.names place
  obtain rfl : q.names = below' := congrArg Path.names place'
  have dotless : Dotless p.names ∧ Dotless q.names := by decide
  exact ⟨found, found', rfl, rfl, dotless.1, dotless.2,
    (shared dotless.1 dotless.2 (by decide)).mp rfl⟩

/-- Different units can be one module. -/
theorem module_shared_with_package :
    ¬ ∀ (t : FileTree Unit) (root p q : Path) (a b : String),
      p ∈ (find .standard t root).result → q ∈ (find .standard t root).result → p ≠ q →
      moduleName p root = .ok a → moduleName q root = .ok b → a ≠ b := by
  intro apart
  refine apart packageTree ⟨"", []⟩ ⟨"", ["a.py"]⟩ ⟨"", ["a", "__init__.py"]⟩ "a" "a" ?_ ?_ ?_ rfl rfl
    rfl
  · rw [find_packageTree]
    simp
  · rw [find_packageTree]
    simp
  · decide

end SourceUnit
end Infra
