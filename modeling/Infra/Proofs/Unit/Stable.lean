import Infra.Proofs.Discovery.Collect
import Infra.Unit.Load

/-!
# Properties of the store that loading keeps

* `Stored P` : the store of the modules has the property;
* `Load.keeps_evaluate` : an evaluation keeps in the store of the modules what it keeps in a store;
* `Load.keeps_value`, `Load.keeps_execute` : the terms and statements of a module keep a stable
  property;
* `Load.keeps_moduleTo`, `Load.keeps_units` : so do modules and units, loaded or refused;
  `Load.forgotten_units` : the modules of a project are forgotten in the end;
* `ownsAccessors_collected` : accessors lead to their entity in the store of a loaded project.
-/

namespace Infra.SourceUnit

open Store (Stable)

/-- The store of the modules has the property. -/
def Stored (P : Store → Prop) (m : Modules) : Prop := P m.store

namespace Load

variable {α : Type} {P : Store → Prop}

theorem keeps_evaluate {e : Eval α} (h : Keeps P e) : Keeps (Stored P) (evaluate e) := by
  refine .getBind fun m stored => ?_
  have after := h m.store stored
  cases done : e.run m.store with
  | ok a s =>
    rw [done] at after
    exact .bind (.set after) fun _ => .pure a
  | error fault s =>
    rw [done] at after
    exact .bind (.set after) fun _ => .throw fault

theorem keeps_refuse (f : ModuleFault) : Keeps (Stored P) (refuse f : Load α) := .throw _

theorem keeps_bindName (module name : String) (b : Binding) :
    Keeps (Stored P) (bindName module name b) := .modify fun _ h => h

theorem keeps_checkPackages (names : List String) : Keeps (Stored P) (checkPackages names) := by
  induction names with
  | nil => exact .pure _
  | cons name outer ih =>
    cases outer with
    | nil => exact .pure _
    | cons parent outer =>
      refine .bind .get fun known => ?_
      split
      · split
        · exact .pure _
        · split
          · exact ih
          · exact .throw _
      · exact .pure _

theorem keeps_packageDirectory? (module : String) :
    Keeps (Stored P) (packageDirectory? module) := by
  refine .bind .get fun known => ?_
  split
  · exact .bind (keeps_checkPackages _) fun _ => .pure _
  · exact .pure _

theorem keeps_absoluteName (module name : String) :
    Keeps (Stored P) (absoluteName module name) := by
  unfold absoluteName
  dsimp only
  split
  · exact .pure _
  · refine .bind .get fun known => ?_
    generalize (if ((known.find? module).bind (·.package)).isSome then module
      else (parentName? module).getD "") = package
    split
    · exact .throwBind _ _
    · split
      · exact .throwBind _ _
      · exact .pure _

theorem keeps_taken (module name : String) : Keeps (Stored P) (taken module name) := by
  refine .bind .get fun known => ?_
  dsimp only
  split
  · exact .pure _
  · split
    · exact .pure _
    · exact keeps_refuse _

theorem keeps_loadSubmodules (t : FileTree ProjectFile) {load : String → Load Unit}
    (loads : ∀ name, Keeps (Stored P) (load name)) (module : String) (names : List String) :
    Keeps (Stored P) (loadSubmodules t load module names) := by
  unfold loadSubmodules
  refine .bind (.forIn (fun name _ _ => .bind .get fun known => ?_) _) fun _ => .pure _
  dsimp only
  split
  · exact .pure _
  · split
    · exact .pure _
    · refine .bind (keeps_packageDirectory? module) fun found => ?_
      split
      · split
        · exact .bind (loads _) fun _ => .pure _
        · exact .pure _
      · exact .pure _

/-! ## Terms -/

theorem keeps_field (stable : Stable P) (b : Binding) (name : String) :
    Keeps (Stored P) (field b name) := by
  unfold field
  split
  · exact .map (keeps_evaluate (stable.keeps_field _ _))
  · refine .bind .get fun known => ?_
    split
    · exact .pure _
    · exact keeps_refuse _

theorem keeps_named (stable : Stable P) (module first : String) (fields : List String) :
    Keeps (Stored P) (named module first fields) := by
  refine .bind .get fun known => ?_
  split
  · exact .foldlM (fun b name _ => keeps_field stable b name) _
  · exact keeps_refuse _

mutual

/-- The value of a term keeps a stable property. -/
theorem keeps_value (stable : Stable P) (module : String) (term : Term) :
    Keeps (Stored P) (value module term) := by
  cases term with
  | scalar v => exact .pure v
  | list items =>
    exact .bind (keeps_values stable module items) fun vs =>
      keeps_evaluate (Eval.keeps_make fun s => stable.newSequence s _ _)
  | table entries =>
    exact .bind (keeps_tableEntries stable module entries) fun made => .bind .get fun m =>
      .map (keeps_evaluate (Eval.keeps_make fun s => stable.newMapping s _))
  | name first fields =>
    refine .bind (keeps_named stable module first fields) fun b => ?_
    cases b with
    | value | module => exact .pure _
  | resource backend entityType attributes =>
    exact keeps_evaluate (stable.keeps_entity _ _ _ _ _ _ _)

theorem keeps_values (stable : Stable P) (module : String) (terms : List Term) :
    Keeps (Stored P) (values module terms) := by
  cases terms with
  | nil => exact .pure []
  | cons term rest =>
    exact .bind (keeps_value stable module term) fun v =>
      .bind (keeps_values stable module rest) fun vs => .pure _

theorem keeps_tableEntries (stable : Stable P) (module : String) (entries : List (Value × Term)) :
    Keeps (Stored P) (tableEntries module entries) := by
  cases entries with
  | nil => exact .pure []
  | cons entry rest =>
    obtain ⟨key, term⟩ := entry
    exact .bind (keeps_value stable module term) fun v =>
      .bind (keeps_tableEntries stable module rest) fun vs => .pure _

end

variable (stable : Stable P)

include stable

theorem keeps_binding (module : String) (term : Term) : Keeps (Stored P) (binding module term) := by
  cases term with
  | name first fields => exact keeps_named stable module first fields
  | _ => exact .map (keeps_value stable module _)

theorem keeps_namedValues (module : String) (entries : List (String × Term)) :
    Keeps (Stored P) (namedValues module entries) :=
  .mapM fun entry _ => .bind (keeps_value stable module entry.2) fun _ => .pure _

/-! ## Statements -/

/-- A statement keeps a stable property, if the modules that it loads do. -/
theorem keeps_execute (t : FileTree ProjectFile) {load : String → Load Unit}
    (loads : ∀ name, Keeps (Stored P) (load name)) (module : String) (statement : Statement) :
    Keeps (Stored P) (execute t load module statement) := by
  unfold execute
  cases statement with
  | bind name term =>
    exact .bind (keeps_binding stable module term) fun b => keeps_bindName _ _ _
  | resource name backend entityType accessors props =>
    exact .bind (keeps_namedValues stable module props) fun given =>
      .bind (keeps_evaluate (stable.keeps_entity _ _ _ _ _ _ _)) fun v => keeps_bindName _ _ _
  | property name backend entityType props =>
    exact .bind (keeps_namedValues stable module props) fun given =>
      .bind (keeps_evaluate (stable.keeps_entity _ _ _ _ _ _ _)) fun v => keeps_bindName _ _ _
  | output name reference outputName =>
    refine .bind (keeps_value stable module reference) fun source =>
      .bind (keeps_evaluate ?_) fun v => keeps_bindName _ _ _
    exact .bind (stable.keeps_referenceOf _ _) fun r =>
      Eval.keeps_make fun s => stable.newOutput s _
  | composite name label members =>
    refine .bind (keeps_namedValues stable module members) fun made =>
      .bind (keeps_evaluate ?_) fun v => keeps_bindName _ _ _
    refine .bind (Eval.keeps_ofExcept _) fun checked =>
      .bind (Eval.keeps_make fun s => stable.newDefinition s _ _) fun definition => ?_
    split
    · exact Eval.keeps_make fun s => stable.newComposite s _
    · exact .pure _
  | assign entity key term =>
    refine .bind (keeps_value stable module term) fun v =>
      .bind (keeps_value stable module entity) fun target => keeps_evaluate ?_
    refine .bind (stable.keeps_field _ _) fun found => ?_
    split
    · exact .modify fun s => stable.setMapping s _ _
    · exact .throw _
  | take source names =>
    exact .bind (keeps_absoluteName module source) fun full => .bind (loads full) fun _ =>
      .bind (keeps_loadSubmodules t loads full _) fun _ =>
        .bind (.forIn (fun entry _ _ => .bind (keeps_taken _ _) fun b =>
          .bind (keeps_bindName _ _ _) fun _ => .pure _) _) fun _ => .pure _
  | load name =>
    exact .bind (loads name) fun _ => .bind (loads _) fun _ => keeps_bindName _ _ _
  | exports names =>
    exact .bind (keeps_evaluate (Eval.keeps_make fun s => stable.newSequence s _ _)) fun v =>
      keeps_bindName _ _ _
  | raises error => exact .throw _
  | forget name =>
    refine .bind .get fun known => ?_
    split
    · exact .modify fun _ h => h
    · exact keeps_refuse _
  | malformed => exact .pure _

/-! ## Modules and units -/

theorem keeps_runModule (t : FileTree ProjectFile) {load : String → Load Unit}
    (loads : ∀ name, Keeps (Stored P) (load name)) (name : String) (package : Option Path)
    (file : Path) (content : ProjectFile) :
    Keeps (Stored P) (runModule t load name package file content) := by
  unfold runModule
  split
  · exact keeps_refuse _
  · refine .bind (.modify fun _ h => h) fun _ => .bind (.tryCatch ?_ fun fault => ?_) fun _ =>
      .modify fun _ h => h
    · exact .forM fun statement _ => keeps_execute stable t loads name statement
    · exact .bind (.modify fun _ h => h) fun _ => .throw _

omit stable in
theorem keeps_searchDirectory (root : Path) (name : String) :
    Keeps (Stored P) (searchDirectory root name) := by
  unfold searchDirectory
  split
  · exact .pure _
  · refine .bind (keeps_packageDirectory? _) fun found => ?_
    split
    · exact .pure _
    · exact keeps_refuse _

theorem keeps_oneModule (t : FileTree ProjectFile) (root : Path) {load : String → Load Unit}
    (loads : ∀ name, Keeps (Stored P) (load name)) (name : String) :
    Keeps (Stored P) (oneModule t root load name) := by
  refine .bind .get fun known => ?_
  split
  · exact .pure _
  · refine .bind (keeps_searchDirectory root name) fun directory => ?_
    extract_lets bind
    have bound : ∀ loaded, Keeps (Stored P) (bind loaded) := by
      intro loaded
      unfold bind
      split
      · exact .modify fun _ h => h
      · exact .pure _
    split
    · exact .throwBind _ _
    · exact .bind (keeps_runModule stable t loads name _ _ _) bound
    · exact .bind (keeps_runModule stable t loads name _ _ _) bound
    · exact .bind (.modify fun _ h => h) bound

/-- Loading a module keeps a stable property, also where the module is refused. -/
theorem keeps_moduleTo (t : FileTree ProjectFile) (root : Path) (depth : Nat) (name : String) :
    Keeps (Stored P) (moduleTo t root depth name) := by
  induction depth generalizing name with
  | zero => exact .throw _
  | succ depth ih =>
    exact .bind .get fun known => .forM fun missing _ => keeps_oneModule stable t root ih missing

theorem keeps_module (t : FileTree ProjectFile) (root : Path) (name : String) :
    Keeps (Stored P) (module t root name) := by
  unfold module
  split
  · exact keeps_refuse _
  · exact keeps_moduleTo stable t root _ name

theorem keeps_unitModule (t : FileTree ProjectFile) (root path : Path) :
    Keeps (Stored P) (unitModule t root path) := by
  unfold unitModule
  extract_lets load
  have loaded : ∀ name, Keeps (Stored P) (load name) := by
    intro name
    unfold load
    split
    · exact keeps_refuse _
    · exact .bind (keeps_module stable t _ name) fun _ => .pure _
  split
  · exact .bind (.pure _) loaded
  · exact .throwBind _ _

theorem keeps_unit (t : FileTree ProjectFile) (root path : Path) :
    Keeps (Stored P) (unit t root path) := by
  refine .bind (.tryCatch (.bind (keeps_unitModule stable t root path) fun _ => .pure _)
    fun fault => ?_) fun loaded => ?_
  · split
    · exact .throw _
    · exact .pure _
  · split
    · exact .pure _
    · refine .bind .get fun m => ?_
      dsimp only
      split
      · exact .pure _
      · exact .throw _

/-- Loading units keeps a stable property, whichever of them are refused. -/
theorem keeps_units (t : FileTree ProjectFile) (root : Path) (paths : List Path) :
    Keeps (Stored P) (units t root paths) :=
  keeps_tryFinally (.mapM fun path _ => .bind (keeps_unit stable t root path) fun _ => .pure _)
    fun _ h => h

omit stable in
/-- After units are loaded, no module below their directory is known, unless its name is one of a
module outside the project. -/
theorem forgotten_units (t : FileTree ProjectFile) (root : Path) (paths : List Path)
    (m : Modules) : ∀ entry ∈ (finalState ((units t root paths).run m)).modules,
      entry.2.isBelow root.resolve → (takenNames.lookup entry.1).isSome := by
  intro entry mem below
  unfold units at mem
  rw [finalState_tryFinally] at mem
  obtain ⟨-, kept⟩ := List.mem_filter.mp mem
  simpa [below] using kept

end Load

/-- In the store that a project is resolved in, accessors lead to their entity: loading units and
collecting what they export have kept it so. -/
theorem ownsAccessors_collected (t : FileTree ProjectFile) (root : Path) (paths : List Path)
    (exported : List LoadedUnit) :
    let m := finalState ((Load.units t root paths).run (.start .initial))
    (m.store.collect exported).result.1.OwnsAccessors := by
  intro m
  have loaded : m.store.OwnsAccessors :=
    Load.keeps_units Store.stable_ownsAccessors t root paths (.start .initial)
      Store.ownsAccessors_initial
  exact (Store.sameButProps_collect m.store exported).ownsAccessors loaded

end Infra.SourceUnit
