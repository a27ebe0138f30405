import Infra.Settings.Session
import Mathlib.Data.List.Induction

/-!
# The settings in use

The settings in use are those that were constructed last when settings were asked for, unless they
were cleared since. To ask again gives them, whatever the environment has become; settings that are
refused leave them as they are.

* `SettingsState.get_cases` : what asking for settings does;
* `SettingsEvent`, `SettingsState.events` : what happens to the settings in use during a session;
  `SettingsState.held_run` : the last of it tells which they are;
* `SettingsState.settings_spec` : what asking for settings gives after a whole session.
-/

namespace Infra

/-- What happens to the settings in use: new ones are constructed for it, or they are cleared. -/
inductive SettingsEvent
  | made (settings : SettingsInstance)
  | cleared
  deriving DecidableEq, Repr

/-- The settings that are in use afterwards. -/
def SettingsEvent.left : SettingsEvent → Option SettingsInstance
  | made settings => some settings
  | cleared => none

namespace SettingsState

variable {Environment : Type} (read : Environment → Except Fault Settings)
  (s : SettingsState Environment)

/-- The operation constructs settings. -/
def Constructs (op : SettingsOperation Environment) : Prop :=
  (s.after read op).cache.constructed ≠ s.cache.constructed

instance (op : SettingsOperation Environment) : Decidable (s.Constructs read op) :=
  inferInstanceAs (Decidable (_ ≠ _))

/-- What an operation does to the settings in use. Settings constructed apart do nothing to them. -/
def event? (op : SettingsOperation Environment) : Option SettingsEvent :=
  match op with
  | .clear => some .cleared
  | .get force =>
    if s.Constructs read (.get force) then
      match s.answer read (.get force) with
      | .ok made => made.map .made
      | .error _ => none
    else none
  | .change _ | .construct => none

/-- What several operations do to the settings in use, in order. -/
def events (s : SettingsState Environment) :
    List (SettingsOperation Environment) → List SettingsEvent
  | [] => []
  | op :: rest => (s.event? read op).toList ++ (s.after read op).events rest

/-! ## One operation -/

/-- What asking for settings does: unless a reload is forced, it gives the settings in use. Else it
reads the environment, and gives new settings and puts them in use, or leaves everything as it is. -/
theorem get_cases (force : Bool) :
    (∃ held, force = false ∧ s.cache.held = some held ∧
      s.answer read (.get force) = .ok (some held) ∧ s.after read (.get force) = s) ∨
    ((force = true ∨ s.cache.held = none) ∧
      ((∃ settings, read s.environment = .ok settings ∧
        s.answer read (.get force) = .ok (some ⟨s.cache.constructed, settings⟩) ∧
        s.after read (.get force) = ⟨s.environment,
          ⟨some ⟨s.cache.constructed, settings⟩, s.cache.constructed + 1⟩⟩) ∨
      (∃ fault, read s.environment = .error fault ∧
        s.answer read (.get force) = .error fault ∧ s.after read (.get force) = s))) := by
  obtain ⟨environment, held, constructed⟩ := s
  unfold answer after perform SettingsCache.get SettingsCache.construct
  cases held with
  | none =>
    cases reading : read environment with
    | ok settings => exact .inr ⟨.inr rfl, .inl ⟨settings, rfl, rfl, rfl⟩⟩
    | error fault => exact .inr ⟨.inr rfl, .inr ⟨fault, rfl, rfl, rfl⟩⟩
  | some held =>
    cases force with
    | false => exact .inl ⟨held, rfl, rfl, rfl, rfl⟩
    | true =>
      cases reading : read environment with
      | ok settings => exact .inr ⟨.inl rfl, .inl ⟨settings, rfl, rfl, rfl⟩⟩
      | error fault => exact .inr ⟨.inl rfl, .inr ⟨fault, rfl, rfl, rfl⟩⟩

/-- The settings in use are given as long as no reload is forced, whatever reading would give. -/
theorem get_of_held {held : SettingsInstance} (used : s.cache.held = some held) :
    s.answer read (.get false) = .ok (some held) ∧ s.after read (.get false) = s := by
  rcases s.get_cases read false with ⟨same, -, found, given, kept⟩ | ⟨forced | none, -⟩
  · exact ⟨Option.some.inj (found.symm.trans used) ▸ given, kept⟩
  · cases forced
  · cases none.symm.trans used

variable {force : Bool}

theorem held_of_given {given : Option SettingsInstance}
    (answer : s.answer read (.get force) = .ok given) :
    ∃ held, given = some held ∧ (s.after read (.get force)).cache.held = some held := by
  rcases s.get_cases read force with
    ⟨held, -, used, same, kept⟩ | ⟨-, ⟨settings, -, made, new⟩ | ⟨fault, -, refused, -⟩⟩
  · exact ⟨held, Except.ok.inj (answer.symm.trans same), by rw [kept, used]⟩
  · exact ⟨_, Except.ok.inj (answer.symm.trans made), by rw [new]⟩
  · cases answer.symm.trans refused

theorem needed_of_constructs (constructs : s.Constructs read (.get force)) :
    force = true ∨ s.cache.held = none := by
  rcases s.get_cases read force with ⟨-, -, -, -, kept⟩ | ⟨needed, -⟩
  · exact absurd (by rw [kept]) constructs
  · exact needed

theorem refused_iff {fault : Fault} :
    s.answer read (.get force) = .error fault ↔
      (force = true ∨ s.cache.held = none) ∧ read s.environment = .error fault := by
  rcases s.get_cases read force with
    ⟨held, rfl, used, given, -⟩ |
    ⟨needed, ⟨settings, reading, made, -⟩ | ⟨reason, reading, refused, -⟩⟩
  · simp [given, used]
  · simp [made, reading]
  · simp [refused, reading, needed]

theorem kept_of_refused {fault : Fault} (refused : s.answer read (.get force) = .error fault) :
    s.after read (.get force) = s := by
  rcases s.get_cases read force with
    ⟨-, -, -, -, kept⟩ | ⟨-, ⟨settings, -, made, -⟩ | ⟨-, -, -, kept⟩⟩
  · exact kept
  · cases refused.symm.trans made
  · exact kept

theorem event?_get_of_kept (kept : s.after read (.get force) = s) :
    s.event? read (.get force) = none := by
  have same : ¬ s.Constructs read (.get force) := fun new => new (by rw [kept])
  rw [event?, if_neg same]

theorem held_after (op : SettingsOperation Environment) :
    (s.after read op).cache.held =
      ((s.event? read op).map SettingsEvent.left).getD s.cache.held := by
  cases op with
  | change | clear => rfl
  | construct =>
    show (s.cache.construct (read s.environment)).1.held = s.cache.held
    unfold SettingsCache.construct
    cases read s.environment <;> rfl
  | get force =>
    rcases s.get_cases read force with
      ⟨-, -, -, -, kept⟩ | ⟨-, ⟨settings, -, given, new⟩ | ⟨-, -, -, kept⟩⟩
    · rw [event?_get_of_kept read s kept, kept]
      rfl
    · have constructs : s.Constructs read (.get force) := by
        rw [Constructs, new]
        exact Nat.succ_ne_self _
      rw [event?, if_pos constructs, given, new]
      rfl
    · rw [event?_get_of_kept read s kept, kept]
      rfl

/-! ## Sessions -/

theorem run_concat (ops : List (SettingsOperation Environment))
    (op : SettingsOperation Environment) :
    s.run read (ops ++ [op]) = (s.run read ops).after read op := by
  rw [run, List.foldl_append]
  rfl

theorem events_concat (ops : List (SettingsOperation Environment))
    (op : SettingsOperation Environment) :
    s.events read (ops ++ [op]) =
      s.events read ops ++ ((s.run read ops).event? read op).toList := by
  induction ops generalizing s with
  | nil => simp [events, run]
  | cons first rest ih =>
    rw [List.cons_append, events, ih, events, List.append_assoc]
    rfl

/-- The last event of a session tells which settings are in use. -/
theorem held_run (ops : List (SettingsOperation Environment)) :
    (s.run read ops).cache.held =
      ((s.events read ops).getLast?.map SettingsEvent.left).getD s.cache.held := by
  induction ops using List.reverseRecOn with
  | nil => rfl
  | append_singleton ops op ih =>
    rw [run_concat, held_after, ih, events_concat]
    cases (s.run read ops).event? read op with
    | none => rw [Option.toList_none, List.append_nil, Option.map_none, Option.getD_none]
    | some event =>
      rw [Option.toList_some, List.getLast?_concat]
      rfl

/-- Settings are in use exactly when their construction is the last event. -/
theorem held_run_initial (environment : Environment) (ops : List (SettingsOperation Environment))
    (settings : SettingsInstance) :
    ((initial environment).run read ops).cache.held = some settings ↔
      ((initial environment).events read ops).getLast? = some (.made settings) := by
  rw [held_run]
  cases ((initial environment).events read ops).getLast? with
  | none => simp [initial, SettingsCache.empty]
  | some event => cases event <;> simp [SettingsEvent.left]

/-- What asking for settings gives after any session, whatever reading does. In use are the settings
whose construction was the last event, which is not followed by clearing. Whoever asks with success
is given these, and they are in use then. Unless a reload is forced, the settings in use are given
without reading the environment; so a construction is forced or finds none in use. Settings are
refused exactly when they have to be read and reading is refused; that leaves the state as it is, so
the operations that follow give what they would have given. -/
theorem settings_spec (environment : Environment) (ops : List (SettingsOperation Environment)) :
    let s := (initial environment).run read ops
    let events := (initial environment).events read
    (∀ held, s.cache.held = some held ↔ (events ops).getLast? = some (.made held)) ∧
    (∀ force given, s.answer read (.get force) = .ok given →
      ∃ held, given = some held ∧ (s.after read (.get force)).cache.held = some held ∧
        (events (ops ++ [.get force])).getLast? = some (.made held)) ∧
    (∀ held other, s.cache.held = some held →
      s.answer other (.get false) = .ok (some held) ∧ s.after other (.get false) = s) ∧
    (∀ force, s.Constructs read (.get force) → force = true ∨ s.cache.held = none) ∧
    (∀ force fault, s.answer read (.get force) = .error fault ↔
      (force = true ∨ s.cache.held = none) ∧ read s.environment = .error fault) ∧
    (∀ force fault, s.answer read (.get force) = .error fault →
      s.after read (.get force) = s ∧
        ∀ more, s.answers read (.get force :: more) = .error fault :: s.answers read more) := by
  intro s events
  refine ⟨held_run_initial read environment ops, fun force given answer => ?_,
    fun held other used => get_of_held other s used, fun force => needed_of_constructs read s,
    fun force fault => refused_iff read s, fun force fault refused => ?_⟩
  · obtain ⟨held, rfl, used⟩ := held_of_given read s answer
    refine ⟨held, rfl, used, ?_⟩
    rw [← run_concat] at used
    exact (held_run_initial read environment _ held).mp used
  · have kept : s.after read (.get force) = s := kept_of_refused read s refused
    refine ⟨kept, fun more => ?_⟩
    rw [answers, refused, kept]

end SettingsState
end Infra
