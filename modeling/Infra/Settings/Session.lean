import Infra.Settings.Cache

/-!
# Sessions of settings

What a program does with its settings, one operation after the other: its environment changes, it
asks for the settings in use, constructs settings apart from them, and clears the ones in use. What
reading an environment gives is a parameter.

* `SettingsOperation` : one operation; `SettingsState` : the environment and the settings in use;
* `SettingsState.after`, `SettingsState.answer` : the state and the settings that an operation
  leaves; `SettingsState.run`, `SettingsState.answers` : those of several operations.
-/

namespace Infra

/-- What a program does with its settings, in environments of some type. -/
inductive SettingsOperation (Environment : Type)
  | change (environment : Environment)
  | get (force : Bool)
  | construct
  | clear

/-- The state on which operations work. -/
structure SettingsState (Environment : Type) where
  environment : Environment
  cache : SettingsCache

namespace SettingsState

variable {Environment : Type}

def initial (environment : Environment) : SettingsState Environment := ⟨environment, .empty⟩

variable (read : Environment → Except Fault Settings) (s : SettingsState Environment)

/-- An operation: the state after it, and the settings that it gives, if it gives any. -/
def perform : SettingsOperation Environment →
    SettingsState Environment × Except Fault (Option SettingsInstance)
  | .change environment => ({ s with environment := environment }, .ok none)
  | .get force =>
    let (cache, result) := s.cache.get force (read s.environment)
    ({ s with cache := cache }, result.map some)
  | .construct =>
    let (cache, result) := s.cache.construct (read s.environment)
    ({ s with cache := cache }, result.map some)
  | .clear => ({ s with cache := s.cache.clear }, .ok none)

/-- The state after an operation. -/
def after (op : SettingsOperation Environment) : SettingsState Environment :=
  (s.perform read op).1

/-- What an operation gives. -/
def answer (op : SettingsOperation Environment) : Except Fault (Option SettingsInstance) :=
  (s.perform read op).2

/-- The state after several operations. -/
def run (ops : List (SettingsOperation Environment)) : SettingsState Environment :=
  ops.foldl (after read) s

/-- What several operations give. -/
def answers (s : SettingsState Environment) :
    List (SettingsOperation Environment) → List (Except Fault (Option SettingsInstance))
  | [] => []
  | op :: rest => s.answer read op :: (s.after read op).answers rest

end SettingsState
end Infra
