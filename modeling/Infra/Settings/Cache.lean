import Infra.Settings.Read

/-!
# The settings in use

Settings are constructed once and then kept until they are cleared or a reload is forced. Settings
that are refused leave the ones in use as they are.

* `SettingsCache` : the settings in use, and the number of constructions so far, which tells
  instances apart;
* `SettingsCache.construct` : a new instance that is not kept;
* `SettingsCache.get`, `SettingsCache.clear` : the settings in use, constructed if needed.
-/

namespace Infra

/-- Settings with the number of their construction. -/
structure SettingsInstance where
  number : Nat
  settings : Settings
  deriving DecidableEq, Repr

/-- The settings in use, if there are any, and the number of constructions so far. -/
structure SettingsCache where
  held : Option SettingsInstance
  constructed : Nat
  deriving DecidableEq, Repr

namespace SettingsCache

def empty : SettingsCache := ⟨none, 0⟩

/-- Constructs settings from what reading gives. -/
def construct (c : SettingsCache) (reading : Except Fault Settings) :
    SettingsCache × Except Fault SettingsInstance :=
  match reading with
  | .ok settings =>
    ({ c with constructed := c.constructed + 1 }, .ok ⟨c.constructed, settings⟩)
  | .error fault => (c, .error fault)

/-- The settings in use. They are constructed anew where none are held or a reload is forced. -/
def get (c : SettingsCache) (force : Bool) (reading : Except Fault Settings) :
    SettingsCache × Except Fault SettingsInstance :=
  match c.held, force with
  | some held, false => (c, .ok held)
  | _, _ =>
    match c.construct reading with
    | (c, .ok made) => ({ c with held := some made }, .ok made)
    | refused => refused

/-- Forgets the settings in use. -/
def clear (c : SettingsCache) : SettingsCache := { c with held := none }

end SettingsCache
end Infra
