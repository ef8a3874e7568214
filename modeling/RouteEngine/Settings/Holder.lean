import RouteEngine.Settings.Basic

/-!
Settings that are configured once and read from then on.
-/

namespace RouteEngine

inductive HolderFault
  | configuredTwice
  | notConfigured
  deriving DecidableEq, Repr

def HolderFault.message : HolderFault → String
  | .configuredTwice => "Settings have already been configured"
  | .notConfigured => "Settings have not been configured. Call SETTINGS.configure() first."

structure SettingsHolder where
  held : Option Settings := none

namespace SettingsHolder

def configure (h : SettingsHolder) (s : Settings) : Except HolderFault SettingsHolder :=
  match h.held with
  | some _ => .error .configuredTwice
  | none => .ok ⟨some s⟩

def get (h : SettingsHolder) : Except HolderFault Settings :=
  match h.held with
  | some s => .ok s
  | none => .error .notConfigured

def isConfigured (h : SettingsHolder) : Bool := h.held.isSome

end SettingsHolder

end RouteEngine
