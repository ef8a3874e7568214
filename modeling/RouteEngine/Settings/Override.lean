import RouteEngine.Outcome
import RouteEngine.Settings.Basic

/-!
Settings that are changed for the time of one action. Actions nest, each on top of the settings
around it, and however an action ends the settings are then what they were before it.
-/

namespace RouteEngine

/-- Changes to the settings; what is left out stays as it is. -/
structure SettingsOverride where
  tldLength : Option UInt64 := none
  appendFormat : Option Bool := none
  optimizeGeneration : Option Bool := none
  cascadeHeader : Option String := none
  defaultHost : Option String := none
  defaultProtocol : Option String := none
  defaultPort : Option Nat := none
  deriving DecidableEq, Repr

def SettingsOverride.apply (o : SettingsOverride) (s : Settings) : Settings :=
  { s with
    tldLength := o.tldLength.getD s.tldLength
    appendFormat := o.appendFormat.getD s.appendFormat
    optimizeGeneration := o.optimizeGeneration.getD s.optimizeGeneration
    cascadeHeader := o.cascadeHeader.getD s.cascadeHeader
    urlDefaults :=
      { s.urlDefaults with
        host := o.defaultHost.or s.urlDefaults.host
        protocol := o.defaultProtocol.or s.urlDefaults.protocol
        port := o.defaultPort.or s.urlDefaults.port } }

/-- The settings in effect, none outside of every override. -/
structure ActiveSettings where
  layer : Option Settings := none

/-- What a call puts back when it ends. -/
structure Restore where
  previous : Option Settings

namespace ActiveSettings

def current (a : ActiveSettings) : Settings := a.layer.getD {}

/-- Puts other settings in effect and keeps what was there before. -/
def replace (a : ActiveSettings) (s : Settings) : Restore × ActiveSettings :=
  (⟨a.layer⟩, { a with layer := some s })

def restore (a : ActiveSettings) (r : Restore) : ActiveSettings := { a with layer := r.previous }

end ActiveSettings

/-- What may read and change the settings in effect and a state of its own. -/
abbrev Action (τ α : Type) := ActiveSettings → τ → Outcome α × ActiveSettings × τ

/-- Runs an action under an override and puts the settings back, however it ended. -/
def SettingsOverride.around {τ α : Type} (o : SettingsOverride) (body : Action τ α) : Action τ α :=
  fun before t =>
    let (kept, inside) := before.replace (o.apply before.current)
    let (outcome, left, t) := body inside t
    (outcome, left.restore kept, t)

end RouteEngine
