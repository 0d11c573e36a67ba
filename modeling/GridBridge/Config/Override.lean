import GridBridge.Config.Settings
import GridBridge.Error

/-!
# Config: settings from the environment

Three variables take the place of settings. They are applied in order, and the first one that does
not hold ends it: the settings of those before it stay changed.
-/

namespace GridBridge.Config

open Files

/-- The values of the variables, where they are set. They need not be text. -/
structure Overrides where
  home : Option (List UInt8) := none
  instanceName : Option (List UInt8) := none
  quiet : Option (List UInt8) := none
  deriving DecidableEq, Repr

namespace Overrides

/-- The names of the variables, in the order they are applied. -/
def homeVariable : String := "IGNITE_HOME"
def instanceVariable : String := "IGNITE_INTEROP_INSTANCE"
def quietVariable : String := "IGNITE_INTEROP_QUIET"

/-- The text that bytes encode. -/
def textOf? (raw : List UInt8) : Option String := String.fromUTF8? raw.toByteArray

/-- The truth value that bytes spell. -/
def truthOf? (raw : List UInt8) : Option Bool :=
  match textOf? raw with
  | some "true" => some true
  | some "false" => some false
  | _ => none

/-- Changing settings, up to a variable that does not hold. -/
abbrev Change := ExceptT ConfigProblem (StateM Settings)

/-- Any bytes are a path. -/
def applyHome (o : Overrides) : Change Unit := do
  if let some raw := o.home then
    modify fun s => { s with home := some ⟨raw⟩ }

def applyInstanceName (o : Overrides) : Change Unit := do
  if let some raw := o.instanceName then
    match textOf? raw with
    | some name => modify fun s => { s with inst := { s.inst with name } }
    | none => throw (.instanceNameNotUtf8 raw)

def applyQuiet (o : Overrides) : Change Unit := do
  if let some raw := o.quiet then
    match truthOf? raw with
    | some quiet => modify fun s => { s with quiet }
    | none => throw (.quietNotBoolean raw)

def apply (o : Overrides) : Change Unit := do
  o.applyHome
  o.applyInstanceName
  o.applyQuiet

end Overrides

/-- Applies overrides, and says whether all of them held. -/
def Settings.override (s : Settings) (o : Overrides) : Except ConfigError Unit × Settings :=
  let (outcome, changed) := o.apply.run.run s
  (outcome.mapError .validation, changed)

end GridBridge.Config
