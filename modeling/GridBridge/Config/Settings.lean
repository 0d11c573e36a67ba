import GridBridge.Config.Tree
import GridBridge.Files.Path

/-!
# Config: settings of the bridge

Every setting has a default, so any part of a configuration may be left out.
-/

namespace GridBridge.Config

open Files

/-- The instance to start. -/
structure InstanceSettings where
  /-- The file the instance is configured by. -/
  configPath : Option Path := none
  name : String := "ignite1"
  deriving DecidableEq, Repr

structure LoggingSettings where
  /-- What the log takes. -/
  filter : String := "info"
  deriving DecidableEq, Repr

structure Settings where
  /-- The directory of the installation. -/
  home : Option Path := none
  /-- Where classes are looked for. Assembled from the installation if empty. -/
  classpath : List Path := []
  /-- Further options of the runtime. -/
  options : List String := []
  quiet : Bool := false
  inst : InstanceSettings := {}
  logging : LoggingSettings := {}
  deriving DecidableEq, Repr

/-! ## Names -/

namespace Key

def home : String := "ignite_home"
def classpath : String := "classpath"
def options : String := "jvm_options"
def quiet : String := "quiet"
def inst : String := "instance"
def logging : String := "logging"
def configPath : String := "config_path"
def name : String := "name"
def filter : String := "filter"

/-- The names of all settings, in order. -/
def ofSettings : List String := [home, classpath, options, quiet, inst, logging]

def ofInstance : List String := [configPath, name]

def ofLogging : List String := [filter]

end Key

/-! ## From a tree -/

/-- A path that may be absent. -/
def toOptionalPath? (tree : Tree) : Option (Option Path) :=
  tree.toOptionalText?.map (·.map Path.ofString)

/-- A list of paths. -/
def toPaths? (tree : Tree) : Option (List Path) := tree.toTexts?.map (·.map Path.ofString)

def InstanceSettings.ofTree? (surplus : Bool) (tree : Tree) : Option InstanceSettings := do
  let entries ← tree.entries? Key.ofInstance surplus
  return {
    configPath := ← Tree.setting? entries Key.configPath toOptionalPath? none
    name := ← Tree.setting? entries Key.name Tree.toText? (InstanceSettings.name {}) }

def LoggingSettings.ofTree? (surplus : Bool) (tree : Tree) : Option LoggingSettings := do
  let entries ← tree.entries? Key.ofLogging surplus
  return { filter := ← Tree.setting? entries Key.filter Tree.toText? (LoggingSettings.filter {}) }

/-- The settings that a tree states. With `surplus`, a list of values may be longer than the list of
settings. -/
def Settings.ofTree? (surplus : Bool) (tree : Tree) : Option Settings := do
  let entries ← tree.entries? Key.ofSettings surplus
  return {
    home := ← Tree.setting? entries Key.home toOptionalPath? none
    classpath := ← Tree.setting? entries Key.classpath toPaths? []
    options := ← Tree.setting? entries Key.options Tree.toTexts? []
    quiet := ← Tree.setting? entries Key.quiet Tree.toTruth? false
    inst := ← Tree.setting? entries Key.inst (InstanceSettings.ofTree? surplus) {}
    logging := ← Tree.setting? entries Key.logging (LoggingSettings.ofTree? surplus) {} }

end GridBridge.Config
