import GridBridge.Config.Json
import GridBridge.Config.Toml.Layout
import GridBridge.Files.FileSystem

/-!
# Config: configuration files

Configurations are loaded from TOML or JSON and saved as TOML.
-/

namespace GridBridge.Config

open Files

inductive Format where
  | toml
  | json
  deriving DecidableEq, Repr

namespace Format

def name : Format → String
  | .toml => "TOML"
  | .json => "JSON"

/-- The tree of a text. -/
def read? : Format → String → Option Tree
  | .toml => Toml.read?
  | .json => Json.read?

/-- Whether settings given as a list may be followed by further values. -/
def takesSurplus : Format → Bool
  | .toml => true
  | .json => false

/-- The format that a path's extension stands for: only `json` stands for JSON. -/
def ofPath (p : Path) : Format :=
  if p.extension? = some (nameOfString "json") then .json else .toml

end Format

/-- Reads settings from a text. -/
def Settings.parse (format : Format) (text : String) : Except ConfigError Settings :=
  match (format.read? text).bind (Settings.ofTree? format.takesSurplus) with
  | some settings => .ok settings
  | none => .error (.parse s!"no configuration in {format.name}")

/-- Loads settings from a file. -/
def Settings.loadAs (format : Format) (fs : FileSystem) (p : Path) :
    Except ConfigError Settings := do
  let text ← (fs.readText p).mapError .io
  Settings.parse format text

/-- Loads settings from a file in the format of its extension. -/
def Settings.load (fs : FileSystem) (p : Path) : Except ConfigError Settings :=
  Settings.loadAs (.ofPath p) fs p

/-- The text that settings are saved as. -/
def Settings.text? (s : Settings) : Option String := (Toml.layout? s).map Toml.Layout.write

/-- Work on files that may fail on the way. What was written until then stays written. -/
abbrev Saving := ExceptT ConfigError (StateM FileSystem)

/-- The text to be saved. There is none if a path among the settings is no text. -/
def Settings.showText (s : Settings) : Saving String :=
  match s.text? with
  | some text => return text
  | none => throw (.parse "path contains invalid UTF-8 characters")

/-- Puts a text into a file. -/
def writeText (p : Path) (text : String) : Saving Unit := do
  match (← get).write p text.toUTF8.toList with
  | .ok written => set written
  | .error e => throw (.io e)

/-- Saves settings to a file: whether that went well, and the files as they are afterwards. -/
def Settings.save (s : Settings) (fs : FileSystem) (p : Path) :
    Except ConfigError Unit × FileSystem :=
  StateT.run (ExceptT.run (do writeText p (← s.showText))) fs

end GridBridge.Config
