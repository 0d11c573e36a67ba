import GridBridge.Config.Settings
import GridBridge.Config.Toml.Document

/-!
# Config: saved configurations

A configuration is saved as a TOML document of a fixed layout: settings of its own in front, then
one section for each group of settings. Lists of two and more texts have a line for each.
-/

namespace GridBridge.Config.Toml

open Files

/-- What a saved setting can be. -/
inductive Item where
  | truth (value : Bool)
  | text (value : String)
  | texts (values : List String)
  deriving DecidableEq, Repr

def Item.tree : Item → Tree
  | .truth value => .truth value
  | .text value => .text value
  | .texts values => .list (values.map .text)

abbrev Items := List (String × Item)

/-- The settings in front of any section, and the sections. -/
structure Layout where
  front : Items
  sections : List (String × Items)
  deriving DecidableEq, Repr

def Items.trees (items : Items) : List (String × Tree) :=
  items.map fun (key, item) => (key, item.tree)

/-- What a layout says. -/
def Layout.tree (l : Layout) : Tree :=
  .record (Items.trees l.front ++
    l.sections.map fun (key, items) => (key, .record (Items.trees items)))

/-! ## From settings -/

/-- An entry for a path, if there is one. Only a path that is text can be saved. -/
def pathItem? (key : String) : Option Path → Option Items
  | none => some []
  | some path => path.toString?.map fun text => [(key, .text text)]

/-- The layout of settings; nothing if a path is no text. -/
def layout? (s : Settings) : Option Layout := do
  let home ← pathItem? Key.home s.home
  let classpath ← s.classpath.mapM Path.toString?
  let configPath ← pathItem? Key.configPath s.inst.configPath
  return {
    front := home ++
      [(Key.classpath, .texts classpath), (Key.options, .texts s.options),
        (Key.quiet, .truth s.quiet)]
    sections :=
      [(Key.inst, configPath ++ [(Key.name, .text s.inst.name)]),
        (Key.logging, [(Key.filter, .text s.logging.filter)])] }

/-! ## Text of a layout -/

def indent : List Char := List.replicate 4 ' '

def Item.write : Item → List Char
  | .truth value => (if value then "true" else "false").toList
  | .text value => Toml.write value
  | .texts [] => ['[', ']']
  | .texts [one] => '[' :: Toml.write one ++ [']']
  | .texts values =>
    ['[', '\n'] ++ values.flatMap (fun v => indent ++ Toml.write v ++ [',', '\n']) ++ [']']

/-- A line for each item. -/
def Items.write (items : Items) : List Char :=
  items.flatMap fun (key, item) => key.toList ++ " = ".toList ++ item.write ++ ['\n']

/-- The text of a layout. An empty line stands in front of each section. -/
def Layout.write (l : Layout) : String :=
  String.ofList (l.front.write ++
    l.sections.flatMap fun (key, items) => ['\n', '['] ++ key.toList ++ [']', '\n'] ++ items.write)

end GridBridge.Config.Toml
