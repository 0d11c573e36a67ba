/-!
# Config: what a configuration text says

Configurations are written in two formats. Both say the same kind of thing: settings under names,
whose values are texts, truth values, lists or further settings. `Tree` is what is left of a text
once its format has been read.
-/

namespace GridBridge.Config

inductive Tree where
  | null
  | truth (value : Bool)
  | text (value : String)
  | list (items : List Tree)
  | record (entries : List (String × Tree))
  /-- A value that no setting takes, such as a number. -/
  | other
  /-- A value that cannot even be passed over, such as a number out of every range. -/
  | unreadable
  deriving Repr

namespace Tree

mutual

/-- Whether a value of no interest can be passed over. -/
def passable : Tree → Bool
  | .unreadable => false
  | .list items => allPassable items
  | .record entries => entriesPassable entries
  | _ => true

def allPassable : List Tree → Bool
  | [] => true
  | item :: rest => item.passable && allPassable rest

def entriesPassable : List (String × Tree) → Bool
  | [] => true
  | (_, item) :: rest => item.passable && entriesPassable rest

end

/-! ## Reading settings -/

def toTruth? : Tree → Option Bool
  | .truth value => some value
  | _ => none

def toText? : Tree → Option String
  | .text value => some value
  | _ => none

/-- A list of texts. -/
def toTexts? : Tree → Option (List String)
  | .list items => items.mapM toText?
  | _ => none

/-- A text, or the word for its absence. -/
def toOptionalText? : Tree → Option (Option String)
  | .null => some none
  | .text value => some (some value)
  | _ => none

/-- The entries of a record of known names. A name that is not known is passed over; a known one may
stand there once. A list gives the values in the order of the names, and may end early. With
`surplus` it may also go on. -/
def entries? (names : List String) (surplus : Bool) : Tree → Option (List (String × Tree))
  | .record entries =>
    let (known, others) := entries.partition fun (name, _) => names.contains name
    if (known.map (·.1)).Nodup && others.all (·.2.passable) then some known else none
  | .list items => if surplus || items.length ≤ names.length then some (names.zip items) else none
  | _ => none

/-- The value under a name, or a default where it is not given. -/
def setting? {α : Type} (entries : List (String × Tree)) (name : String) (read : Tree → Option α)
    (default : α) : Option α :=
  match entries.lookup name with
  | some tree => read tree
  | none => some default

end Tree

end GridBridge.Config
