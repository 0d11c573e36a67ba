import GridBridge.Config.Tree
import GridBridge.Text.Hex
import GridBridge.Text.Scan

/-!
# Config: JSON

Reads a JSON text into a tree. Numbers say nothing to a configuration and become `Tree.other`. Texts
may be written with escapes that name halves of a surrogate pair; a half without its partner makes
the text, or the object whose key it is in, a value that no setting takes.
-/

namespace GridBridge.Config.Json

open Text

def isBlank (c : Char) : Bool := c == ' ' || c == '\t' || c == '\n' || c == '\r'

def blanks : Scan Unit := do let _ ← Scan.span isBlank

/-! ## Texts -/

/-- Part of a text: a character, or the number of an escape. -/
inductive Part where
  | char (c : Char)
  | unit (number : Nat)
  deriving DecidableEq, Repr

def isLeading (number : Nat) : Bool := 0xD800 ≤ number && number ≤ 0xDBFF

def isTrailing (number : Nat) : Bool := 0xDC00 ≤ number && number ≤ 0xDFFF

/-- The text of parts. The two halves of a surrogate pair stand next to each other, the leading one
first. -/
def textOf? : List Part → Option (List Char)
  | [] => some []
  | .char c :: rest => (textOf? rest).map (c :: ·)
  | .unit high :: .unit low :: rest =>
    if isLeading high then
      if isTrailing low then
        (textOf? rest).map (Char.ofNat (0x10000 + (high - 0xD800) * 0x400 + (low - 0xDC00)) :: ·)
      else none
    else if isTrailing high then none
    else (textOf? (.unit low :: rest)).map (Char.ofNat high :: ·)
  | .unit number :: rest =>
    if isLeading number || isTrailing number then none
    else (textOf? rest).map (Char.ofNat number :: ·)

/-- The number of hexadecimal digits. -/
def hexOf? (digits : List Char) : Option Nat :=
  digits.foldlM (fun n c => (hexValue? c).map (16 * n + ·)) 0

/-- What follows a backslash. -/
def escape : Scan Part := do
  match ← Scan.next with
  | '"' => return .char '"'
  | '\\' => return .char '\\'
  | '/' => return .char '/'
  | 'b' => return .char '\x08'
  | 'f' => return .char '\x0c'
  | 'n' => return .char '\n'
  | 'r' => return .char '\r'
  | 't' => return .char '\t'
  | 'u' => return .unit (← hexOf? (← Scan.take 4))
  | _ => failure

/-- The next part of a text, up to the closing quote. Controls have to be escaped. -/
def part : Scan (Option Part) := do
  match ← Scan.next with
  | '"' => return none
  | '\\' => return some (← escape)
  | c =>
    Scan.require (' ' ≤ c)
    return some (.char c)

/-- A quoted text; nothing if it has half of a surrogate pair. -/
def quotedText : Scan (Option String) := do
  Scan.expect ['"']
  return (textOf? (← Scan.repeatedly part)).map String.ofList

/-! ## Numbers -/

def digits : Scan Unit := do Scan.require !(← Scan.span Char.isDigit).isEmpty

/-- A number: no zero in front of other digits, and digits on both sides of the point. -/
def number : Scan Unit := do
  let _ ← Scan.acceptOne ['-']
  unless ← Scan.acceptOne ['0'] do digits
  if ← Scan.acceptOne ['.'] then digits
  if ← Scan.acceptOne ['e', 'E'] then
    let _ ← Scan.acceptOne ['+', '-']
    digits

/-! ## Values -/

/-- Values between brackets, with commas between them. -/
def separated {α : Type} (close : List Char) (item : Scan α) : Scan (List α) := do
  blanks
  if ← Scan.accept close then return []
  let first ← item
  let others ← Scan.repeatedly do
    blanks
    if ← Scan.accept close then return none
    Scan.expect [',']
    blanks
    return some (← item)
  return first :: others

/-- An entry of an object. -/
def entry (value : Scan Tree) : Scan (Option String × Tree) := do
  let name ← quotedText
  blanks
  Scan.expect [':']
  blanks
  return (name, ← value)

/-- An object. No setting takes one with a name that is no text. -/
def objectOf (entries : List (Option String × Tree)) : Tree :=
  match entries.mapM fun (name, tree) => name.map (·, tree) with
  | some named => .record named
  | none => .other

/-- A value with at most `depth` brackets around its innermost part. -/
def value : Nat → Scan Tree
  | 0 => failure
  | depth + 1 => do
    match ← Scan.peek? with
    | some '{' =>
      Scan.expect ['{']
      return objectOf (← separated ['}'] (entry (value depth)))
    | some '[' =>
      Scan.expect ['[']
      return .list (← separated [']'] (value depth))
    | some '"' =>
      match ← quotedText with
      | some text => return .text text
      | none => return .other
    | some 't' => Scan.expect "true".toList; return .truth true
    | some 'f' => Scan.expect "false".toList; return .truth false
    | some 'n' => Scan.expect "null".toList; return .null
    | _ => number; return .other

/-- Reads a JSON text. -/
def read? (text : String) : Option Tree :=
  Scan.whole? (do
    blanks
    let tree ← value (text.length + 1)
    blanks
    return tree) text

end GridBridge.Config.Json
