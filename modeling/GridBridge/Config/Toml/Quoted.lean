import GridBridge.Text.Hex
import GridBridge.Text.Scan

/-!
# Config: quoted texts in TOML

A text is quoted in one of four forms: between double quotes, where a backslash starts an escape, or
between single quotes, where every character stands for itself; and each of them also tripled, so
that the text may go over several lines. `write` takes the plainest form that needs no escapes.
-/

namespace GridBridge.Config.Toml

open Text

/-- Tab, and everything that is no control. -/
def isShown (c : Char) : Bool := c == '\t' || (' ' ≤ c && c != '\x7f')

inductive Form where
  | basic
  | literal
  | basicLines
  | literalLines
  deriving DecidableEq, Repr

namespace Form

def mark : Form → Char
  | .basic | .basicLines => '"'
  | .literal | .literalLines => '\''

def isMultiline : Form → Bool
  | .basic | .literal => false
  | .basicLines | .literalLines => true

def hasEscapes : Form → Bool
  | .basic | .basicLines => true
  | .literal | .literalLines => false

def delimiter (f : Form) : List Char := List.replicate (if f.isMultiline then 3 else 1) f.mark

end Form

/-! ## Reading -/

/-- The character of a number in hexadecimal digits. -/
def numbered (count : Nat) : Scan Char := do
  let digits ← Scan.take count
  let number ← digits.foldlM (fun n c => (hexValue? c).map (16 * n + ·)) 0
  Scan.require number.isValidChar
  return Char.ofNat number

/-- What follows the backslash of an escape. -/
def escape : Scan Char := do
  match ← Scan.next with
  | 'b' => return '\x08'
  | 't' => return '\t'
  | 'n' => return '\n'
  | 'f' => return '\x0c'
  | 'r' => return '\r'
  | 'e' => return '\x1b'
  | '"' => return '"'
  | '\\' => return '\\'
  | 'x' => numbered 2
  | 'u' => numbered 4
  | 'U' => numbered 8
  | _ => failure

def isSpace (c : Char) : Bool := c == ' ' || c == '\t'

def spaces : Scan Unit := do let _ ← Scan.span isSpace

/-- The end of a line, if the text starts with one. -/
def newline? : Scan (Option (List Char)) := do
  if ← Scan.accept ['\n'] then return some ['\n']
  if ← Scan.accept ['\r', '\n'] then return some ['\r', '\n']
  return none

/-- Spaces and ends of lines. -/
def spacesAndLines : Scan Unit := do
  spaces
  let _ ← Scan.repeatedly do
    match ← newline? with
    | none => return none
    | some _ =>
      spaces
      return some ()

/-- Whether a backslash stands before the end of a line. -/
def endsLine (rest : List Char) : Bool :=
  let after := rest.dropWhile isSpace
  ['\n'].isPrefixOf after || ['\r', '\n'].isPrefixOf after

/-- What a backslash stands for: an escape, or nothing together with all blanks up to the next
character, if a line ends there. -/
def afterBackslash (f : Form) : Scan (List Char) := do
  if f.isMultiline && endsLine (← get) then
    spacesAndLines
    return []
  return [← escape]

/-- The next characters of a text, up to its delimiter. -/
def piece (f : Form) : Scan (Option (List Char)) := do
  if ← Scan.accept f.delimiter then return none
  if f.isMultiline then
    if let some line ← newline? then return some line
  let c ← Scan.next
  if f.hasEscapes && c == '\\' then return some (← afterBackslash f)
  Scan.require (isShown c)
  return some [c]

/-- Quotes in front of the delimiter belong to a text of several lines, which shows only behind
it. There may be two of them. -/
def lateMarks (f : Form) : Scan (List Char) := do
  unless f.isMultiline do return []
  unless ← Scan.acceptOne [f.mark] do return []
  unless ← Scan.acceptOne [f.mark] do return [f.mark]
  return [f.mark, f.mark]

/-- A text of a form, from behind its opening delimiter. The end of the line that the delimiter
stands on does not count. -/
def body (f : Form) : Scan (List Char) := do
  if f.isMultiline then let _ ← newline?
  let pieces ← Scan.repeatedly (piece f)
  return pieces.flatten ++ (← lateMarks f)

/-- The form whose delimiter comes next. -/
def openedForm : Scan Form := do
  if ← Scan.accept Form.basicLines.delimiter then return .basicLines
  if ← Scan.accept Form.literalLines.delimiter then return .literalLines
  if ← Scan.accept Form.basic.delimiter then return .basic
  Scan.expect Form.literal.delimiter
  return .literal

/-- A quoted text of any form. -/
def quotedText : Scan String := do return String.ofList (← body (← openedForm))

/-- A quoted text of one line. -/
def quotedLine : Scan String := do
  let f : Form := if ← Scan.accept Form.basic.delimiter then .basic else .literal
  if f = .literal then Scan.expect Form.literal.delimiter
  return String.ofList (← body f)

/-! ## Writing -/

/-- The most occurrences of a character in a row. -/
def longestRun (mark : Char) (text : List Char) : Nat :=
  (text.foldl (fun (best, run) c => if c = mark then (max best (run + 1), run + 1) else (best, 0))
    (0, 0)).1

/-- Controls that cannot stand for themselves in any form. -/
def needsEscape (c : Char) : Bool := c != '\n' && !isShown c

/-- The form a text is written in. -/
def Form.of (text : List Char) : Form :=
  let hidden := text.any needsEscape
  let lines := text.contains '\n'
  let plain := !hidden && !text.contains '\\'
  if plain && !text.contains '"' && !lines then .basic
  else if !hidden && !text.contains '\'' && !lines then .literal
  else if plain && longestRun '"' text ≤ 2 then .basicLines
  else if !hidden && longestRun '\'' text ≤ 2 then .literalLines
  else if lines then .basicLines
  else .basic

/-- A character other than a quote, in a form with escapes. -/
def escaped (f : Form) (c : Char) : List Char :=
  if c = '\x08' then ['\\', 'b']
  else if c = '\t' then ['\\', 't']
  else if c = '\x0c' then ['\\', 'f']
  else if c = '\r' then ['\\', 'r']
  else if c = '\\' then ['\\', '\\']
  else if c = '\n' then if f.isMultiline then ['\n'] else ['\\', 'n']
  else if isShown c then [c]
  else ['\\', 'u', '0', '0', upperHexDigit (c.toNat / 16), upperHexDigit (c.toNat % 16)]

/-- How many quotes in a row need no escape. -/
def Form.freeMarks (f : Form) : Nat := if f.isMultiline then 2 else 0

/-- A text in a form with escapes. `run` quotes stand in front of it. -/
def escapedText (f : Form) : Nat → List Char → List Char
  | _, [] => []
  | run, c :: rest =>
    if c = '"' then
      if run < f.freeMarks then '"' :: escapedText f (run + 1) rest
      else '\\' :: '"' :: escapedText f 0 rest
    else escaped f c ++ escapedText f 0 rest

/-- A text in its quotes. -/
def write (text : String) : List Char :=
  let chars := text.toList
  let f := Form.of chars
  let start := if chars.contains '\n' then ['\n'] else []
  let inner := if f.hasEscapes then escapedText f 0 chars else chars
  f.delimiter ++ start ++ inner ++ f.delimiter

end GridBridge.Config.Toml
