import GridBridge.Config.Toml.Quoted
import GridBridge.Config.Toml.Scalar
import GridBridge.Config.Toml.Table

/-!
# Config: TOML documents

A document is lines: assignments, and headers that start sections. Arrays and inline tables may go
over several lines, with comments between their items and a comma behind the last one.
-/

namespace GridBridge.Config.Toml

open Text

/-! ## Blanks -/

/-- A comment up to the end of its line, if one comes next. -/
def comment : Scan Unit := do
  if ← Scan.acceptOne ['#'] then
    let _ ← Scan.span isShown

/-- Spaces, comments and ends of lines. -/
def trivia : Scan Unit := do
  let _ ← Scan.repeatedly do
    spaces
    comment
    return (← newline?).map fun _ => ()

/-- The end of a line with something on it. -/
def lineEnd : Scan Unit := do
  spaces
  comment
  if (← newline?).isNone then Scan.require (← Scan.atEnd)

/-! ## Keys -/

/-- Characters of names that need no quotes. -/
def isBare (c : Char) : Bool := c.isAlphanum || c == '_' || c == '-'

/-- One name of a key. -/
def name : Scan String := do
  match ← Scan.peek? with
  | some '"' | some '\'' => quotedLine
  | _ =>
    let chars ← Scan.span isBare
    Scan.require !chars.isEmpty
    return String.ofList chars

/-- The most names of a key, and the most brackets around a value. -/
def maxDepth : Nat := 80

/-- The names of a key, with dots between them: those in front of the last one, and the last. -/
def dottedKey : Scan (List String × String) := do
  spaces
  let first ← name
  spaces
  let others ← Scan.repeatedly do
    unless ← Scan.acceptOne ['.'] do return none
    spaces
    let more ← name
    spaces
    return some more
  let names := first :: others
  Scan.require (names.length ≤ maxDepth)
  return (names.dropLast, names.getLastD first)

/-! ## Values -/

/-- Ends a word of a value without quotes. -/
def endsWord (c : Char) : Bool :=
  [' ', '\t', '\n', '\r', '=', ',', '[', ']', '\x7b', '\x7d', '#'].contains c

/-- Starts a further word. -/
def startsWord (c : Char) : Bool := !(endsWord c || ['.', '"', '\''].contains c)

/-- The characters up to the end of a word. -/
def word : Scan (List Char) := Scan.span fun c => !endsWord c

/-- The text of a value without quotes: words with blanks between them, as a date and its time of
day are. -/
def scalarText : Scan (List Char) := do
  let first ← word
  let others ← Scan.repeatedly do
    let blanks := (← get).takeWhile isSpace
    let next := ((← get).dropWhile isSpace).head?
    unless !blanks.isEmpty && next.any startsWord do return none
    spaces
    return some (blanks ++ (← word))
  return first ++ others.flatten

/-- A quoted text, or a value without quotes. -/
def single : Scan Tree := do
  match ← Scan.peek? with
  | some '"' | some '\'' => return .text (← quotedText)
  | _ => scalar? (← scalarText)

/-- Items up to a closing bracket, with commas between them. -/
def itemsUpTo {α : Type} (close : Char) (item : Scan α) : Scan (List α) :=
  Scan.repeatedly do
    trivia
    if ← Scan.acceptOne [close] then return none
    let one ← item
    trivia
    unless ← Scan.acceptOne [','] do Scan.require ((← Scan.peek?) == some close)
    return some one

/-- A key and the value given to it, with `gap` on both sides of the sign between them. -/
def assignment (gap : Scan Unit) (value : Scan Tree) : Scan Assignment := do
  let (path, key) ← dottedKey
  gap
  Scan.expect ['=']
  gap
  return { path, key, value := ← value }

/-- A value with at most so many brackets around its innermost part. -/
def value : Nat → Scan Tree
  | 0 => single
  | depth + 1 => do
    if ← Scan.acceptOne ['['] then return .list (← itemsUpTo ']' (value depth))
    if ← Scan.acceptOne ['\x7b'] then
      let assignments ← itemsUpTo '\x7d' (assignment trivia (value depth))
      return .record (Table.trees (← Table.assignAll [] assignments))
    single

/-! ## Lines -/

/-- The lines up to a header or the end. -/
def assignments : Scan (List Assignment) :=
  Scan.repeatedly do
    trivia
    if (← Scan.atEnd) || (← Scan.peek?) == some '[' then return none
    let one ← assignment spaces (value maxDepth)
    lineEnd
    return some one

/-- A header and what stands below it. -/
def sectionLines : Scan Section := do
  Scan.expect ['[']
  let repeated ← Scan.acceptOne ['[']
  let (path, key) ← dottedKey
  Scan.expect (if repeated then [']', ']'] else [']'])
  lineEnd
  return { path, key, repeated, body := ← assignments }

/-- All lines: assignments first, then sections. -/
def document : Scan (List Assignment × List Section) := do
  let _ ← Scan.acceptOne ['\uFEFF']
  let root ← assignments
  let sections ← Scan.repeatedly do
    if ← Scan.atEnd then return none
    return some (← sectionLines)
  return (root, sections)

/-- Reads a TOML text. -/
def read? (text : String) : Option Tree := do
  let (root, sections) ← Scan.whole? document text
  return .record (Table.trees (← Table.ofSections? root sections))

end GridBridge.Config.Toml
