import GridBridge.Text.Utf8

/-!
# Files: paths

A path is bytes with `/` between names. Most paths are text; those that come from the environment
need not be.
-/

namespace GridBridge.Files

/-- The byte between two names of a path. -/
def separator : UInt8 := 0x2F

/-- One name of a path. -/
abbrev Name := List UInt8

def nameOfString (text : String) : Name := text.toUTF8.toList

/-- Splits bytes at every occurrence of a byte. There is always at least one part. -/
def splitAtByte (sep : UInt8) : List UInt8 → List (List UInt8)
  | [] => [[]]
  | b :: rest =>
    if b = sep then [] :: splitAtByte sep rest
    else
      match splitAtByte sep rest with
      | part :: parts => (b :: part) :: parts
      | [] => [[b]]

/-- Puts a byte between parts. -/
def joinWithByte (sep : UInt8) : List (List UInt8) → List UInt8
  | [] => []
  | [part] => part
  | part :: parts => part ++ sep :: joinWithByte sep parts

structure Path where
  bytes : List UInt8
  deriving DecidableEq, Repr

namespace Path

def ofString (text : String) : Path := ⟨text.toUTF8.toList⟩

/-- The path as text, if it is UTF-8. -/
def toString? (p : Path) : Option String := String.fromUTF8? p.bytes.toByteArray

/-- The path as text, with the replacement character where it is not UTF-8. -/
def toStringLossy (p : Path) : String := Text.lossy p.bytes

def isAbsolute (p : Path) : Bool := p.bytes.head? == some separator

/-- The names between the separators. Empty names stand for doubled or trailing separators. -/
def names (p : Path) : List Name := splitAtByte separator p.bytes

/-- The path without separators at its end. One that is nothing else keeps one of them. -/
def trimEnd (p : Path) : Path :=
  match (p.bytes.reverse.dropWhile (· == separator)).reverse with
  | [] => ⟨p.bytes.take 1⟩
  | bytes => ⟨bytes⟩

/-- A relative path below this one. A separator is added where there is none yet. -/
def join (base : Path) (below : Path) : Path :=
  if below.isAbsolute then below
  else if base.bytes.isEmpty || base.bytes.getLast? == some separator then
    ⟨base.bytes ++ below.bytes⟩
  else ⟨base.bytes ++ separator :: below.bytes⟩

def dot : UInt8 := 0x2E

/-- The last name. Empty names and `.` do not count; `..` is no name. -/
def fileName? (p : Path) : Option Name :=
  match (p.names.filter fun name => !name.isEmpty && name != [dot]).getLast? with
  | some name => if name = [dot, dot] then none else some name
  | none => none

/-- What follows the last dot of a name. A dot in front of the name does not count. -/
def nameExtension? (name : Name) : Option Name :=
  let after := (name.reverse.takeWhile (· != dot)).reverse
  let before := name.length - after.length
  if before ≤ 1 then none else some after

def extension? (p : Path) : Option Name := p.fileName?.bind nameExtension?

end Path

end GridBridge.Files
