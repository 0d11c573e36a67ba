import GridBridge.Config.Tree
import GridBridge.Text.Hex

/-!
# Config: TOML values without quotes

Truth values, numbers and moments. No setting takes a number or a moment, so only their form and
their range count: a number out of every range leaves `Tree.unreadable`.
-/

namespace GridBridge.Config.Toml

open Text

/-! ## Integers

An integer is taken by its outline, and its digits count only once it is read: a list may hold
integers without digits or with wrong ones behind the settings it states. -/

/-- Whether every underscore stands between two digits. -/
def joined (isDigit : Char → Bool) : List Char → Bool
  | [] => true
  | ['_'] => false
  | [_] => true
  | a :: b :: rest =>
    (a != '_' || isDigit b) && (b != '_' || isDigit a) && joined isDigit (b :: rest)

/-- Whether a text with underscores starts with a digit and has them between digits only. -/
def grouped (isDigit : Char → Bool) (text : List Char) : Bool :=
  !text.contains '_' || (text.head?.any isDigit && joined isDigit text)

/-- The number of digits in a base. -/
def ofDigits (base : Nat) (digits : List Char) : Nat :=
  digits.foldl (fun n c => base * n + (hexValue? c).getD 0) 0

def isDigitOf (base : Nat) (c : Char) : Bool :=
  match hexValue? c with
  | some value => value < base
  | none => false

/-- The sign of a number, and what follows it. -/
def splitSign : List Char → Option Bool × List Char
  | '-' :: rest => (some true, rest)
  | '+' :: rest => (some false, rest)
  | text => (none, text)

/-- A number without its sign, and without an underscore behind the sign. -/
def unsigned (text : List Char) : List Char :=
  match splitSign text with
  | (some _, '_' :: rest) => rest
  | (_, rest) => rest

/-- The number of a sign and digits. -/
def signedDigits? (base : Nat) (text : List Char) : Option Int :=
  let (sign, digits) := splitSign text
  if digits.isEmpty || !digits.all (isDigitOf base) then none
  else
    let size : Int := ofDigits base digits
    some (if sign = some true then -size else size)

/-- Integers that some reader takes: signed or unsigned ones of 128 bits. -/
def integerFits (n : Int) : Bool :=
  -((1 <<< 127 : Nat) : Int) ≤ n && n < ((1 <<< 128 : Nat) : Int)

/-- The integer that digits between underscores make. -/
def integer (base : Nat) (text : List Char) : Tree :=
  match signedDigits? base (text.filter (· != '_')) with
  | some n => if integerFits n then .other else .unreadable
  | none => .unreadable

/-- An integer behind the mark of its base. -/
def basedInteger? (base : Nat) (digits : List Char) : Option Tree :=
  if grouped (isDigitOf 16) digits then some (integer base digits) else none

/-- Whether a number starts with a zero and further digits. One behind an underscore does not
count. -/
def zeroInFront (text : List Char) : Bool :=
  match (splitSign text).2 with
  | '0' :: next :: _ => next.isDigit || next == '_'
  | _ => false

/-- A decimal integer. -/
def decimalInteger? (text : List Char) : Option Tree :=
  let digits := unsigned text
  if digits.head?.any (isDigitOf 16) && !zeroInFront text && grouped (isDigitOf 16) digits then
    some (integer 10 text)
  else none

/-! ## Fractions -/

/-- Digits with single underscores between them. -/
def ungrouped? (isDigit : Char → Bool) : List Char → Option (List Char)
  | [] => none
  | [c] => if isDigit c then some [c] else none
  | c :: '_' :: rest => if isDigit c then (ungrouped? isDigit rest).map (c :: ·) else none
  | c :: rest => if isDigit c then (ungrouped? isDigit rest).map (c :: ·) else none

/-- A decimal fraction without its sign: `digits * 10 ^ exponent`. -/
structure Decimal where
  digits : Nat
  exponent : Int
  deriving DecidableEq, Repr

/-- The least number that rounds to no binary floating-point number of 64 bits. -/
def Decimal.bound : Nat := (1 <<< 1024) - (1 <<< 970)

/-- Whether a fraction stays below the bound. A number with more than 400 places in front of the
point is far beyond it, and one with less than 300 far below. -/
def Decimal.fits (d : Decimal) : Bool :=
  let places : Int := (Nat.toDigits 10 d.digits).length + d.exponent
  if d.digits = 0 || places < 300 then true
  else if 400 < places then false
  else if 0 ≤ d.exponent then d.digits * Nat.pow 10 d.exponent.toNat < Decimal.bound
  else d.digits < Decimal.bound * Nat.pow 10 (-d.exponent).toNat

/-- The exponent that follows the mark of one. -/
def exponent? (text : List Char) : Option Int :=
  let (sign, digits) := splitSign text
  (ungrouped? Char.isDigit digits).map fun digits =>
    let size : Int := ofDigits 10 digits
    if sign = some true then -size else size

def isExponentMark (c : Char) : Bool := c == 'e' || c == 'E'

/-- A fraction: digits before the point, and digits behind it, an exponent or both. -/
def decimal? (text : List Char) : Option Decimal := do
  if zeroInFront text then none
  let digits := unsigned text
  let mantissa := digits.takeWhile fun c => !isExponentMark c
  let exponent ← match digits.dropWhile fun c => !isExponentMark c with
    | [] => some none
    | _ :: rest => (exponent? rest).map some
  let front ← ungrouped? Char.isDigit (mantissa.takeWhile (· != '.'))
  let back ← match mantissa.dropWhile (· != '.') with
    | [] => some none
    | _ :: rest => (ungrouped? Char.isDigit rest).map some
  if exponent.isNone && back.isNone then none
  let places := back.getD []
  return { digits := ofDigits 10 (front ++ places)
           exponent := exponent.getD 0 - places.length }

/-- The words for numbers without digits, after a sign or none. -/
def isNumberWord (text : List Char) : Bool :=
  let word := String.ofList (splitSign text).2
  word == "inf" || word == "nan"

/-! ## Moments -/

/-- So many digits in front, and what follows them. -/
def fixed? (count : Nat) (text : List Char) : Option (Nat × List Char) :=
  let digits := text.take count
  if digits.length = count && digits.all Char.isDigit then
    some (ofDigits 10 digits, text.drop count)
  else none

def isLeap (year : Nat) : Bool := year % 4 == 0 && (year % 100 != 0 || year % 400 == 0)

def daysIn (year month : Nat) : Nat :=
  if month = 2 then if isLeap year then 29 else 28
  else if [4, 6, 9, 11].contains month then 30
  else 31

/-- Takes a date off the front. -/
def afterDate? (text : List Char) : Option (List Char) := do
  let (year, rest) ← fixed? 4 text
  let '-' :: rest := rest | none
  let (month, rest) ← fixed? 2 rest
  let '-' :: rest := rest | none
  let (day, rest) ← fixed? 2 rest
  if 1 ≤ month && month ≤ 12 && 1 ≤ day && day ≤ daysIn year month then some rest else none

/-- Takes hours and minutes off the front. -/
def afterMinutes? (text : List Char) : Option (List Char) := do
  let (hour, rest) ← fixed? 2 text
  let ':' :: rest := rest | none
  let (minute, rest) ← fixed? 2 rest
  if hour ≤ 23 && minute ≤ 59 then some rest else none

/-- Takes a time of day off the front. Seconds and their fraction may be missing; there may be a
leap second. -/
def afterTime? (text : List Char) : Option (List Char) := do
  let rest ← afterMinutes? text
  let ':' :: rest := rest | some rest
  let (second, rest) ← fixed? 2 rest
  if 60 < second then none
  let '.' :: rest := rest | some rest
  if (rest.takeWhile Char.isDigit).isEmpty then none
  return rest.dropWhile Char.isDigit

/-- Whether a text is the offset of a time from the universal one, or none. -/
def isOffset : List Char → Bool
  | [] | ['Z'] | ['z'] => true
  | '+' :: rest | '-' :: rest => afterMinutes? rest == some []
  | _ => false

/-- A date, a time of day, or both with an offset or without one. -/
def isMoment (text : List Char) : Bool :=
  match afterDate? text with
  | some [] => true
  | some (between :: rest) =>
    ['T', 't', ' '].contains between && ((afterTime? rest).map isOffset).getD false
  | none => afterTime? text == some []

/-! ## Values -/

/-- Whether what follows the first digits makes a number a fraction. -/
def isFraction (rest : List Char) : Bool := rest.any fun c => c == '.' || isExponentMark c

/-- A number in decimal digits or a moment, told apart by what follows the first digits. -/
def numberOrMoment? (text : List Char) : Option Tree :=
  let rest := (splitSign text).2.dropWhile Char.isDigit
  match rest with
  | '-' :: _ | ':' :: _ => if isMoment text then some (.record []) else none
  | _ =>
    if rest.contains ' ' then none
    else if isFraction rest then
      (decimal? text).map fun d => if d.fits then .other else .unreadable
    else if rest.isEmpty || rest.head? == some '_' then decimalInteger? text
    else none

/-- The value of a text without quotes. A moment is read like a record of nothing known. -/
def scalar? (text : List Char) : Option Tree :=
  if text == "true".toList then some (.truth true)
  else if text == "false".toList then some (.truth false)
  else if isNumberWord text then some .other
  else
    match text with
    | '0' :: 'x' :: digits => basedInteger? 16 digits
    | '0' :: 'o' :: digits => basedInteger? 8 digits
    | '0' :: 'b' :: digits => basedInteger? 2 digits
    | text => numberOrMoment? text

end GridBridge.Config.Toml
