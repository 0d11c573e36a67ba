import GridBridge.Text.Hex
import GridBridge.Text.Unseen
import GridBridge.Text.Utf8

/-!
# Text: quoted form in messages

Messages show foreign text between double quotes. Backslash, quotes, the common controls and every
character that is not seen by itself are written as escapes, so a message stays on one line.
-/

namespace GridBridge.Text

/-- One character inside quotes. -/
def escapeChar (c : Char) : String :=
  if c == '\x00' then "\\0"
  else if c == '\t' then "\\t"
  else if c == '\r' then "\\r"
  else if c == '\n' then "\\n"
  else if c == '\\' || c == '"' then "\\" ++ c.toString
  else if isUnseen c then "\\u\x7b" ++ hexNumber c.toNat ++ "\x7d"
  else c.toString

/-- Text between double quotes. -/
def quoted (text : String) : String :=
  "\"" ++ String.join (text.toList.map escapeChar) ++ "\""

/-- Bytes between double quotes. Broken sequences are written byte by byte. -/
def quotedBytes (bytes : List UInt8) : String :=
  let show1 : Piece → String
    | .char c => escapeChar c
    | .broken bad => String.join (bad.map fun b =>
      "\\x" ++ String.ofList [upperHexDigit (b.toNat / 16), upperHexDigit (b.toNat % 16)])
  "\"" ++ String.join ((pieces bytes).map show1) ++ "\""

/-- An optional text, with the word for its absence. -/
def quotedOption : Option String → String
  | some text => "Some(" ++ quoted text ++ ")"
  | none => "None"

end GridBridge.Text
