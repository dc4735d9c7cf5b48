import FernLang.Json

/-!
Written JSON, on one line or indented by two blanks a level. Characters beyond ASCII stand for
themselves; quotes, backslashes and controls are escaped.
-/

namespace FernLang.Json

def writtenChar (c : Char) : List Char :=
  if c == '\x22' || c == '\\' then ['\\', c]
  else if c == '\n' then ['\\', 'n']
  else if c == '\r' then ['\\', 'r']
  else if c == '\t' then ['\\', 't']
  else if c == '\x08' then ['\\', 'b']
  else if c == '\x0c' then ['\\', 'f']
  else if c.toNat < 0x20 then '\\' :: 'u' :: Text.hexDigits 4 c.toNat
  else [c]

def writtenText (text : String) : String :=
  String.ofList ('\x22' :: text.toList.flatMap writtenChar ++ ['\x22'])

def writtenReal : Binary64 → String
  | .nan => "NaN"
  | .infinite negative => if negative then "-Infinity" else "Infinity"
  | finite => finite.text

def writtenBool (value : Bool) : String := if value then "true" else "false"

mutual

def compact : Json → String
  | .null => "null"
  | .bool value => writtenBool value
  | .whole value => toString value
  | .real value => writtenReal value
  | .text value => writtenText value
  | .list items => "[" ++ ",".intercalate (compactItems items) ++ "]"
  | .object fields => "\x7b" ++ ",".intercalate (compactFields fields) ++ "\x7d"

def compactItems : List Json → List String
  | [] => []
  | item :: items => compact item :: compactItems items

def compactFields : List (String × Json) → List String
  | [] => []
  | (name, value) :: fields => (writtenText name ++ ":" ++ compact value) :: compactFields fields

end

def lineStart (level : Nat) : String := "\n" ++ String.ofList (List.replicate (2 * level) ' ')

/-- Parts between brackets, each on a line of its own; no parts leave the brackets bare. -/
def bracketed (opening closing : String) (level : Nat) (parts : List String) : String :=
  if parts.isEmpty then opening ++ closing
  else
    opening ++ lineStart (level + 1) ++ ("," ++ lineStart (level + 1)).intercalate parts ++
      lineStart level ++ closing

mutual

def indented (level : Nat) : Json → String
  | .null => "null"
  | .bool value => writtenBool value
  | .whole value => toString value
  | .real value => writtenReal value
  | .text value => writtenText value
  | .list items => bracketed "[" "]" level (indentedItems (level + 1) items)
  | .object fields => bracketed "\x7b" "\x7d" level (indentedFields (level + 1) fields)

def indentedItems (level : Nat) : List Json → List String
  | [] => []
  | item :: items => indented level item :: indentedItems level items

def indentedFields (level : Nat) : List (String × Json) → List String
  | [] => []
  | (name, value) :: fields =>
      (writtenText name ++ ": " ++ indented level value) :: indentedFields level fields

end

end FernLang.Json
