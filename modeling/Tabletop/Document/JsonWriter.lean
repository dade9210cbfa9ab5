import Tabletop.Document.Basic
import Tabletop.Number.Shortest
/-!
# Writing JSON

Values are written without spaces. A floating point number is written as a string with its
shortest text, which keeps it apart from an integer; one that is not finite is written as null.
-/

namespace Tabletop.Document

/-- The digits of a control character's escape. -/
def hexDigits (n : Nat) : String :=
  String.ofList [Nat.digitChar (n / 16), Nat.digitChar (n % 16)]

def escapeChar (c : Char) : String :=
  if c = '"' then "\\\""
  else if c = '\\' then "\\\\"
  else if c.toNat < 0x20 then "\\u00" ++ hexDigits c.toNat
  else String.singleton c

/-- The string in quotes. -/
def quote (s : String) : String :=
  s.toList.foldl (fun out c => out ++ escapeChar c) "\"" ++ "\""

mutual

/-- The JSON text of a document. -/
def toJson : Document → String
  | null => "null"
  | bool b => if b then "true" else "false"
  | integer n => toString n
  | float x => (x.text?.map quote).getD "null"
  | string s => quote s
  | array items => "[" ++ itemsToJson items ++ "]"
  | object fields => "\x7b" ++ fieldsToJson fields ++ "\x7d"

/-- Items with commas between them. -/
def itemsToJson : List Document → String
  | [] => ""
  | [d] => d.toJson
  | d :: ds => d.toJson ++ "," ++ itemsToJson ds

/-- Entries with commas between them. -/
def fieldsToJson : List (String × Document) → String
  | [] => ""
  | [(name, d)] => quote name ++ ":" ++ d.toJson
  | (name, d) :: fields => quote name ++ ":" ++ d.toJson ++ "," ++ fieldsToJson fields

end

end Tabletop.Document
