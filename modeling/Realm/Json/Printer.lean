import Realm.Json

/-!
# Writing JSON

The one text of a JSON value: no blanks, fields in the order they stand, numbers in the layout of
data files.
-/

set_option autoImplicit false

namespace Realm.Json

/-- The escape of a character inside quotes: quotes, backslashes and control characters have one,
    everything else stands for itself. -/
def escape (c : Char) : List Char :=
  if c = '"' then ['\\', '"']
  else if c = '\\' then ['\\', '\\']
  else if c = '\n' then ['\\', 'n']
  else if c = '\r' then ['\\', 'r']
  else if c = '\t' then ['\\', 't']
  else if c.toNat = 8 then ['\\', 'b']
  else if c.toNat = 12 then ['\\', 'f']
  else if c.toNat < 32 then
    '\\' :: 'u' :: '0' :: '0' :: [Nat.digitChar (c.toNat / 16), Nat.digitChar (c.toNat % 16)]
  else [c]

/-- A text between quotes. -/
def quote (text : String) : String :=
  String.ofList ('"' :: text.toList.flatMap escape ++ ['"'])

variable {α : Type} [Amount α]

mutual

/-- The text of a value. -/
def print : Json α → String
  | .null => "null"
  | .bool value => if value then "true" else "false"
  | .integer value => toString value
  | .number value => (Amount.toDecimal value).write .data
  | .text value => quote value
  | .list items => "[" ++ String.intercalate "," (printItems items) ++ "]"
  | .record fields => "\x7b" ++ String.intercalate "," (printFields fields) ++ "\x7d"

def printItems : List (Json α) → List String
  | [] => []
  | item :: rest => print item :: printItems rest

def printFields : List (String × Json α) → List String
  | [] => []
  | (name, value) :: rest => (quote name ++ ":" ++ print value) :: printFields rest

end

end Realm.Json
