import Realm.Moment
import Realm.Snapshot

/-!
# Stamped snapshots

A snapshot on its way to somebody who watches many games bears a stamp: which session it is of, and
when it was taken. Stamps are given elsewhere; here they are read and written.
-/

set_option autoImplicit false

namespace Realm

/-- The identifier of a session: thirty-two hexadecimal digits, the letters small. -/
structure SessionId where
  digits : List Char
  deriving DecidableEq

namespace SessionId

def isHexDigit (c : Char) : Bool :=
  c.isDigit || ('a' ≤ c && c ≤ 'f') || ('A' ≤ c && c ≤ 'F')

/-- An identifier of hexadecimal digits. -/
def ofDigits? (digits : List Char) : Option SessionId :=
  if digits.length = 32 ∧ digits.all isHexDigit then some { digits := digits.map Char.toLower }
  else none

/-- The lengths of the five groups of digits. -/
def groupLengths : List Nat := [8, 4, 4, 4, 12]

/-- An identifier with hyphens between its groups. -/
def ofGroups? (text : String) : Option SessionId :=
  let groups := text.splitOn "-"
  if groups.map String.length = groupLengths then ofDigits? (groups.flatMap String.toList)
  else none

/-- Reads an identifier: the digits alone, the groups, the groups in braces, or the groups after
    the mark of an identifier among other names. -/
def ofText? (text : String) : Option SessionId :=
  let chars := text.toList
  let mark := "urn:uuid:".toList
  if chars.length = 32 then ofDigits? chars
  else if chars.length = 38 ∧ chars.head? = some '\x7b' ∧ chars.getLast? = some '\x7d' then
    ofGroups? (String.ofList (chars.drop 1).dropLast)
  else if mark.isPrefixOf chars then ofGroups? (String.ofList (chars.drop mark.length))
  else ofGroups? text

/-- Cuts digits into groups of given lengths. -/
def cut : List Nat → List Char → List String
  | [], _ => []
  | length :: rest, digits => String.ofList (digits.take length) :: cut rest (digits.drop length)

/-- The digits in groups with hyphens between them. -/
def text (id : SessionId) : String := String.intercalate "-" (cut groupLengths id.digits)

end SessionId

/-- A snapshot with the session it is of and the moment it was taken. -/
structure StampedSnapshot (α : Type) where
  session : SessionId
  taken : Moment
  snapshot : SessionSnapshot α

namespace StampedSnapshot

variable {α : Type} [Amount α]

def ofDocument? (document : Document α) : Option (StampedSnapshot α) := do
  let [session, taken, game, players, gains] ←
    document.slots? [["sessionId"], ["takenAt"], ["game"], ["players"], ["recentGains"]] | none
  return {
    session := ←
      Document.required (fun value => value.text?.bind SessionId.ofText?) session
    taken := ← Document.required (fun value => value.text?.bind Moment.ofText?) taken
    snapshot := {
      game := ← Document.required Progress.ofDocument? game
      players := ← Document.required (Document.list? PlayerSnapshot.ofDocument?) players
      recentGains := ← Document.required (Document.list? Gain.ofDocument?) gains } }

def toJson (stamped : StampedSnapshot α) : Json α :=
  .record ([("sessionId", .text stamped.session.text), ("takenAt", .text stamped.taken.text)]
    ++ stamped.snapshot.fields)

end StampedSnapshot

end Realm
