import Realm.Document

/-!
# Lands

A player's lands stand in the order in which they were won. A land has a number of slots, and each
development on it takes one.
-/

set_option autoImplicit false

namespace Realm

/-- A land with its developments. -/
structure Land where
  id : String
  slots : Nat
  /-- Whether it has ever been tilled. -/
  tilled : Bool := false
  developments : List String := []
  deriving DecidableEq

namespace Land

/-- The slots that no development takes. -/
def freeSlots (land : Land) : Nat := land.slots - land.developments.length

/-- Puts a development on the land. -/
def build (land : Land) (development : String) : Land :=
  { land with developments := land.developments ++ [development] }

/-- Takes one development of a kind, the first, off the land. -/
def raze (land : Land) (development : String) : Land :=
  { land with developments := land.developments.erase development }

/-- Adds a slot if the limit allows it, and marks the land as tilled. -/
def till (limit : Nat) (land : Land) : Land :=
  { land with slots := if land.slots < limit then land.slots + 1 else land.slots, tilled := true }

/-- Changes the first land that passes a test. -/
def updateFirst (test : Land → Bool) (change : Land → Land) : List Land → List Land
  | [] => []
  | land :: rest =>
    if test land then change land :: rest else land :: updateFirst test change rest

variable {α : Type} [Amount α]

def ofDocument? (document : Document α) : Option Land := do
  let [id, slots, tilled, developments] ←
    document.slots? [["id"], ["slotsMax"], ["tilled"], ["developments"]] | none
  return {
    id := ← Document.required Document.text? id
    slots := ← Document.required Document.count? slots
    tilled := ← Document.defaulted false Document.bool? tilled
    developments := ← Document.defaulted [] (Document.list? Document.text?) developments }

def toJson (land : Land) : Json α :=
  .record [("id", .text land.id), ("slotsMax", .count land.slots), ("tilled", .bool land.tilled),
    ("developments", .texts land.developments)]

end Land

end Realm
