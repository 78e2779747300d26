import Realm.Catalog
import Realm.Requirement

/-!
# Content

The static part of a game: the catalog of resources and what players can own and do — buildings,
developments, actions, and passives that effects may attach by name. Content is written as one JSON
document and indexed by id; nothing in it is ever changed.
-/

set_option autoImplicit false

namespace Realm

/-- A building. A player owns it at most once. -/
structure Building (α : Type) where
  id : String
  name : String
  icon : String := ""
  /-- Attached when the building is won, and detached with it. -/
  passives : List (Passive α) := []

/-- A development on a slot of a land. -/
structure Development (α : Type) where
  id : String
  name : String
  icon : String := ""
  /-- Applied when it is built, and taken back when it goes. -/
  effects : List (Effect α) := []

/-- An action of a player. -/
structure Action (α : Type) where
  id : String
  name : String
  icon : String := ""
  /-- What it costs, by resource. -/
  costs : Table α := .empty
  requirements : List (Requirement α) := []
  effects : List (Effect α) := []

/-- The static part of a game. -/
structure Content (α : Type) where
  catalog : Catalog α
  buildings : Table (Building α) := .empty
  developments : Table (Development α) := .empty
  actions : Table (Action α) := .empty
  passives : Table (Passive α) := .empty

/-! ## Records -/

namespace Building

variable {α : Type} [Amount α]

def ofDocument? (document : Document α) : Option (Building α) := do
  let [id, name, icon, passives] ←
    document.slots? [["id"], ["name"], ["icon"], ["passives"]] | none
  return {
    id := ← Document.required Document.text? id
    name := ← Document.required Document.text? name
    icon := ← Document.defaulted "" Document.text? icon
    passives := ← Document.defaulted [] (Document.list? Passive.ofDocument?) passives }

def toJson (building : Building α) : Json α :=
  .record [("id", .text building.id), ("name", .text building.name),
    ("icon", .text building.icon), ("passives", Json.listOf Passive.toJson building.passives)]

end Building

namespace Development

variable {α : Type} [Amount α]

def ofDocument? (document : Document α) : Option (Development α) := do
  let [id, name, icon, effects] ←
    document.slots? [["id"], ["name"], ["icon"], ["effects"]] | none
  return {
    id := ← Document.required Document.text? id
    name := ← Document.required Document.text? name
    icon := ← Document.defaulted "" Document.text? icon
    effects := ← Document.defaulted [] (Document.list? Effect.ofDocument?) effects }

def toJson (development : Development α) : Json α :=
  .record [("id", .text development.id), ("name", .text development.name),
    ("icon", .text development.icon), ("effects", Json.listOf Effect.toJson development.effects)]

end Development

namespace Action

variable {α : Type} [Amount α]

def ofDocument? (document : Document α) : Option (Action α) := do
  let [id, name, icon, costs, requirements, effects] ←
    document.slots? [["id"], ["name"], ["icon"], ["costs"], ["requirements"], ["effects"]] | none
  return {
    id := ← Document.required Document.text? id
    name := ← Document.required Document.text? name
    icon := ← Document.defaulted "" Document.text? icon
    costs := ← Document.defaulted .empty (Document.table? Document.amount?) costs
    requirements := ←
      Document.defaulted [] (Document.list? Requirement.ofDocument?) requirements
    effects := ← Document.defaulted [] (Document.list? Effect.ofDocument?) effects }

def toJson (action : Action α) : Json α :=
  .record [("id", .text action.id), ("name", .text action.name), ("icon", .text action.icon),
    ("costs", Json.ofEntries .amount action.costs.toList),
    ("requirements", Json.listOf Requirement.toJson action.requirements),
    ("effects", Json.listOf Effect.toJson action.effects)]

end Action

end Realm
