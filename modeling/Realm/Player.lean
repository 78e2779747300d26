import Realm.Land
import Realm.Ledger
import Realm.Skips

/-!
# Players

Everything a game keeps about one player. A player owns a building at most once, has active
passives in the order in which they were attached, and gets land ids from a counter that never goes
back, so that no two lands of a player ever share one.
-/

set_option autoImplicit false

namespace Realm

/-- The state of one player. -/
structure Player (α : Type) where
  id : String
  name : String
  resources : Ledger α
  /-- In the order in which they were won. -/
  lands : List Land := []
  buildings : Names := .empty
  /-- In the order in which they were attached. -/
  passives : List (ActivePassive α) := []
  skips : Skips := {}
  /-- The tier that a resource is in, for resources with tiers. -/
  tiers : Table String := .empty
  /-- How many land ids have been given out. -/
  landCounter : Nat := 0

namespace Player

variable {α : Type}

/-- A player at the start of a game. -/
def initial [Amount α] (catalog : Catalog α) (id name : String) : Player α :=
  { id, name, resources := .initial catalog }

/-! ## Lands -/

def land? (player : Player α) (id : String) : Option Land :=
  player.lands.find? fun land => land.id == id

/-- The next land id. The counter stays at its limit once it is there. -/
def nextLandId (player : Player α) : String × Player α :=
  let counter := min (player.landCounter + 1) Document.countLimit
  (player.id ++ "-L" ++ toString counter, { player with landCounter := counter })

/-- Adds a land. -/
def addLand (player : Player α) (slots : Nat) : Player α :=
  let (id, player) := player.nextLandId
  { player with lands := player.lands ++ [{ id, slots }] }

/-- How many developments of a kind stand on the lands. -/
def developmentCount (player : Player α) (development : String) : Nat :=
  (player.lands.flatMap (·.developments)).count development

/-! ## Passives -/

def passive? (player : Player α) (id : String) : Option (ActivePassive α) :=
  player.passives.find? fun active => active.id == id

def hasPassive (player : Player α) (id : String) : Bool := (player.passive? id).isSome

/-- Takes the first passive with an id off the list. -/
def withoutPassive (player : Player α) (id : String) : Player α :=
  { player with passives := player.passives.eraseP fun active => active.id == id }

/-- The passives that belong to an owner. -/
def passivesOf (player : Player α) (owner : String) : List String :=
  (player.passives.filter fun active => active.tag.owner == some owner).map (·.id)

/-- The passives that leave at the start of a phase. -/
def expiringOn (player : Player α) (phase : String) : List String :=
  (player.passives.filter fun active => active.tag.removeOnPhase == some phase).map (·.id)

/-- What the passives run when the player enters a phase; passives with nothing to run are left
    out. -/
def triggersFor (player : Player α) (phase : String) : List (String × List (Effect α)) :=
  player.passives.filterMap fun active =>
    match active.definition.onPhase.find? phase with
    | some (effect :: rest) => some (active.id, effect :: rest)
    | _ => none

/-- How many things the player has that can be taken away again. -/
def attachments (player : Player α) : Nat :=
  player.passives.length + player.buildings.size
    + (player.lands.flatMap (·.developments)).length

/-! ## Records -/

variable [Amount α]

def ofDocument? (document : Document α) : Option (Player α) := do
  let [id, name, resources, lands, buildings, passives, skips, tiers, landCounter] ←
    document.slots? [["id"], ["name"], ["resources"], ["lands"], ["buildings"], ["passives"],
      ["skips"], ["tiers"], ["landCounter"]] | none
  return {
    id := ← Document.required Document.text? id
    name := ← Document.required Document.text? name
    resources := ← Document.required Ledger.ofDocument? resources
    lands := ← Document.defaulted [] (Document.list? Land.ofDocument?) lands
    buildings := ← Document.defaulted .empty Skips.namesOfDocument? buildings
    passives := ← Document.defaulted [] (Document.list? ActivePassive.ofDocument?) passives
    skips := ← Document.defaulted {} Skips.ofDocument? skips
    tiers := ← Document.defaulted .empty (Document.table? Document.text?) tiers
    landCounter := ← Document.defaulted 0 Document.count? landCounter }

def toJson (player : Player α) : Json α :=
  .record [("id", .text player.id), ("name", .text player.name),
    ("resources", player.resources.toJson),
    ("lands", Json.listOf Land.toJson player.lands),
    ("buildings", .texts player.buildings.toList),
    ("passives", Json.listOf ActivePassive.toJson player.passives),
    ("skips", player.skips.toJson),
    ("tiers", Json.ofEntries .text player.tiers.toList),
    ("landCounter", .count player.landCounter)]

end Player

end Realm
