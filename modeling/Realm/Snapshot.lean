import Realm.Player
import Realm.Requirement

/-!
# Snapshots

What a game shows of itself. A snapshot is a copy: it stands for the moment at which it was taken,
and nothing that happens later shows in it.
-/

set_option autoImplicit false

namespace Realm

/-- A group and its children in display order. -/
structure GroupSnapshot where
  id : String
  parentId : String
  relation : Relation
  childIds : List String
  deriving DecidableEq

/-- The resources of a player. -/
structure ResourceSnapshot (α : Type) where
  amounts : Table α
  bounds : Table (Bounds α)
  /-- Every resource in display order. -/
  ordered : List String
  groups : List GroupSnapshot

/-- The skips of a player, each with its sources. -/
structure SkipSnapshot where
  phases : Table (List String)
  steps : Table (Table (List String))
  deriving DecidableEq

/-- A player. -/
structure PlayerSnapshot (α : Type) where
  id : String
  name : String
  resources : ResourceSnapshot α
  lands : List Land
  buildings : List String
  passives : List PassiveRecord
  skips : SkipSnapshot
  tiers : Table String

/-- Where a game stands. -/
structure Progress where
  turn : Nat
  activePlayer : String
  phase : String
  step : String
  /-- Whether actions may be performed. -/
  actionPhase : Bool
  deriving DecidableEq

/-- A game. -/
structure SessionSnapshot (α : Type) where
  game : Progress
  /-- In the order of their turns. -/
  players : List (PlayerSnapshot α)
  /-- The latest gains, the newest last. -/
  recentGains : List (Gain α)

/-- The answer to a player who wants to perform an action. -/
inductive ActionOutcome (α : Type) where
  /-- It is done, and these are the changes. -/
  | completed (action : String) (gains : List (Gain α))
  /-- It cannot be done, and these are the requirements that are not met. -/
  | rejected (action : String) (failures : List (Unmet α))

namespace ActionOutcome

variable {α : Type}

def isCompleted : ActionOutcome α → Bool
  | .completed .. => true
  | .rejected .. => false

/-- The first requirement that is not met. -/
def firstFailure? : ActionOutcome α → Option (Unmet α)
  | .completed .. => none
  | .rejected _ failures => failures.head?

end ActionOutcome

/-! ## Taking snapshots -/

def Group.snapshot (group : Group) : GroupSnapshot :=
  { id := group.id
    parentId := group.parent.id
    relation := group.relation
    childIds := group.childIds }

def Skips.snapshot (skips : Skips) : SkipSnapshot :=
  { phases := skips.phases.map fun _ sources => sources.toList
    steps := skips.steps.map fun _ steps => steps.map fun _ sources => sources.toList }

namespace Catalog

variable {α : Type}

/-- The groups by place, then by id. -/
def groupSnapshots (catalog : Catalog α) : List GroupSnapshot :=
  (catalog.groups.values.mergeSort fun a b => precedes (a.order, a.id) (b.order, b.id)).map
    Group.snapshot

end Catalog

variable {α : Type}

def Ledger.snapshot (ledger : Ledger α) (catalog : Catalog α) : ResourceSnapshot α :=
  { amounts := ledger.amounts
    bounds := ledger.bounds
    ordered := catalog.ordered
    groups := catalog.groupSnapshots }

def Player.snapshot (player : Player α) (catalog : Catalog α) : PlayerSnapshot α :=
  { id := player.id
    name := player.name
    resources := player.resources.snapshot catalog
    lands := player.lands
    buildings := player.buildings.toList
    passives := player.passives.map (·.record)
    skips := player.skips.snapshot
    tiers := player.tiers }

/-! ## Records -/

variable [Amount α]

namespace GroupSnapshot

def ofDocument? (document : Document α) : Option GroupSnapshot := do
  let [id, parentId, relation, childIds] ←
    document.slots? [["id"], ["parentId"], ["relation"], ["childIds"]] | none
  return {
    id := ← Document.required Document.text? id
    parentId := ← Document.required Document.text? parentId
    relation := ← Document.required (Document.oneOf? Relation.names) relation
    childIds := ← Document.required (Document.list? Document.text?) childIds }

def toJson (group : GroupSnapshot) : Json α :=
  .record [("id", .text group.id), ("parentId", .text group.parentId),
    ("relation", .text group.relation.name), ("childIds", .texts group.childIds)]

end GroupSnapshot

namespace ResourceSnapshot

def ofDocument? (document : Document α) : Option (ResourceSnapshot α) := do
  let [amounts, bounds, ordered, groups] ←
    document.slots? [["amounts"], ["bounds"], ["ordered"], ["groups"]] | none
  return {
    amounts := ← Document.required (Document.table? Document.amount?) amounts
    bounds := ← Document.required (Document.table? Bounds.ofDocument?) bounds
    ordered := ← Document.required (Document.list? Document.text?) ordered
    groups := ← Document.required (Document.list? GroupSnapshot.ofDocument?) groups }

def toJson (resources : ResourceSnapshot α) : Json α :=
  .record [("amounts", Json.ofEntries .amount resources.amounts.toList),
    ("bounds", Json.ofEntries Bounds.toJson resources.bounds.toList),
    ("ordered", .texts resources.ordered),
    ("groups", Json.listOf GroupSnapshot.toJson resources.groups)]

end ResourceSnapshot

namespace SkipSnapshot

/-- A table of lists of sources. -/
private def sources? : Document α → Option (Table (List String)) :=
  Document.table? (Document.list? Document.text?)

def ofDocument? (document : Document α) : Option SkipSnapshot := do
  let [phases, steps] ← document.slots? [["phases"], ["steps"]] | none
  return {
    phases := ← Document.required sources? phases
    steps := ← Document.required (Document.table? sources?) steps }

def toJson (skips : SkipSnapshot) : Json α :=
  let sources (table : Table (List String)) : Json α := Json.ofEntries .texts table.toList
  .record [("phases", sources skips.phases), ("steps", Json.ofEntries sources skips.steps.toList)]

end SkipSnapshot

namespace PlayerSnapshot

def ofDocument? (document : Document α) : Option (PlayerSnapshot α) := do
  let [id, name, resources, lands, buildings, passives, skips, tiers] ←
    document.slots? [["id"], ["name"], ["resources"], ["lands"], ["buildings"], ["passives"],
      ["skips"], ["tiers"]] | none
  return {
    id := ← Document.required Document.text? id
    name := ← Document.required Document.text? name
    resources := ← Document.required ResourceSnapshot.ofDocument? resources
    lands := ← Document.required (Document.list? Land.ofDocument?) lands
    buildings := ← Document.required (Document.list? Document.text?) buildings
    passives := ← Document.required (Document.list? PassiveRecord.ofDocument?) passives
    skips := ← Document.required SkipSnapshot.ofDocument? skips
    tiers := ← Document.required (Document.table? Document.text?) tiers }

def toJson (player : PlayerSnapshot α) : Json α :=
  .record [("id", .text player.id), ("name", .text player.name),
    ("resources", player.resources.toJson),
    ("lands", Json.listOf Land.toJson player.lands),
    ("buildings", .texts player.buildings),
    ("passives", Json.listOf PassiveRecord.toJson player.passives),
    ("skips", player.skips.toJson),
    ("tiers", Json.ofEntries .text player.tiers.toList)]

end PlayerSnapshot

namespace Progress

def ofDocument? (document : Document α) : Option Progress := do
  let [turn, activePlayer, phase, step, actionPhase] ←
    document.slots? [["turn"], ["activePlayer"], ["phase"], ["step"], ["actionPhase"]] | none
  return {
    turn := ← Document.required Document.count? turn
    activePlayer := ← Document.required Document.text? activePlayer
    phase := ← Document.required Document.text? phase
    step := ← Document.required Document.text? step
    actionPhase := ← Document.required Document.bool? actionPhase }

def toJson (game : Progress) : Json α :=
  .record [("turn", .count game.turn), ("activePlayer", .text game.activePlayer),
    ("phase", .text game.phase), ("step", .text game.step),
    ("actionPhase", .bool game.actionPhase)]

end Progress

namespace SessionSnapshot

/-- The fields of a game's record. -/
def fields (snapshot : SessionSnapshot α) : List (String × Json α) :=
  [("game", snapshot.game.toJson),
    ("players", Json.listOf PlayerSnapshot.toJson snapshot.players),
    ("recentGains", Json.listOf Gain.toJson snapshot.recentGains)]

def toJson (snapshot : SessionSnapshot α) : Json α := .record snapshot.fields

end SessionSnapshot

namespace ActionOutcome

/-- Reads an outcome. Its kind is one of its fields; in a positional list it comes first. -/
def ofDocument? (document : Document α) : Option (ActionOutcome α) := do
  let (kind, rest) ← match document with
    | .record fields =>
      let kind ← (← Document.slot? fields ["status"])
      some (kind, Document.record (fields.filter fun field => field.1 != "status"))
    | .list true (kind :: rest) => some (kind, Document.list true rest)
    | _ => none
  match ← kind.text? with
  | "completed" =>
    let [action, gains] ← rest.slots? [["actionId"], ["gains"]] | none
    return .completed (← Document.required Document.text? action)
      (← Document.required (Document.list? Gain.ofDocument?) gains)
  | "rejected" =>
    let [action, failures] ← rest.slots? [["actionId"], ["failures"]] | none
    return .rejected (← Document.required Document.text? action)
      (← Document.required (Document.list? Unmet.ofDocument?) failures)
  | _ => none

def toJson : ActionOutcome α → Json α
  | .completed action gains =>
    .record [("status", .text "completed"), ("actionId", .text action),
      ("gains", Json.listOf Gain.toJson gains)]
  | .rejected action failures =>
    .record [("status", .text "rejected"), ("actionId", .text action),
      ("failures", Json.listOf Unmet.toJson failures)]

end ActionOutcome

end Realm
