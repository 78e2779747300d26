import Realm.Passive

/-!
# Resources and groups

What content says about resources: how they are shown, the bounds they start with, the group they
belong to, what every action costs of them, and the tiers that their amount passes through.

A group has a parent, a resource of its own whose amount is never set but always the total of the
children.
-/

set_option autoImplicit false

namespace Realm

/-! ## Tiers -/

/-- A range of amounts, and the passive that a player has while the amount is in it. -/
structure Tier (α : Type) where
  id : String
  label : String := ""
  least : α
  /-- The greatest amount of the tier, if it has one. -/
  greatest : Option α := none
  passive : Option (Passive α) := none

/-- The tiers of a resource. -/
structure TierTrack (α : Type) where
  tiers : List (Tier α)

namespace Tier

variable {α : Type} [Amount α]

/-- Whether an amount is in the tier; both ends are. -/
def contains (tier : Tier α) (amount : α) : Bool :=
  decide (tier.least ≤ amount) &&
  (match tier.greatest with | some greatest => decide (amount ≤ greatest) | none => true)

def ofDocument? (document : Document α) : Option (Tier α) := do
  let [id, label, least, greatest, passive] ←
    document.slots? [["id"], ["label"], ["min"], ["max"], ["passive"]] | none
  return {
    id := ← Document.required Document.text? id
    label := ← Document.defaulted "" Document.text? label
    least := ← Document.required Document.amount? least
    greatest := ← Document.optional Document.amount? greatest
    passive := ← Document.optional Passive.ofDocument? passive }

def toJson (tier : Tier α) : Json α :=
  .record ([("id", .text tier.id), ("label", .text tier.label), ("min", .amount tier.least)]
    ++ Json.optional "max" .amount tier.greatest
    ++ Json.optional "passive" Passive.toJson tier.passive)

end Tier

namespace TierTrack

variable {α : Type} [Amount α]

/-- The tier an amount is in: the first that contains it. -/
def tierFor (track : TierTrack α) (amount : α) : Option (Tier α) :=
  track.tiers.find? (·.contains amount)

def ofDocument? (document : Document α) : Option (TierTrack α) := do
  let [tiers] ← document.slots? [["tiers"]] | none
  return { tiers := ← Document.required (Document.list? Tier.ofDocument?) tiers }

def toJson (track : TierTrack α) : Json α :=
  .record [("tiers", Json.listOf Tier.toJson track.tiers)]

end TierTrack

/-! ## Resources -/

/-- A resource as content declares it. -/
structure Resource (α : Type) where
  id : String
  label : String
  icon : String := ""
  description : String := ""
  /-- The place among other resources; equals are placed by id. -/
  order : Int := 0
  /-- The bounds every player starts with. -/
  bounds : Bounds α := .none
  displayAsPercent : Bool := false
  groupId : Option String := none
  /-- What every action costs of this resource. -/
  actionCost : Option α := none
  tierTrack : Option (TierTrack α) := none

namespace Resource

variable {α : Type} [Amount α]

/-- A cost is written as a record with one field. -/
def costOfDocument? (document : Document α) : Option α := do
  let [amount] ← document.slots? [["amount"]] | none
  Document.required Document.amount? amount

def costToJson (amount : α) : Json α := .record [("amount", .amount amount)]

def ofDocument? (document : Document α) : Option (Resource α) := do
  let [id, label, icon, description, order, lower, upper, displayAsPercent, groupId, actionCost,
      tierTrack] ←
    document.slots? [["id"], ["label", "displayLabel"], ["icon"], ["description"], ["order"],
      ["lowerBound"], ["upperBound"], ["displayAsPercent"], ["groupId"], ["globalActionCost"],
      ["tierTrack"]] | none
  return {
    id := ← Document.required Document.text? id
    label := ← Document.required Document.text? label
    icon := ← Document.defaulted "" Document.text? icon
    description := ← Document.defaulted "" Document.text? description
    order := ← Document.defaulted 0 Document.order? order
    bounds := {
      lower := ← Document.optional Document.amount? lower
      upper := ← Document.optional Document.amount? upper }
    displayAsPercent := ← Document.defaulted false Document.bool? displayAsPercent
    groupId := ← Document.optional Document.text? groupId
    actionCost := ← Document.optional costOfDocument? actionCost
    tierTrack := ← Document.optional TierTrack.ofDocument? tierTrack }

def toJson (resource : Resource α) : Json α :=
  .record ([("id", .text resource.id), ("label", .text resource.label),
      ("icon", .text resource.icon), ("description", .text resource.description),
      ("order", .integer resource.order)]
    ++ Json.optional "lowerBound" .amount resource.bounds.lower
    ++ Json.optional "upperBound" .amount resource.bounds.upper
    ++ [("displayAsPercent", .bool resource.displayAsPercent)]
    ++ Json.optional "groupId" .text resource.groupId
    ++ Json.optional "globalActionCost" costToJson resource.actionCost
    ++ Json.optional "tierTrack" TierTrack.toJson resource.tierTrack)

end Resource

/-! ## Groups -/

/-- How a group's parent is made of the children. -/
inductive Relation where
  /-- The parent is the sum of all children. -/
  | sumOfAll
  deriving DecidableEq

namespace Relation

def names : List (String × Relation) := [("sumOfAll", .sumOfAll)]

def name : Relation → String
  | .sumOfAll => "sumOfAll"

end Relation

/-- How the parent of a group is shown. -/
structure ParentDisplay where
  id : String
  label : String
  icon : String := ""
  description : String := ""
  displayAsPercent : Bool := false
  deriving DecidableEq

/-- A group of resources as content declares it. -/
structure Group where
  id : String
  /-- The place among groups and ungrouped resources. -/
  order : Int := 0
  parent : ParentDisplay
  relation : Relation := .sumOfAll
  /-- The children; a resource may also join by naming the group. -/
  childIds : List String := []
  deriving DecidableEq

namespace ParentDisplay

variable {α : Type} [Amount α]

def ofDocument? (document : Document α) : Option ParentDisplay := do
  let [id, label, icon, description, displayAsPercent] ←
    document.slots? [["id"], ["label"], ["icon"], ["description"], ["displayAsPercent"]] | none
  return {
    id := ← Document.required Document.text? id
    label := ← Document.required Document.text? label
    icon := ← Document.defaulted "" Document.text? icon
    description := ← Document.defaulted "" Document.text? description
    displayAsPercent := ← Document.defaulted false Document.bool? displayAsPercent }

def toJson (parent : ParentDisplay) : Json α :=
  .record [("id", .text parent.id), ("label", .text parent.label), ("icon", .text parent.icon),
    ("description", .text parent.description),
    ("displayAsPercent", .bool parent.displayAsPercent)]

end ParentDisplay

namespace Group

variable {α : Type} [Amount α]

/-- The amount that belongs to the parent: the sum of the children, a child never written counting
    as zero. -/
def total (group : Group) (amounts : Table α) : α :=
  match group.relation with
  | .sumOfAll => Amount.sum (group.childIds.map fun child => amounts.findD child 0)

def ofDocument? (document : Document α) : Option Group := do
  let [id, order, parent, relation, childIds] ←
    document.slots? [["id"], ["order"], ["parent", "parentDisplay"], ["relation"], ["childIds"]]
      | none
  return {
    id := ← Document.required Document.text? id
    order := ← Document.defaulted 0 Document.order? order
    parent := ← Document.required ParentDisplay.ofDocument? parent
    relation := ← Document.defaulted .sumOfAll (Document.oneOf? Relation.names) relation
    childIds := ← Document.defaulted [] (Document.list? Document.text?) childIds }

def toJson (group : Group) : Json α :=
  .record [("id", .text group.id), ("order", .integer group.order),
    ("parent", group.parent.toJson), ("relation", .text group.relation.name),
    ("childIds", .texts group.childIds)]

/-- The derived resource of the parent. -/
def parentResource (group : Group) : Resource α :=
  { id := group.parent.id
    label := group.parent.label
    icon := group.parent.icon
    description := group.parent.description
    order := group.order
    displayAsPercent := group.parent.displayAsPercent }

end Group

/-! ## Gains -/

/-- A recorded change of an amount. -/
structure Gain (α : Type) where
  playerId : Option String := none
  resourceId : String
  amount : α
  deriving DecidableEq

namespace Gain

variable {α : Type} [Amount α]

def ofDocument? (document : Document α) : Option (Gain α) := do
  let [playerId, resourceId, amount] ←
    document.slots? [["playerId"], ["resourceId"], ["amount"]] | none
  return {
    playerId := ← Document.optional Document.text? playerId
    resourceId := ← Document.required Document.text? resourceId
    amount := ← Document.required Document.amount? amount }

def toJson (gain : Gain α) : Json α :=
  .record (Json.optional "playerId" .text gain.playerId
    ++ [("resourceId", .text gain.resourceId), ("amount", .amount gain.amount)])

end Gain

end Realm
