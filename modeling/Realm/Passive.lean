import Realm.Effect

/-!
# Passives

A passive is a bundle of effects that a player has for a while. Its effects apply when it is
attached and are taken back when it is detached; besides, it may run effects whenever its owner
enters a phase, and it may leave by itself at the start of one.

An active passive carries the definition it was attached with, and a tag that says where it comes
from and what it belongs to: the passives of a building or of a tier leave together with it.
-/

set_option autoImplicit false

namespace Realm

/-- A passive as content declares it. -/
structure Passive (α : Type) where
  id : String
  name : Option String := none
  icon : Option String := none
  detail : Option String := none
  /-- Applied on attaching, taken back on detaching. -/
  effects : List (Effect α) := []
  /-- Applied when the owner enters the phase. -/
  onPhase : Table (List (Effect α)) := .empty
  /-- The phase at whose start the passive leaves. -/
  removeOnPhase : Option String := none

/-- Where an active passive comes from, what it belongs to, and when it leaves. -/
structure PassiveTag where
  source : Option String := none
  owner : Option String := none
  removeOnPhase : Option String := none
  deriving DecidableEq

/-- A passive that a player has. -/
structure ActivePassive (α : Type) where
  definition : Passive α
  tag : PassiveTag

/-- What others may see of an active passive. -/
structure PassiveRecord where
  id : String
  name : Option String := none
  icon : Option String := none
  detail : Option String := none
  tag : PassiveTag := {}
  deriving DecidableEq

namespace ActivePassive

variable {α : Type}

def id (active : ActivePassive α) : String := active.definition.id

def record (active : ActivePassive α) : PassiveRecord :=
  { id := active.definition.id
    name := active.definition.name
    icon := active.definition.icon
    detail := active.definition.detail
    tag := active.tag }

end ActivePassive

/-! ## Records -/

namespace Passive

variable {α : Type} [Amount α]

def ofDocument? (document : Document α) : Option (Passive α) := do
  let [id, name, icon, detail, effects, onPhase, removeOnPhase] ←
    document.slots? [["id"], ["name"], ["icon"], ["detail"], ["effects"], ["onPhase"],
      ["removeOnPhase"]] | none
  return {
    id := ← Document.required Document.text? id
    name := ← Document.optional Document.text? name
    icon := ← Document.optional Document.text? icon
    detail := ← Document.optional Document.text? detail
    effects := ← Document.defaulted [] (Document.list? Effect.ofDocument?) effects
    onPhase := ←
      Document.defaulted .empty (Document.table? (Document.list? Effect.ofDocument?)) onPhase
    removeOnPhase := ← Document.optional Document.text? removeOnPhase }

def toJson (passive : Passive α) : Json α :=
  .record ([("id", .text passive.id)]
    ++ Json.optional "name" .text passive.name
    ++ Json.optional "icon" .text passive.icon
    ++ Json.optional "detail" .text passive.detail
    ++ [("effects", Json.listOf Effect.toJson passive.effects),
        ("onPhase", Json.ofEntries (Json.listOf Effect.toJson) passive.onPhase.toList)]
    ++ Json.optional "removeOnPhase" .text passive.removeOnPhase)

end Passive

namespace PassiveTag

variable {α : Type} [Amount α]

def ofDocument? (document : Document α) : Option PassiveTag := do
  let [source, owner, removeOnPhase] ←
    document.slots? [["source"], ["owner"], ["removeOnPhase"]] | none
  return {
    source := ← Document.optional Document.text? source
    owner := ← Document.optional Document.text? owner
    removeOnPhase := ← Document.optional Document.text? removeOnPhase }

def toJson (tag : PassiveTag) : Json α :=
  .record (Json.optional "source" .text tag.source
    ++ Json.optional "owner" .text tag.owner
    ++ Json.optional "removeOnPhase" .text tag.removeOnPhase)

end PassiveTag

namespace ActivePassive

variable {α : Type} [Amount α]

def ofDocument? (document : Document α) : Option (ActivePassive α) := do
  let [definition, tag] ← document.slots? [["definition"], ["meta"]] | none
  return {
    definition := ← Document.required Passive.ofDocument? definition
    tag := ← Document.required PassiveTag.ofDocument? tag }

def toJson (active : ActivePassive α) : Json α :=
  .record [("definition", active.definition.toJson), ("meta", active.tag.toJson)]

end ActivePassive

namespace PassiveRecord

variable {α : Type} [Amount α]

def ofDocument? (document : Document α) : Option PassiveRecord := do
  let [id, name, icon, detail, tag] ←
    document.slots? [["id"], ["name"], ["icon"], ["detail"], ["meta"]] | none
  return {
    id := ← Document.required Document.text? id
    name := ← Document.optional Document.text? name
    icon := ← Document.optional Document.text? icon
    detail := ← Document.optional Document.text? detail
    tag := ← Document.defaulted {} PassiveTag.ofDocument? tag }

def toJson (record : PassiveRecord) : Json α :=
  .record ([("id", .text record.id)]
    ++ Json.optional "name" .text record.name
    ++ Json.optional "icon" .text record.icon
    ++ Json.optional "detail" .text record.detail
    ++ [("meta", record.tag.toJson)])

end PassiveRecord

end Realm
