import Realm.Effect.Draft
import Realm.Json.Reader
import Realm.Requirement.Evaluation

/-!
# Loading content

Content is read from a JSON document, indexed by id, and then checked against the operations in
force: every effect that is written in it calls for an operation there is, every requirement can be
read, and every cost is of a resource there is. A mistake in content is found here and not in the
middle of a game.
-/

set_option autoImplicit false

namespace Realm

/-- The kinds of indexed records. -/
inductive RecordKind where
  | building
  | development
  | action
  | passive
  deriving DecidableEq

/-- What can be wrong with content. -/
inductive ContentError (α : Type) where
  /-- The file cannot be read. -/
  | unreadable
  /-- The text is not JSON, or not of the shape of content. -/
  | malformed
  | catalog (error : LedgerError α)
  | duplicate (kind : RecordKind) (id : String)
  | invalidRecord (owner : String) (error : EffectError α)
  | unknownCostResource (action resource : String)
  deriving DecidableEq

def RecordKind.name : RecordKind → String
  | .building => "building"
  | .development => "development"
  | .action => "action"
  | .passive => "passive"

/-- The wording of an error. -/
def ContentError.message {α : Type} [Amount α] : ContentError α → String
  | .unreadable => "failed to read content file"
  | .malformed => "failed to parse content"
  | .catalog error => "invalid resource catalog: " ++ error.message
  | .duplicate kind id => "duplicate " ++ kind.name ++ " id: " ++ id
  | .invalidRecord owner error => owner ++ ": " ++ error.message
  | .unknownCostResource action resource =>
    "action " ++ action ++ " costs unknown resource " ++ resource

/-- A content document, read but not indexed. -/
structure ContentFile (α : Type) where
  resources : List (Resource α) := []
  groups : List Group := []
  buildings : List (Building α) := []
  developments : List (Development α) := []
  actions : List (Action α) := []
  passives : List (Passive α) := []

variable {α : Type} [Amount α]

def ContentFile.ofDocument? (document : Document α) : Option (ContentFile α) := do
  let [resources, groups, buildings, developments, actions, passives] ←
    document.slots? [["resources"], ["groups"], ["buildings"], ["developments"], ["actions"],
      ["passives"]] | none
  return {
    resources := ← Document.defaulted [] (Document.list? Resource.ofDocument?) resources
    groups := ← Document.defaulted [] (Document.list? Group.ofDocument?) groups
    buildings := ← Document.defaulted [] (Document.list? Building.ofDocument?) buildings
    developments := ← Document.defaulted [] (Document.list? Development.ofDocument?) developments
    actions := ← Document.defaulted [] (Document.list? Action.ofDocument?) actions
    passives := ← Document.defaulted [] (Document.list? Passive.ofDocument?) passives }

/-- Indexes records by id. An id occurs once. -/
def indexRecords {β : Type} (kind : RecordKind) (id : β → String) (records : List β) :
    Except (ContentError α) (Table β) :=
  records.foldlM (fun index record =>
    if index.contains (id record) then .error (.duplicate kind (id record))
    else .ok (index.insert (id record) record)) .empty

namespace Content

/-- Indexes a content document. -/
def ofFile (file : ContentFile α) : Except (ContentError α) (Content α) := do
  let catalog ← (Catalog.build file.resources file.groups).mapError .catalog
  return {
    catalog
    buildings := ← indexRecords .building (·.id) file.buildings
    developments := ← indexRecords .development (·.id) file.developments
    actions := ← indexRecords .action (·.id) file.actions
    passives := ← indexRecords .passive (·.id) file.passives }

/-- Content from a document. -/
def ofDocument (document : Document α) : Except (ContentError α) (Content α) :=
  match ContentFile.ofDocument? document with
  | some file => ofFile file
  | none => .error .malformed

/-- Content from a JSON text. -/
def ofText (text : String) : Except (ContentError α) (Content α) :=
  match Document.ofJsonText? text with
  | some document => ofDocument document
  | none => .error .malformed

/-! ## Checking -/

/-- Refuses an effect that calls for no operation in force. -/
def checkEffect (setting : Setting α) (owner : String) (effect : Effect α) :
    Except (ContentError α) Unit :=
  if (setting.operation? effect.family effect.method).isSome then .ok ()
  else .error (.invalidRecord owner (.unknownEffect effect.family effect.method))

def checkEffects (setting : Setting α) (owner : String) (effects : List (Effect α)) :
    Except (ContentError α) Unit :=
  effects.forM (checkEffect setting owner)

/-- Checks what a passive applies and what it runs. -/
def checkPassive (setting : Setting α) (owner : String) (passive : Passive α) :
    Except (ContentError α) Unit := do
  checkEffects setting owner passive.effects
  passive.onPhase.values.forM (checkEffects setting owner)

/-- Refuses a requirement that cannot be read. -/
def checkRequirement (owner : String) (requirement : Requirement α) :
    Except (ContentError α) Unit := do
  let _ ← requirement.read.mapError (ContentError.invalidRecord owner)

def checkAction (setting : Setting α) (action : Action α) : Except (ContentError α) Unit := do
  let owner := "action:" ++ action.id
  checkEffects setting owner action.effects
  action.requirements.forM (checkRequirement owner)
  match action.costs.keys.find? fun resource => !setting.content.catalog.contains resource with
  | some resource => throw (.unknownCostResource action.id resource)
  | none => pure ()

/-- Checks the passives of a track's tiers. -/
def checkTrack (setting : Setting α) (entry : String × TierTrack α) :
    Except (ContentError α) Unit :=
  entry.2.tiers.forM fun tier =>
    match tier.passive with
    | some passive => checkPassive setting ("tier:" ++ entry.1 ++ ":" ++ tier.id) passive
    | none => pure ()

/-- Checks all records of the content: buildings, developments, passives, tiers, actions. -/
def check (setting : Setting α) : Except (ContentError α) Unit := do
  let content := setting.content
  content.buildings.values.forM fun building =>
    building.passives.forM (checkPassive setting ("building:" ++ building.id))
  content.developments.values.forM fun development =>
    checkEffects setting ("development:" ++ development.id) development.effects
  content.passives.values.forM fun passive =>
    checkPassive setting ("passive:" ++ passive.id) passive
  content.catalog.tierTracks.forM (checkTrack setting)
  content.actions.values.forM (checkAction setting)

end Content

end Realm
