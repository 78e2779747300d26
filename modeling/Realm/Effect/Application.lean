import Realm.Effect.Removal

/-!
# Applying effects

An effect is applied by finding its operation, reading its parameters, and carrying out the
instruction: a leaf on the spot, a removal as `Realm.Effect.Removal` says, and an addition by
putting the thing in its place and applying the effects that come with it — which may add further
things.

Unlike taking away, adding need not come to an end: a building whose passive takes the building
away and adds it again would be added forever. So effects may nest only so deep
(`Setting.nesting`), and going deeper is an error of its own. `applyWithin` has the depth as a
parameter; what it answers within one depth it answers within every greater one.
-/

set_option autoImplicit false

namespace Realm

variable {α : Type} [Amount α]

/-! ## Additions, given a way to apply effects -/

/-- Attaches a passive and applies its effects. An id is active at most once. -/
def addPassiveWith (applyAll : List (Effect α) → DraftAttempt α Unit) (definition : Passive α)
    (tag : PassiveTag) : DraftAttempt α Unit := do
  if (← Draft.current).hasPassive definition.id then
    Attempt.fail (.duplicatePassive definition.id)
  else
    let tag := { tag with removeOnPhase := tag.removeOnPhase.or definition.removeOnPhase }
    Draft.update fun player => { player with
      passives := player.passives ++ [{ definition, tag }] }
    applyAll definition.effects

/-- Adds a building and attaches its passives. Says whether it is new; one that is owned already
    stays as it is. -/
def addBuildingWith (setting : Setting α) (applyAll : List (Effect α) → DraftAttempt α Unit)
    (id : String) : DraftAttempt α Bool := do
  let building ← .ofOption (.unknownBuilding id) (setting.content.buildings.find? id)
  if (← Draft.current).buildings.contains id then return false
  else
    Draft.update fun player => { player with buildings := player.buildings.add id }
    let owner := buildingOwner building.id
    building.passives.forM fun passive =>
      addPassiveWith applyAll passive { source := some owner, owner := some owner }
    return true

/-- The land that a development is to stand on: the one that is named, if it has a free slot, or
    the first that has. -/
def landWithFreeSlot (player : Player α) (land : Option String) : Except (EffectError α) Land :=
  match land with
  | some id =>
    match player.land? id with
    | none => .error (.landNotFound id)
    | some land => if land.freeSlots = 0 then .error (.noFreeSlot (some id)) else .ok land
  | none =>
    match player.lands.find? fun land => decide (0 < land.freeSlots) with
    | some land => .ok land
    | none => .error (.noFreeSlot none)

/-- Builds a development, applies its effects, and says on which land. -/
def addDevelopmentWith (setting : Setting α) (applyAll : List (Effect α) → DraftAttempt α Unit)
    (id : String) (land : Option String) : DraftAttempt α String := do
  let development ← .ofOption (.unknownDevelopment id) (setting.content.developments.find? id)
  let chosen ← .ofExcept (landWithFreeSlot (← Draft.current) land)
  Draft.update fun player => { player with
    lands := Land.updateFirst (fun land => land.id == chosen.id && decide (0 < land.freeSlots))
      (·.build id) player.lands }
  applyAll development.effects
  return chosen.id

/-- The definition that an effect means when it adds a passive: a passive with nothing to apply or
    to run is a reference to the declared one of that id, if there is one. -/
def Content.resolvePassive (content : Content α) (written : Passive α) : Passive α :=
  if written.effects.isEmpty && written.onPhase.isEmpty then
    content.passives.findD written.id written
  else written

/-- Carries out an addition, given a way to apply effects. -/
def addWith (setting : Setting α) (applyAll : List (Effect α) → DraftAttempt α Unit) :
    Addition α → DraftAttempt α Unit
  | .building id => do let _ ← addBuildingWith setting applyAll id
  | .passive definition source =>
    addPassiveWith applyAll (setting.content.resolvePassive definition) { source }
  | .development id land => do let _ ← addDevelopmentWith setting applyAll id land

/-! ## Effects -/

/-- Applies an effect `multiplier` times over, effects nesting less than `depth` deep. -/
def applyWithin (setting : Setting α) : Nat → Effect α → Nat → DraftAttempt α Unit
  | 0, _, _ => Attempt.fail .nestedTooDeeply
  | depth + 1, effect, multiplier =>
    match setting.operation? effect.family effect.method with
    | none => Attempt.fail (.unknownEffect effect.family effect.method)
    | some operation => do
      let repetitions := effect.repetitions multiplier
      match ← Attempt.ofExcept (operation.read effect) with
      | .leaf leaf => leaf.apply setting repetitions
      | .removal removal =>
        Attempt.times (removal.repetitions repetitions) (removal.apply setting)
      | .addition addition =>
        Attempt.times (addition.repetitions repetitions)
          (addWith setting
            (fun effects => effects.forM fun effect => applyWithin setting depth effect 1) addition)

/-- Applies an effect `multiplier` times over. -/
def applyEffect (setting : Setting α) (effect : Effect α) (multiplier : Nat) :
    DraftAttempt α Unit :=
  applyWithin setting setting.nesting effect multiplier

/-- Applies effects from left to right; each sees what the ones before it have done. -/
def applyAll (setting : Setting α) (effects : List (Effect α)) : DraftAttempt α Unit :=
  effects.forM fun effect => applyEffect setting effect 1

/-- Attaches a passive and applies its effects. -/
def addPassive (setting : Setting α) (definition : Passive α) (tag : PassiveTag) :
    DraftAttempt α Unit :=
  addPassiveWith (applyAll setting) definition tag

/-- Adds a building and attaches its passives. Says whether it is new. -/
def addBuilding (setting : Setting α) (id : String) : DraftAttempt α Bool :=
  addBuildingWith setting (applyAll setting) id

/-- Builds a development, applies its effects, and says on which land. -/
def addDevelopment (setting : Setting α) (id : String) (land : Option String) :
    DraftAttempt α String :=
  addDevelopmentWith setting (applyAll setting) id land

/-! ## Tiers -/

/-- The owner of the passive that comes with a tier of a resource. -/
def tierOwner (resource : String) : String := "tier:" ++ resource

/-- Brings the tier of one resource up to date: if the amount has moved to another tier, the
    passive of the old one goes and that of the new one comes. Says whether the tier has changed. -/
def syncTier (setting : Setting α) (resource : String) (track : TierTrack α) :
    DraftAttempt α Bool := do
  let player ← Draft.current
  let next := track.tierFor (player.resources.amount resource)
  if player.tiers.find? resource = next.map (·.id) then return false
  else
    let owner := tierOwner resource
    let _ ← removeOwned setting owner
    match next with
    | none => Draft.update fun player => { player with tiers := player.tiers.erase resource }
    | some tier =>
      Draft.update fun player => { player with tiers := player.tiers.insert resource tier.id }
      match tier.passive with
      | none => pure ()
      | some passive =>
        addPassive setting passive
          { source := some (owner ++ ":" ++ tier.id), owner := some owner }
    return true

/-- Visits tracks one after the other and counts the tiers that have changed. -/
def syncTracks (setting : Setting α) : List (String × TierTrack α) → DraftAttempt α Nat
  | [] => return 0
  | (resource, track) :: rest => do
    let changed ← syncTier setting resource track
    let others ← syncTracks setting rest
    return others + if changed then 1 else 0

/-- Visits every resource with tiers once, in the order of their ids. -/
def syncTiers (setting : Setting α) : DraftAttempt α Nat :=
  syncTracks setting setting.content.catalog.tierTracks

end Realm
