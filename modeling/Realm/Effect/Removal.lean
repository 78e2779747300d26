import Realm.Effect.Draft

/-!
# Taking away

Taking a building, a passive or a development from a player takes back the effects that came with
it, the last first. Effects are taken back by their inverses, and an inverse may take away further
things: a building that a passive brought along, the passives of that building, and so on, however
the content's things refer to each other.

It always ends, because every step of it takes something away and nothing in it adds anything. So
the recursion runs on the number of things that are left: `remove` starts it with one more than the
player has (`Player.attachments`).
-/

set_option autoImplicit false

namespace Realm

variable {α : Type} [Amount α]

/-- Takes an effect back, given a way to take things away. An effect without an inverse stays. -/
def revertWith (setting : Setting α) (remove : Removal → DraftAttempt α Unit)
    (effect : Effect α) : DraftAttempt α Unit :=
  match effect.inverse? with
  | none => pure ()
  | some (undoing, inverse) =>
    if setting.operations.contains (.undoing undoing) then do
      let multiplier := inverse.repetitions 1
      match ← Attempt.ofExcept (undoing.read inverse) with
      | .inl leaf => leaf.apply setting multiplier
      | .inr removal => Attempt.times (removal.repetitions multiplier) (remove removal)
    else Attempt.fail (.unknownEffect inverse.family inverse.method)

/-- Takes effects back, the last first. -/
def revertAllWith (setting : Setting α) (remove : Removal → DraftAttempt α Unit)
    (effects : List (Effect α)) : DraftAttempt α Unit :=
  effects.reverse.forM (revertWith setting remove)

/-- Detaches a passive. Says whether there was one. -/
def removePassiveWith (revertAll : List (Effect α) → DraftAttempt α Unit) (id : String) :
    DraftAttempt α Bool := do
  let player ← Draft.current
  match player.passive? id with
  | none => return false
  | some active =>
    Draft.update fun player => player.withoutPassive id
    revertAll active.definition.effects
    return true

/-- Detaches every passive that belongs to an owner, and says how many there were. -/
def removeOwnedWith (revertAll : List (Effect α) → DraftAttempt α Unit) (owner : String) :
    DraftAttempt α Nat := do
  let owned := (← Draft.current).passivesOf owner
  owned.forM fun id => do let _ ← removePassiveWith revertAll id
  return owned.length

/-- The owner of the passives that come with a building. -/
def buildingOwner (building : String) : String := "building:" ++ building

/-- Takes a building away, and its passives with it. Says whether it was owned. -/
def removeBuildingWith (revertAll : List (Effect α) → DraftAttempt α Unit) (id : String) :
    DraftAttempt α Bool := do
  let player ← Draft.current
  if player.buildings.contains id then
    Draft.update fun player => { player with buildings := player.buildings.erase id }
    let _ ← removeOwnedWith revertAll (buildingOwner id)
    return true
  else return false

/-- The land that a development is to be taken from: the one that is named, if it has one, or the
    first that has. -/
def landWithDevelopment (player : Player α) (development : String) (land : Option String) :
    Except (EffectError α) (Option Land) :=
  match land with
  | some id =>
    match player.land? id with
    | none => .error (.landNotFound id)
    | some land => .ok (if land.developments.contains development then some land else none)
  | none => .ok (player.lands.find? fun land => land.developments.contains development)

/-- Takes a development off a land, and says off which. -/
def removeDevelopmentWith (setting : Setting α)
    (revertAll : List (Effect α) → DraftAttempt α Unit) (id : String) (land : Option String) :
    DraftAttempt α (Option String) := do
  let development ← .ofOption (.unknownDevelopment id) (setting.content.developments.find? id)
  match ← Attempt.ofExcept (landWithDevelopment (← Draft.current) id land) with
  | none => return none
  | some chosen =>
    Draft.update fun player => { player with
      lands := Land.updateFirst (fun land => land.id == chosen.id &&
        land.developments.contains id) (·.raze id) player.lands }
    revertAll development.effects
    return some chosen.id

/-- Carries out a removal, given a way to take effects back. -/
def removeWith (setting : Setting α) (revertAll : List (Effect α) → DraftAttempt α Unit) :
    Removal → DraftAttempt α Unit
  | .building id => do let _ ← removeBuildingWith revertAll id
  | .passive id => do let _ ← removePassiveWith revertAll id
  | .development id land => do let _ ← removeDevelopmentWith setting revertAll id land

/-- Carries out a removal that takes away fewer than `depth` things one inside the other. -/
def removeWithin (setting : Setting α) : Nat → Removal → DraftAttempt α Unit
  | 0, _ => Attempt.fail .nestedTooDeeply
  | depth + 1, removal =>
    removeWith setting (revertAllWith setting (removeWithin setting depth)) removal

/-- Takes effects back, the last first. There are at most as many things to take away as the player
    has. -/
def revertAll (setting : Setting α) (effects : List (Effect α)) : DraftAttempt α Unit := do
  let player ← Draft.current
  revertAllWith setting (removeWithin setting (player.attachments + 1)) effects

/-- Carries out a removal. -/
def Removal.apply (setting : Setting α) (removal : Removal) : DraftAttempt α Unit :=
  removeWith setting (revertAll setting) removal

/-- Detaches a passive. Says whether there was one. -/
def removePassive (setting : Setting α) (id : String) : DraftAttempt α Bool :=
  removePassiveWith (revertAll setting) id

/-- Detaches every passive that belongs to an owner, and says how many there were. -/
def removeOwned (setting : Setting α) (owner : String) : DraftAttempt α Nat :=
  removeOwnedWith (revertAll setting) owner

/-- Takes a building away, and its passives with it. Says whether it was owned. -/
def removeBuilding (setting : Setting α) (id : String) : DraftAttempt α Bool :=
  removeBuildingWith (revertAll setting) id

/-- Takes a development off a land, and says off which. -/
def removeDevelopment (setting : Setting α) (id : String) (land : Option String) :
    DraftAttempt α (Option String) :=
  removeDevelopmentWith setting (revertAll setting) id land

end Realm
