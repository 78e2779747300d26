import Realm.Content
import Realm.Effect.Instruction
import Realm.Player
import Realm.Rules

/-!
# Drafts

Effects work on a draft: the player as far as the effects have come, and the gains they have
recorded. Whoever starts the effects decides whether the draft becomes the player.

The *setting* is what effects may read and never change: the operations in force, the content and
the rules. This module has the effects of leaves, which touch one component of the player each, and
are either carried out or refused as a whole.
-/

set_option autoImplicit false

namespace Realm

/-- A player being worked on, with the gains recorded so far, oldest first. -/
structure Draft (α : Type) where
  player : Player α
  gains : List (Gain α) := []

/-- How deep effects may nest where nothing else is said. -/
def nestingLimit : Nat := 1000

/-- What effects read. -/
structure Setting (α : Type) where
  /-- The operations in force. -/
  operations : List Operation := Operation.all
  content : Content α
  rules : Rules := {}
  /-- How deep effects may nest. -/
  nesting : Nat := nestingLimit

/-- A step of the work on a draft. -/
abbrev DraftAttempt (α β : Type) := Attempt (Draft α) (EffectError α) β

namespace Setting

variable {α : Type}

/-- The operation that an effect calls for, if it is in force. -/
def operation? (setting : Setting α) (family method : String) : Option Operation :=
  (Operation.named? family method).filter setting.operations.contains

end Setting

/-- How often an effect applies when it is called for `multiplier` times. -/
def Effect.repetitions {α : Type} (effect : Effect α) (multiplier : Nat) : Nat :=
  min (multiplier * effect.times.getD 1) Document.countLimit

/-- How often an instruction is carried out when it applies `multiplier` times. What a player can
    have only once is neither added nor taken twice. -/
def Removal.repetitions (multiplier : Nat) : Removal → Nat
  | .development .. => multiplier
  | .building _ | .passive _ => 1

/-- How often an addition is carried out when it applies `multiplier` times. -/
def Addition.repetitions {α : Type} (multiplier : Nat) : Addition α → Nat
  | .development .. => multiplier
  | .building _ | .passive .. => 1

namespace Draft

variable {α : Type}

/-- Changes the player. -/
def update (change : Player α → Player α) : DraftAttempt α Unit :=
  modify fun draft => { draft with player := change draft.player }

/-- The player as far as the work has come. -/
def current : DraftAttempt α (Player α) := do return (← get).player

variable [Amount α]

/-- Carries out an operation on the ledger and records the gains, in the player's name. -/
def record (operation : LedgerAttempt α (Change α)) : DraftAttempt α Unit := do
  let change ← operation.mapError .ledger |>.within (fun draft : Draft α => draft.player.resources)
    fun draft resources => { draft with player := { draft.player with resources } }
  modify fun draft => { draft with
    gains := draft.gains
      ++ change.gains.map fun gain => { gain with playerId := some draft.player.id } }

end Draft

/-- A percentage of the current amount, `multiplier` times, rounded; negative when it is taken. -/
def percentDelta {α : Type} [Amount α] (ledger : Ledger α) (catalog : Catalog α)
    (resource : String) (percent : α) (multiplier : Nat) (rounding : Rounding)
    (direction : Direction) : Except (EffectError α) α := do
  let current ← (ledger.amountOf catalog resource).mapError .ledger
  let raw := current * percent * Amount.ofCount multiplier / Amount.hundred
  if !Amount.isFinite raw then
    throw (.percentNotFinite resource raw)
  let magnitude := rounding.round raw
  return match direction with
    | .add => magnitude
    | .remove => -magnitude

/-- Tills a land and says how many slots it has. -/
def Draft.till {α : Type} (rules : Rules) (id : String) : DraftAttempt α Nat := do
  let player ← Draft.current
  match player.land? id with
  | none => Attempt.fail (.landNotFound id)
  | some land =>
    let tilled := land.till rules.maxSlotsPerLand
    Draft.update fun player => { player with
      lands := Land.updateFirst (fun land => land.id == id) (Land.till rules.maxSlotsPerLand)
        player.lands }
    return tilled.slots

namespace Leaf

variable {α : Type} [Amount α]

/-- The change of an amount that a leaf asks for. A percentage is rounded when it is taken of the
    amount, a flat magnitude when it is applied. -/
def delta (catalog : Catalog α) (ledger : Ledger α) (multiplier : Nat) (resource : String)
    (direction : Direction) (size : Size α) (rounding : Option Rounding)
    (reconciliation : Reconciliation) : Except (EffectError α) (Delta α) := do
  match size with
  | .flat amount =>
    return {
      resource, direction, rounding, reconciliation
      magnitude := amount * Amount.ofCount multiplier }
  | .percent percent =>
    let magnitude ← percentDelta ledger catalog resource percent multiplier
      (rounding.getD .standard) direction
    return { resource, magnitude, reconciliation }

/-- Carries out a leaf `multiplier` times over. Amounts are scaled, lands are added or tilled that
    many times, a skip is there or not. -/
def apply (setting : Setting α) (multiplier : Nat) : Leaf α → DraftAttempt α Unit
  | .changeAmount resource direction size rounding policy => do
    let player ← Draft.current
    let delta ← .ofExcept (delta setting.content.catalog player.resources multiplier resource
      direction size rounding policy)
    Draft.record (Ledger.apply setting.content.catalog delta)
  | .raiseUpperBound resource amount => do
    let player ← Draft.current
    let bounds := player.resources.boundsOf resource
    match bounds.upper with
    | none => return
    | some upper =>
      Draft.record (Ledger.setBounds setting.content.catalog resource
        { bounds with upper := some (upper + amount * Amount.ofCount multiplier) } .clamp)
  | .addLands count slots =>
    let slots := match slots with
      | some slots => min slots setting.rules.maxSlotsPerLand
      | none => setting.rules.initialSlots
    Attempt.times (min (count * multiplier) Document.countLimit)
      (Draft.update fun player => player.addLand slots)
  | .tillLand land =>
    Attempt.times multiplier (do let _ ← Draft.till setting.rules land)
  | .changeSkip direction phase step source =>
    Draft.update fun player => { player with
      skips := (player.skips.change (direction == .add) phase step source).2 }

end Leaf

end Realm
