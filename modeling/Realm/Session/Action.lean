import Realm.Session

/-!
# Actions

How a player performs an action. Requirements and costs are examined together, and all that are
unmet are told at once; that is an answer and not an error. If there are none, the costs are paid
and the effects applied in one batch.

A cost is examined as the requirement that there is at least as much (`costRequirement`), so the
player is told of it in the same words.
-/

set_option autoImplicit false

namespace Realm

variable {α : Type} [Amount α]

/-- What an action costs, by resource: its own costs and those of every action, added up. What is
    not positive is no cost. -/
def Action.totalCosts (action : Action α) (catalog : Catalog α) : Table α :=
  let add (costs : Table α) (entry : String × α) : Table α :=
    costs.insert entry.1 (costs.findD entry.1 0 + entry.2)
  (catalog.actionCosts.foldl add action.costs).filter fun _ cost => decide (0 < cost)

/-- A cost as a requirement. -/
def costRequirement (entry : String × α) : Requirement α :=
  Requirement.compare
    { left := .source (.resource entry.1), comparator := .atLeast, right := .literal entry.2 }

/-- Pays one cost. -/
def payCost (setting : Setting α) (entry : String × α) : DraftAttempt α Unit :=
  Draft.record (Ledger.apply setting.content.catalog
    { resource := entry.1, direction := .remove, magnitude := entry.2 })

namespace Session

/-- Performs an action for the active player, with values for its placeholders. -/
def perform (id : String) (params : ActionParams α) : SessionAttempt α (ActionOutcome α) := do
  let phase ← currentPhase
  if !phase.action then
    Attempt.fail (.notActionPhase id phase.id)
  else
    let session ← get
    let action ← .ofOption (.unknownAction id) (session.content.actions.find? id)
    let fill {β : Type} (outcome : Except MissingParam β) : SessionAttempt α β :=
      .ofExcept (outcome.mapError (.missingParam action.id))
    let effects ← fill (action.effects.mapM (Effect.substitute params))
    let requirements ← fill (action.requirements.mapM (Requirement.substitute params))
    let costs := (action.totalCosts session.content.catalog).toList
    let player ← currentPlayer
    let unmet ← .ofExcept
      ((Requirement.evaluate session.content session.config.rules player .collectAll
        (requirements ++ costs.map costRequirement)).mapError (.actionFailed action.id))
    if unmet.isEmpty then
      let gains ← batch (.actionFailed action.id) fun setting => do
        costs.forM (payCost setting)
        applyAll setting effects
      return .completed action.id gains
    else
      return .rejected action.id unmet

end Session

end Realm
