import Realm.Proofs.Effect.Application

/-!
# Runs of the interpreter

What may be called for from outside, one call after the other. A call that failed leaves the draft
as far as it came, and the next call goes on from there.

Whatever the calls are, they are made of the steps of `Draft.Step` and of writes to the ledger: an
invariant that every step keeps makes everything safe that the interpreter does (`syncs_of_step`),
so one that writes keep as well holds of a player at any time (`Draft.holds_afterAll`), at any
nesting and whether calls succeed or fail.
-/

set_option autoImplicit false

namespace Realm

variable {α : Type} [Amount α] {setting : Setting α}

/-! ## Invariants of steps -/

section

variable {holds : Draft α → Prop}
  (hstep : ∀ before after, Draft.Step setting before after → holds before → holds after)
include hstep

theorem removes_of_step : Removes setting (fun _ => False) holds where
  dispatch := fun _ hbad => hbad.elim
  keeps := fun before after htaking => hstep before after (.taking after htaking)
  passive := fun _ _ _ _ _ _ _ _ _ hbad => hbad.elim
  development := fun _ _ _ _ _ _ _ _ hbad => hbad.elim

theorem attachable_of_step (owner : Option String) (passive : Passive α) :
    passive.Attachable (fun _ => True) holds owner where
  effects := fun _ _ => trivial
  attach := fun _ draft _ _ hnew => hstep draft _ (.attach _ hnew)

theorem applies_of_step : Applies setting (fun _ => False) (fun _ => True) holds where
  dispatch := fun _ hbad => hbad.elim
  depth := fun hbad => hbad
  known := fun _ _ hbad => hbad.elim
  leaf := fun _ _ _ _ before after hleaf => hstep before after hleaf.step
  removal := fun _ removal _ _ _ hdraft => removal.apply_safe (removes_of_step hstep) hdraft
  passives := fun _ _ _ _ passive _ => attachable_of_step hstep _ passive
  brings := fun _ _ _ _ => trivial
  own := fun draft id hknown hnew => hstep draft _ (.own id hknown hnew)
  build := fun draft id named land hknown hland =>
    hstep draft _ (.build id named land hknown hland)

theorem syncs_of_step : Syncs setting (fun _ => False) (fun _ => True) holds where
  applies := applies_of_step hstep
  removes := removes_of_step hstep
  passives := fun _ _ _ _ passive _ => attachable_of_step hstep _ passive
  leave := fun draft resource => hstep draft _ (.leaveTier resource)
  enter := fun draft resource tier => hstep draft _ (.enterTier resource tier)

end

/-! ## Calls -/

/-- A call of the interpreter. -/
inductive Draft.Command (α : Type) where
  | apply (effect : Effect α) (multiplier : Nat)
  | applyAll (effects : List (Effect α))
  | addPassive (definition : Passive α) (tag : PassiveTag)
  | removePassive (id : String)
  | removeOwned (owner : String)
  | addBuilding (id : String)
  | removeBuilding (id : String)
  | addDevelopment (id : String) (land : Option String)
  | removeDevelopment (id : String) (land : Option String)
  | syncTiers
  | write (call : Ledger.Write α)

/-- The draft after a call, however the call ended. -/
def Draft.Command.perform (setting : Setting α) (draft : Draft α) : Command α → Draft α
  | .apply effect multiplier => (applyEffect setting effect multiplier).after draft
  | .applyAll effects => (Realm.applyAll setting effects).after draft
  | .addPassive definition tag => (Realm.addPassive setting definition tag).after draft
  | .removePassive id => (Realm.removePassive setting id).after draft
  | .removeOwned owner => (Realm.removeOwned setting owner).after draft
  | .addBuilding id => (Realm.addBuilding setting id).after draft
  | .removeBuilding id => (Realm.removeBuilding setting id).after draft
  | .addDevelopment id land => (Realm.addDevelopment setting id land).after draft
  | .removeDevelopment id land => (Realm.removeDevelopment setting id land).after draft
  | .syncTiers => (Realm.syncTiers setting).after draft
  | .write call => (Draft.record (call.attempt setting.content.catalog)).after draft

/-- The draft after a sequence of calls. -/
def Draft.performAll (setting : Setting α) (draft : Draft α) (commands : List (Draft.Command α)) :
    Draft α :=
  commands.foldl (Draft.Command.perform setting) draft

/-- The draft of a new player after a sequence of calls. -/
def Draft.afterAll (setting : Setting α) (id name : String) (commands : List (Draft.Command α)) :
    Draft α :=
  commands.foldl (Draft.Command.perform setting)
    { player := .initial setting.content.catalog id name }

/-- What a call makes of a draft, bit by bit: a step of the interpreter, or a write of any kind,
    which may move lower bounds as well. -/
inductive Draft.Change (setting : Setting α) (draft : Draft α) : Draft α → Prop
  | step (after : Draft α) (h : Draft.Step setting draft after) : Change setting draft after
  | write (call : Ledger.Write α) :
      Change setting draft
        ((Draft.record (call.attempt setting.content.catalog)).after draft)

/-- A change does to the ledger what a write does, or nothing. -/
theorem Draft.Change.ledger {holds : Ledger α → Prop}
    (hwrite : ∀ (ledger : Ledger α) (call : Ledger.Write α), holds ledger →
      holds ((call.attempt setting.content.catalog).after ledger))
    {before after : Draft α} (h : Draft.Change setting before after)
    (hbefore : holds before.player.resources) : holds after.player.resources := by
  cases h with
  | step _ h => exact h.ledger (fun ledger call _ => hwrite ledger call) hbefore
  | write call =>
    rw [Draft.record_player]
    exact hwrite before.player.resources call hbefore

/-- A call keeps an invariant if effects and removals are safe for it, and passives can be attached
    in the names of those who attach them. -/
theorem Draft.Command.keeps_of_applies {holds : Draft α → Prop}
    (happlies : Applies setting (fun _ => False) (fun _ => True) holds)
    (hremoves : Removes setting (fun _ => False) holds)
    (hsync : ∀ draft, holds draft → holds ((Realm.syncTiers setting).after draft))
    (hwrite : ∀ (call : Ledger.Write α) draft, holds draft →
      holds ((Draft.record (call.attempt setting.content.catalog)).after draft))
    (hbuilding : ∀ id, ∀ passive ∈ (Addition.building id).passives setting.content,
      passive.Attachable (fun _ => True) holds ((Addition.building id).owner? setting.content))
    (command : Draft.Command α)
    (hpassive : ∀ definition tag, command = .addPassive definition tag →
      definition.Attachable (fun _ => True) holds tag.owner)
    {draft : Draft α} (hdraft : holds draft) : holds (command.perform setting draft) := by
  cases command with
  | apply effect multiplier => exact (applyEffect_safe happlies trivial multiplier hdraft).1
  | applyAll effects => exact (applyAll_safe happlies (fun _ _ => trivial) hdraft).1
  | addPassive definition tag =>
    exact (addPassive_safe happlies (hpassive definition tag rfl) hdraft).1
  | removePassive id => exact (removePassive_safe hremoves id hdraft).1
  | removeOwned owner => exact (removeOwned_safe hremoves owner hdraft).1
  | addBuilding id => exact (addBuilding_safe happlies (hbuilding id) hdraft).1
  | removeBuilding id => exact (removeBuilding_safe hremoves id hdraft).1
  | addDevelopment id land =>
    exact (addDevelopment_safe happlies (fun _ _ => trivial) hdraft).1
  | removeDevelopment id land => exact (removeDevelopment_safe hremoves id land hdraft).1
  | syncTiers => exact hsync draft hdraft
  | write call => exact hwrite call draft hdraft

theorem Draft.Command.keeps (holds : Draft α → Prop)
    (hchange : ∀ before after, Draft.Change setting before after → holds before → holds after)
    (command : Draft.Command α) {draft : Draft α} (hdraft : holds draft) :
    holds (command.perform setting draft) := by
  have hstep : ∀ before after, Draft.Step setting before after → holds before → holds after :=
    fun before after h => hchange before after (.step after h)
  have hsyncs : Syncs setting (fun _ => False) (fun _ => True) holds := syncs_of_step hstep
  exact command.keeps_of_applies hsyncs.applies hsyncs.removes
    (fun draft hdraft => (syncTiers_safe hsyncs hdraft).1)
    (fun call draft => hchange draft _ (.write call))
    (fun _ passive _ => attachable_of_step hstep _ passive)
    (fun definition tag _ => attachable_of_step hstep _ definition) hdraft

/-- What every change keeps, a sequence of calls keeps. -/
theorem Draft.holds_performAll (holds : Draft α → Prop)
    (hchange : ∀ before after, Draft.Change setting before after → holds before → holds after)
    {draft : Draft α} (hdraft : holds draft) (commands : List (Draft.Command α)) :
    holds (draft.performAll setting commands) :=
  List.foldlRecOn commands (Command.perform setting) hdraft
    fun _ hbefore command _ => command.keeps holds hchange hbefore

/-- What holds of a new player and what every change keeps, holds of a player at any time. -/
theorem Draft.holds_afterAll (holds : Player α → Prop)
    (hchange : ∀ before after, Draft.Change setting before after →
      holds before.player → holds after.player)
    {id name : String} (hinitial : holds (.initial setting.content.catalog id name))
    (commands : List (Draft.Command α)) : holds (afterAll setting id name commands).player :=
  Draft.holds_performAll (fun draft => holds draft.player) hchange hinitial commands

end Realm
