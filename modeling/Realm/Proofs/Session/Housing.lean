import Realm.Proofs.Content
import Realm.Proofs.Effect.Grants
import Realm.Proofs.Session.Players

/-!
# Passives and their buildings in a session

Whatever a session does with a player it does to a draft, and it keeps the draft only if all has
gone well. So of what `Grants` says of effects, sessions keep all: in a game whose buildings stay in
place while they grant (`Setting.GrantsInPlace`), a passive that is active in the name of a building
is that of a building the player owns (`passives_housed`).

The check of content does not see to it. A building whose first passive takes the building away
leaves the second one behind (`camp_outlives_tent`).
-/

set_option autoImplicit false

namespace Realm

variable {α : Type} [Amount α] {setting : Setting α}

/-! ## Buildings that stay in place -/

/-- The effects of a building's passives leave the building where it is, except those of the last
    one: for as long as there are passives left to attach, the building is there. -/
def Setting.GrantsInPlace (setting : Setting α) : Prop :=
  ∀ id building, setting.content.buildings.find? id = some building →
    ∀ passive ∈ building.passives.dropLast, ∀ draft after : Draft α,
      draft.player.ComesAbout setting → draft.player.buildings.contains id = true →
      (applyAll setting passive.effects).run draft = (.ok (), after) →
      after.player.buildings.contains id = true

/-- It is enough that these effects take nothing away. -/
theorem Setting.grantsInPlace_of_onlyAdds
    (h : ∀ building ∈ setting.content.buildings.values, ∀ passive ∈ building.passives.dropLast,
      ∀ effect ∈ passive.effects, setting.OnlyAdds effect) : setting.GrantsInPlace := by
  intro id building hfind passive hpassive draft after _ howned hrun
  have hbuilding : building ∈ setting.content.buildings.values :=
    Table.mem_values_iff.2 ⟨id, hfind⟩
  exact applyAll_keeps_buildings (h building hbuilding passive hpassive) howned hrun

theorem Draft.Step.distinct {before after : Draft α} (h : Draft.Step setting before after)
    (hbefore : before.player.Distinct) : after.player.Distinct := by
  cases h with
  | taking _ h => exact hbefore.detached h.detached
  | addLand slots hslots => exact hbefore
  | till id land hland => exact hbefore
  | attach active hnew => exact hbefore.attach hnew
  | own id hknown hnew => exact hbefore
  | build id named land hknown hland => exact hbefore
  | leaveTier resource => exact hbefore
  | enterTier resource tier => exact hbefore

theorem Player.ComesAbout.distinct {player : Player α} (h : player.ComesAbout setting) :
    player.Distinct := by
  obtain ⟨id, name, hsteps⟩ := h
  induction hsteps with
  | refl => exact List.nodup_nil
  | tail _ hlast ih =>
    obtain ⟨earlier, later, hlast⟩ := hlast
    exact hlast.distinct ih

theorem grants_of_inPlace
    (hkeyed : ∀ id building, setting.content.buildings.find? id = some building → building.id = id)
    (hplace : setting.GrantsInPlace) :
    Grants setting fun draft => draft.player.ComesAbout setting where
  step := fun _ _ hstep hbefore => hbefore.steps (.single hstep)
  distinct := fun _ hdraft => hdraft.distinct
  keyed := hkeyed
  inPlace := hplace

/-! ## Work on a draft -/

namespace Grants

variable {within : Draft α → Prop} (h : Grants setting within)
include h

theorem phaseStart_housed (phase : String) {draft : Draft α}
    (hdraft : draft.HousedWithin within) :
    (phaseStart setting phase).Ensures (Draft.HousedWithin within) draft := by
  refine Draft.ensures_current ((Attempt.ensures_forM
    (fun id _ _ hstate => (h.removePassive_housed id hstate).bind_pure _) hdraft).bind
    fun _ between hbetween => ?_)
  exact Draft.ensures_current
    (Attempt.ensures_forM (fun trigger _ => h.applyAll_housed trigger.2) hbetween)

theorem record_housed (call : Ledger.Write α) {draft : Draft α}
    (hlower : call.KeepsLower draft.player.resources) (hdraft : draft.HousedWithin within) :
    (Draft.record (call.attempt setting.content.catalog)).Ensures (Draft.HousedWithin within)
      draft := by
  refine Attempt.ensures_of_after
    (h.housed_of_step hdraft (.taking _ (.write call hlower)) ?_)
  rw [Draft.record_player]
  exact hdraft.2.congr rfl rfl

theorem payCost_housed (entry : String × α) {draft : Draft α}
    (hdraft : draft.HousedWithin within) :
    (payCost setting entry).Ensures (Draft.HousedWithin within) draft :=
  h.record_housed (.apply { resource := entry.1, direction := .remove, magnitude := entry.2 })
    trivial hdraft

theorem equip_housed (start : Start α) {draft : Draft α} (hdraft : draft.HousedWithin within) :
    (Session.equip setting start).Ensures (Draft.HousedWithin within) draft := by
  rw [Session.equip_eq]
  refine (Attempt.ensures_forM (fun entry _ _ =>
    h.record_housed (.setAmount entry.1 entry.2 .reject) trivial) hdraft).bind
    fun _ rich hrich => (h.applyAll_housed _ rich hrich).bind fun _ landed hlanded => ?_
  exact (Attempt.ensures_forM
    (fun id _ _ hstate => (h.addBuilding_housed id hstate).bind_pure _) hlanded).bind
    fun _ => h.applyAll_housed start.effects

theorem work_housed {work : DraftAttempt α Unit} (hwork : Session.Work setting work)
    {draft : Draft α} (hdraft : draft.HousedWithin within) :
    work.Ensures (Draft.HousedWithin within) draft := by
  cases hwork with
  | phaseStart phase => exact h.phaseStart_housed phase hdraft
  | effects effects => exact h.applyAll_housed effects draft hdraft
  | action costs effects =>
    exact (Attempt.ensures_forM (fun entry _ _ => h.payCost_housed entry) hdraft).bind
      fun _ => h.applyAll_housed effects

theorem draftOf_housed {work : DraftAttempt α Unit} {player : Player α} {draft : Draft α}
    (hwork : work.Ensures (Draft.HousedWithin within) { player })
    (hdraft : Session.draftOf setting work player = .ok draft) : draft.HousedWithin within := by
  obtain ⟨worked, count, hrun, hsync⟩ := Session.run_of_draftOf hdraft
  exact h.syncTiers_housed (hwork () worked hrun) count draft hsync

end Grants

/-! ## Sessions -/

namespace Session

/-- Where content was read from a document and its buildings stay in place while they grant, every
    active passive in the name of a building is that of a building the player owns: at the start,
    and whatever is called after that. -/
theorem passives_housed {session : Session α} (h : session.Reachable) {file : ContentFile α}
    (hfile : Content.ofFile file = .ok session.content)
    (hplace : session.setting.GrantsInPlace) :
    ∀ player ∈ session.players, ∀ active ∈ player.passives, ∀ building,
      active.tag.owner = some (buildingOwner building) →
        player.buildings.contains building = true := by
  have hgrants : Grants session.setting fun draft => draft.player.ComesAbout session.setting :=
    grants_of_inPlace
      (fun id building hfind => ((Content.lists_buildings hfile id building).1 hfind).2) hplace
  have hplayers : ∀ player ∈ session.players,
      player.ComesAbout session.setting ∧ player.Housed := by
    refine h.players (fun start place player hseat => ?_)
      fun work player draft hwork hplayer hdraft => ?_
    · obtain ⟨draft, hdraft, hseat⟩ := Outcome.bind_eq_ok.1 hseat
      cases hseat
      refine hgrants.draftOf_housed (hgrants.equip_housed start ⟨?_, .initial _ _ _⟩) hdraft
      exact ⟨place.id, place.name, .refl⟩
    · exact hgrants.draftOf_housed (hgrants.work_housed hwork hplayer) hdraft
  exact fun player hplayer => (hplayers player hplayer).2

end Session

/-! ## Tents -/

namespace Sample

def ofTent (method : String) : Effect Binary64 :=
  { family := "building", method, params := .record [("id", .text "tent")] }

def clearing : Effect Binary64 := { family := "land", method := "add" }

/-- A tent that is pitched with a pack, whatever comes with that, and a camp. -/
def camping (pack : Effect Binary64) : ContentFile Binary64 :=
  { buildings := [{ id := "tent", name := "Tent", passives :=
      [{ id := "pack", effects := [pack] }, { id := "camp" }] }]
    actions := [{ id := "pitch", name := "Pitch", effects := [ofTent "add"] }] }

def campsite (pack : Effect Binary64) : Content Binary64 :=
  (Content.ofFile (camping pack)).toOption.getD { catalog := .empty }

def outdoors : Config Binary64 :=
  { phases := [{ Phase.named "main" with action := true }] }

def pitch : Session.Call Binary64 := .perform "pitch" .empty

end Sample

namespace Session

/-- With the pack, land is cleared. Whoever pitches has both passives, and the tent. -/
theorem passives_housed_campsite :
    ∃ session, start Sample.outdoors (Sample.campsite Sample.clearing) Operation.all
        = .ok session ∧
      (∃ player ∈ (Sample.pitch.attempt.after session).players,
        player.passives.map (·.id) = ["pack", "camp"]) ∧
      ∀ player ∈ (Sample.pitch.attempt.after session).players, ∀ active ∈ player.passives,
        ∀ building, active.tag.owner = some (buildingOwner building) →
          player.buildings.contains building = true := by
  obtain ⟨session, hstart, hpitched, hcontent, hsetting⟩ : ∃ session : Session Binary64,
      start Sample.outdoors (Sample.campsite Sample.clearing) Operation.all = .ok session ∧
      (∃ player ∈ (Sample.pitch.attempt.after session).players,
        player.passives.map (·.id) = ["pack", "camp"]) ∧
      (Sample.pitch.attempt.after session).content = Sample.campsite Sample.clearing ∧
      (Sample.pitch.attempt.after session).setting
        = { content := Sample.campsite Sample.clearing } :=
    ⟨_, rfl, ⟨_, .head _, rfl⟩, rfl, rfl⟩
  have hfile : Content.ofFile (Sample.camping Sample.clearing)
      = .ok (Sample.pitch.attempt.after session).content := by
    rw [hcontent]
    rfl
  have hplace : (Sample.pitch.attempt.after session).setting.GrantsInPlace := by
    rw [hsetting]
    refine Setting.grantsInPlace_of_onlyAdds fun building hbuilding passive hpassive effect h => ?_
    cases List.mem_singleton.1 hbuilding
    cases List.mem_singleton.1 hpassive
    cases List.mem_singleton.1 h
    exact Setting.onlyAdds_of_leaf rfl
  have hreachable := Reachable.call session (.start _ _ _ _ session hstart) Sample.pitch
  exact ⟨session, hstart, hpitched, passives_housed hreachable hfile hplace⟩

/-- The pack takes the tent away, and the camp stays in its name. -/
theorem camp_outlives_tent :
    ∃ session after,
      start Sample.outdoors (Sample.campsite (Sample.ofTent "remove")) Operation.all
        = .ok session ∧
      Content.ofFile (Sample.camping (Sample.ofTent "remove")) = .ok session.content ∧
      Sample.pitch.attempt.run session = (.ok (.outcome (.completed "pitch" [])), after) ∧
      ∃ player ∈ after.players, ∃ active ∈ player.passives,
        active.tag.owner = some (buildingOwner "tent") ∧
        player.buildings.contains "tent" = false :=
  ⟨_, _, rfl, rfl, rfl, _, .head _, _, .head _, rfl, rfl⟩

end Session

end Realm
