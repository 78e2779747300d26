import Realm.Proofs.Effect.Nesting
import Realm.Proofs.Effect.Run
import Realm.Proofs.Effect.Vacating

/-!
# Buildings and the passives they grant

A building grants its passives one after the other, and whatever the effects of one set off happens
before the next is attached. If they take the building away, those of its passives that are there
leave with it; but the grant goes on, and attaches the others in the name of a building that is
gone, where nothing will ever detach them.

`Grants` says when that cannot happen: for as long as there are passives left to attach, effects
leave the building in place. Then the passives of a player always belong to buildings that are owned
(`Player.Housed`), wherever things have gone well. Where they have not, the work is thrown away:
what is proved here of attempts is what their success ensures.
-/

set_option autoImplicit false

namespace Realm

variable {α : Type}

/-- The passives in the names of buildings are those of buildings the player owns. -/
def Player.Housed (player : Player α) : Prop :=
  ∀ active ∈ player.passives, ∀ building, active.tag.owner = some (buildingOwner building) →
    player.buildings.contains building = true

namespace Player.Housed

variable {player : Player α}

theorem initial [Amount α] (catalog : Catalog α) (id name : String) :
    (Player.initial catalog id name).Housed := by
  intro active hactive
  cases hactive

theorem vacated {after : Player α} (h : player.Housed) (hvacated : player.Vacated after) :
    after.Housed := by
  intro active hactive building howner
  have howned := h active (hvacated.detached.passives.subset hactive) building howner
  cases hleft : after.buildings.contains building with
  | true => rfl
  | false => exact absurd howner (hvacated.gone building howned hleft active hactive)

theorem attach (h : player.Housed) {active : ActivePassive α}
    (howner : ∀ building, active.tag.owner = some (buildingOwner building) →
      player.buildings.contains building = true) :
    Player.Housed { player with passives := player.passives ++ [active] } := by
  intro other hother building hbuilding
  rcases List.mem_append.1 hother with hold | hlast
  · exact h other hold building hbuilding
  · rw [List.mem_singleton.1 hlast] at hbuilding
    exact howner building hbuilding

theorem own (h : player.Housed) (id : String) :
    Player.Housed { player with buildings := player.buildings.add id } := by
  intro active hactive building howner
  show (player.buildings.insert id ()).contains building = true
  rw [Table.contains_insert, h active hactive building howner, Bool.or_true]

/-- Where passives and buildings are the same, so are the houses. -/
theorem congr {after : Player α} (h : player.Housed) (hpassives : after.passives = player.passives)
    (hbuildings : after.buildings = player.buildings) : after.Housed := by
  unfold Player.Housed
  rw [hpassives, hbuildings]
  exact h

end Player.Housed

variable [Amount α]

/-- Buildings stay while they grant. The drafts are those that come about, or more. -/
structure Grants (setting : Setting α) (within : Draft α → Prop) : Prop where
  step : ∀ before after, Draft.Step setting before after → within before → within after
  distinct : ∀ draft, within draft → draft.player.Distinct
  /-- Buildings are kept under their ids. -/
  keyed : ∀ id building, setting.content.buildings.find? id = some building → building.id = id
  /-- Only the last passive of a building may have effects that take the building away. -/
  inPlace : ∀ id building, setting.content.buildings.find? id = some building →
    ∀ passive ∈ building.passives.dropLast, ∀ draft after, within draft →
      draft.player.buildings.contains id = true →
      (applyAll setting passive.effects).run draft = (.ok (), after) →
      after.player.buildings.contains id = true

/-- A draft that comes about, with passives of buildings the player owns. -/
def Draft.HousedWithin (within : Draft α → Prop) (draft : Draft α) : Prop :=
  within draft ∧ draft.player.Housed

variable {setting : Setting α} {within : Draft α → Prop}

namespace Grants

variable (h : Grants setting within)
include h

/-! ## Taking away -/

omit [Amount α] h in
theorem housed_of_vacates {β : Type} {attempt : DraftAttempt α β} {draft : Draft α}
    (hwithin : attempt.SafeAt within (fun _ => False) draft) (hvacates : Vacates attempt draft)
    (hdraft : draft.HousedWithin within) : attempt.Ensures (Draft.HousedWithin within) draft :=
  (hwithin.ensures.and hvacates).mono fun _ hafter => ⟨hafter.1, hdraft.2.vacated hafter.2⟩

theorem removal_housed (removal : Removal) {draft : Draft α} (hdraft : draft.HousedWithin within) :
    (removal.apply setting).Ensures (Draft.HousedWithin within) draft :=
  housed_of_vacates (removal.apply_safe (removes_of_step h.step) hdraft.1)
    (removal.apply_vacates (h.distinct draft hdraft.1)) hdraft

theorem removePassive_housed (id : String) {draft : Draft α}
    (hdraft : draft.HousedWithin within) :
    (removePassive setting id).Ensures (Draft.HousedWithin within) draft :=
  housed_of_vacates (removePassive_safe (removes_of_step h.step) id hdraft.1)
    (removePassive_vacates id (h.distinct draft hdraft.1)) hdraft

/-! ## Adding -/

theorem housed_of_step {before after : Draft α} (hbefore : before.HousedWithin within)
    (hstep : Draft.Step setting before after) (hhoused : after.player.Housed) :
    after.HousedWithin within :=
  ⟨h.step before after hstep hbefore.1, hhoused⟩

theorem leaf_housed (leaf : Leaf α) (multiplier : Nat) {draft : Draft α}
    (hdraft : draft.HousedWithin within) :
    (leaf.apply setting multiplier).Ensures (Draft.HousedWithin within) draft := by
  refine (leaf.apply_steps multiplier draft).ensures (fun before after hstep hbefore => ?_) hdraft
  refine h.housed_of_step hbefore hstep.step ?_
  obtain ⟨resources, lands, skips, landCounter, hplayer⟩ := hstep.player
  rw [hplayer]
  exact hbefore.2.congr rfl rfl

section

variable {apply : List (Effect α) → DraftAttempt α Unit}
  (happly : ∀ effects draft, draft.HousedWithin within →
    (apply effects).Ensures (Draft.HousedWithin within) draft)
include happly

theorem addPassiveWith_housed (definition : Passive α) {tag : PassiveTag} {draft : Draft α}
    (hdraft : draft.HousedWithin within)
    (howner : ∀ building, tag.owner = some (buildingOwner building) →
      draft.player.buildings.contains building = true) :
    (addPassiveWith apply definition tag).Ensures (Draft.HousedWithin within) draft := by
  refine Draft.ensures_current ?_
  split
  · exact Attempt.ensures_fail
  · rename_i hactive
    have hnew : draft.player.hasPassive definition.id = false := by simpa using hactive
    refine Draft.ensures_update_bind (happly _ _ ?_)
    exact h.housed_of_step hdraft (.attach _ hnew) (hdraft.2.attach howner)

section

variable (hfull : ∀ effects draft after, (apply effects).run draft = (.ok (), after) →
    (Realm.applyAll setting effects).run draft = (.ok (), after))
  {id : String} {building : Building α}
  (hfind : setting.content.buildings.find? id = some building)
include hfull hfind

omit happly in
theorem addPassiveWith_inPlace {passive : Passive α}
    (hpassive : passive ∈ building.passives.dropLast) (tag : PassiveTag) {draft : Draft α}
    (hdraft : within draft) (howned : draft.player.buildings.contains id = true) :
    (addPassiveWith apply passive tag).Ensures
      (fun after => after.player.buildings.contains id = true) draft := by
  refine Draft.ensures_current ?_
  split
  · exact Attempt.ensures_fail
  · rename_i hactive
    have hnew : draft.player.hasPassive passive.id = false := by simpa using hactive
    refine Draft.ensures_update_bind fun value after hrun => ?_
    exact h.inPlace id building hfind passive hpassive _ after (h.step _ _ (.attach _ hnew) hdraft)
      howned (hfull _ _ _ hrun)

/-- The passives of a building that is owned are granted one after the other. The building may go
    with the last of them. -/
theorem grant_housed {passives : List (Passive α)}
    (hpassives : ∀ passive ∈ passives.dropLast, passive ∈ building.passives.dropLast)
    {tag : PassiveTag} (htag : tag.owner = some (buildingOwner id)) {draft : Draft α}
    (hdraft : draft.HousedWithin within) (howned : draft.player.buildings.contains id = true) :
    Attempt.Ensures (Draft.HousedWithin within)
      (passives.forM fun passive => addPassiveWith apply passive tag) draft := by
  have howner : ∀ draft : Draft α, draft.player.buildings.contains id = true →
      ∀ building, tag.owner = some (buildingOwner building) →
        draft.player.buildings.contains building = true := by
    intro draft howned other hother
    rw [htag] at hother
    rw [← buildingOwner_injective (Option.some.inj hother)]
    exact howned
  induction passives generalizing draft with
  | nil => exact Attempt.ensures_pure hdraft
  | cons passive rest ih =>
    have hfirst := h.addPassiveWith_housed happly passive hdraft (howner draft howned)
    cases rest with
    | nil => exact hfirst.bind fun _ _ hlast => Attempt.ensures_pure hlast
    | cons next others =>
      rw [List.dropLast_cons_cons, List.forall_mem_cons] at hpassives
      have hplace := h.addPassiveWith_inPlace hfull hfind hpassives.1 tag hdraft.1 howned
      exact (hfirst.and hplace).bind fun _ _ hbetween => ih hpassives.2 hbetween.1 hbetween.2

omit hfind in
theorem addBuildingWith_housed (id : String) {draft : Draft α}
    (hdraft : draft.HousedWithin within) :
    (addBuildingWith setting apply id).Ensures (Draft.HousedWithin within) draft := by
  refine Attempt.ensures_ofOption_bind fun building hfind => Draft.ensures_current ?_
  split
  · exact Attempt.ensures_pure hdraft
  · rename_i howned
    have hnew : draft.player.buildings.contains id = false := by simpa using howned
    refine Draft.ensures_update_bind (Attempt.Ensures.bind_pure ?_ _)
    refine h.grant_housed happly hfull hfind (fun _ hpassive => hpassive) ?_ ?_ ?_
    · rw [h.keyed id building hfind]
    · exact h.housed_of_step hdraft (.own id (Table.contains_of_find? hfind) hnew)
        (hdraft.2.own id)
    · show (draft.player.buildings.insert id ()).contains id = true
      simp

omit hfind in
theorem addWith_housed (addition : Addition α) {draft : Draft α}
    (hdraft : draft.HousedWithin within) :
    (addWith setting apply addition).Ensures (Draft.HousedWithin within) draft := by
  cases addition with
  | building id => exact (h.addBuildingWith_housed happly hfull id hdraft).bind_pure _
  | passive definition source =>
    exact h.addPassiveWith_housed happly _ hdraft fun _ howner => by cases howner
  | development id land =>
    refine Attempt.Ensures.bind_pure ?_ _
    refine Attempt.ensures_ofOption_bind fun development hfind => Draft.ensures_current ?_
    refine Attempt.ensures_ofExcept_bind fun chosen hland => ?_
    refine Draft.ensures_update_bind (Attempt.Ensures.bind_pure (happly _ _ ?_) _)
    exact h.housed_of_step hdraft
      (.build id land chosen (Table.contains_of_find? hfind) hland) (hdraft.2.congr rfl rfl)

end

end

/-! ## Effects -/

omit h in
/-- Effects that have gone well within some depth go as well with all the depth there is. -/
theorem applyAll_of_within {depth : Nat} (hdepth : depth ≤ setting.nesting)
    (effects : List (Effect α)) (draft after : Draft α)
    (hrun : (effects.forM fun effect => applyWithin setting depth effect 1).run draft
      = (.ok (), after)) : (Realm.applyAll setting effects).run draft = (.ok (), after) := by
  have hextended : Attempt.ExtendedBy (EffectError.nestedTooDeeply : EffectError α)
      (effects.forM fun effect => applyWithin setting depth effect 1)
      (Realm.applyAll setting effects) :=
    Attempt.extendedBy_forM fun effect _ => applyWithin_extendedBy hdepth effect 1
  rw [hextended draft ?_, hrun]
  rw [Attempt.outcome_def, hrun]
  exact fun hbad => by cases hbad

theorem applyWithin_housed {depth : Nat} (hdepth : depth ≤ setting.nesting) (effect : Effect α)
    (multiplier : Nat) {draft : Draft α} (hdraft : draft.HousedWithin within) :
    (applyWithin setting depth effect multiplier).Ensures (Draft.HousedWithin within) draft := by
  induction depth generalizing effect multiplier draft with
  | zero => exact Attempt.ensures_fail
  | succ depth ih =>
    unfold applyWithin
    split
    · exact Attempt.ensures_fail
    · refine Attempt.ensures_ofExcept_bind fun instruction _ => ?_
      cases instruction with
      | leaf leaf => exact h.leaf_housed leaf _ hdraft
      | removal removal =>
        exact Attempt.ensures_times (fun _ hstate => h.removal_housed removal hstate) _ hdraft
      | addition addition =>
        refine Attempt.ensures_times (fun state hstate => ?_) _ hdraft
        refine h.addWith_housed (fun effects state hstate => ?_)
          (applyAll_of_within (by omega)) addition hstate
        exact Attempt.ensures_forM (fun inner _ _ => ih (by omega) inner 1) hstate

theorem applyEffect_housed (effect : Effect α) (multiplier : Nat) {draft : Draft α}
    (hdraft : draft.HousedWithin within) :
    (applyEffect setting effect multiplier).Ensures (Draft.HousedWithin within) draft :=
  h.applyWithin_housed (Nat.le_refl _) effect multiplier hdraft

theorem applyAll_housed (effects : List (Effect α)) (draft : Draft α)
    (hdraft : draft.HousedWithin within) :
    (Realm.applyAll setting effects).Ensures (Draft.HousedWithin within) draft :=
  Attempt.ensures_forM (fun effect _ _ => h.applyEffect_housed effect 1) hdraft

theorem addBuilding_housed (id : String) {draft : Draft α} (hdraft : draft.HousedWithin within) :
    (addBuilding setting id).Ensures (Draft.HousedWithin within) draft :=
  h.addBuildingWith_housed h.applyAll_housed (fun _ _ _ hrun => hrun) id hdraft

/-! ## Tiers -/

theorem syncTier_housed (resource : String) (track : TierTrack α) {draft : Draft α}
    (hdraft : draft.HousedWithin within) :
    (syncTier setting resource track).Ensures (Draft.HousedWithin within) draft := by
  refine Draft.ensures_current ?_
  dsimp only
  split
  · exact Attempt.ensures_pure hdraft
  · have hvacates : Vacates (removeOwned setting (tierOwner resource)) draft :=
      (removeOwned_vacates _ (h.distinct draft hdraft.1)).mono fun _ hafter => hafter.1
    have hremoved := housed_of_vacates (removeOwned_safe (removes_of_step h.step) _ hdraft.1)
      hvacates hdraft
    refine hremoved.bind fun _ between hbetween => ?_
    cases track.tierFor (draft.player.resources.amount resource) with
    | none =>
      refine Draft.ensures_update_bind (Attempt.ensures_pure ?_)
      exact h.housed_of_step hbetween (.leaveTier resource) (hbetween.2.congr rfl rfl)
    | some tier =>
      have hentered := h.housed_of_step hbetween (.enterTier resource tier.id)
        (hbetween.2.congr rfl rfl)
      refine Draft.ensures_update_bind ?_
      cases tier.passive with
      | none => exact Attempt.ensures_pure hentered
      | some passive =>
        refine (h.addPassiveWith_housed h.applyAll_housed passive hentered ?_).bind_pure _
        intro building howner
        exact absurd (Option.some.inj howner) (tierOwner_ne_buildingOwner resource building)

theorem syncTiers_housed {draft : Draft α} (hdraft : draft.HousedWithin within) :
    (syncTiers setting).Ensures (Draft.HousedWithin within) draft := by
  unfold syncTiers
  induction setting.content.catalog.tierTracks generalizing draft with
  | nil => exact Attempt.ensures_pure hdraft
  | cons entry rest ih =>
    exact (h.syncTier_housed entry.1 entry.2 hdraft).bind fun _ _ hbetween =>
      (ih hbetween).bind_pure _

end Grants

/-! ## Effects that leave buildings in place -/

/-- Nothing that the effect sets off takes anything away. -/
def Setting.OnlyAdds (setting : Setting α) (effect : Effect α) : Prop :=
  ∀ inner, Relation.ReflTransGen setting.Brings effect inner →
    ∀ removal, setting.instruction? inner ≠ some (.removal removal)

/-- What is done on the spot sets off nothing. -/
theorem Setting.onlyAdds_of_leaf {effect : Effect α} {leaf : Leaf α}
    (h : setting.instruction? effect = some (.leaf leaf)) : setting.OnlyAdds effect := by
  intro inner hinner removal hremoval
  rcases hinner.cases_head with rfl | ⟨next, ⟨addition, haddition, -⟩, -⟩
  · cases h.symm.trans hremoval
  · cases h.symm.trans haddition

theorem applies_owned (setting : Setting α) (id : String) :
    Applies setting (fun _ => False) setting.OnlyAdds
      fun draft => draft.player.buildings.contains id = true where
  dispatch := fun _ hbad => hbad.elim
  depth := fun hbad => hbad
  known := fun _ _ hbad => hbad.elim
  leaf := by
    intro effect leaf _ _ before after hstep hbefore
    obtain ⟨resources, lands, skips, landCounter, hplayer⟩ := hstep.player
    rw [hplayer]
    exact hbefore
  removal := fun effect removal heffect hremoval =>
    absurd hremoval (heffect effect .refl removal)
  passives := fun effect addition heffect haddition passive hpassive =>
    ⟨fun inner hinner other hother => heffect other (.head
      ⟨addition, haddition, Addition.mem_effects_of_passive hpassive hinner⟩ hother),
      fun _ _ _ _ _ hdraft => hdraft⟩
  brings := fun _ _ heffect hbrings other hother => heffect other (.head hbrings hother)
  own := by
    intro draft other _ _ hdraft
    show (draft.player.buildings.insert other ()).contains id = true
    rw [Table.contains_insert, hdraft, Bool.or_true]
  build := fun _ _ _ _ _ _ hdraft => hdraft

/-- Effects that only add leave every building in place. -/
theorem applyAll_keeps_buildings {effects : List (Effect α)}
    (heffects : ∀ effect ∈ effects, setting.OnlyAdds effect) {draft after : Draft α} {id : String}
    (howned : draft.player.buildings.contains id = true)
    (hrun : (applyAll setting effects).run draft = (.ok (), after)) :
    after.player.buildings.contains id = true :=
  (applyAll_safe (applies_owned setting id) heffects howned).ensures () after hrun

end Realm
