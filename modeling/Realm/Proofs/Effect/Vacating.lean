import Mathlib.Data.List.Nodup
import Realm.Proofs.Effect.Removal

/-!
# What leaves with its owner

The passives of a building and of a tier are known by the owner in their tags, and they leave by it:
whoever takes the owner away detaches every passive with its tag. What the passives' effects did is
taken back one after the other, which may take further things away, buildings included.

A removal that has failed half-way may have left passives behind whose building is gone. One that
succeeded has not (`Player.Vacated`), however it went on; that is what `Removal.apply_vacates` and
the lemmas before it say, by induction on the bound of the recursion. It needs that no two passives
have the same id, since a passive is found by its id.
-/

set_option autoImplicit false

namespace Realm

/-! ## Owners -/

theorem buildingOwner_injective {a b : String} (h : buildingOwner a = buildingOwner b) : a = b :=
  (String.append_right_inj _).1 h

theorem tierOwner_injective {a b : String} (h : tierOwner a = tierOwner b) : a = b :=
  (String.append_right_inj _).1 h

theorem tierOwner_ne_buildingOwner (resource building : String) :
    tierOwner resource ≠ buildingOwner building := by
  intro h
  have hfirst := congrArg (fun owner : String => owner.toList.head?) h
  simp [tierOwner, buildingOwner, String.toList_append] at hfirst

variable {α : Type}

/-- No two passives of the player have the same id. -/
def Player.Distinct (player : Player α) : Prop := (player.passives.map (·.id)).Nodup

theorem Player.Distinct.detached {before after : Player α} (h : before.Distinct)
    (hdetached : before.Detached after) : after.Distinct :=
  h.sublist (hdetached.passives.map _)

theorem Player.hasPassive_iff {player : Player α} {id : String} :
    player.hasPassive id = true ↔ ∃ active ∈ player.passives, active.id = id := by
  unfold Player.hasPassive Player.passive?
  rw [List.find?_isSome]
  simp

theorem Player.Distinct.attach {player : Player α} (h : player.Distinct)
    {active : ActivePassive α} (hnew : player.hasPassive active.id = false) :
    Player.Distinct { player with passives := player.passives ++ [active] } := by
  unfold Player.Distinct at h ⊢
  rw [List.map_append, List.map_singleton, List.nodup_append_comm, List.singleton_append,
    List.nodup_cons, and_iff_left h]
  rw [← Bool.not_eq_true, Player.hasPassive_iff] at hnew
  exact fun hmem => hnew (List.mem_map.1 hmem)

/-- Among passives with different ids, the first with an id is the only one. -/
theorem id_ne_of_mem_eraseP {passives : List (ActivePassive α)}
    (h : (passives.map (·.id)).Nodup) {id : String} {active : ActivePassive α}
    (hactive : active ∈ passives.eraseP fun other => other.id == id) : active.id ≠ id := by
  induction passives with
  | nil => cases hactive
  | cons first rest ih =>
    obtain ⟨hnew, hrest⟩ := List.nodup_cons.1 h
    by_cases hfirst : first.id = id
    · rw [List.eraseP_cons_of_pos (by simpa using hfirst)] at hactive
      exact fun hid => hnew (List.mem_map.2 ⟨active, hactive, hid.trans hfirst.symm⟩)
    · rw [List.eraseP_cons_of_neg (by simpa using hfirst)] at hactive
      rcases List.mem_cons.1 hactive with rfl | hactive
      · exact hfirst
      · exact ih hrest hactive

theorem Player.Distinct.withoutPassive {player : Player α} (h : player.Distinct) (id : String) :
    (player.withoutPassive id).hasPassive id = false := by
  rw [← Bool.not_eq_true, Player.hasPassive_iff]
  rintro ⟨active, hactive, hid⟩
  exact id_ne_of_mem_eraseP h hactive hid

theorem Player.Detached.hasPassive {before after : Player α} (h : before.Detached after)
    {id : String} (hid : before.hasPassive id = false) : after.hasPassive id = false := by
  rw [← Bool.not_eq_true, Player.hasPassive_iff] at hid ⊢
  rintro ⟨active, hactive, heq⟩
  exact hid ⟨active, h.passives.subset hactive, heq⟩

/-! ## Buildings and their passives -/

/-- Things are gone, and with every building that is gone, its passives. -/
structure Player.Vacated (before after : Player α) : Prop where
  detached : before.Detached after
  gone : ∀ building, before.buildings.contains building = true →
    after.buildings.contains building = false →
    ∀ active ∈ after.passives, active.tag.owner ≠ some (buildingOwner building)

theorem Player.Vacated.of_buildings {before after : Player α} (h : before.Detached after)
    (hbuildings : after.buildings = before.buildings) : before.Vacated after := by
  refine ⟨h, fun building howned hgone => ?_⟩
  rw [hbuildings, howned] at hgone
  cases hgone

theorem Player.Vacated.refl (player : Player α) : player.Vacated player :=
  .of_buildings (.refl player) rfl

theorem Player.Vacated.trans {first second third : Player α} (h : first.Vacated second)
    (h' : second.Vacated third) : first.Vacated third := by
  refine ⟨h.detached.trans h'.detached, fun building howned hgone active hactive => ?_⟩
  cases hbetween : second.buildings.contains building with
  | true => exact h'.gone building hbetween hgone active hactive
  | false => exact h.gone building howned hbetween active (h'.detached.passives.subset hactive)

variable [Amount α] {setting : Setting α}

/-- What the attempt leaves of the player, if it succeeds. -/
abbrev Vacates {β : Type} (attempt : DraftAttempt α β) (draft : Draft α) : Prop :=
  attempt.Ensures (fun after => draft.player.Vacated after.player) draft

theorem Leaf.vacates {leaf : Leaf α} (hleaf : leaf.isUndoing = true) (multiplier : Nat)
    (draft : Draft α) : Vacates (leaf.apply setting multiplier) draft := by
  have hdetached : (leaf.apply setting multiplier).Ensures
      (fun after => draft.player.Detached after.player) draft :=
    (Leaf.apply_taking hleaf multiplier draft).ensures
      (fun _ _ hstep hbefore => hbefore.trans hstep.detached) (.refl _)
  have hbuildings : (leaf.apply setting multiplier).Ensures
      (fun after => after.player.buildings = draft.player.buildings) draft := by
    refine (Leaf.apply_steps leaf multiplier draft).ensures
      (fun before after hstep hbefore => ?_) rfl
    obtain ⟨resources, lands, skips, landCounter, hplayer⟩ := hstep.player
    rw [hplayer]
    exact hbefore
  exact (hdetached.and hbuildings).mono fun after h => .of_buildings h.1 h.2

/-! ## Removals that succeed -/

section

variable {revert : List (Effect α) → DraftAttempt α Unit}
  (hrevert : ∀ effects draft, draft.player.Distinct → Vacates (revert effects) draft)
include hrevert

omit [Amount α] in
theorem removePassiveWith_vacates (id : String) {draft : Draft α}
    (hdraft : draft.player.Distinct) :
    (removePassiveWith revert id).Ensures (fun after =>
      draft.player.Vacated after.player ∧ after.player.hasPassive id = false) draft := by
  refine Draft.ensures_current ?_
  cases hactive : draft.player.passive? id with
  | none =>
    refine Attempt.ensures_pure ⟨.refl _, ?_⟩
    unfold Player.hasPassive
    rw [hactive]
    rfl
  | some active =>
    have hdetached : draft.player.Detached (draft.player.withoutPassive id) :=
      { Player.Detached.refl draft.player with passives := List.eraseP_sublist }
    refine Draft.ensures_update_bind (Attempt.Ensures.bind_pure ?_ _)
    refine (hrevert _ _ (hdraft.detached hdetached)).mono fun after hafter => ⟨?_, ?_⟩
    · exact (Player.Vacated.of_buildings hdetached rfl).trans hafter
    · exact hafter.detached.hasPassive (hdraft.withoutPassive id)

omit [Amount α] in
theorem removeEachWith_vacates (ids : List String) {draft : Draft α}
    (hdraft : draft.player.Distinct) :
    Attempt.Ensures (fun after => draft.player.Vacated after.player ∧
        ∀ id ∈ ids, after.player.hasPassive id = false)
      (ids.forM fun id => do let _ ← removePassiveWith revert id) draft := by
  induction ids generalizing draft with
  | nil => exact Attempt.ensures_pure ⟨.refl _, by simp⟩
  | cons id rest ih =>
    refine ((removePassiveWith_vacates hrevert id hdraft).bind_pure _).bind fun _ between h => ?_
    refine (ih (hdraft.detached h.1.detached)).mono fun after hafter => ?_
    refine ⟨h.1.trans hafter.1, List.forall_mem_cons.2 ⟨?_, hafter.2⟩⟩
    exact hafter.1.detached.hasPassive h.2

omit [Amount α] in
/-- Everything that belongs to the owner is gone. -/
theorem removeOwnedWith_vacates (owner : String) {draft : Draft α}
    (hdraft : draft.player.Distinct) :
    (removeOwnedWith revert owner).Ensures (fun after => draft.player.Vacated after.player ∧
      ∀ active ∈ after.player.passives, active.tag.owner ≠ some owner) draft := by
  refine Draft.ensures_current (Attempt.Ensures.bind_pure ?_ _)
  refine (removeEachWith_vacates hrevert _ hdraft).mono fun after hafter => ⟨hafter.1, ?_⟩
  intro active hactive howner
  have hid : active.id ∈ draft.player.passivesOf owner := by
    refine List.mem_map.2 ⟨active, List.mem_filter.2 ⟨?_, by simpa using howner⟩, rfl⟩
    exact hafter.1.detached.passives.subset hactive
  have hgone := hafter.2 active.id hid
  rw [Player.hasPassive_iff.2 ⟨active, hactive, rfl⟩] at hgone
  cases hgone

omit [Amount α] in
theorem removeBuildingWith_vacates (id : String) {draft : Draft α}
    (hdraft : draft.player.Distinct) : Vacates (removeBuildingWith revert id) draft := by
  refine Draft.ensures_current ?_
  split
  · have hdetached : draft.player.Detached
        { draft.player with buildings := draft.player.buildings.erase id } :=
      { Player.Detached.refl draft.player with
        buildings := fun _ => Table.contains_of_contains_erase }
    refine Draft.ensures_update_bind (Attempt.Ensures.bind_pure ?_ _)
    refine (removeOwnedWith_vacates hrevert _ (hdraft.detached hdetached)).mono fun after hafter =>
      ⟨hdetached.trans hafter.1.detached, fun building howned hgone => ?_⟩
    by_cases heq : id = building
    · subst heq
      exact hafter.2
    · refine hafter.1.gone building ?_ hgone
      simpa [heq] using howned
  · exact Attempt.ensures_pure (.refl _)

theorem removeDevelopmentWith_vacates (id : String) (land : Option String) {draft : Draft α}
    (hdraft : draft.player.Distinct) :
    Vacates (removeDevelopmentWith setting revert id land) draft := by
  refine Attempt.ensures_ofOption_bind fun development _ => Draft.ensures_current ?_
  refine Attempt.ensures_ofExcept_bind fun found hland => ?_
  cases found with
  | none => exact Attempt.ensures_pure (.refl _)
  | some found =>
    have hdetached := (Draft.Taking.raze id land found hland : Draft.Taking setting draft _).detached
    refine Draft.ensures_update_bind (Attempt.Ensures.bind_pure ?_ _)
    refine (hrevert _ _ (hdraft.detached hdetached)).mono fun after hafter => ?_
    exact (Player.Vacated.of_buildings hdetached rfl).trans hafter

theorem removeWith_vacates (removal : Removal) {draft : Draft α}
    (hdraft : draft.player.Distinct) : Vacates (removeWith setting revert removal) draft := by
  cases removal with
  | building id => exact (removeBuildingWith_vacates hrevert id hdraft).bind_pure _
  | passive id =>
    exact ((removePassiveWith_vacates hrevert id hdraft).mono fun _ h => h.1).bind_pure _
  | development id land => exact (removeDevelopmentWith_vacates hrevert id land hdraft).bind_pure _

end

theorem revertAllWith_vacates {remove : Removal → DraftAttempt α Unit}
    (hremove : ∀ removal draft, draft.player.Distinct → Vacates (remove removal) draft)
    (effects : List (Effect α)) {draft : Draft α} (hdraft : draft.player.Distinct) :
    Vacates (revertAllWith setting remove effects) draft := by
  -- Among what is kept on the way is that ids stay different.
  have hchain : ∀ attempt : DraftAttempt α Unit,
      (∀ state, state.player.Distinct → Vacates attempt state) →
      ∀ state, draft.player.Vacated state.player → attempt.Ensures
        (fun after => draft.player.Vacated after.player) state :=
    fun attempt hattempt state hstate =>
      (hattempt state (hdraft.detached hstate.detached)).mono fun _ => hstate.trans
  refine Attempt.ensures_forM (fun effect _ state hstate => ?_) (.refl _)
  unfold revertWith
  cases hinverse : effect.inverse? with
  | none => exact Attempt.ensures_pure hstate
  | some inverse =>
    obtain ⟨undoing, inverse⟩ := inverse
    dsimp only
    split
    · refine Attempt.ensures_ofExcept_bind fun instruction hread => ?_
      cases instruction with
      | inl leaf =>
        exact hchain _ (fun state _ => Leaf.vacates (Undoing.isUndoing_of_read hread) _ state)
          state hstate
      | inr removal => exact Attempt.ensures_times (hchain _ (hremove removal)) _ hstate
    · exact Attempt.ensures_fail

/-- By induction on the bound: where it is reached, nothing has succeeded. -/
theorem removeWithin_vacates (bound : Nat) (removal : Removal) {draft : Draft α}
    (hdraft : draft.player.Distinct) : Vacates (removeWithin setting bound removal) draft := by
  induction bound generalizing removal draft with
  | zero => exact Attempt.ensures_fail
  | succ bound ih =>
    exact removeWith_vacates (fun effects state hstate =>
      revertAllWith_vacates (fun removal _ => ih removal) effects hstate) removal hdraft

theorem revertAll_vacates (effects : List (Effect α)) (draft : Draft α)
    (hdraft : draft.player.Distinct) : Vacates (revertAll setting effects) draft :=
  Draft.ensures_current
    (revertAllWith_vacates (fun removal _ => removeWithin_vacates _ removal) effects hdraft)

theorem Removal.apply_vacates (removal : Removal) {draft : Draft α}
    (hdraft : draft.player.Distinct) : Vacates (removal.apply setting) draft :=
  removeWith_vacates revertAll_vacates removal hdraft

theorem removePassive_vacates (id : String) {draft : Draft α} (hdraft : draft.player.Distinct) :
    Vacates (removePassive setting id) draft :=
  (removePassiveWith_vacates revertAll_vacates id hdraft).mono fun _ h => h.1

theorem removeOwned_vacates (owner : String) {draft : Draft α} (hdraft : draft.player.Distinct) :
    (removeOwned setting owner).Ensures (fun after => draft.player.Vacated after.player ∧
      ∀ active ∈ after.player.passives, active.tag.owner ≠ some owner) draft :=
  removeOwnedWith_vacates revertAll_vacates owner hdraft

end Realm
