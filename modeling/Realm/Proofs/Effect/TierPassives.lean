import Realm.Proofs.Effect.Run
import Realm.Proofs.Effect.Tiers
import Realm.Proofs.Effect.Vacating

/-!
# The passives of tiers

A tier may come with a passive, which is attached in the name of the resource when the tier is
entered. When the tier changes, three things happen one after the other, and each of them may fail:
what was attached in the resource's name is detached, the new tier is recorded, and its passive is
attached. On the way any effects may run, and they may attach and detach passives of their own.

At any time, though, the passives in a resource's name are what the tier on record says
(`Player.TierPassives`): there is one at most, and it is the one that the recorded tier declares. No
effect attaches passives in a resource's name or records a tier. What has to be shown of a visit is
that there is nothing left in the resource's name when a new tier is recorded.
-/

set_option autoImplicit false

namespace Realm

variable {α : Type}

/-- The passives in the names of resources are those of the tiers on record. -/
structure Player.TierPassives (content : Content α) (player : Player α) : Prop where
  /-- No two passives have the same id. -/
  distinct : player.Distinct
  /-- There is one passive in a resource's name at most, -/
  single : ∀ resource, (player.passivesOf (tierOwner resource)).length ≤ 1
  /-- and it is declared by the tier on record. -/
  declared : ∀ active ∈ player.passives, ∀ resource,
    active.tag.owner = some (tierOwner resource) →
    ∃ track tier, (resource, track) ∈ content.catalog.tierTracks ∧ tier ∈ track.tiers ∧
      player.tiers.find? resource = some tier.id ∧ tier.passive = some active.definition

namespace Player.TierPassives

variable {content : Content α} {player : Player α}

theorem initial [Amount α] (content : Content α) (id name : String) :
    (Player.initial content.catalog id name).TierPassives content where
  distinct := List.nodup_nil
  single := fun _ => Nat.zero_le 1
  declared := by
    intro active hactive
    cases hactive

/-- Nothing goes wrong by losing passives. -/
theorem fewer {after : Player α} (h : player.TierPassives content)
    (hpassives : after.passives.Sublist player.passives) (htiers : after.tiers = player.tiers) :
    after.TierPassives content where
  distinct := h.distinct.sublist (hpassives.map _)
  single := fun resource =>
    Nat.le_trans ((hpassives.filter _).map _).length_le (h.single resource)
  declared := by
    intro active hactive resource howner
    rw [htiers]
    exact h.declared active (hpassives.subset hactive) resource howner

/-- A passive may be attached in the name of a resource that has none, if it is that of the tier on
    record, and in any other name. -/
theorem attach (h : player.TierPassives content) {active : ActivePassive α}
    (hnew : player.hasPassive active.id = false)
    (howner : ∀ resource, active.tag.owner = some (tierOwner resource) →
      player.passivesOf (tierOwner resource) = [] ∧
      ∃ track tier, (resource, track) ∈ content.catalog.tierTracks ∧ tier ∈ track.tiers ∧
        player.tiers.find? resource = some tier.id ∧ tier.passive = some active.definition) :
    { player with passives := player.passives ++ [active] }.TierPassives content where
  distinct := h.distinct.attach hnew
  single := by
    intro resource
    have hsplit : Player.passivesOf { player with passives := player.passives ++ [active] }
        (tierOwner resource) = player.passivesOf (tierOwner resource)
          ++ ([active].filter fun other => other.tag.owner == some (tierOwner resource)).map
            (·.id) := by
      unfold Player.passivesOf
      rw [List.filter_append, List.map_append]
    rw [hsplit]
    by_cases hresource : active.tag.owner = some (tierOwner resource)
    · rw [(howner resource hresource).1]
      simp [hresource]
    · simpa [hresource] using h.single resource
  declared := by
    intro other hother resource hresource
    rcases List.mem_append.1 hother with hold | hlast
    · exact h.declared other hold resource hresource
    · rw [List.mem_singleton.1 hlast] at hresource ⊢
      exact (howner resource hresource).2

/-- A resource without passives in its name may change its tier. -/
theorem record (h : player.TierPassives content) {resource : String} {tiers : Table String}
    (hnone : ∀ active ∈ player.passives, active.tag.owner ≠ some (tierOwner resource))
    (htiers : ∀ other, resource ≠ other → tiers.find? other = player.tiers.find? other) :
    { player with tiers }.TierPassives content where
  distinct := h.distinct
  single := h.single
  declared := by
    intro active hactive other howner
    have hne : resource ≠ other := by
      rintro rfl
      exact hnone active hactive howner
    obtain ⟨track, tier, htrack, htier, hrecorded, hpassive⟩ :=
      h.declared active hactive other howner
    exact ⟨track, tier, htrack, htier, (htiers other hne).trans hrecorded, hpassive⟩

end Player.TierPassives

/-! ## Effects -/

variable [Amount α] {setting : Setting α}

omit [Amount α] in
/-- A passive that is attached in no resource's name does no harm. -/
theorem attachable_of_ne_tierOwner {owner : Option String}
    (howner : ∀ resource, owner ≠ some (tierOwner resource)) (passive : Passive α) :
    passive.Attachable (fun _ => True)
      (fun draft : Draft α => draft.player.TierPassives setting.content) owner where
  effects := fun _ _ => trivial
  attach := by
    rintro tag draft rfl _ hnew hdraft
    exact hdraft.attach hnew fun resource hresource => absurd hresource (howner resource)

omit [Amount α] in
theorem Addition.owner?_ne_tierOwner (content : Content α) (addition : Addition α)
    (resource : String) : addition.owner? content ≠ some (tierOwner resource) := by
  cases addition with
  | building id =>
    intro howner
    obtain ⟨building, -, heq⟩ := Option.map_eq_some_iff.1 howner
    exact tierOwner_ne_buildingOwner resource building.id heq.symm
  | passive definition source => exact fun howner => by cases howner
  | development id land => exact fun howner => by cases howner

theorem removes_tierPassives (setting : Setting α) : Removes setting (fun _ => False)
    fun draft => draft.player.TierPassives setting.content where
  dispatch := fun _ hbad => hbad.elim
  keeps := fun _ _ hstep hbefore => hbefore.fewer hstep.detached.passives hstep.detached.tiers
  passive := fun _ _ _ _ _ _ _ _ _ hbad => hbad.elim
  development := fun _ _ _ _ _ _ _ _ hbad => hbad.elim

theorem applies_tierPassives (setting : Setting α) : Applies setting (fun _ => False)
    (fun _ => True) fun draft => draft.player.TierPassives setting.content where
  dispatch := fun _ hbad => hbad.elim
  depth := fun hbad => hbad
  known := fun _ _ hbad => hbad.elim
  leaf := by
    intro effect leaf _ _ before after hstep hbefore
    obtain ⟨resources, lands, skips, landCounter, hplayer⟩ := hstep.player
    rw [hplayer]
    exact hbefore.fewer (.refl _) rfl
  removal := fun _ removal _ _ _ hdraft => removal.apply_safe (removes_tierPassives setting) hdraft
  passives := fun _ addition _ _ passive _ =>
    attachable_of_ne_tierOwner (addition.owner?_ne_tierOwner setting.content) passive
  brings := fun _ _ _ _ => trivial
  own := fun _ _ _ _ hdraft => hdraft.fewer (.refl _) rfl
  build := fun _ _ _ _ _ _ hdraft => hdraft.fewer (.refl _) rfl

/-! ## Visits -/

/-- A visit keeps the passives and the tiers together, whether it succeeds or fails. -/
theorem syncTier_tierPassives {entry : String × TierTrack α}
    (hentry : entry ∈ setting.content.catalog.tierTracks) {draft : Draft α}
    (hdraft : draft.player.TierPassives setting.content) :
    (syncTier setting entry.1 entry.2).SafeAt
      (fun draft => draft.player.TierPassives setting.content) (fun _ => False) draft := by
  refine Draft.safeAt_current ?_
  dsimp only
  split
  · exact Attempt.safeAt_pure hdraft
  · refine (removeOwned_safe (removes_tierPassives setting) _ hdraft).bind
      fun removed between hremoved hbetween => ?_
    -- The removal has succeeded: nothing in the resource's name is left.
    have hnone := (removeOwned_vacates (tierOwner entry.1) hdraft.distinct removed between
      hremoved).2
    cases htier : entry.2.tierFor (draft.player.resources.amount entry.1) with
    | none =>
      refine (Draft.safeAt_update ?_).bind_pure _
      refine hbetween.record hnone fun other hother => ?_
      rw [Table.find?_erase, if_neg hother]
    | some tier =>
      have hrecorded : Player.TierPassives setting.content { between.player with
          tiers := between.player.tiers.insert entry.1 tier.id } := by
        refine hbetween.record hnone fun other hother => ?_
        rw [Table.find?_insert, if_neg hother]
      refine (Draft.safeAt_update hrecorded).bind fun _ entered hentered _ => ?_
      cases hentered
      cases hpassive : tier.passive with
      | none => exact Attempt.safeAt_pure hrecorded
      | some passive =>
        refine (addPassive_safe_of_attach (applies_tierPassives setting) (fun _ _ => trivial)
          hrecorded fun hnew => ?_).bind_pure _
        refine hrecorded.attach hnew fun resource hresource => ?_
        obtain rfl := tierOwner_injective (Option.some.inj hresource)
        refine ⟨?_, entry.2, tier, hentry, List.mem_of_find?_eq_some htier, ?_, hpassive⟩
        · unfold Player.passivesOf
          rw [List.map_eq_nil_iff, List.filter_eq_nil_iff]
          simpa using hnone
        · rw [Table.find?_insert, if_pos rfl]

/-- **The passives in the names of resources are those of the tiers on record**, at any time, for
    any content, whatever was called for and whether it succeeded or failed, as long as nobody
    attaches passives in a resource's name from outside. -/
theorem tierPassives_afterAll (setting : Setting α) (id name : String)
    (commands : List (Draft.Command α))
    (hforeign : ∀ definition tag, .addPassive definition tag ∈ commands →
      ∀ resource, tag.owner ≠ some (tierOwner resource)) :
    (Draft.afterAll setting id name commands).player.TierPassives setting.content := by
  refine List.foldlRecOn (motive := fun draft => draft.player.TierPassives setting.content) commands
    (Draft.Command.perform setting) ?_ ?_
  · exact .initial setting.content id name
  · intro draft hdraft command hcommand
    refine command.keeps_of_applies (applies_tierPassives setting) (removes_tierPassives setting)
      (fun draft hdraft => ?_) (fun call draft hdraft => ?_) (fun id passive _ => ?_)
      (fun definition tag heq => ?_) hdraft
    · exact (syncTiers_safe_of_visits (fun _ hentry _ => syncTier_tierPassives hentry) hdraft).1
    · rw [Draft.record_player]
      exact hdraft.fewer (.refl _) rfl
    · exact attachable_of_ne_tierOwner (Addition.owner?_ne_tierOwner setting.content _) passive
    · subst heq
      exact attachable_of_ne_tierOwner (hforeign definition tag hcommand) definition

/-- Someone who has sworn an oath, and is content. -/
def Sample.sworn : List (Draft.Command Binary64) :=
  [.addPassive { id := "oath" } { owner := some (buildingOwner "shrine") }, .syncTiers]

open Sample in
theorem tierPassives_afterAll_sworn :
    (Draft.afterAll generous "A" "Player A" sworn).player.passives.map (·.id) = ["oath", "gift"] ∧
    (Draft.afterAll generous "A" "Player A" sworn).player.TierPassives generous.content := by
  refine ⟨by decide +kernel, tierPassives_afterAll generous "A" "Player A" sworn ?_⟩
  intro definition tag hmem resource howner
  unfold sworn at hmem
  rcases List.mem_cons.1 hmem with heq | hmem
  · cases heq
    exact tierOwner_ne_buildingOwner resource "shrine" (Option.some.inj howner).symm
  · cases List.mem_singleton.1 hmem

end Realm
