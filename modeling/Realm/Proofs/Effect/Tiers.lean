import Realm.Proofs.Catalog
import Realm.Proofs.Effect.Application
import Realm.Proofs.Session.Commit

/-!
# Tiers after a pass

`syncTiers` visits every resource with tiers once, in the order of their ids, and records the tier
that the amount is in when the resource is visited. To enter a tier is to attach its passive, and
the passive's effects may move amounts: those of resources that the pass has yet to come to, which
does no harm, and those of resources that it has left behind.

So what a pass leaves recorded is the tier at the visit (`syncTracks_recorded`), and it is the tier
of the amount exactly if no later visit has moved the amount to another one (`tiersCurrent_iff`);
the same condition decides whether a second pass has anything to do. The pass need not meet it:
`syncTiers_stale` is a pass that leaves a tier behind which it had just brought up to date.
-/

set_option autoImplicit false

namespace Realm

variable {α : Type} [Amount α]

/-- The tier that a player's amount is in, by its id. -/
def Player.tierDue (player : Player α) (entry : String × TierTrack α) : Option String :=
  (entry.2.tierFor (player.resources.amount entry.1)).map (·.id)

/-- The recorded tiers are those of the amounts. -/
def Player.TiersCurrent (content : Content α) (player : Player α) : Prop :=
  ∀ entry ∈ content.catalog.tierTracks, player.tiers.find? entry.1 = player.tierDue entry

/-- The draft when a pass over tracks comes to the one of a resource. -/
def Draft.atVisit (setting : Setting α) (tracks : List (String × TierTrack α))
    (resource : String) (draft : Draft α) : Draft α :=
  (syncTracks setting (tracks.takeWhile fun entry => entry.1 != resource)).after draft

variable {setting : Setting α}

/-! ## Effects leave the tiers alone -/

theorem removes_tiers (setting : Setting α) (tiers : Table String) :
    Removes setting (fun _ => False) fun draft => draft.player.tiers = tiers where
  dispatch := fun _ hbad => hbad.elim
  keeps := fun _ _ hstep hbefore => hstep.detached.tiers.trans hbefore
  passive := fun _ _ _ _ _ _ _ _ _ hbad => hbad.elim
  development := fun _ _ _ _ _ _ _ _ hbad => hbad.elim

theorem applies_tiers (setting : Setting α) (tiers : Table String) :
    Applies setting (fun _ => False) (fun _ => True) fun draft => draft.player.tiers = tiers where
  dispatch := fun _ hbad => hbad.elim
  depth := fun hbad => hbad
  known := fun _ _ hbad => hbad.elim
  leaf := by
    intro effect leaf _ _ before after hstep hbefore
    obtain ⟨resources, lands, skips, landCounter, hplayer⟩ := hstep.player
    rw [hplayer]
    exact hbefore
  removal := fun _ removal _ _ _ hdraft => removal.apply_safe (removes_tiers setting tiers) hdraft
  passives := fun _ _ _ _ _ _ => ⟨fun _ _ => trivial, fun _ _ _ _ _ hdraft => hdraft⟩
  brings := fun _ _ _ _ => trivial
  own := fun _ _ _ _ hdraft => hdraft
  build := fun _ _ _ _ _ _ hdraft => hdraft

theorem removeOwned_tiers (setting : Setting α) (owner : String) (draft : Draft α) :
    ((removeOwned setting owner).after draft).player.tiers = draft.player.tiers :=
  (removeOwned_safe (removes_tiers setting _) owner rfl).1

theorem addPassive_tiers (setting : Setting α) (passive : Passive α) (tag : PassiveTag)
    (draft : Draft α) :
    ((addPassive setting passive tag).after draft).player.tiers = draft.player.tiers :=
  (addPassive_safe (applies_tiers setting _)
    ⟨fun _ _ => trivial, fun _ _ _ _ _ hdraft => hdraft⟩ rfl).1

/-! ## One visit -/

theorem syncTier_of_current {entry : String × TierTrack α} {draft : Draft α}
    (h : draft.player.tiers.find? entry.1 = draft.player.tierDue entry) :
    (syncTier setting entry.1 entry.2).run draft = (.ok false, draft) := by
  unfold Player.tierDue at h
  unfold syncTier
  rw [Draft.run_current_bind]
  dsimp only
  rw [if_pos h]
  rfl

/-- A visit to another resource that succeeds says so, and changes the tiers in one place. -/
theorem syncTier_of_stale {entry : String × TierTrack α} {draft after : Draft α} {changed : Bool}
    (hstale : draft.player.tiers.find? entry.1 ≠ draft.player.tierDue entry)
    (h : (syncTier setting entry.1 entry.2).run draft = (.ok changed, after)) :
    changed = true ∧ after.player.tiers = match draft.player.tierDue entry with
      | none => draft.player.tiers.erase entry.1
      | some tier => draft.player.tiers.insert entry.1 tier := by
  unfold Player.tierDue at hstale ⊢
  unfold syncTier at h
  rw [Draft.run_current_bind] at h
  dsimp only at h
  rw [if_neg hstale] at h
  obtain ⟨gone, between, hgone, h⟩ := Attempt.run_bind_eq_ok.1 h
  -- Neither taking the old passive away nor adding the new one touches the tiers.
  have hkept : between.player.tiers = draft.player.tiers := by
    have hremoved := removeOwned_tiers setting (tierOwner entry.1) draft
    rw [Attempt.after_def, hgone] at hremoved
    exact hremoved
  cases htier : entry.2.tierFor (draft.player.resources.amount entry.1) with
  | none =>
    rw [htier] at h
    cases h
    exact ⟨rfl, congrArg (·.erase entry.1) hkept⟩
  | some tier =>
    rw [htier] at h
    obtain ⟨_, entered, hentered, h⟩ := Attempt.run_bind_eq_ok.1 h
    cases hentered
    cases hpassive : tier.passive with
    | none =>
      rw [hpassive] at h
      cases h
      exact ⟨rfl, congrArg (·.insert entry.1 tier.id) hkept⟩
    | some passive =>
      rw [hpassive] at h
      obtain ⟨_, attached, hattached, h⟩ := Attempt.run_bind_eq_ok.1 h
      cases h
      refine ⟨rfl, ?_⟩
      have hadded := addPassive_tiers setting passive
        { source := some (tierOwner entry.1 ++ ":" ++ tier.id), owner := some (tierOwner entry.1) }
        { between with player := { between.player with
          tiers := between.player.tiers.insert entry.1 tier.id } }
      rw [Attempt.after_def, hattached] at hadded
      exact hadded.trans (congrArg (·.insert entry.1 tier.id) hkept)

/-- A visit that succeeds records the tier that the amount was in when it began. -/
theorem syncTier_recorded {entry : String × TierTrack α} {draft after : Draft α} {changed : Bool}
    (h : (syncTier setting entry.1 entry.2).run draft = (.ok changed, after)) :
    after.player.tiers.find? entry.1 = draft.player.tierDue entry := by
  by_cases hcurrent : draft.player.tiers.find? entry.1 = draft.player.tierDue entry
  · rw [syncTier_of_current hcurrent] at h
    cases h
    exact hcurrent
  · rw [(syncTier_of_stale hcurrent h).2]
    cases draft.player.tierDue entry with
    | none => simp
    | some tier => simp

theorem syncTier_other {entry : String × TierTrack α} {draft after : Draft α} {changed : Bool}
    (h : (syncTier setting entry.1 entry.2).run draft = (.ok changed, after)) {other : String}
    (hother : entry.1 ≠ other) :
    after.player.tiers.find? other = draft.player.tiers.find? other := by
  by_cases hcurrent : draft.player.tiers.find? entry.1 = draft.player.tierDue entry
  · rw [syncTier_of_current hcurrent] at h
    cases h
    rfl
  · rw [(syncTier_of_stale hcurrent h).2]
    cases draft.player.tierDue entry with
    | none => simp [hother]
    | some tier => simp [hother]

theorem syncTier_unchanged {entry : String × TierTrack α} {draft after : Draft α}
    (h : (syncTier setting entry.1 entry.2).run draft = (.ok false, after)) :
    after = draft ∧ draft.player.tiers.find? entry.1 = draft.player.tierDue entry := by
  by_cases hcurrent : draft.player.tiers.find? entry.1 = draft.player.tierDue entry
  · rw [syncTier_of_current hcurrent] at h
    cases h
    exact ⟨rfl, hcurrent⟩
  · exact absurd (syncTier_of_stale hcurrent h).1 Bool.false_ne_true

/-! ## A pass -/

theorem syncTracks_cons_eq_ok {entry : String × TierTrack α}
    {rest : List (String × TierTrack α)} {draft after : Draft α} {count : Nat} :
    (syncTracks setting (entry :: rest)).run draft = (.ok count, after) ↔
      ∃ changed between others,
        (syncTier setting entry.1 entry.2).run draft = (.ok changed, between) ∧
        (syncTracks setting rest).run between = (.ok others, after) ∧
        count = others + if changed then 1 else 0 := by
  constructor
  · intro h
    obtain ⟨changed, between, hfirst, h⟩ := Attempt.run_bind_eq_ok.1 h
    obtain ⟨others, last, hrest, h⟩ := Attempt.run_bind_eq_ok.1 h
    cases h
    exact ⟨changed, between, others, hfirst, hrest, rfl⟩
  · rintro ⟨changed, between, others, hfirst, hrest, rfl⟩
    exact Attempt.run_bind_eq_ok.2 ⟨changed, between, hfirst,
      Attempt.run_bind_eq_ok.2 ⟨others, after, hrest, rfl⟩⟩

theorem syncTracks_cons_after {entry : String × TierTrack α} {draft between : Draft α}
    {changed : Bool} (h : (syncTier setting entry.1 entry.2).run draft = (.ok changed, between))
    (rest : List (String × TierTrack α)) :
    (syncTracks setting (entry :: rest)).after draft = (syncTracks setting rest).after between := by
  have hcons : (syncTracks setting (entry :: rest)).run draft =
      (syncTracks setting rest >>= fun others => pure (others + if changed then 1 else 0)).run
        between := Attempt.run_bind_of_ok h
  rw [Attempt.after_def, hcons, ← Attempt.after_def]
  exact Attempt.after_bind_pure _ _ between

theorem Draft.atVisit_head (entry : String × TierTrack α) (rest : List (String × TierTrack α))
    (draft : Draft α) : draft.atVisit setting (entry :: rest) entry.1 = draft := by
  unfold Draft.atVisit
  rw [List.takeWhile_cons_of_neg (by simp)]
  rfl

theorem Draft.atVisit_tail {entry : String × TierTrack α} {draft between : Draft α}
    {changed : Bool} (h : (syncTier setting entry.1 entry.2).run draft = (.ok changed, between))
    {resource : String} (hresource : entry.1 ≠ resource) (rest : List (String × TierTrack α)) :
    draft.atVisit setting (entry :: rest) resource = between.atVisit setting rest resource := by
  unfold Draft.atVisit
  rw [List.takeWhile_cons_of_pos (by simpa using hresource), syncTracks_cons_after h]

/-- A pass over tracks of different resources records, for each, the tier that the amount was in
    when the pass came to it, and leaves the other resources alone. -/
theorem syncTracks_recorded {tracks : List (String × TierTrack α)}
    (hnodup : (tracks.map (·.1)).Nodup) {draft after : Draft α} {count : Nat}
    (h : (syncTracks setting tracks).run draft = (.ok count, after)) :
    (∀ entry ∈ tracks, after.player.tiers.find? entry.1
      = (draft.atVisit setting tracks entry.1).player.tierDue entry) ∧
    ∀ other, other ∉ tracks.map (·.1) →
      after.player.tiers.find? other = draft.player.tiers.find? other := by
  induction tracks generalizing draft count with
  | nil =>
    cases h
    exact ⟨by simp, fun _ _ => rfl⟩
  | cons first rest ih =>
    obtain ⟨changed, between, others, hfirst, hrest, -⟩ := syncTracks_cons_eq_ok.1 h
    obtain ⟨hnew, hnodup⟩ := List.nodup_cons.1 hnodup
    obtain ⟨hrecorded, hother⟩ := ih hnodup hrest
    constructor
    · intro entry hentry
      rcases List.mem_cons.1 hentry with rfl | hentry
      · -- The later visits are to other resources.
        rw [hother entry.1 hnew, syncTier_recorded hfirst, Draft.atVisit_head]
      · have hne : first.1 ≠ entry.1 := by
          intro heq
          exact hnew (List.mem_map.2 ⟨entry, hentry, heq.symm⟩)
        rw [hrecorded entry hentry, Draft.atVisit_tail hfirst hne]
    · intro other hmem
      rw [List.map_cons, List.mem_cons, not_or] at hmem
      rw [hother other hmem.2, syncTier_other hfirst (Ne.symm hmem.1)]

/-- A pass that changes no tier changes nothing, and found every tier recorded. -/
theorem current_of_syncTracks {tracks : List (String × TierTrack α)} {draft after : Draft α}
    (h : (syncTracks setting tracks).run draft = (.ok 0, after)) :
    ∀ entry ∈ tracks, draft.player.tiers.find? entry.1 = draft.player.tierDue entry := by
  induction tracks with
  | nil => simp
  | cons first rest ih =>
    obtain ⟨changed, between, others, hfirst, hrest, hcount⟩ := syncTracks_cons_eq_ok.1 h
    cases changed with
    | true => simp at hcount
    | false =>
      obtain ⟨rfl, hcurrent⟩ := syncTier_unchanged hfirst
      have hothers : others = 0 := by simpa using hcount.symm
      rw [hothers] at hrest
      intro entry hentry
      rcases List.mem_cons.1 hentry with rfl | hentry
      · exact hcurrent
      · exact ih hrest entry hentry

theorem syncTracks_of_current {tracks : List (String × TierTrack α)} {draft : Draft α}
    (h : ∀ entry ∈ tracks, draft.player.tiers.find? entry.1 = draft.player.tierDue entry) :
    (syncTracks setting tracks).run draft = (.ok 0, draft) := by
  induction tracks with
  | nil => rfl
  | cons first rest ih =>
    refine syncTracks_cons_eq_ok.2 ⟨false, draft, 0, ?_, ?_, rfl⟩
    · exact syncTier_of_current (h first List.mem_cons_self)
    · exact ih fun entry hentry => h entry (List.mem_cons_of_mem _ hentry)

theorem syncTiers_idle_iff (draft : Draft α) :
    (syncTiers setting).run draft = (.ok 0, draft) ↔
      draft.player.TiersCurrent setting.content :=
  ⟨current_of_syncTracks, syncTracks_of_current⟩

/-! ## The tracks of a catalog -/

omit [Amount α] in
theorem Catalog.nodup_tierTracks {resources : List (Resource α)} {groups : List Group}
    {catalog : Catalog α} (h : Catalog.build resources groups = .ok catalog) :
    (catalog.tierTracks.map (·.1)).Nodup := by
  have hkeys : catalog.definitions.keys = catalog.definitions.values.map (·.id) :=
    Table.keys_eq_map_values (build_consistent h).definition_id
  have hnodup := catalog.definitions.nodup_keys
  rw [hkeys] at hnodup
  -- Leaving out the resources without a track keeps the order of the ids.
  refine List.Nodup.sublist ?_ hnodup
  unfold tierTracks
  induction catalog.definitions.values with
  | nil => exact .slnil
  | cons resource rest ih =>
    cases htrack : resource.tierTrack with
    | none =>
      rw [List.filterMap_cons_none (by rw [htrack]; rfl)]
      exact ih.cons resource.id
    | some track =>
      rw [List.filterMap_cons_some (by rw [htrack]; rfl)]
      exact ih.cons_cons resource.id

/-- After a pass the tiers are those of the amounts exactly if no later visit has moved the amount
    of a track to another tier. -/
theorem tiersCurrent_iff_kept {resources : List (Resource α)} {groups : List Group}
    (hbuild : Catalog.build resources groups = .ok setting.content.catalog)
    {draft after : Draft α} {count : Nat}
    (hrun : (syncTiers setting).run draft = (.ok count, after)) :
    after.player.TiersCurrent setting.content ↔
      ∀ entry ∈ setting.content.catalog.tierTracks,
        (draft.atVisit setting setting.content.catalog.tierTracks entry.1).player.tierDue entry
          = after.player.tierDue entry := by
  have hrecorded := (syncTracks_recorded (Catalog.nodup_tierTracks hbuild) hrun).1
  constructor
  · intro hcurrent entry hentry
    rw [← hrecorded entry hentry, hcurrent entry hentry]
  · intro hkept entry hentry
    rw [hrecorded entry hentry, hkept entry hentry]

/-- So it is with the player of a batch, whatever the batch did before its pass. -/
theorem Session.tiersCurrent_draftOf_iff {resources : List (Resource α)} {groups : List Group}
    (hbuild : Catalog.build resources groups = .ok setting.content.catalog)
    {work : DraftAttempt α Unit} {player : Player α} {draft : Draft α}
    (h : Session.draftOf setting work player = .ok draft) :
    ∃ worked, work.run { player } = (.ok (), worked) ∧
      (draft.player.TiersCurrent setting.content ↔
        ∀ entry ∈ setting.content.catalog.tierTracks,
          (worked.atVisit setting setting.content.catalog.tierTracks entry.1).player.tierDue entry
            = draft.player.tierDue entry) := by
  obtain ⟨worked, count, hwork, hsync⟩ := run_of_draftOf h
  exact ⟨worked, hwork, tiersCurrent_iff_kept hbuild hsync⟩

/-- **What a pass over the tiers leaves.** Recorded is the tier at the visit; it is the tier of the
    amount exactly if no later visit has moved the amount to another tier, and exactly then a second
    pass has nothing to do. -/
theorem tiersCurrent_iff {resources : List (Resource α)} {groups : List Group}
    (hbuild : Catalog.build resources groups = .ok setting.content.catalog)
    {draft after : Draft α} {count : Nat}
    (hrun : (syncTiers setting).run draft = (.ok count, after)) :
    (∀ entry ∈ setting.content.catalog.tierTracks, after.player.tiers.find? entry.1 =
      (draft.atVisit setting setting.content.catalog.tierTracks entry.1).player.tierDue entry) ∧
    (after.player.TiersCurrent setting.content ↔
      ∀ entry ∈ setting.content.catalog.tierTracks,
        (draft.atVisit setting setting.content.catalog.tierTracks entry.1).player.tierDue entry
          = after.player.tierDue entry) ∧
    ((syncTiers setting).run after = (.ok 0, after) ↔
      after.player.TiersCurrent setting.content) := by
  have hrecorded := syncTracks_recorded (Catalog.nodup_tierTracks hbuild) hrun
  exact ⟨hrecorded.1, tiersCurrent_iff_kept hbuild hrun, syncTiers_idle_iff after⟩

/-! ## A gift that comes too late

Whoever is content is given gold. Gold comes before happiness in the order of ids, so the gift moves
an amount whose tier has been recorded already. -/

namespace Sample

def wealth : TierTrack Binary64 :=
  { tiers := [
      { id := "poor", least := 0, greatest := some (Amount.ofInt 4) },
      { id := "rich", least := Amount.ofInt 5 }] }

def gold : Resource Binary64 := { id := "gold", label := "Gold", tierTrack := some wealth }

def gift : Passive Binary64 :=
  { id := "gift"
    effects := [{ family := "resource", method := "add"
                  params := .record [("resourceId", .text "gold"), ("amount", .integer 5)] }] }

def contentment : Resource Binary64 :=
  { id := "happiness"
    label := "Happiness"
    tierTrack := some { tiers := [{ id := "content", least := 0, passive := some gift }] } }

def generous : Setting Binary64 :=
  { content := { catalog := (Catalog.build [gold, contentment] []).toOption.getD .empty } }

def newcomer : Draft Binary64 := { player := .initial generous.content.catalog "A" "Player A" }

end Sample

/-- A pass that leaves a tier behind, and a second one that has to catch up. -/
theorem syncTiers_stale :
    Content.check Sample.generous = .ok () ∧
    (syncTiers Sample.generous).outcome Sample.newcomer = .ok 2 ∧
    ¬ ((syncTiers Sample.generous).after Sample.newcomer).player.TiersCurrent
      Sample.generous.content ∧
    (syncTiers Sample.generous).outcome ((syncTiers Sample.generous).after Sample.newcomer)
      = .ok 1 := by
  refine ⟨by decide +kernel, by decide +kernel, ?_, by decide +kernel⟩
  intro hcurrent
  have hmem : ("gold", Sample.wealth) ∈ Sample.generous.content.catalog.tierTracks :=
    List.mem_cons_self
  have hgold := hcurrent _ hmem
  revert hgold
  decide +kernel

theorem tiersCurrent_iff_generous :
    Catalog.build [Sample.gold, Sample.contentment] [] = .ok Sample.generous.content.catalog ∧
    ∃ after, (syncTiers Sample.generous).run Sample.newcomer = (.ok 2, after) ∧
      ((syncTiers Sample.generous).run after = (.ok 0, after) ↔
        after.player.TiersCurrent Sample.generous.content) := by
  have hbuild : Catalog.build [Sample.gold, Sample.contentment] []
      = .ok Sample.generous.content.catalog := rfl
  have hrun : (syncTiers Sample.generous).run Sample.newcomer
      = (.ok 2, (syncTiers Sample.generous).after Sample.newcomer) :=
    Attempt.run_eq_of_outcome (by decide +kernel)
  exact ⟨hbuild, _, hrun, (tiersCurrent_iff hbuild hrun).2.2⟩

end Realm
