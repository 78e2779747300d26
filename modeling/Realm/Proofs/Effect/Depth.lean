import Realm.Proofs.Content
import Realm.Proofs.Effect.Nesting

/-!
# Work at any depth

The depth that effects may nest is a number of the setting, and nothing but applying effects looks
at it (`applyWithin_atDepth`): the effects of leaves are the same at every depth, and so is taking
away. So work on a draft is a family of attempts, one for each depth, and the question is whether it
deepens: whether it does at every greater depth what it does at one that is enough.

It does, and some depth is enough where the effects that come up are braked. Which effects come up
is a matter of what adding sets off, of what passives run later in phases, and of what comes with
the tiers; a *closed* kind of effects has all of them (`Setting.Closed`), and the invariant is that
the player's passives run none but such effects.
-/

set_option autoImplicit false

namespace Realm

variable {α : Type} [Amount α] {setting : Setting α}

/-! ## What does not look at the depth -/

omit [Amount α] in
/-- The setting with another depth. -/
def Setting.atDepth (setting : Setting α) (depth : Nat) : Setting α :=
  { setting with nesting := depth }

theorem removeWithin_atDepth (setting : Setting α) (depth bound : Nat) :
    removeWithin (setting.atDepth depth) bound = removeWithin setting bound := by
  induction bound with
  | zero => rfl
  | succ bound ih =>
    funext removal
    unfold removeWithin
    rw [ih]
    rfl

theorem revertAll_atDepth (setting : Setting α) (depth : Nat) :
    revertAll (setting.atDepth depth) = revertAll setting := by
  funext effects
  unfold revertAll
  simp only [removeWithin_atDepth]
  rfl

theorem removePassive_atDepth (setting : Setting α) (depth : Nat) :
    removePassive (setting.atDepth depth) = removePassive setting := by
  unfold removePassive
  rw [revertAll_atDepth]

theorem removeOwned_atDepth (setting : Setting α) (depth : Nat) :
    removeOwned (setting.atDepth depth) = removeOwned setting := by
  unfold removeOwned
  rw [revertAll_atDepth]

theorem Removal.apply_atDepth (setting : Setting α) (depth : Nat) (removal : Removal) :
    removal.apply (setting.atDepth depth) = removal.apply setting := by
  unfold Removal.apply
  rw [revertAll_atDepth]
  rfl

theorem applyWithin_atDepth (setting : Setting α) (depth within : Nat) :
    applyWithin (setting.atDepth depth) within = applyWithin setting within := by
  induction within with
  | zero => rfl
  | succ within ih =>
    funext effect multiplier
    unfold applyWithin
    simp only [ih, Removal.apply_atDepth]
    rfl

theorem applyEffect_atDepth (setting : Setting α) (depth : Nat) (effect : Effect α)
    (multiplier : Nat) : applyEffect (setting.atDepth depth) effect multiplier
      = applyWithin setting depth effect multiplier := by
  unfold applyEffect
  rw [applyWithin_atDepth]
  rfl

/-! ## Kinds of effects -/

omit [Amount α] in
/-- The effects that a passive runs in phases. -/
def Passive.timed (passive : Passive α) : List (Effect α) := passive.onPhase.values.flatten

/-- What effects of the kind bring up is of the kind: what they set off, what the passives that they
    attach run in phases, and what comes with the tiers. If they are known to end, they are
    braked. -/
structure Setting.Closed (setting : Setting α) (ends : Prop) (kind : Effect α → Prop) : Prop where
  brings : ∀ outer inner, kind outer → setting.Brings outer inner → kind inner
  attaches : ∀ outer addition, kind outer → setting.instruction? outer = some (.addition addition) →
    ∀ passive ∈ addition.passives setting.content, ∀ effect ∈ passive.timed, kind effect
  tiers : ∀ entry ∈ setting.content.catalog.tierTracks, ∀ tier ∈ entry.2.tiers, ∀ passive,
    tier.passive = some passive → ∀ effect ∈ passive.script, kind effect
  braked : ends → ∀ effect, kind effect → setting.Braked effect

omit [Amount α] in
/-- The player's passives run none but effects of the kind. -/
def Player.RunsOnly (kind : Effect α → Prop) (player : Player α) : Prop :=
  ∀ active ∈ player.passives, ∀ effect ∈ active.definition.timed, kind effect

/-- The family deepens, and keeps to the kind. -/
abbrev Draft.Deepens {β : Type} (ends : Prop) (kind : Effect α → Prop)
    (family : Nat → DraftAttempt α β) (draft : Draft α) : Prop :=
  Attempt.Deepens (Attempt.Still (Draft α)) (· = .nestedTooDeeply) ends
    (fun draft => draft.player.RunsOnly kind) family draft

section

variable {ends : Prop} {kind : Effect α → Prop}

omit [Amount α] in
theorem Player.RunsOnly.attach {player : Player α} (h : player.RunsOnly kind)
    {active : ActivePassive α} (hactive : ∀ effect ∈ active.definition.timed, kind effect) :
    { player with passives := player.passives ++ [active] }.RunsOnly kind := by
  intro other hother
  rcases List.mem_append.1 hother with hold | hnew
  · exact h other hold
  · rw [List.mem_singleton.1 hnew]
    exact hactive

omit [Amount α] in
theorem Player.RunsOnly.detached {before after : Player α} (h : before.RunsOnly kind)
    (hdetached : before.Detached after) : after.RunsOnly kind :=
  fun active hactive => h active (hdetached.passives.subset hactive)

theorem removes_runsOnly (setting : Setting α) (kind : Effect α → Prop) :
    Removes setting (fun _ => False) fun draft => draft.player.RunsOnly kind where
  dispatch := fun _ hbad => hbad.elim
  keeps := fun _ _ hstep hbefore => hbefore.detached hstep.detached
  passive := fun _ _ _ _ _ _ _ _ _ hbad => hbad.elim
  development := fun _ _ _ _ _ _ _ _ hbad => hbad.elim

omit [Amount α] in
theorem deepens_current {β : Type} {next : Nat → Player α → DraftAttempt α β} {draft : Draft α}
    (h : Draft.Deepens ends kind (fun depth => next depth draft.player) draft) :
    Draft.Deepens ends kind (fun depth => Draft.current >>= next depth) draft :=
  h.congr fun _ => rfl

omit [Amount α] in
theorem deepens_update {β : Type} {change : Player α → Player α}
    {next : Nat → Unit → DraftAttempt α β} {draft : Draft α}
    (h : Draft.Deepens ends kind (fun depth => next depth ())
      { draft with player := change draft.player }) :
    Draft.Deepens ends kind (fun depth => Draft.update change >>= next depth) draft :=
  ⟨h.deeper, h.enough⟩

namespace Setting.Closed

variable (h : setting.Closed ends kind)
include h

theorem applies : Applies setting (fun _ => False) kind
    fun draft => draft.player.RunsOnly kind where
  dispatch := fun _ hbad => hbad.elim
  depth := not_false
  known := fun _ _ hbad => hbad.elim
  leaf := by
    intro effect leaf _ _ before after hstep hbefore
    obtain ⟨resources, lands, skips, landCounter, hplayer⟩ := hstep.player
    rw [hplayer]
    exact hbefore
  removal := fun _ removal _ _ _ hdraft =>
    removal.apply_safe (removes_runsOnly setting kind) hdraft
  passives := fun effect addition heffect haddition passive hpassive =>
    { effects := fun inner hinner => h.brings effect inner heffect
        ⟨addition, haddition, Addition.mem_effects_of_passive hpassive hinner⟩
      attach := fun _ _ _ _ _ hdraft =>
        hdraft.attach (h.attaches effect addition heffect haddition passive hpassive) }
  brings := h.brings
  own := fun _ _ _ _ hdraft => hdraft
  build := fun _ _ _ _ _ _ hdraft => hdraft

/-! ## Work that deepens -/

theorem applyEffect_deepens {effect : Effect α} (heffect : kind effect) (multiplier : Nat)
    {draft : Draft α} (hdraft : draft.player.RunsOnly kind) :
    Draft.Deepens ends kind (fun depth => applyEffect (setting.atDepth depth) effect multiplier)
      draft := by
  simp only [applyEffect_atDepth]
  refine Attempt.deepens_of_settles (fun depth deeper hle => ?_) (fun hends => ?_) fun depth => ?_
  · exact applyWithin_extendedBy hle effect multiplier
  · exact settles_of_braked setting.content.granted _ (h.braked hends effect heffect)
      (fun _ hinner _ _ => hinner) (Nat.le_refl _) multiplier draft
  · exact (applyWithin_safe h.applies depth heffect multiplier hdraft).1

theorem applyAll_deepens {effects : List (Effect α)} (heffects : ∀ effect ∈ effects, kind effect)
    {draft : Draft α} (hdraft : draft.player.RunsOnly kind) :
    Draft.Deepens ends kind (fun depth => applyAll (setting.atDepth depth) effects) draft :=
  Attempt.deepens_forM
    (fun effect heffect _ hstate => h.applyEffect_deepens (heffects effect heffect) 1 hstate) hdraft

omit h in
/-- Taking passives away is the same at every depth, and never runs out of it. -/
theorem removePassive_deepens (id : String) {draft : Draft α}
    (hdraft : draft.player.RunsOnly kind) :
    Draft.Deepens ends kind (fun depth => removePassive (setting.atDepth depth) id) draft := by
  simp only [removePassive_atDepth]
  exact Attempt.deepens_const
    ⟨(removePassive_safe (removes_runsOnly setting kind) id hdraft).1,
      (removePassive_safe (removes_detached setting draft.player) id (.refl _)).2⟩

omit h in
theorem removeOwned_deepens (owner : String) {draft : Draft α}
    (hdraft : draft.player.RunsOnly kind) :
    Draft.Deepens ends kind (fun depth => removeOwned (setting.atDepth depth) owner) draft := by
  simp only [removeOwned_atDepth]
  exact Attempt.deepens_const
    ⟨(removeOwned_safe (removes_runsOnly setting kind) owner hdraft).1,
      (removeOwned_safe (removes_detached setting draft.player) owner (.refl _)).2⟩

theorem addPassive_deepens {passive : Passive α} (hpassive : ∀ effect ∈ passive.script, kind effect)
    (tag : PassiveTag) {draft : Draft α} (hdraft : draft.player.RunsOnly kind) :
    Draft.Deepens ends kind (fun depth => addPassive (setting.atDepth depth) passive tag) draft := by
  refine deepens_current ?_
  split
  · exact Attempt.deepens_fail hdraft fun hout => by cases hout
  · refine deepens_update (h.applyAll_deepens (fun effect heffect => ?_) (hdraft.attach ?_))
    · exact hpassive effect (List.mem_append_left _ heffect)
    · exact fun effect heffect => hpassive effect (List.mem_append_right _ heffect)

theorem syncTier_deepens {entry : String × TierTrack α}
    (hentry : entry ∈ setting.content.catalog.tierTracks) {draft : Draft α}
    (hdraft : draft.player.RunsOnly kind) :
    Draft.Deepens ends kind (fun depth => syncTier (setting.atDepth depth) entry.1 entry.2)
      draft := by
  refine deepens_current ?_
  dsimp only
  split
  · exact Attempt.deepens_pure hdraft
  · refine (removeOwned_deepens _ hdraft).bind fun _ between hbetween => ?_
    cases htier : entry.2.tierFor (draft.player.resources.amount entry.1) with
    | none => exact deepens_update (Attempt.deepens_pure hbetween)
    | some tier =>
      refine deepens_update ?_
      cases hpassive : tier.passive with
      | none => exact Attempt.deepens_pure hbetween
      | some passive =>
        have hmem : tier ∈ entry.2.tiers := List.mem_of_find?_eq_some htier
        have hadds := h.tiers entry hentry tier hmem passive hpassive
        refine Attempt.Deepens.bind_pure (h.addPassive_deepens hadds _ ?_) _
        exact hbetween

theorem syncTiers_deepens {draft : Draft α} (hdraft : draft.player.RunsOnly kind) :
    Draft.Deepens ends kind (fun depth => syncTiers (setting.atDepth depth)) draft := by
  -- The induction takes the list apart; of the tracks it only needs that they are the catalog's.
  have htracks : ∀ tracks : List (String × TierTrack α),
      (∀ entry ∈ tracks, entry ∈ setting.content.catalog.tierTracks) →
      ∀ state : Draft α, state.player.RunsOnly kind →
        Draft.Deepens ends kind (fun depth => syncTracks (setting.atDepth depth) tracks) state := by
    intro tracks
    induction tracks with
    | nil => exact fun _ _ hstate => Attempt.deepens_pure hstate
    | cons entry rest ih =>
      intro hmem state hstate
      refine (h.syncTier_deepens (hmem entry List.mem_cons_self) hstate).bind
        fun _ between hbetween => ?_
      exact (ih (fun other hother => hmem other (List.mem_cons_of_mem _ hother)) between
        hbetween).bind_pure _
  exact htracks _ (fun _ hentry => hentry) draft hdraft

end Setting.Closed

end

end Realm
