import Realm.Proofs.Effect.Removal

/-!
# Applying effects safely

An effect that is applied may add things, and the effects of those are applied in turn. Which ones
they are is a matter of the content alone (`Setting.Brings`), so what is to hold of everything that
an effect sets off is said of a kind of effects that is closed under it.

`Applies` says when such a kind of effects, an invariant of drafts and a kind of error go together:
what the effects do in one step keeps the invariant, and what they need to be carried out is there.
Then whatever is applied is safe, at any depth (`applyWithin_safe`), and so is bringing the tiers up
to date (`syncTier_safe`).
-/

set_option autoImplicit false

namespace Realm

variable {α : Type} [Amount α]

/-! ## What an effect sets off -/

/-- The instruction that an effect gives, if its operation is in force and its parameters can be
    read. -/
def Setting.instruction? (setting : Setting α) (effect : Effect α) : Option (Instruction α) :=
  (setting.operation? effect.family effect.method).bind fun operation =>
    (operation.read effect).toOption

theorem Setting.instruction?_eq_some_iff {setting : Setting α} {effect : Effect α}
    {instruction : Instruction α} : setting.instruction? effect = some instruction ↔
      ∃ operation, setting.operation? effect.family effect.method = some operation ∧
        operation.read effect = .ok instruction := by
  unfold Setting.instruction?
  rw [Option.bind_eq_some_iff]
  refine exists_congr fun operation => and_congr_right fun _ => ?_
  cases operation.read effect <;> simp [Except.toOption]

/-- The passives that come with an addition. -/
def Addition.passives (content : Content α) : Addition α → List (Passive α)
  | .building id => ((content.buildings.find? id).map (·.passives)).getD []
  | .passive definition _ => [content.resolvePassive definition]
  | .development .. => []

/-- The effects that come with an addition. -/
def Addition.effects (content : Content α) : Addition α → List (Effect α)
  | .development id _ => ((content.developments.find? id).map (·.effects)).getD []
  | addition => (addition.passives content).flatMap (·.effects)

/-- What the passives of an addition belong to. -/
def Addition.owner? (content : Content α) : Addition α → Option String
  | .building id => (content.buildings.find? id).map fun building => buildingOwner building.id
  | .passive .. | .development .. => none

/-- Applying the one effect may apply the other. -/
def Setting.Brings (setting : Setting α) (outer inner : Effect α) : Prop :=
  ∃ addition, setting.instruction? outer = some (.addition addition) ∧
    inner ∈ addition.effects setting.content

omit [Amount α] in
theorem Addition.passives_building {content : Content α} {id : String} {building : Building α}
    (h : content.buildings.find? id = some building) :
    (Addition.building id).passives content = building.passives := by
  show ((content.buildings.find? id).map (·.passives)).getD [] = building.passives
  rw [h]
  rfl

omit [Amount α] in
theorem Addition.owner?_building {content : Content α} {id : String} {building : Building α}
    (h : content.buildings.find? id = some building) :
    (Addition.building id).owner? content = some (buildingOwner building.id) := by
  show ((content.buildings.find? id).map fun building => buildingOwner building.id) = _
  rw [h]
  rfl

omit [Amount α] in
theorem Addition.effects_development {content : Content α} {id : String} {land : Option String}
    {development : Development α} (h : content.developments.find? id = some development) :
    (Addition.development id land).effects content = development.effects := by
  show ((content.developments.find? id).map (·.effects)).getD [] = development.effects
  rw [h]
  rfl

omit [Amount α] in
theorem Addition.exists_building {content : Content α} {id : String} {passive : Passive α}
    (h : passive ∈ (Addition.building id).passives content) :
    ∃ building ∈ content.buildings.values, passive ∈ building.passives := by
  cases hfind : content.buildings.find? id with
  | none =>
    unfold Addition.passives at h
    simp [hfind] at h
  | some building =>
    rw [Addition.passives_building hfind] at h
    exact ⟨building, Table.mem_values_iff.2 ⟨id, hfind⟩, h⟩

omit [Amount α] in
theorem Addition.exists_development {content : Content α} {id : String} {land : Option String}
    {effect : Effect α} (h : effect ∈ (Addition.development id land).effects content) :
    ∃ development ∈ content.developments.values, effect ∈ development.effects := by
  cases hfind : content.developments.find? id with
  | none =>
    unfold Addition.effects at h
    simp [hfind] at h
  | some development =>
    rw [Addition.effects_development hfind] at h
    exact ⟨development, Table.mem_values_iff.2 ⟨id, hfind⟩, h⟩

omit [Amount α] in
theorem Addition.mem_effects_of_passive {content : Content α} {addition : Addition α}
    {passive : Passive α} (hpassive : passive ∈ addition.passives content) {effect : Effect α}
    (heffect : effect ∈ passive.effects) : effect ∈ addition.effects content := by
  cases addition with
  | building id => exact List.mem_flatMap.2 ⟨passive, hpassive, heffect⟩
  | passive definition source => exact List.mem_flatMap.2 ⟨passive, hpassive, heffect⟩
  | development id land => cases hpassive

omit [Amount α] in
theorem Content.resolvePassive_cases (content : Content α) (written : Passive α) :
    content.resolvePassive written ∈ content.passives.values ∨
      content.resolvePassive written = written := by
  unfold Content.resolvePassive
  split
  · unfold Table.findD
    cases hfind : content.passives.find? written.id with
    | none => exact .inr rfl
    | some declared => exact .inl (Table.mem_values_iff.2 ⟨_, hfind⟩)
  · exact .inr rfl

/-- An effect that adds a passive says so, and the passive is read off its parameters. -/
theorem Setting.addPassive_of_instruction? {setting : Setting α} {effect : Effect α}
    {definition : Passive α} {source : Option String}
    (h : setting.instruction? effect = some (.addition (.passive definition source))) :
    effect.operation? = some .addPassive ∧
      effect.readParams Passive.ofDocument? = .ok definition := by
  obtain ⟨operation, hoperation, hread⟩ := Setting.instruction?_eq_some_iff.1 h
  have hnamed : effect.operation? = some operation := Option.eq_some_of_filter_eq_some hoperation
  cases operation with
  | addPassive =>
    obtain ⟨value, hvalue, hread⟩ := Outcome.bind_eq_ok.1 hread
    cases hread
    exact ⟨hnamed, hvalue⟩
  | undoing undoing =>
    obtain ⟨read, -, hread⟩ := Outcome.bind_eq_ok.1 hread
    cases read <;> cases hread
  | raiseUpperBound | addLand | tillLand | addBuilding | addDevelopment =>
    obtain ⟨_, -, hread⟩ := Outcome.bind_eq_ok.1 hread
    cases hread

/-! ## Safe additions -/

variable {setting : Setting α}

/-- The tag says when the passive leaves if the definition does, be it with another phase. -/
def ActivePassive.Inherits (active : ActivePassive α) : Prop :=
  active.tag.removeOnPhase = none → active.definition.removeOnPhase = none

omit [Amount α] in
/-- A passive is attached with a tag that has taken over what it leaves open. -/
theorem ActivePassive.inherits_of_or (passive : Passive α) (tag : PassiveTag) :
    ActivePassive.Inherits
      ({ definition := passive
         tag := { tag with removeOnPhase := tag.removeOnPhase.or passive.removeOnPhase } }) :=
  fun hnone => (Option.or_eq_none_iff.1 hnone).2

/-- A passive that can be attached in an owner's name: its effects are good, and having it keeps
    the invariant. -/
structure Passive.Attachable (good : Effect α → Prop) (holds : Draft α → Prop)
    (owner : Option String) (passive : Passive α) : Prop where
  effects : ∀ effect ∈ passive.effects, good effect
  attach : ∀ (tag : PassiveTag) (draft : Draft α), tag.owner = owner →
    ActivePassive.Inherits { definition := passive, tag } →
    draft.player.hasPassive passive.id = false → holds draft →
    holds { draft with player := { draft.player with
      passives := draft.player.passives ++ [{ definition := passive, tag }] } }

/-- What makes applying good effects safe. -/
structure Applies (setting : Setting α) (bad : EffectError α → Prop) (good : Effect α → Prop)
    (holds : Draft α → Prop) : Prop where
  dispatch : ∀ error, bad error → error.isDispatch = true
  depth : ¬ bad .nestedTooDeeply
  known : ∀ effect, good effect → bad (.unknownEffect effect.family effect.method) →
    setting.operation? effect.family effect.method ≠ none
  leaf : ∀ effect leaf, good effect → setting.instruction? effect = some (.leaf leaf) →
    ∀ before after, leaf.Step setting before after → holds before → holds after
  removal : ∀ effect removal, good effect → setting.instruction? effect = some (.removal removal) →
    ∀ draft, holds draft → (removal.apply setting).SafeAt holds bad draft
  passives : ∀ effect addition, good effect →
    setting.instruction? effect = some (.addition addition) →
    ∀ passive ∈ addition.passives setting.content,
      passive.Attachable good holds (addition.owner? setting.content)
  brings : ∀ effect inner, good effect → setting.Brings effect inner → good inner
  own : ∀ draft id, setting.content.buildings.contains id = true →
    draft.player.buildings.contains id = false → holds draft →
    holds { draft with player := { draft.player with buildings := draft.player.buildings.add id } }
  build : ∀ draft id named land, setting.content.developments.contains id = true →
    landWithFreeSlot draft.player named = .ok land → holds draft →
    holds { draft with player := { draft.player with
      lands := Land.updateFirst (fun other => other.id == land.id && decide (0 < other.freeSlots))
        (·.build id) draft.player.lands } }

section

variable {bad : EffectError α → Prop} {good : Effect α → Prop} {holds : Draft α → Prop}

theorem Applies.not_bad (h : Applies setting bad good holds) {error : EffectError α}
    (herror : error.isDispatch = false) : ¬ bad error := by
  intro hbad
  rw [h.dispatch error hbad] at herror
  cases herror

section

variable {applyAll : List (Effect α) → DraftAttempt α Unit}
  (happly : ∀ effects, (∀ effect ∈ effects, good effect) → ∀ draft, holds draft →
    (applyAll effects).SafeAt holds bad draft)
include happly

/-- A passive is attached safely where having it would keep the invariant. -/
theorem addPassiveWith_safe_of_attach (h : Applies setting bad good holds) {passive : Passive α}
    (heffects : ∀ effect ∈ passive.effects, good effect) {tag : PassiveTag} {draft : Draft α}
    (hdraft : holds draft)
    (hattach : draft.player.hasPassive passive.id = false →
      holds { draft with player := { draft.player with
        passives := draft.player.passives ++ [{
          definition := passive
          tag := { tag with removeOnPhase := tag.removeOnPhase.or passive.removeOnPhase } }] } }) :
    (addPassiveWith applyAll passive tag).SafeAt holds bad draft := by
  refine Draft.safeAt_current ?_
  split
  · exact Attempt.safeAt_fail hdraft (h.not_bad rfl)
  · rename_i hactive
    have hnew : draft.player.hasPassive passive.id = false := by simpa using hactive
    refine (Draft.safeAt_update (hattach hnew)).bind fun _ between _ hbetween => ?_
    exact happly passive.effects heffects between hbetween

theorem addPassiveWith_safe (h : Applies setting bad good holds) {passive : Passive α}
    {tag : PassiveTag} (hpassive : passive.Attachable good holds tag.owner) {draft : Draft α}
    (hdraft : holds draft) : (addPassiveWith applyAll passive tag).SafeAt holds bad draft :=
  addPassiveWith_safe_of_attach happly h hpassive.effects hdraft fun hnew =>
    hpassive.attach { tag with removeOnPhase := tag.removeOnPhase.or passive.removeOnPhase } draft
      rfl (ActivePassive.inherits_of_or passive tag) hnew hdraft

theorem addBuildingWith_safe (h : Applies setting bad good holds) {id : String}
    (hpassives : ∀ passive ∈ (Addition.building id).passives setting.content,
      passive.Attachable good holds ((Addition.building id).owner? setting.content))
    {draft : Draft α} (hdraft : holds draft) :
    (addBuildingWith setting applyAll id).SafeAt holds bad draft := by
  refine Attempt.safeAt_ofOption_bind hdraft (fun _ => h.not_bad rfl) fun building hfind => ?_
  refine Draft.safeAt_current ?_
  split
  · exact Attempt.safeAt_pure hdraft
  · rename_i howned
    have hnew : draft.player.buildings.contains id = false := by simpa using howned
    have hown := h.own draft id (Table.contains_of_find? hfind) hnew hdraft
    refine (Draft.safeAt_update hown).bind fun _ between _ hbetween => ?_
    refine Attempt.SafeAt.bind_pure ?_ _
    refine Attempt.safeAt_forM (fun passive hmem state hstate => ?_) hbetween
    rw [Addition.passives_building hfind, Addition.owner?_building hfind] at hpassives
    exact addPassiveWith_safe happly h (hpassives passive hmem) hstate

theorem addDevelopmentWith_safe (h : Applies setting bad good holds) {id : String}
    {land : Option String}
    (heffects : ∀ effect ∈ (Addition.development id land).effects setting.content, good effect)
    {draft : Draft α} (hdraft : holds draft) :
    (addDevelopmentWith setting applyAll id land).SafeAt holds bad draft := by
  refine Attempt.safeAt_ofOption_bind hdraft (fun _ => h.not_bad rfl) fun development hfind => ?_
  refine Draft.safeAt_current (Attempt.safeAt_ofExcept_bind hdraft ?_ fun chosen hland => ?_)
  · intro error herror
    exact h.not_bad (landWithFreeSlot_mild _ _ error herror)
  · have hbuild := h.build draft id land chosen (Table.contains_of_find? hfind) hland hdraft
    refine (Draft.safeAt_update hbuild).bind fun _ between _ hbetween => ?_
    refine Attempt.SafeAt.bind_pure ?_ _
    rw [Addition.effects_development hfind] at heffects
    exact happly development.effects heffects between hbetween

theorem addWith_safe (h : Applies setting bad good holds) {addition : Addition α}
    (hpassives : ∀ passive ∈ addition.passives setting.content,
      passive.Attachable good holds (addition.owner? setting.content))
    (heffects : ∀ effect ∈ addition.effects setting.content, good effect) {draft : Draft α}
    (hdraft : holds draft) : (addWith setting applyAll addition).SafeAt holds bad draft := by
  cases addition with
  | building id =>
    exact (addBuildingWith_safe happly h hpassives hdraft).bind_pure _
  | passive definition source =>
    exact addPassiveWith_safe happly h (hpassives _ (List.mem_singleton.2 rfl)) hdraft
  | development id land =>
    exact (addDevelopmentWith_safe happly h heffects hdraft).bind_pure _

end

/-! ## Safe effects -/

/-- Good effects are safe, by induction on how deep they may nest. -/
theorem applyWithin_safe (h : Applies setting bad good holds) (depth : Nat) {effect : Effect α}
    (heffect : good effect) (multiplier : Nat) {draft : Draft α} (hdraft : holds draft) :
    (applyWithin setting depth effect multiplier).SafeAt holds bad draft := by
  induction depth generalizing effect multiplier draft with
  | zero => exact Attempt.safeAt_fail hdraft h.depth
  | succ depth ih =>
    unfold applyWithin
    cases hoperation : setting.operation? effect.family effect.method with
    | none => exact Attempt.safeAt_fail hdraft fun hbad => h.known effect heffect hbad hoperation
    | some operation =>
      refine Attempt.safeAt_ofExcept_bind hdraft ?_ fun instruction hread => ?_
      · intro error herror
        exact h.not_bad (operation.read_mild effect error herror)
      have hinstruction := Setting.instruction?_eq_some_iff.2 ⟨operation, hoperation, hread⟩
      cases instruction with
      | leaf leaf =>
        refine (leaf.apply_steps _ draft).safeAt (h.leaf effect leaf heffect hinstruction) hdraft ?_
        intro error herror hbad
        exact (leaf.apply_mild setting _ draft).2 error herror (h.dispatch error hbad)
      | removal removal =>
        exact Attempt.safeAt_times (h.removal effect removal heffect hinstruction) _ hdraft
      | addition addition =>
        -- What comes with the addition is applied one level further down.
        refine Attempt.safeAt_times (fun state hstate => ?_) _ hdraft
        have hbrings : ∀ inner ∈ addition.effects setting.content, good inner :=
          fun inner hinner => h.brings effect inner heffect ⟨addition, hinstruction, hinner⟩
        refine addWith_safe (fun effects heffects state hstate => ?_) h
          (h.passives effect addition heffect hinstruction) hbrings hstate
        exact Attempt.safeAt_forM (fun inner hinner _ => ih (heffects inner hinner) 1) hstate

theorem applyEffect_safe (h : Applies setting bad good holds) {effect : Effect α}
    (heffect : good effect) (multiplier : Nat) {draft : Draft α} (hdraft : holds draft) :
    (applyEffect setting effect multiplier).SafeAt holds bad draft :=
  applyWithin_safe h _ heffect multiplier hdraft

theorem applyAll_safe (h : Applies setting bad good holds) {effects : List (Effect α)}
    (heffects : ∀ effect ∈ effects, good effect) {draft : Draft α} (hdraft : holds draft) :
    (applyAll setting effects).SafeAt holds bad draft :=
  Attempt.safeAt_forM (fun effect heffect _ => applyEffect_safe h (heffects effect heffect) 1)
    hdraft

theorem addPassive_safe_of_attach (h : Applies setting bad good holds) {passive : Passive α}
    (heffects : ∀ effect ∈ passive.effects, good effect) {tag : PassiveTag} {draft : Draft α}
    (hdraft : holds draft)
    (hattach : draft.player.hasPassive passive.id = false →
      holds { draft with player := { draft.player with
        passives := draft.player.passives ++ [{
          definition := passive
          tag := { tag with removeOnPhase := tag.removeOnPhase.or passive.removeOnPhase } }] } }) :
    (addPassive setting passive tag).SafeAt holds bad draft :=
  addPassiveWith_safe_of_attach (fun _ heffects _ => applyAll_safe h heffects) h heffects hdraft
    hattach

theorem addPassive_safe (h : Applies setting bad good holds) {passive : Passive α}
    {tag : PassiveTag} (hpassive : passive.Attachable good holds tag.owner) {draft : Draft α}
    (hdraft : holds draft) : (addPassive setting passive tag).SafeAt holds bad draft :=
  addPassiveWith_safe (fun _ heffects _ => applyAll_safe h heffects) h hpassive hdraft

theorem addBuilding_safe (h : Applies setting bad good holds) {id : String}
    (hpassives : ∀ passive ∈ (Addition.building id).passives setting.content,
      passive.Attachable good holds ((Addition.building id).owner? setting.content))
    {draft : Draft α} (hdraft : holds draft) :
    (addBuilding setting id).SafeAt holds bad draft :=
  addBuildingWith_safe (fun _ heffects _ => applyAll_safe h heffects) h hpassives hdraft

theorem addDevelopment_safe (h : Applies setting bad good holds) {id : String}
    {land : Option String}
    (heffects : ∀ effect ∈ (Addition.development id land).effects setting.content, good effect)
    {draft : Draft α} (hdraft : holds draft) :
    (addDevelopment setting id land).SafeAt holds bad draft :=
  addDevelopmentWith_safe (fun _ heffects _ => applyAll_safe h heffects) h heffects hdraft

/-! ## Safe tiers -/

/-- What makes bringing the tiers up to date safe: effects can be applied and things taken away
    safely, the tiers' passives can be attached, and leaving and entering a tier keeps the
    invariant. -/
structure Syncs (setting : Setting α) (bad : EffectError α → Prop) (good : Effect α → Prop)
    (holds : Draft α → Prop) : Prop where
  applies : Applies setting bad good holds
  removes : Removes setting bad holds
  passives : ∀ entry ∈ setting.content.catalog.tierTracks, ∀ tier ∈ entry.2.tiers,
    ∀ passive, tier.passive = some passive →
      passive.Attachable good holds (some (tierOwner entry.1))
  leave : ∀ (draft : Draft α) resource, holds draft →
    holds { draft with player := { draft.player with
      tiers := draft.player.tiers.erase resource } }
  enter : ∀ (draft : Draft α) resource tier, holds draft →
    holds { draft with player := { draft.player with
      tiers := draft.player.tiers.insert resource tier } }

theorem syncTier_safe (h : Syncs setting bad good holds) {entry : String × TierTrack α}
    (hentry : entry ∈ setting.content.catalog.tierTracks) {draft : Draft α}
    (hdraft : holds draft) : (syncTier setting entry.1 entry.2).SafeAt holds bad draft := by
  refine Draft.safeAt_current ?_
  dsimp only
  split
  · exact Attempt.safeAt_pure hdraft
  · refine (removeOwned_safe h.removes _ hdraft).bind fun _ between _ hbetween => ?_
    cases htier : entry.2.tierFor (draft.player.resources.amount entry.1) with
    | none =>
      exact (Draft.safeAt_update (h.leave between _ hbetween)).bind_pure _
    | some tier =>
      refine (Draft.safeAt_update (h.enter between _ _ hbetween)).bind
        fun _ entered _ hentered => ?_
      cases hpassive : tier.passive with
      | none => exact Attempt.safeAt_pure hentered
      | some passive =>
        have hmem : tier ∈ entry.2.tiers := List.mem_of_find?_eq_some htier
        have hattachable := h.passives entry hentry tier hmem passive hpassive
        exact (addPassive_safe h.applies hattachable hentered).bind_pure _

/-- A pass is safe if each of its visits is. -/
theorem syncTiers_safe_of_visits
    (hvisit : ∀ entry ∈ setting.content.catalog.tierTracks, ∀ state, holds state →
      (syncTier setting entry.1 entry.2).SafeAt holds bad state)
    {draft : Draft α} (hdraft : holds draft) : (syncTiers setting).SafeAt holds bad draft := by
  -- The induction takes the list apart; of the tracks it only needs that they are the catalog's.
  have htracks : ∀ tracks : List (String × TierTrack α),
      (∀ entry ∈ tracks, entry ∈ setting.content.catalog.tierTracks) →
      ∀ state, holds state → (syncTracks setting tracks).SafeAt holds bad state := by
    intro tracks
    induction tracks with
    | nil => exact fun _ _ hstate => Attempt.safeAt_pure hstate
    | cons entry rest ih =>
      intro hmem state hstate
      refine (hvisit entry (hmem entry List.mem_cons_self) state hstate).bind
        fun _ between _ hbetween => ?_
      refine (ih (fun other hother => hmem other (List.mem_cons_of_mem _ hother)) between
        hbetween).bind_pure _
  exact htracks _ (fun _ hentry => hentry) draft hdraft

theorem syncTiers_safe (h : Syncs setting bad good holds) {draft : Draft α}
    (hdraft : holds draft) : (syncTiers setting).SafeAt holds bad draft :=
  syncTiers_safe_of_visits (fun _ hentry _ hstate => syncTier_safe h hentry hstate) hdraft

end

end Realm
