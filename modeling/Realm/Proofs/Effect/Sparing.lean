import Mathlib.Logic.Relation
import Realm.Proofs.Effect.Detaching
import Realm.Proofs.Effect.Run
import Realm.Proofs.Effect.Vacating

/-!
# What a removal takes along

Taking a thing away takes back its effects, and an effect that adds a building is taken back by the
removal of that building. Nobody remembers whether the effect had added anything: a building that
was owned already stays as it is when it is added once more, and is gone when that is taken back
(`charter_takes_mill`). So it is the wording of effects that decides what a removal takes along, and
not what they have done.

`Setting.Takes` says what one removal takes along for its wording, and a building is spared by a
removal if neither the building nor a passive of it is taken along, at any remove
(`Setting.Spares`). A building that is spared is there afterwards with all its passives, and one
that the effects of the thing itself name is gone with all of them (`removal_takes_what_is_named`).
-/

set_option autoImplicit false

namespace Realm

variable {α : Type} [Amount α]

/-! ## Wording -/

/-- The removal that takes an effect back, if it is a removal. -/
def Effect.removal? (effect : Effect α) : Option Removal :=
  effect.inverse?.bind fun (undoing, inverse) =>
    match undoing.read inverse with
    | .ok (.inr removal) => some removal
    | _ => none

/-- The effects that a removal may take back. -/
def Removal.effects (content : Content α) (player : Player α) : Removal → List (Effect α)
  | .building id => (player.passives.filter fun active =>
      active.tag.owner == some (buildingOwner id)).flatMap (·.definition.effects)
  | .passive id => (player.passives.filter fun active => active.id == id).flatMap
      (·.definition.effects)
  | .development id _ => ((content.developments.find? id).map (·.effects)).getD []

/-- The one removal may take the other along. -/
def Setting.Takes (setting : Setting α) (player : Player α) (outer inner : Removal) : Prop :=
  ∃ effect ∈ outer.effects setting.content player, effect.removal? = some inner

/-- The removal neither is that of the building or of one of its passives nor takes such a removal
    along. -/
def Setting.Spares (setting : Setting α) (player : Player α) (building : String)
    (removal : Removal) : Prop :=
  ∀ inner, Relation.ReflTransGen (setting.Takes player) removal inner →
    inner ≠ .building building ∧
    ∀ active ∈ player.passives, active.tag.owner = some (buildingOwner building) →
      inner ≠ .passive active.id

theorem Effect.removal?_eq_some_iff {effect : Effect α} {removal : Removal} :
    effect.removal? = some removal ↔ ∃ undoing inverse,
      effect.inverse? = some (undoing, inverse) ∧ undoing.read inverse = .ok (.inr removal) := by
  unfold removal?
  rw [Option.bind_eq_some_iff]
  constructor
  · rintro ⟨⟨undoing, inverse⟩, hinverse, hread⟩
    dsimp only at hread
    split at hread
    · rename_i hinner
      cases hread
      exact ⟨undoing, inverse, hinverse, hinner⟩
    · cases hread
  · rintro ⟨undoing, inverse, hinverse, hread⟩
    refine ⟨(undoing, inverse), hinverse, ?_⟩
    dsimp only
    rw [hread]

/-- An effect that adds a building is taken back by the building's removal. -/
theorem Effect.removal?_of_building {setting : Setting α} {effect : Effect α} {building : String}
    (h : setting.instruction? effect = some (.addition (.building building))) :
    effect.removal? = some (.building building) := by
  obtain ⟨operation, hoperation, hread⟩ := Setting.instruction?_eq_some_iff.1 h
  cases operation with
  | addBuilding =>
    obtain ⟨id, hid, hread⟩ := Outcome.bind_eq_ok.1 hread
    cases hread
    obtain ⟨inverse, hinverse, hparams, -, -⟩ := Effect.inverse?_of_operation? hoperation rfl
    refine Effect.removal?_eq_some_iff.2 ⟨.removeBuilding, inverse, hinverse, ?_⟩
    exact Outcome.bind_eq_ok.2 ⟨building, Effect.readParams_of_ok hparams hid, rfl⟩
  | undoing undoing =>
    obtain ⟨read, -, hread⟩ := Outcome.bind_eq_ok.1 hread
    cases read <;> cases hread
  | raiseUpperBound | addLand | tillLand | addPassive | addDevelopment =>
    obtain ⟨_, -, hread⟩ := Outcome.bind_eq_ok.1 hread
    cases hread

/-! ## Buildings that are spared -/

/-- Some passives are gone, but the building and its passives are there. -/
structure Player.Stays (building : String) (before after : Player α) : Prop where
  passives : after.passives.Sublist before.passives
  owned : after.buildings.contains building = true
  granted : ∀ active ∈ before.passives, active.tag.owner = some (buildingOwner building) →
    active ∈ after.passives

omit [Amount α] in
theorem Player.Stays.congr {building : String} {before after last : Player α}
    (h : before.Stays building after) (hpassives : last.passives = after.passives)
    (hbuildings : last.buildings = after.buildings) : before.Stays building last where
  passives := hpassives ▸ h.passives
  owned := hbuildings ▸ h.owned
  granted := hpassives ▸ h.granted

/-- The attempt leaves the building and its passives in place, however it ends. -/
abbrev Leaves {β : Type} (player : Player α) (building : String) (attempt : DraftAttempt α β)
    (draft : Draft α) : Prop :=
  attempt.SafeAt (fun after => player.Stays building after.player) (fun _ => False) draft

section

variable {setting : Setting α} {player : Player α} {building : String}

/-- The effects are taken back without taking the building or a passive of it along. -/
def Setting.SparesAll (setting : Setting α) (player : Player α) (building : String)
    (effects : List (Effect α)) : Prop :=
  ∀ effect ∈ effects, ∀ removal, effect.removal? = some removal →
    setting.Spares player building removal

theorem Setting.Spares.effects {removal : Removal} (h : setting.Spares player building removal) :
    setting.SparesAll player building (removal.effects setting.content player) :=
  fun effect heffect _ hremoval inner hinner => h inner (.head ⟨effect, heffect, hremoval⟩ hinner)

/-- What is to be spared is spared by the removal itself, and by all it takes along. -/
theorem Setting.spares_of_effects {removal : Removal} (hbuilding : removal ≠ .building building)
    (hpassive : ∀ active ∈ player.passives, active.tag.owner = some (buildingOwner building) →
      removal ≠ .passive active.id)
    (heffects : setting.SparesAll player building (removal.effects setting.content player)) :
    setting.Spares player building removal := by
  intro inner hinner
  rcases hinner.cases_head with rfl | ⟨next, ⟨effect, heffect, hnext⟩, hinner⟩
  · exact ⟨hbuilding, hpassive⟩
  · exact heffects effect heffect next hnext inner hinner

theorem Leaf.leaves (leaf : Leaf α) (multiplier : Nat) {draft : Draft α}
    (hdraft : player.Stays building draft.player) :
    Leaves player building (leaf.apply setting multiplier) draft := by
  refine (Leaf.apply_steps leaf multiplier draft).safeAt (fun before after hstep hbefore => ?_)
    hdraft fun _ _ hbad => hbad
  obtain ⟨resources, lands, skips, landCounter, hplayer⟩ := hstep.player
  rw [hplayer]
  exact hbefore.congr rfl rfl

theorem revertAllWith_leaves {remove : Removal → DraftAttempt α Unit}
    (hremove : ∀ removal, setting.Spares player building removal → ∀ draft : Draft α,
      player.Stays building draft.player → Leaves player building (remove removal) draft)
    {effects : List (Effect α)} (heffects : setting.SparesAll player building effects)
    {draft : Draft α} (hdraft : player.Stays building draft.player) :
    Leaves player building (revertAllWith setting remove effects) draft := by
  refine Attempt.safeAt_forM (fun effect heffect state hstate => ?_) hdraft
  unfold revertWith
  cases hinverse : effect.inverse? with
  | none => exact Attempt.safeAt_pure hstate
  | some inverse =>
    obtain ⟨undoing, inverse⟩ := inverse
    dsimp only
    split
    · refine Attempt.safeAt_ofExcept_bind hstate (fun _ _ hbad => hbad) fun instruction hread => ?_
      cases instruction with
      | inl leaf => exact leaf.leaves _ hstate
      | inr removal =>
        have hspared := heffects effect (List.mem_reverse.1 heffect) removal
          (Effect.removal?_eq_some_iff.2 ⟨undoing, inverse, hinverse, hread⟩)
        exact Attempt.safeAt_times (hremove removal hspared) _ hstate
    · exact Attempt.safeAt_fail hstate fun hbad => hbad

section

variable {revert : List (Effect α) → DraftAttempt α Unit}
  (hrevert : ∀ effects, setting.SparesAll player building effects → ∀ draft : Draft α,
    player.Stays building draft.player → Leaves player building (revert effects) draft)
include hrevert

/-- A passive goes that is none of the building's and whose effects spare it. -/
theorem removePassiveWith_leaves {id : String}
    (hid : ∀ active ∈ player.passives, active.tag.owner = some (buildingOwner building) →
      active.id ≠ id)
    (heffects : ∀ active ∈ player.passives, active.id = id →
      setting.SparesAll player building active.definition.effects)
    {draft : Draft α} (hdraft : player.Stays building draft.player) :
    Leaves player building (removePassiveWith revert id) draft := by
  refine Draft.safeAt_current ?_
  cases hactive : draft.player.passive? id with
  | none => exact Attempt.safeAt_pure hdraft
  | some active =>
    have hmem : active ∈ player.passives :=
      hdraft.passives.subset (List.mem_of_find?_eq_some hactive)
    have hactiveId : active.id = id := by simpa using List.find?_some hactive
    have hstays : player.Stays building (draft.player.withoutPassive id) := by
      refine ⟨List.eraseP_sublist.trans hdraft.passives, hdraft.owned, ?_⟩
      intro other hother howner
      refine (List.mem_eraseP_of_neg ?_).2 (hdraft.granted other hother howner)
      simpa using hid other hother howner
    refine (Draft.safeAt_update hstays).bind fun _ between _ hbetween => ?_
    exact (hrevert _ (heffects active hmem hactiveId) between hbetween).bind_pure _

/-- The passives of another building go, and no other, since each has an id of its own. -/
theorem removeOwnedWith_leaves (hdistinct : player.Distinct) {other : String}
    (hother : setting.Spares player building (.building other)) {draft : Draft α}
    (hdraft : player.Stays building draft.player) :
    Leaves player building (removeOwnedWith revert (buildingOwner other)) draft := by
  refine Draft.safeAt_current (Attempt.SafeAt.bind_pure ?_ _)
  refine Attempt.safeAt_forM (fun id hid state hstate => ?_) hdraft
  obtain ⟨owned, howned, rfl⟩ := List.mem_map.1 hid
  obtain ⟨howned, howner⟩ := List.mem_filter.1 howned
  have hmem : owned ∈ player.passives := hdraft.passives.subset howned
  have howner : owned.tag.owner = some (buildingOwner other) := by simpa using howner
  have hsame : ∀ active ∈ player.passives, active.id = owned.id → active = owned :=
    fun active hactive heq => List.inj_on_of_nodup_map hdistinct hactive hmem heq
  refine (removePassiveWith_leaves hrevert (fun active hactive hbuilding heq => ?_)
    (fun active hactive heq => ?_) hstate).bind_pure _
  · rw [hsame active hactive heq, howner, Option.some.injEq] at hbuilding
    exact (hother _ .refl).1 (congrArg Removal.building (buildingOwner_injective hbuilding))
  · rw [hsame active hactive heq]
    intro effect heffect
    refine hother.effects effect (List.mem_flatMap.2 ⟨owned, List.mem_filter.2 ⟨hmem, ?_⟩, heffect⟩)
    simpa using howner

theorem removeBuildingWith_leaves (hdistinct : player.Distinct) {other : String}
    (hother : setting.Spares player building (.building other)) {draft : Draft α}
    (hdraft : player.Stays building draft.player) :
    Leaves player building (removeBuildingWith revert other) draft := by
  refine Draft.safeAt_current ?_
  split
  · have hne : other ≠ building := by
      rintro rfl
      exact (hother _ .refl).1 rfl
    have hstays : player.Stays building
        { draft.player with buildings := draft.player.buildings.erase other } := by
      refine ⟨hdraft.passives, ?_, hdraft.granted⟩
      simpa [hne] using hdraft.owned
    refine (Draft.safeAt_update hstays).bind fun _ between _ hbetween => ?_
    exact (removeOwnedWith_leaves hrevert hdistinct hother hbetween).bind_pure _
  · exact Attempt.safeAt_pure hdraft

theorem removeDevelopmentWith_leaves {id : String} {land : Option String}
    (hspared : setting.Spares player building (.development id land)) {draft : Draft α}
    (hdraft : player.Stays building draft.player) :
    Leaves player building (removeDevelopmentWith setting revert id land) draft := by
  refine Attempt.safeAt_ofOption_bind hdraft (fun _ hbad => hbad) fun development hfind => ?_
  refine Draft.safeAt_current (Attempt.safeAt_ofExcept_bind hdraft (fun _ _ hbad => hbad)
    fun found _ => ?_)
  cases found with
  | none => exact Attempt.safeAt_pure hdraft
  | some found =>
    have heffects : setting.SparesAll player building
        (((setting.content.developments.find? id).map (·.effects)).getD []) := hspared.effects
    rw [hfind] at heffects
    refine (Draft.safeAt_update ⟨hdraft.passives, hdraft.owned, hdraft.granted⟩).bind
      fun _ between _ hbetween => ?_
    exact (hrevert _ heffects between hbetween).bind_pure _

theorem removeWith_leaves (hdistinct : player.Distinct) {removal : Removal}
    (hspared : setting.Spares player building removal) {draft : Draft α}
    (hdraft : player.Stays building draft.player) :
    Leaves player building (removeWith setting revert removal) draft := by
  cases removal with
  | building id => exact (removeBuildingWith_leaves hrevert hdistinct hspared hdraft).bind_pure _
  | development id land => exact (removeDevelopmentWith_leaves hrevert hspared hdraft).bind_pure _
  | passive id =>
    refine (removePassiveWith_leaves hrevert (fun active hactive howner heq => ?_)
      (fun active hactive heq effect heffect => ?_) hdraft).bind_pure _
    · exact (hspared _ .refl).2 active hactive howner (congrArg Removal.passive heq.symm)
    · refine hspared.effects effect (List.mem_flatMap.2 ⟨active, List.mem_filter.2 ⟨hactive, ?_⟩,
        heffect⟩)
      simpa using heq

end

/-- By induction on the bound: where it is reached, nothing is taken away any more. -/
theorem removeWithin_leaves (hdistinct : player.Distinct) (bound : Nat) {removal : Removal}
    (hspared : setting.Spares player building removal) {draft : Draft α}
    (hdraft : player.Stays building draft.player) :
    Leaves player building (removeWithin setting bound removal) draft := by
  induction bound generalizing removal draft with
  | zero => exact Attempt.safeAt_fail hdraft fun hbad => hbad
  | succ bound ih =>
    refine removeWith_leaves (fun effects heffects state hstate => ?_) hdistinct hspared hdraft
    exact revertAllWith_leaves (fun removal hremoval _ hstate => ih hremoval hstate) heffects hstate

theorem Removal.apply_leaves (hdistinct : player.Distinct) {removal : Removal}
    (hspared : setting.Spares player building removal) {draft : Draft α}
    (hdraft : player.Stays building draft.player) :
    Leaves player building (removal.apply setting) draft := by
  refine removeWith_leaves (fun effects heffects state hstate => ?_) hdistinct hspared hdraft
  refine Draft.safeAt_current ?_
  exact revertAllWith_leaves (fun removal hremoval _ hstate =>
    removeWithin_leaves hdistinct _ hremoval hstate) heffects hstate

end

/-! ## Buildings that are named -/

/-- The building is gone, and its passives with it. -/
structure Player.Lacks (building : String) (player : Player α) : Prop where
  disowned : player.buildings.contains building = false
  ungranted : ∀ active ∈ player.passives, active.tag.owner ≠ some (buildingOwner building)

omit [Amount α] in
theorem Player.Detached.disowned {before after : Player α} (h : before.Detached after)
    {building : String} (hbefore : before.buildings.contains building = false) :
    after.buildings.contains building = false := by
  rw [← Bool.not_eq_true] at hbefore ⊢
  exact fun howned => hbefore (h.buildings building howned)

omit [Amount α] in
/-- What has been owned and is not any more has taken its passives along. -/
theorem Player.Vacated.lacks {before after : Player α} (h : before.Vacated after)
    {building : String} (howned : before.buildings.contains building = true)
    (hdisowned : after.buildings.contains building = false) : after.Lacks building :=
  ⟨hdisowned, h.gone building howned hdisowned⟩

/-- The attempt leaves the player without the building, if it succeeds. -/
abbrev Disowns {β : Type} (building : String) (attempt : DraftAttempt α β) (draft : Draft α) :
    Prop :=
  attempt.Ensures (fun after => after.player.buildings.contains building = false) draft

section

variable {setting : Setting α} {building : String}

/-- Taking away does not bring a building back. -/
theorem revertAll_disowns (effects : List (Effect α)) {draft : Draft α}
    (hdraft : draft.player.buildings.contains building = false) :
    Disowns building (revertAll setting effects) draft :=
  Attempt.ensures_of_after ((revertAll_detaches setting effects draft).disowned hdraft)

theorem removeOwned_disowns (owner : String) {draft : Draft α}
    (hdraft : draft.player.buildings.contains building = false) :
    Disowns building (removeOwned setting owner) draft := by
  have hsafe := removeOwned_safe (removes_detached setting draft.player) owner (.refl draft.player)
  exact hsafe.ensures.mono fun after hafter => hafter.disowned hdraft

theorem removeBuilding_disowns (setting : Setting α) (building : String) (draft : Draft α) :
    Disowns building (removeBuilding setting building) draft := by
  refine Draft.ensures_current ?_
  split
  · refine Draft.ensures_update_bind (Attempt.Ensures.bind_pure ?_ _)
    exact removeOwned_disowns _ (by simp)
  · rename_i hdisowned
    exact Attempt.ensures_pure (by simpa using hdisowned)

theorem revertWith_disowns {effect : Effect α}
    (heffect : effect.removal? = some (.building building)) (draft : Draft α) :
    Disowns building (revertWith setting (Removal.apply setting) effect) draft := by
  obtain ⟨undoing, inverse, hinverse, hread⟩ := Effect.removal?_eq_some_iff.1 heffect
  unfold revertWith
  rw [hinverse]
  dsimp only
  split
  · refine Attempt.ensures_ofExcept_bind fun instruction hinstruction => ?_
    cases hread.symm.trans hinstruction
    -- However often the effect is to be applied, a building goes once.
    have honce := (removeBuilding_disowns setting building draft).bind_pure fun _ => ()
    exact honce.bind_pure fun _ => ()
  · exact Attempt.ensures_fail

/-- It does not matter which of the effects it is, since what is taken back after it brings nothing
    back. -/
theorem revertAll_disowns_of_mem {effects : List (Effect α)} {effect : Effect α}
    (hmem : effect ∈ effects) (heffect : effect.removal? = some (.building building))
    (draft : Draft α) : Disowns building (revertAll setting effects) draft := by
  obtain ⟨before, rest, rfl⟩ := List.append_of_mem hmem
  rw [revertAll_eq, revertAllWith_append, revertAllWith_cons]
  have hrest : Attempt.Ensures (fun _ => True)
      (revertAllWith setting (Removal.apply setting) rest) draft := fun _ _ _ => trivial
  refine (hrest.bind fun _ between _ => revertWith_disowns heffect between).bind
    fun _ between hbetween => ?_
  rw [← revertAll_eq]
  exact revertAll_disowns before hbetween

theorem removePassive_disowns {id : String} {active : ActivePassive α} {draft : Draft α}
    (hactive : draft.player.passive? id = some active) {effect : Effect α}
    (hmem : effect ∈ active.definition.effects)
    (heffect : effect.removal? = some (.building building)) :
    Disowns building (removePassive setting id) draft := by
  refine Draft.ensures_current ?_
  rw [hactive]
  refine Draft.ensures_update_bind (Attempt.Ensures.bind_pure ?_ _)
  exact revertAll_disowns_of_mem hmem heffect _

/-- The call that says that it has taken a development away has taken its effects back. -/
theorem removeDevelopment_disowns {id : String} {named : Option String}
    {development : Development α}
    (hdevelopment : setting.content.developments.find? id = some development) {effect : Effect α}
    (hmem : effect ∈ development.effects)
    (heffect : effect.removal? = some (.building building)) {draft last : Draft α} {land : String}
    (hremove : (removeDevelopment setting id named).run draft = (.ok (some land), last)) :
    last.player.buildings.contains building = false := by
  unfold removeDevelopment removeDevelopmentWith at hremove
  rw [hdevelopment] at hremove
  obtain ⟨_, _, hfound, hremove⟩ := Attempt.run_bind_eq_ok.1 hremove
  cases hfound
  rw [Draft.run_current_bind] at hremove
  obtain ⟨chosen, _, hchosen, hremove⟩ := Attempt.run_bind_eq_ok.1 hremove
  rw [Attempt.run_ofExcept] at hchosen
  cases chosen with
  | none => cases hremove
  | some chosen =>
    obtain ⟨_, razed, hraze, hremove⟩ := Attempt.run_bind_eq_ok.1 hremove
    have hreverted : Disowns building (revertAll setting development.effects) razed :=
      revertAll_disowns_of_mem hmem heffect razed
    exact hreverted.bind_pure (fun _ => some chosen.id) _ _ hremove

end

/-- **A removal takes what is named.** Let a player own a building, and no two passives have the
    same id. A removal that names neither the building nor one of its passives, in whatever it takes
    back, leaves the building and its passives in place, however the removal ends. But whenever a
    passive or a development is taken away one of whose own effects adds the building, the building
    is gone with its passives, whether or not that effect had brought it. -/
theorem removal_takes_what_is_named (setting : Setting α) {draft : Draft α}
    (hdistinct : draft.player.Distinct) {building : String}
    (howned : draft.player.buildings.contains building = true) :
    (∀ removal, setting.Spares draft.player building removal →
      draft.player.Stays building ((removal.apply setting).after draft).player) ∧
    (∀ id active last, draft.player.passive? id = some active →
      (∃ effect ∈ active.definition.effects,
        setting.instruction? effect = some (.addition (.building building))) →
      (removePassive setting id).run draft = (.ok true, last) → last.player.Lacks building) ∧
    (∀ id named land development last,
      setting.content.developments.find? id = some development →
      (∃ effect ∈ development.effects,
        setting.instruction? effect = some (.addition (.building building))) →
      (removeDevelopment setting id named).run draft = (.ok (some land), last) →
      last.player.Lacks building) := by
  refine ⟨fun removal hspared => ?_, fun id active last hactive heffect hremove => ?_,
    fun id named land development last hdevelopment heffect hremove => ?_⟩
  · have hstays : draft.player.Stays building draft.player :=
      ⟨.refl _, howned, fun active hactive _ => hactive⟩
    exact (removal.apply_leaves hdistinct hspared hstays).1
  · obtain ⟨effect, hmem, heffect⟩ := heffect
    have hdisowned : Disowns building (removePassive setting id) draft :=
      removePassive_disowns hactive hmem (Effect.removal?_of_building heffect)
    exact (removePassive_vacates id hdistinct _ _ hremove).lacks howned (hdisowned _ _ hremove)
  · obtain ⟨effect, hmem, heffect⟩ := heffect
    have hvacated := removeDevelopmentWith_vacates revertAll_vacates id named hdistinct _ _ hremove
    exact hvacated.lacks howned (removeDevelopment_disowns hdevelopment hmem
      (Effect.removal?_of_building heffect) hremove)

/-! ## A mill

A charter adds a mill, and a weir does. On a holiday the upkeep is skipped. -/

namespace Sample

def addMill : Effect Binary64 :=
  { family := "building", method := "add", params := .record [("id", .text "mill")] }

def charter : Passive Binary64 := { id := "charter", effects := [addMill] }

def holiday : Passive Binary64 :=
  { id := "holiday"
    effects := [{ family := "phase_skip", method := "add"
                  params := .record [("phaseId", .text "upkeep"), ("source", .text "holiday")] }] }

def milling : Setting Binary64 :=
  { content := {
      catalog := .empty
      buildings := Table.empty.insert "mill"
        { id := "mill", name := "Mill", passives := [{ id := "grind" }] }
      developments := Table.empty.insert "weir"
        { id := "weir", name := "Weir", effects := [addMill] } } }

/-- Someone who has the mill, and then a weir, the charter and a holiday. -/
def miller : Draft Binary64 :=
  .afterAll milling "A" "Player A"
    [.addBuilding "mill", .apply { family := "land", method := "add", params := .record [] } 1,
      .addDevelopment "weir" none, .addPassive charter {}, .addPassive holiday {}]

end Sample

theorem removal_takes_what_is_named_miller :
    Sample.miller.player.Distinct ∧ Sample.miller.player.buildings.contains "mill" = true ∧
    Sample.miller.player.Stays "mill"
      (((Removal.passive "holiday").apply Sample.milling).after Sample.miller).player ∧
    (∃ last, (removePassive Sample.milling "charter").run Sample.miller = (.ok true, last) ∧
      last.player.Lacks "mill") ∧
    ∃ last, (removeDevelopment Sample.milling "weir" none).run Sample.miller
        = (.ok (some "A-L1"), last) ∧ last.player.Lacks "mill" := by
  have hdistinct : Sample.miller.player.Distinct := by
    unfold Player.Distinct
    decide +kernel
  have howned : Sample.miller.player.buildings.contains "mill" = true := by decide +kernel
  have hspared : Sample.milling.Spares Sample.miller.player "mill" (.passive "holiday") := by
    have hforeign : ∀ active ∈ Sample.miller.player.passives,
        active.tag.owner = some (buildingOwner "mill") → "holiday" ≠ active.id := by
      decide +kernel
    have hplain : ((Removal.passive "holiday").effects Sample.milling.content
        Sample.miller.player).all (fun effect => effect.removal?.isNone) = true := by
      decide +kernel
    refine Setting.spares_of_effects (nofun : Removal.passive "holiday" ≠ .building "mill")
      (fun active hactive howner heq => ?_) fun effect heffect removal hremoval => ?_
    · exact hforeign active hactive howner (Removal.passive.inj heq)
    · have hnone := List.all_eq_true.1 hplain effect heffect
      rw [hremoval] at hnone
      cases hnone
  obtain ⟨hspares, hpassive, hdevelopment⟩ :=
    removal_takes_what_is_named Sample.milling hdistinct howned
  obtain ⟨active, hactive, hdefinition⟩ : ∃ active,
      Sample.miller.player.passive? "charter" = some active ∧
        active.definition = Sample.charter := ⟨_, rfl, rfl⟩
  have hadds : Sample.milling.instruction? Sample.addMill
      = some (.addition (.building "mill")) := rfl
  obtain ⟨freed, hfreed⟩ : ∃ last,
      (removePassive Sample.milling "charter").run Sample.miller = (.ok true, last) :=
    ⟨_, Attempt.run_eq_of_outcome (by decide +kernel)⟩
  obtain ⟨razed, hrazed⟩ : ∃ last,
      (removeDevelopment Sample.milling "weir" none).run Sample.miller
        = (.ok (some "A-L1"), last) :=
    ⟨_, Attempt.run_eq_of_outcome (by decide +kernel)⟩
  refine ⟨hdistinct, howned, hspares _ hspared, ⟨freed, hfreed, ?_⟩, razed, hrazed, ?_⟩
  · refine hpassive "charter" active freed hactive ⟨Sample.addMill, ?_, hadds⟩ hfreed
    rw [hdefinition]
    exact List.mem_singleton_self _
  · exact hdevelopment "weir" none "A-L1" _ razed rfl
      ⟨Sample.addMill, List.mem_singleton_self _, hadds⟩ hrazed

/-- A charter that adds a mill which is there already takes the mill along when it goes. -/
theorem charter_takes_mill :
    ∃ owned attached last,
      (addBuilding Sample.milling "mill").run
        { player := .initial Sample.milling.content.catalog "A" "Player A" } = (.ok true, owned) ∧
      (owned.player.buildings.contains "mill" = true ∧ owned.player.hasPassive "grind" = true ∧
        owned.player.hasPassive "charter" = false) ∧
      (∃ effect ∈ Sample.charter.effects,
        Sample.milling.instruction? effect = some (.addition (.building "mill"))) ∧
      (addPassive Sample.milling Sample.charter {}).run owned = (.ok (), attached) ∧
      (removePassive Sample.milling "charter").run attached = (.ok true, last) ∧
      last.player.buildings.contains "mill" = false ∧ last.player.hasPassive "grind" = false := by
  exact ⟨_, _, _, Attempt.run_eq_of_outcome (by decide +kernel), by decide +kernel,
    ⟨Sample.addMill, List.mem_singleton_self _, rfl⟩,
    Attempt.run_eq_of_outcome (by decide +kernel), Attempt.run_eq_of_outcome (by decide +kernel),
    by decide +kernel⟩

end Realm
