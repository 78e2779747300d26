import Realm.Content.Loading
import Realm.Proofs.Table

/-!
# What loading and checking content covers

A document is indexed if no two records of a kind have the same id, and the records are then found
under their ids (`decides_indexRecords`).

`Content.check` goes through the records once. It passes exactly if every effect that the records
write calls for an operation in force, every requirement can be read, and every cost of an action is
of a resource there is (`Content.check_eq_ok_iff`).

Effects may also stand inside the parameters of effects that add a passive, and nothing in the check
looks there: to the records those parameters are a document that nobody has read.
-/

set_option autoImplicit false

namespace Realm

variable {α : Type}

/-! ## Effects that are written -/

/-- The effect calls for one of the operations. -/
def Effect.InForce (operations : List Operation) (effect : Effect α) : Prop :=
  ∃ operation ∈ operations, effect.operation? = some operation

/-- The effects that a passive applies and runs. -/
def Passive.script (passive : Passive α) : List (Effect α) :=
  passive.effects ++ passive.onPhase.values.flatten

/-- The effects that come with a tier. -/
def Tier.script (tier : Tier α) : List (Effect α) :=
  (tier.passive.map Passive.script).getD []

/-- The effects that the records of the content write. -/
def Content.script (content : Content α) : List (Effect α) :=
  (content.buildings.values.flatMap fun building => building.passives.flatMap Passive.script)
    ++ (content.developments.values.flatMap (·.effects)
    ++ (content.passives.values.flatMap Passive.script
    ++ ((content.catalog.tierTracks.flatMap fun entry => entry.2.tiers.flatMap Tier.script)
    ++ content.actions.values.flatMap (·.effects))))

theorem Content.mem_script {content : Content α} {effect : Effect α} :
    effect ∈ content.script ↔
      (∃ building ∈ content.buildings.values, ∃ passive ∈ building.passives,
        effect ∈ passive.script) ∨
      (∃ development ∈ content.developments.values, effect ∈ development.effects) ∨
      (∃ passive ∈ content.passives.values, effect ∈ passive.script) ∨
      (∃ entry ∈ content.catalog.tierTracks, ∃ tier ∈ entry.2.tiers, effect ∈ tier.script) ∨
      ∃ action ∈ content.actions.values, effect ∈ action.effects := by
  unfold script
  simp only [List.mem_append, List.mem_flatMap]

theorem Effect.inForce_iff {setting : Setting α} {effect : Effect α} :
    effect.InForce setting.operations ↔
      (setting.operation? effect.family effect.method).isSome = true := by
  unfold Setting.operation? Effect.InForce Effect.operation?
  cases Operation.named? effect.family effect.method with
  | none => simp
  | some operation => simp [Option.filter]

/-! ## Records under their ids -/

theorem decides_indexRecords {β : Type} (kind : RecordKind) (id : β → String) (records : List β) :
    Outcome.Decides (records.map id).Nodup (Table.Lists · id records)
      (indexRecords kind id records : Except (ContentError α) (Table β)) :=
  Table.decides_index id (fun record => ContentError.duplicate kind (id record)) records

namespace Content

variable [Amount α] {setting : Setting α}

omit [Amount α] in
/-- Every building of a document is there, under its id. -/
theorem lists_buildings {file : ContentFile α} {content : Content α}
    (h : ofFile file = .ok content) : content.buildings.Lists (·.id) file.buildings := by
  obtain ⟨catalog, -, h⟩ := Outcome.bind_eq_ok.1 h
  obtain ⟨buildings, hbuildings, h⟩ := Outcome.bind_eq_ok.1 h
  obtain ⟨developments, -, h⟩ := Outcome.bind_eq_ok.1 h
  obtain ⟨actions, -, h⟩ := Outcome.bind_eq_ok.1 h
  obtain ⟨passives, -, h⟩ := Outcome.bind_eq_ok.1 h
  cases h
  exact (decides_indexRecords .building _ _).value buildings hbuildings

/-! ## What the checks accept -/

omit [Amount α] in
theorem checkEffects_eq_ok_iff {owner : String} {effects : List (Effect α)} :
    checkEffects setting owner effects = .ok () ↔
      ∀ effect ∈ effects, effect.InForce setting.operations := by
  unfold checkEffects
  rw [Outcome.forM_eq_ok]
  refine forall₂_congr fun effect _ => ?_
  rw [Effect.inForce_iff]
  unfold checkEffect
  split
  · rename_i hknown
    exact iff_of_true rfl hknown
  · rename_i hunknown
    exact iff_of_false (fun h => by cases h) hunknown

omit [Amount α] in
theorem checkPassive_eq_ok_iff {owner : String} {passive : Passive α} :
    checkPassive setting owner passive = .ok () ↔
      ∀ effect ∈ passive.script, effect.InForce setting.operations := by
  unfold checkPassive Passive.script
  rw [Outcome.then_eq_ok, Outcome.forM_eq_ok, checkEffects_eq_ok_iff, List.forall_mem_append,
    List.forall_mem_flatten]
  exact and_congr_right fun _ => forall₂_congr fun effects _ => checkEffects_eq_ok_iff

omit [Amount α] in
theorem checkTrack_eq_ok_iff {entry : String × TierTrack α} :
    checkTrack setting entry = .ok () ↔
      ∀ effect ∈ entry.2.tiers.flatMap Tier.script, effect.InForce setting.operations := by
  unfold checkTrack
  rw [Outcome.forM_eq_ok, List.forall_mem_flatMap]
  refine forall₂_congr fun tier _ => ?_
  unfold Tier.script
  cases tier.passive with
  | none => exact iff_of_true rfl fun effect heffect => by cases heffect
  | some passive => exact checkPassive_eq_ok_iff

theorem checkRequirement_eq_ok_iff {owner : String} {requirement : Requirement α} :
    checkRequirement owner requirement = .ok () ↔
      ∃ comparison, requirement.read = .ok comparison := by
  unfold checkRequirement
  cases requirement.read with
  | error error => exact iff_of_false (fun h => by cases h) fun ⟨_, h⟩ => by cases h
  | ok comparison => exact iff_of_true rfl ⟨comparison, rfl⟩

theorem checkAction_eq_ok_iff {action : Action α} :
    checkAction setting action = .ok () ↔
      (∀ effect ∈ action.effects, effect.InForce setting.operations) ∧
      (∀ requirement ∈ action.requirements, ∃ comparison, requirement.read = .ok comparison) ∧
      ∀ resource ∈ action.costs.keys, setting.content.catalog.contains resource = true := by
  unfold checkAction
  rw [Outcome.then_eq_ok, Outcome.then_eq_ok, checkEffects_eq_ok_iff, Outcome.forM_eq_ok]
  refine and_congr_right fun _ => and_congr ?_ ?_
  · exact forall₂_congr fun requirement _ => checkRequirement_eq_ok_iff
  · split
    · rename_i resource hfind
      refine iff_of_false (fun h => by cases h) fun hknown => ?_
      have hunknown := List.find?_some hfind
      rw [hknown resource (List.mem_of_find?_eq_some hfind)] at hunknown
      cases hunknown
    · rename_i hnone
      refine iff_of_true rfl fun resource hresource => ?_
      simpa using List.find?_eq_none.1 hnone resource hresource

theorem check_eq_ok_iff : check setting = .ok () ↔
    (∀ effect ∈ setting.content.script, effect.InForce setting.operations) ∧
    ∀ action ∈ setting.content.actions.values,
      (∀ requirement ∈ action.requirements, ∃ comparison, requirement.read = .ok comparison) ∧
      ∀ resource ∈ action.costs.keys, setting.content.catalog.contains resource = true := by
  unfold check script
  simp only [Outcome.then_eq_ok, Outcome.forM_eq_ok, List.forall_mem_append,
    List.forall_mem_flatMap, checkPassive_eq_ok_iff, checkEffects_eq_ok_iff, checkTrack_eq_ok_iff,
    checkAction_eq_ok_iff, forall_and, and_assoc]

end Content

end Realm
