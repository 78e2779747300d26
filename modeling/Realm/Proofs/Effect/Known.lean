import Realm.Proofs.Content
import Realm.Proofs.Effect.Application

/-!
# Effects that are known

Applying effects brings up further ones: those of buildings, developments and passives that content
declares, those of passives that stand in the parameters of an effect, and the inverses of effects
that are taken back. Only the first are written in a record. `Effect.Occurs` says which effects can
come up from those that are written, and `Setting.Knows` that the operations in force are enough for
all of them and their inverses.

Then nothing that is applied or taken back ends in an unknown effect (`syncs_known`): the invariant
is that the player's passives have none but occurring effects (`Player.Carries`).
-/

set_option autoImplicit false

namespace Realm

variable {α : Type}

/-- Whether an error says that something is not known. -/
def EffectError.isUnknown : EffectError α → Bool
  | .unknownEffect .. | .unknownRequirement .. => true
  | _ => false

theorem EffectError.isDispatch_of_isUnknown {error : EffectError α} (h : error.isUnknown = true) :
    error.isDispatch = true := by
  cases error <;> first | rfl | cases h

theorem Outcome.Mild.isUnknown {β : Type} {outcome : Except (EffectError α) β} (h : Mild outcome)
    (error : EffectError α) (herror : outcome = .error error) : ¬ error.isUnknown = true := by
  intro hunknown
  have hdispatch := EffectError.isDispatch_of_isUnknown hunknown
  rw [h error herror] at hdispatch
  cases hdispatch

variable [Amount α]

/-- The effect can come up when what is written is applied: it is written itself, or belongs to a
    passive in the parameters of an effect that can come up. -/
inductive Effect.Occurs (written : List (Effect α)) : Effect α → Prop
  | written (effect : Effect α) (h : effect ∈ written) : Occurs written effect
  | inline (outer inner : Effect α) (passive : Passive α) (houter : Occurs written outer)
      (hoperation : outer.operation? = some .addPassive)
      (hread : outer.readParams Passive.ofDocument? = .ok passive)
      (hinner : inner ∈ passive.script) : Occurs written inner

/-- The operations in force are enough for whatever can come up, the content's effects included, and
    for taking it back. -/
structure Setting.Knows (setting : Setting α) (written : List (Effect α)) : Prop where
  content : ∀ effect ∈ setting.content.script, effect ∈ written
  inForce : ∀ effect, Effect.Occurs written effect → effect.InForce setting.operations
  undo : ∀ operation ∈ setting.operations, ∀ undoing, operation.undo = some undoing →
    .undoing undoing ∈ setting.operations

/-- The player's passives apply and run none but occurring effects. -/
def Player.Carries (written : List (Effect α)) (player : Player α) : Prop :=
  ∀ active ∈ player.passives, ∀ effect ∈ active.definition.script, Effect.Occurs written effect

variable {setting : Setting α} {written : List (Effect α)}

theorem Player.Carries.detached {before after : Player α} (h : before.Carries written)
    (hdetached : before.Detached after) : after.Carries written :=
  fun active hactive => h active (hdetached.passives.subset hactive)

theorem attachable_of_occurs {passive : Passive α} {owner : Option String}
    (h : ∀ effect ∈ passive.script, Effect.Occurs written effect) :
    passive.Attachable (Effect.Occurs written) (fun draft => draft.player.Carries written) owner
    where
  effects := fun effect heffect => h effect (List.mem_append_left _ heffect)
  attach := by
    intro tag draft _ _ _ hdraft active hactive
    rcases List.mem_append.1 hactive with hold | hnew
    · exact hdraft active hold
    · rw [List.mem_singleton.1 hnew]
      exact h

namespace Setting.Knows

variable (h : setting.Knows written)
include h

theorem occurs {effect : Effect α} (heffect : effect ∈ setting.content.script) :
    Effect.Occurs written effect :=
  .written effect (h.content effect heffect)

theorem operation?_ne_none {effect : Effect α} (heffect : Effect.Occurs written effect) :
    setting.operation? effect.family effect.method ≠ none :=
  Option.isSome_iff_ne_none.1 (Effect.inForce_iff.1 (h.inForce effect heffect))

theorem revertible {effect : Effect α} (heffect : Effect.Occurs written effect)
    (bad : EffectError α → Prop) : effect.Revertible setting bad := by
  intro undoing inverse hinverse _
  obtain ⟨operation, hmem, hoperation⟩ := h.inForce effect heffect
  obtain ⟨other, hother, hrest⟩ := Option.bind_eq_some_iff.1 hinverse
  cases hoperation.symm.trans hother
  obtain ⟨back, hback, hpair⟩ := Option.bind_eq_some_iff.1 hrest
  cases hpair
  exact List.contains_iff_mem.2 (h.undo operation hmem _ hback)

theorem occurs_of_building {id : String} {passive : Passive α}
    (hpassive : passive ∈ (Addition.building id).passives setting.content) {effect : Effect α}
    (heffect : effect ∈ passive.script) : Effect.Occurs written effect := by
  obtain ⟨building, hbuilding, hpassive⟩ := Addition.exists_building hpassive
  exact h.occurs (Content.mem_script.2 (.inl ⟨building, hbuilding, passive, hpassive, heffect⟩))

theorem attachable_building {id : String} {passive : Passive α} {owner : Option String}
    (hpassive : passive ∈ (Addition.building id).passives setting.content) :
    passive.Attachable (Effect.Occurs written) (fun draft => draft.player.Carries written) owner :=
  attachable_of_occurs fun _ => h.occurs_of_building hpassive

theorem occurs_of_addition {effect : Effect α} (heffect : Effect.Occurs written effect)
    {addition : Addition α} (haddition : setting.instruction? effect = some (.addition addition))
    {passive : Passive α} (hpassive : passive ∈ addition.passives setting.content)
    {inner : Effect α} (hinner : inner ∈ passive.script) : Effect.Occurs written inner := by
  cases addition with
  | building id => exact h.occurs_of_building hpassive hinner
  | passive definition source =>
    cases List.mem_singleton.1 hpassive
    rcases setting.content.resolvePassive_cases definition with hdeclared | hwritten
    · exact h.occurs (Content.mem_script.2 (.inr (.inr (.inl ⟨_, hdeclared, hinner⟩))))
    · rw [hwritten] at hinner
      obtain ⟨hoperation, hread⟩ := Setting.addPassive_of_instruction? haddition
      exact .inline effect inner definition heffect hoperation hread hinner
  | development id land => cases hpassive

theorem occurs_of_brings {outer inner : Effect α} (houter : Effect.Occurs written outer)
    (hbrings : setting.Brings outer inner) : Effect.Occurs written inner := by
  obtain ⟨addition, haddition, hinner⟩ := hbrings
  have hpassives : ∀ passive ∈ addition.passives setting.content, inner ∈ passive.effects →
      Effect.Occurs written inner := fun passive hpassive heffect =>
    h.occurs_of_addition houter haddition hpassive (List.mem_append_left _ heffect)
  cases addition with
  | building id =>
    obtain ⟨passive, hpassive, heffect⟩ := List.mem_flatMap.1 hinner
    exact hpassives passive hpassive heffect
  | passive definition source =>
    obtain ⟨passive, hpassive, heffect⟩ := List.mem_flatMap.1 hinner
    exact hpassives passive hpassive heffect
  | development id land =>
    exact h.occurs (Content.mem_script.2 (.inr (.inl (Addition.exists_development hinner))))

theorem removes : Removes setting (fun error => error.isUnknown = true)
    fun draft => draft.player.Carries written where
  dispatch := fun _ => EffectError.isDispatch_of_isUnknown
  keeps := fun _ _ hstep hbefore => hbefore.detached hstep.detached
  passive := fun _ hdraft active hactive effect heffect =>
    h.revertible (hdraft active hactive effect (List.mem_append_left _ heffect)) _
  development := fun id development hfind _ heffect =>
    h.revertible (h.occurs (Content.mem_script.2
      (.inr (.inl ⟨development, Table.mem_values_iff.2 ⟨id, hfind⟩, heffect⟩)))) _

theorem applies : Applies setting (fun error => error.isUnknown = true) (Effect.Occurs written)
    fun draft => draft.player.Carries written where
  dispatch := fun _ => EffectError.isDispatch_of_isUnknown
  depth := Bool.false_ne_true
  known := fun effect heffect _ => h.operation?_ne_none heffect
  leaf := by
    intro effect leaf _ _ before after hstep hbefore
    obtain ⟨resources, lands, skips, landCounter, hplayer⟩ := hstep.player
    rw [hplayer]
    exact hbefore
  removal := fun _ removal _ _ draft hdraft => removal.apply_safe h.removes hdraft
  passives := fun effect addition heffect haddition passive hpassive =>
    attachable_of_occurs fun inner hinner =>
      h.occurs_of_addition heffect haddition hpassive hinner
  brings := fun _ _ heffect hbrings => h.occurs_of_brings heffect hbrings
  own := fun _ _ _ _ hdraft => hdraft
  build := fun _ _ _ _ _ _ hdraft => hdraft

/-- With known effects, whatever is applied, taken back or brought up to date meets no unknown
    effect. -/
theorem syncs : Syncs setting (fun error => error.isUnknown = true) (Effect.Occurs written)
    fun draft => draft.player.Carries written where
  applies := h.applies
  removes := h.removes
  passives := by
    intro entry hentry tier htier passive hpassive
    refine attachable_of_occurs fun effect heffect => h.occurs (Content.mem_script.2 ?_)
    refine .inr (.inr (.inr (.inl ⟨entry, hentry, tier, htier, ?_⟩)))
    unfold Tier.script
    rw [hpassive]
    exact heffect
  leave := fun _ _ hdraft => hdraft
  enter := fun _ _ _ hdraft => hdraft

end Setting.Knows

end Realm
