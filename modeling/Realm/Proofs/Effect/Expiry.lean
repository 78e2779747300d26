import Realm.Proofs.Effect.Run
import Realm.Proofs.Effect.Vacating
import Realm.Session.Turn

/-!
# What a phase takes away when it begins

A passive may be bound to a phase, by its tag or by its definition, and then it leaves when its
owner enters the phase. The ids of the passives that are due are collected first, and each is
detached as if somebody had asked for it, which takes their effects back and may detach others, due
or not. So none that is due is left (`expire_clears`): one that was collected is gone, whoever
detached it, and what is taken back attaches nothing. This needs that ids are different, since
passives are detached by id, and that the tags of active passives say what their definitions do
(`Player.Inherits`), since it is the tags that are asked.

Whoever is left runs what it has to run in the phase. These effects are those of the passives that
are left, in the order of their attachment (`triggersFor_eq`), and they are settled before the first
of them is applied.
-/

set_option autoImplicit false

namespace Realm

variable {α : Type}

/-! ## Being bound to a phase -/

namespace ActivePassive

/-- The phase at whose beginning an active passive leaves: the one in its tag or, failing that, the
    one in its definition. -/
def leavesOn (active : ActivePassive α) : Option String :=
  active.tag.removeOnPhase.or active.definition.removeOnPhase

/-- What an active passive runs in a phase. -/
def runsOn (active : ActivePassive α) (phase : String) : List (Effect α) :=
  active.definition.onPhase.findD phase []

theorem Inherits.leavesOn_eq {active : ActivePassive α} (h : active.Inherits) :
    active.leavesOn = active.tag.removeOnPhase := by
  unfold leavesOn
  cases htag : active.tag.removeOnPhase with
  | none => rw [h htag, Option.or_none]
  | some phase => rfl

end ActivePassive

namespace Player

/-- The tags of the player's passives say what their definitions do. -/
def Inherits (player : Player α) : Prop := ∀ active ∈ player.passives, active.Inherits

theorem Inherits.fewer {before after : Player α} (h : before.Inherits)
    (hfewer : after.passives.Sublist before.passives) : after.Inherits :=
  fun active hactive => h active (hfewer.subset hactive)

theorem mem_expiringOn {player : Player α} {phase : String} {active : ActivePassive α}
    (hactive : active ∈ player.passives) (htag : active.tag.removeOnPhase = some phase) :
    active.id ∈ player.expiringOn phase :=
  List.mem_map.2 ⟨active, List.mem_filter.2 ⟨hactive, by simpa using htag⟩, rfl⟩

/-- What a player's passives run in a phase are the lists of those that have something to run. -/
theorem triggersFor_eq (player : Player α) (phase : String) :
    player.triggersFor phase
      = (player.passives.filter fun active => !(active.runsOn phase).isEmpty).map
          fun active => (active.id, active.runsOn phase) := by
  unfold triggersFor
  rw [← List.filterMap_eq_map, List.filterMap_filter]
  refine List.filterMap_congr fun active _ => ?_
  cases hfind : active.definition.onPhase.find? phase with
  | none => simp [ActivePassive.runsOn, Table.findD, hfind]
  | some effects =>
    cases effects with
    | nil => simp [ActivePassive.runsOn, Table.findD, hfind]
    | cons effect rest => simp [ActivePassive.runsOn, Table.findD, hfind]

/-- What is left of a player's passives when those bound to a phase have left: none of them is bound
    to it, and they stand in the order in which they stood. -/
structure Cleared (phase : String) (before after : Player α) : Prop where
  fewer : after.passives.Sublist before.passives
  unbound : ∀ active ∈ after.passives, active.leavesOn ≠ some phase

/-- The effects that a player's passives run in a phase: the lists of those that have something to
    run, each once, in the order in which the passives were attached. -/
structure Triggers (phase : String) (player : Player α)
    (triggers : List (String × List (Effect α))) : Prop where
  lists : triggers = (player.passives.filter fun active => !(active.runsOn phase).isEmpty).map
    fun active => (active.id, active.runsOn phase)
  once : (triggers.map (·.1)).Nodup

theorem Distinct.triggersFor {player : Player α} (h : player.Distinct) (phase : String) :
    player.Triggers phase (player.triggersFor phase) where
  lists := player.triggersFor_eq phase
  once := by
    rw [triggersFor_eq, List.map_map]
    exact h.sublist (List.filter_sublist.map _)

end Player

/-! ## The tags of active passives -/

variable [Amount α]

omit [Amount α] in
theorem attachable_of_inherits (owner : Option String) (passive : Passive α) :
    passive.Attachable (fun _ => True) (fun draft : Draft α => draft.player.Inherits) owner where
  effects := fun _ _ => trivial
  attach := by
    intro tag draft _ hinherits _ hdraft active hactive
    rcases List.mem_append.1 hactive with hold | hnew
    · exact hdraft active hold
    · rw [List.mem_singleton.1 hnew]
      exact hinherits

theorem removes_inherits (setting : Setting α) :
    Removes setting (fun _ => False) fun draft => draft.player.Inherits where
  dispatch := fun _ hbad => hbad.elim
  keeps := fun _ _ hstep hbefore => hbefore.fewer hstep.detached.passives
  passive := fun _ _ _ _ _ _ _ _ _ hbad => hbad.elim
  development := fun _ _ _ _ _ _ _ _ hbad => hbad.elim

/-- Whatever attaches a passive completes its tag, so the interpreter keeps the tags in order. -/
theorem syncs_inherits (setting : Setting α) :
    Syncs setting (fun _ => False) (fun _ => True) fun draft => draft.player.Inherits where
  applies := {
    dispatch := fun _ hbad => hbad.elim
    depth := fun hbad => hbad
    known := fun _ _ hbad => hbad.elim
    leaf := by
      intro effect leaf _ _ before after hstep hbefore
      obtain ⟨resources, lands, skips, landCounter, hplayer⟩ := hstep.player
      rw [hplayer]
      exact hbefore
    removal := fun _ removal _ _ _ hdraft => removal.apply_safe (removes_inherits setting) hdraft
    passives := fun _ _ _ _ passive _ => attachable_of_inherits _ passive
    brings := fun _ _ _ _ => trivial
    own := fun _ _ _ _ hdraft => hdraft
    build := fun _ _ _ _ _ _ hdraft => hdraft }
  removes := removes_inherits setting
  passives := fun _ _ _ _ passive _ => attachable_of_inherits _ passive
  leave := fun _ _ hdraft => hdraft
  enter := fun _ _ _ hdraft => hdraft

/-! ## The beginning of a phase -/

variable {setting : Setting α}

/-- Detaches the passives that leave at the start of a phase. -/
def expire (setting : Setting α) (phase : String) : DraftAttempt α Unit := do
  (Player.expiringOn (← Draft.current) phase).forM fun id => do
    let _ ← removePassive setting id

/-- Runs what passives have to run in a phase. -/
def runTriggers (setting : Setting α) (triggers : List (String × List (Effect α))) :
    DraftAttempt α Unit :=
  triggers.forM fun trigger => applyAll setting trigger.2

theorem phaseStart_eq (setting : Setting α) (phase : String) : phaseStart setting phase = (do
    expire setting phase
    runTriggers setting (Player.triggersFor (← Draft.current) phase)) := by
  unfold phaseStart expire runTriggers
  simp only [bind_assoc]

/-- No passive that is bound to the phase is left, whatever was taken back. -/
theorem expire_clears (phase : String) {draft : Draft α} (hdistinct : draft.player.Distinct)
    (hinherits : draft.player.Inherits) :
    (expire setting phase).Ensures (fun after =>
      draft.player.Cleared phase after.player ∧ after.player.Distinct) draft := by
  refine Draft.ensures_current ?_
  refine (removeEachWith_vacates revertAll_vacates _ hdistinct).mono fun after hafter => ?_
  obtain ⟨hvacated, hgone⟩ := hafter
  have hfewer := hvacated.detached.passives
  refine ⟨⟨hfewer, fun active hactive hleaves => ?_⟩, hdistinct.detached hvacated.detached⟩
  -- A passive that is due was due from the beginning, so its id was collected.
  have hbefore := hfewer.subset hactive
  rw [(hinherits active hbefore).leavesOn_eq] at hleaves
  have habsent := hgone active.id (Player.mem_expiringOn hbefore hleaves)
  rw [Player.hasPassive_iff.2 ⟨active, hactive, rfl⟩] at habsent
  cases habsent

end Realm
