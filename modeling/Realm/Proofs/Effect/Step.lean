import Realm.Effect.Application
import Realm.Proofs.Ledger.Write

/-!
# What the interpreter does to a draft

However deep effects nest, and wherever one of them fails, a draft changes in a few ways only. Each
is a single assignment in one of the interpreter's functions, and `Draft.Step` lists them with what
the function has made sure of before it. A leaf takes those of `Leaf.Step`; that every other call is
made of such steps as well is proved in `Realm.Proofs.Effect.Run`.

Taking away is a smaller relation of its own, `Draft.Taking`: what takes an effect back changes
amounts and skips and takes further things away, and never adds anything.
-/

set_option autoImplicit false

namespace Realm

variable {α : Type} [Amount α]

namespace Draft

/-- A change of a draft that taking away is made of. -/
inductive Taking (setting : Setting α) (draft : Draft α) : Draft α → Prop
  /-- An amount or an upper bound is written, or could not be. -/
  | write (write : Ledger.Write α) (hlower : write.KeepsLower draft.player.resources) :
      Taking setting draft
        ((Draft.record (write.attempt setting.content.catalog)).after draft)
  | skip (add : Bool) (phase : String) (step : Option String) (source : String) :
      Taking setting draft { draft with player := { draft.player with
        skips := (draft.player.skips.change add phase step source).2 } }
  | detach (id : String) (active : ActivePassive α)
      (hactive : draft.player.passive? id = some active) :
      Taking setting draft { draft with player := draft.player.withoutPassive id }
  | disown (id : String) (howned : draft.player.buildings.contains id = true) :
      Taking setting draft { draft with player := { draft.player with
        buildings := draft.player.buildings.erase id } }
  | raze (id : String) (named : Option String) (land : Land)
      (hland : landWithDevelopment draft.player id named = .ok (some land)) :
      Taking setting draft { draft with player := { draft.player with
        lands := Land.updateFirst (fun other => other.id == land.id &&
          other.developments.contains id) (·.raze id) draft.player.lands } }

/-- A change of a draft. -/
inductive Step (setting : Setting α) (draft : Draft α) : Draft α → Prop
  | taking (after : Draft α) (h : Taking setting draft after) : Step setting draft after
  | addLand (slots : Nat) (hslots : slots ≤ setting.rules.maxSlotsPerLand) :
      Step setting draft { draft with player := draft.player.addLand slots }
  | till (id : String) (land : Land) (hland : draft.player.land? id = some land) :
      Step setting draft { draft with player := { draft.player with
        lands := Land.updateFirst (fun land => land.id == id)
          (Land.till setting.rules.maxSlotsPerLand) draft.player.lands } }
  | attach (active : ActivePassive α) (hnew : draft.player.hasPassive active.id = false) :
      Step setting draft { draft with player := { draft.player with
        passives := draft.player.passives ++ [active] } }
  | own (id : String) (hknown : setting.content.buildings.contains id = true)
      (hnew : draft.player.buildings.contains id = false) :
      Step setting draft { draft with player := { draft.player with
        buildings := draft.player.buildings.add id } }
  | build (id : String) (named : Option String) (land : Land)
      (hknown : setting.content.developments.contains id = true)
      (hland : landWithFreeSlot draft.player named = .ok land) :
      Step setting draft { draft with player := { draft.player with
        lands := Land.updateFirst (fun other => other.id == land.id && decide (0 < other.freeSlots))
          (·.build id) draft.player.lands } }
  | leaveTier (resource : String) :
      Step setting draft { draft with player := { draft.player with
        tiers := draft.player.tiers.erase resource } }
  | enterTier (resource tier : String) :
      Step setting draft { draft with player := { draft.player with
        tiers := draft.player.tiers.insert resource tier } }

/-- What is recorded of an operation on the ledger, in a player's name. -/
def told (player : String) : Except (LedgerError α) (Change α) → List (Gain α)
  | .ok change => change.gains.map fun gain => { gain with playerId := some player }
  | .error _ => []

/-- How recording an operation runs: it ends as the operation does, and with the ledger that the
    operation leaves. -/
theorem run_record (operation : LedgerAttempt α (Change α)) (draft : Draft α) :
    (Draft.record operation).run draft
      = (((operation.outcome draft.player.resources).mapError .ledger).map fun _ => (),
        { player := { draft.player with resources := operation.after draft.player.resources }
          gains := draft.gains
            ++ told draft.player.id (operation.outcome draft.player.resources) }) := by
  rw [Attempt.outcome_def, Attempt.after_def]
  unfold Draft.record
  rw [Attempt.run_bind]
  unfold Attempt.within Attempt.mapError Attempt.run
  dsimp only
  cases operation draft.player.resources with
  | mk outcome resources =>
    cases outcome with
    | error error =>
      unfold told
      rw [List.append_nil]
      rfl
    | ok change => rfl

/-- Writing to the ledger changes nothing else of the player, also when it fails. -/
theorem record_player (operation : LedgerAttempt α (Change α)) (draft : Draft α) :
    ((Draft.record operation).after draft).player
      = { draft.player with resources := operation.after draft.player.resources } := by
  rw [Attempt.after_def, run_record]

/-- It adds to the gains what is told of the operation. -/
theorem record_gains (operation : LedgerAttempt α (Change α)) (draft : Draft α) :
    ((Draft.record operation).after draft).gains
      = draft.gains ++ told draft.player.id (operation.outcome draft.player.resources) := by
  rw [Attempt.after_def, run_record]

/-- It succeeds where the ledger's operation does. -/
theorem record_outcome (operation : LedgerAttempt α (Change α)) (draft : Draft α) :
    (Draft.record operation).outcome draft
      = ((operation.outcome draft.player.resources).mapError .ledger).map fun _ => () := by
  rw [Attempt.outcome_def, run_record]

/-- So its success is that of the operation, -/
theorem run_record_eq_ok {operation : LedgerAttempt α (Change α)} {draft after : Draft α}
    (h : (Draft.record operation).run draft = (.ok (), after)) :
    ∃ change ledger, operation.run draft.player.resources = (.ok change, ledger) ∧
      after.player = { draft.player with resources := ledger } := by
  have hplayer := record_player operation draft
  have houtcome := record_outcome operation draft
  rw [Attempt.outcome_def, Attempt.outcome_def, h] at houtcome
  rw [Attempt.after_def, Attempt.after_def, h] at hplayer
  cases hrun : operation.run draft.player.resources with
  | mk outcome ledger =>
    rw [hrun] at houtcome hplayer
    cases outcome with
    | error error => cases houtcome
    | ok change => exact ⟨change, ledger, rfl, hplayer⟩

/-- and the other way round. -/
theorem run_record_of_ok {operation : LedgerAttempt α (Change α)} {draft : Draft α}
    {change : Change α} {ledger : Ledger α}
    (h : operation.run draft.player.resources = (.ok change, ledger)) :
    ∃ after, (Draft.record operation).run draft = (.ok (), after) ∧
      after.player = { draft.player with resources := ledger } := by
  refine ⟨_, Attempt.run_eq_of_outcome ?_, ?_⟩
  · rw [Draft.record_outcome, Attempt.outcome_def, h]
    rfl
  · rw [Draft.record_player, Attempt.after_def, h]

/-- An operation that fails and leaves the ledger alone leaves the draft alone. -/
theorem run_record_of_error {operation : LedgerAttempt α (Change α)} {draft : Draft α}
    {error : LedgerError α}
    (h : operation.run draft.player.resources = (.error error, draft.player.resources)) :
    (Draft.record operation).run draft = (.error (.ledger error), draft) := by
  rw [Draft.run_record, Attempt.outcome_def, Attempt.after_def, h]
  unfold told
  dsimp only
  rw [List.append_nil]
  rfl

/-! ## Ledgers -/

section

variable {setting : Setting α} {holds : Ledger α → Prop}
  (hwrite : ∀ (ledger : Ledger α) (call : Ledger.Write α), call.KeepsLower ledger → holds ledger →
    holds ((call.attempt setting.content.catalog).after ledger))
include hwrite

theorem Taking.ledger {before after : Draft α} (h : Taking setting before after)
    (hbefore : holds before.player.resources) : holds after.player.resources := by
  cases h with
  | write call hlower =>
    rw [record_player]
    exact hwrite before.player.resources call hlower hbefore
  | skip add phase step source => exact hbefore
  | detach id active hactive => exact hbefore
  | disown id howned => exact hbefore
  | raze id named land hland => exact hbefore

/-- A step does to the ledger what a write does, or nothing. -/
theorem Step.ledger {before after : Draft α} (h : Step setting before after)
    (hbefore : holds before.player.resources) : holds after.player.resources := by
  cases h with
  | taking _ h => exact h.ledger hwrite hbefore
  | addLand slots hslots => exact hbefore
  | till id land hland => exact hbefore
  | attach active hnew => exact hbefore
  | own id hknown hnew => exact hbefore
  | build id named land hknown hland => exact hbefore
  | leaveTier resource => exact hbefore
  | enterTier resource tier => exact hbefore

end

/-! ## Parts of the interpreter's functions -/

omit [Amount α] in
/-- Looking at the player is no step. -/
theorem walks_current {step : Draft α → Draft α → Prop} {β : Type}
    {next : Player α → DraftAttempt α β} {draft : Draft α}
    (h : (next draft.player).Walks step draft) : (Draft.current >>= next).Walks step draft := h

omit [Amount α] in
theorem walks_update {step : Draft α → Draft α → Prop} {change : Player α → Player α}
    {draft : Draft α} (h : step draft { draft with player := change draft.player }) :
    (Draft.update change).Walks step draft :=
  Attempt.walks_of_step h

end Draft

open Draft

variable {setting : Setting α}

/-! ## Leaves -/

/-- Whether a leaf may be what takes an effect back. -/
def Leaf.isUndoing : Leaf α → Bool
  | .changeAmount .. | .changeSkip .. => true
  | .raiseUpperBound .. | .addLands .. | .tillLand _ => false

theorem Leaf.apply_taking {leaf : Leaf α} (hleaf : leaf.isUndoing = true) (multiplier : Nat)
    (draft : Draft α) : (leaf.apply setting multiplier).Walks (Draft.Taking setting) draft := by
  cases leaf with
  | changeAmount resource direction size rounding policy =>
    refine walks_current (Attempt.walks_ofExcept_bind fun delta _ => ?_)
    exact Attempt.walks_of_step (.write (.apply delta) trivial)
  | changeSkip direction phase step source => exact walks_update (.skip _ phase step source)
  | raiseUpperBound resource amount => cases hleaf
  | addLands count slots => cases hleaf
  | tillLand land => cases hleaf

/-- What a leaf does to a draft, step by step. Lands are added by a leaf that says so only. -/
inductive Leaf.Step (setting : Setting α) (leaf : Leaf α) (draft : Draft α) : Draft α → Prop
  | write (write : Ledger.Write α) (hlower : write.KeepsLower draft.player.resources) :
      Leaf.Step setting leaf draft
        ((Draft.record (write.attempt setting.content.catalog)).after draft)
  | skip (add : Bool) (phase : String) (step : Option String) (source : String) :
      Leaf.Step setting leaf draft { draft with player := { draft.player with
        skips := (draft.player.skips.change add phase step source).2 } }
  | addLand (count : Nat) (given : Option Nat) (hleaf : leaf = .addLands count given) (slots : Nat)
      (hslots : slots ≤ setting.rules.maxSlotsPerLand) :
      Leaf.Step setting leaf draft { draft with player := draft.player.addLand slots }
  | till (id : String) (land : Land) (hland : draft.player.land? id = some land) :
      Leaf.Step setting leaf draft { draft with player := { draft.player with
        lands := Land.updateFirst (fun land => land.id == id)
          (Land.till setting.rules.maxSlotsPerLand) draft.player.lands } }

theorem Leaf.Step.step {leaf : Leaf α} {before after : Draft α}
    (h : leaf.Step setting before after) : Draft.Step setting before after := by
  cases h with
  | write call hlower => exact .taking _ (.write call hlower)
  | skip add phase step source => exact .taking _ (.skip add phase step source)
  | addLand count given hleaf slots hslots => exact .addLand slots hslots
  | till id land hland => exact .till id land hland

/-- A leaf touches nothing of a player but amounts, lands and skips. -/
theorem Leaf.Step.player {leaf : Leaf α} {before after : Draft α}
    (h : leaf.Step setting before after) : ∃ resources lands skips landCounter,
      after.player = { before.player with resources, lands, skips, landCounter } := by
  cases h with
  | write call hlower => exact ⟨_, _, _, _, Draft.record_player _ _⟩
  | skip add phase step source => exact ⟨_, _, _, _, rfl⟩
  | addLand count given hleaf slots hslots => exact ⟨_, _, _, _, rfl⟩
  | till id land hland => exact ⟨_, _, _, _, rfl⟩

theorem Leaf.apply_steps (leaf : Leaf α) (multiplier : Nat) (draft : Draft α) :
    (leaf.apply setting multiplier).Walks (leaf.Step setting) draft := by
  cases leaf with
  | changeAmount resource direction size rounding policy =>
    refine walks_current (Attempt.walks_ofExcept_bind fun delta _ => ?_)
    exact Attempt.walks_of_step (.write (.apply delta) trivial)
  | changeSkip direction phase step source => exact walks_update (.skip _ phase step source)
  | raiseUpperBound resource amount =>
    refine walks_current ?_
    cases hupper : (draft.player.resources.boundsOf resource).upper with
    | none =>
      dsimp only
      rw [hupper]
      exact Attempt.walks_pure _ _
    | some upper =>
      dsimp only
      rw [hupper]
      exact Attempt.walks_of_step (.write (.setBounds resource _ .clamp) rfl)
  | addLands count slots =>
    refine Attempt.walks_times (fun draft => walks_update (.addLand count slots rfl _ ?_)) _ _
    cases slots with
    | none => exact Nat.min_le_right _ _
    | some slots => exact Nat.min_le_right _ _
  | tillLand land =>
    refine Attempt.walks_times (fun draft => Attempt.Walks.bind ?_ ?_) _ _
    · refine walks_current ?_
      cases hland : draft.player.land? land with
      | none => exact Attempt.walks_fail _ _
      | some found =>
        exact (walks_update (.till land found hland)).bind fun _ _ _ => Attempt.walks_pure _ _
    · exact fun _ _ _ => Attempt.walks_pure _ _

/-! ## Taking away -/

theorem Effect.isUndoing_of_readChange {effect : Effect α} {direction : Direction} {leaf : Leaf α}
    (h : effect.readChange direction = .ok leaf) : leaf.isUndoing = true := by
  obtain ⟨params, -, h⟩ := Outcome.bind_eq_ok.1 h
  obtain ⟨resource, amount, percent, rounding⟩ := params
  cases amount <;> cases percent <;> cases h <;> rfl

omit [Amount α] in
theorem Effect.isUndoing_of_readSkip {effect : Effect α} {direction : Direction} {leaf : Leaf α}
    (h : effect.readSkip direction = .ok leaf) : leaf.isUndoing = true := by
  obtain ⟨params, -, h⟩ := Outcome.bind_eq_ok.1 h
  obtain ⟨phase, step, source⟩ := params
  dsimp only at h
  split at h
  · cases h
  · cases h
  · cases h
    rfl

/-- What takes an effect back changes amounts or skips, if it does not take a thing away. -/
theorem Undoing.isUndoing_of_read {operation : Undoing} {effect : Effect α} {leaf : Leaf α}
    (h : operation.read effect = .ok (.inl leaf)) : leaf.isUndoing = true := by
  cases operation with
  | resource direction =>
    obtain ⟨read, hread, h⟩ := Outcome.bind_eq_ok.1 h
    cases h
    exact Effect.isUndoing_of_readChange hread
  | skip direction =>
    obtain ⟨read, hread, h⟩ := Outcome.bind_eq_ok.1 h
    cases h
    exact Effect.isUndoing_of_readSkip hread
  | removeBuilding =>
    obtain ⟨id, -, h⟩ := Outcome.bind_eq_ok.1 h
    cases h
  | removePassive =>
    obtain ⟨id, -, h⟩ := Outcome.bind_eq_ok.1 h
    cases h
  | removeDevelopment =>
    obtain ⟨⟨id, land⟩, -, h⟩ := Outcome.bind_eq_ok.1 h
    cases h

end Realm
