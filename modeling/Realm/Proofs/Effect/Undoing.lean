import Realm.Proofs.Effect.Detaching
import Realm.Proofs.Effect.Run
import Realm.Proofs.Ledger.Undoing
import Realm.Proofs.Skips

/-!
# A passive that comes and goes

Detaching a passive takes back what attaching it has done, effect by effect and the last first. For
effects that change amounts by fixed magnitudes and add skips it leaves the player as if the passive
had never been there (`removePassive_undoes_addPassive`).

The two kinds of effects are undone in two ways. Changes of amounts are undone like a stack: each is
taken back in the ledger that it has left, where subtracting undoes adding as long as the change was
exact. Skips are not, for the same skip may come twice, and then the first withdrawal takes it away
and the second finds nothing; what holds of them is that the skips of the passive are gone in the
end and no other is (`Skips.withdrawAll_addAll`). `revertAllWith_undoes` says both at once.
-/

set_option autoImplicit false

namespace Realm

variable {α : Type} [Amount α]

/-! ## Skips at any time -/

section

variable {setting : Setting α}

theorem Draft.Change.pruned {before after : Draft α} (h : Draft.Change setting before after)
    (hbefore : before.player.skips.Pruned) : after.player.skips.Pruned := by
  cases h with
  | write call =>
    rw [Draft.record_player]
    exact hbefore
  | step _ h =>
    cases h with
    | taking _ h =>
      cases h with
      | write call hlower =>
        rw [Draft.record_player]
        exact hbefore
      | skip add phase step source => exact hbefore.put add { phase, step, source }
      | detach id active hactive => exact hbefore
      | disown id howned => exact hbefore
      | raze id named land hland => exact hbefore
    | addLand slots hslots => exact hbefore
    | till id land hland => exact hbefore
    | attach active hnew => exact hbefore
    | own id hknown hnew => exact hbefore
    | build id named land hknown hland => exact hbefore
    | leaveTier resource => exact hbefore
    | enterTier resource tier => exact hbefore

/-- At any time nothing is kept without a source. -/
theorem Draft.pruned_afterAll (setting : Setting α) (id name : String)
    (commands : List (Draft.Command α)) :
    (Draft.afterAll setting id name commands).player.skips.Pruned :=
  Draft.holds_afterAll (·.skips.Pruned) (fun _ _ h => h.pruned) Skips.pruned_empty commands
end

/-! ## Effects that can be taken back without a trace -/

/-- The change of an amount that an effect makes when it is applied once, if it changes an amount by
    a fixed magnitude. -/
def Setting.delta? (setting : Setting α) (effect : Effect α) : Option (Delta α) :=
  match setting.operation? effect.family effect.method with
  | some (.undoing (.resource direction)) =>
    match effect.readChange direction with
    | .ok (.changeAmount resource direction (.flat amount) rounding reconciliation) =>
      some {
        resource, direction, rounding, reconciliation
        magnitude := amount * Amount.ofCount (effect.repetitions 1) }
    | _ => none
  | _ => none

/-- The skip that an effect adds. -/
def Setting.skip? (setting : Setting α) (effect : Effect α) : Option Skip :=
  match setting.operation? effect.family effect.method with
  | some (.undoing (.skip .add)) =>
    match effect.readSkip .add with
    | .ok (.changeSkip _ phase step source) => some { phase, step, source }
    | _ => none
  | _ => none

/-- The changes are exact when they are made one after the other. -/
def Ledger.ExactAlong (catalog : Catalog α) : Ledger α → List (Delta α) → Prop
  | _, [] => True
  | ledger, delta :: rest =>
    delta.Exact ledger ∧ ExactAlong catalog ((Ledger.apply catalog delta).after ledger) rest

/-! ## Reading an effect and its inverse -/

/-- With the same parameters a change is read alike in either direction. -/
theorem Effect.readChange_flat {effect other : Effect α} (hparams : other.params = effect.params)
    {direction read : Direction} {resource : String} {amount : α} {rounding : Option Rounding}
    {policy : Reconciliation}
    (h : effect.readChange direction
      = .ok (.changeAmount resource read (.flat amount) rounding policy))
    (direction' : Direction) :
    other.readChange direction'
      = .ok (.changeAmount resource direction' (.flat amount) rounding other.reconciliation) := by
  obtain ⟨params, hread, h⟩ := Outcome.bind_eq_ok.1 h
  refine Outcome.bind_eq_ok.2 ⟨params, Effect.readParams_of_ok hparams hread, ?_⟩
  obtain ⟨resource', amount', percent, rounding'⟩ := params
  cases amount' <;> cases percent <;> cases h
  rfl

omit [Amount α] in
theorem Effect.readSkip_of_ok {effect other : Effect α} (hparams : other.params = effect.params)
    {direction read : Direction} {phase source : String} {step : Option String}
    (h : effect.readSkip direction = .ok (.changeSkip read phase step source))
    (direction' : Direction) :
    other.readSkip direction' = .ok (.changeSkip direction' phase step source) := by
  obtain ⟨params, hread, h⟩ := Outcome.bind_eq_ok.1 h
  refine Outcome.bind_eq_ok.2 ⟨params, Effect.readParams_of_ok hparams hread, ?_⟩
  obtain ⟨phase', step', source'⟩ := params
  dsimp only at h ⊢
  split at h
  · cases h
  · cases h
  · cases h
    rfl

theorem Undoing.read_resource {effect : Effect α} {direction : Direction} {leaf : Leaf α}
    (h : effect.readChange direction = .ok leaf) :
    (Undoing.resource direction).read effect = .ok (.inl leaf) :=
  Outcome.bind_eq_ok.2 ⟨leaf, h, rfl⟩

theorem Undoing.read_skip {effect : Effect α} {direction : Direction} {leaf : Leaf α}
    (h : effect.readSkip direction = .ok leaf) :
    (Undoing.skip direction).read effect = .ok (.inl leaf) :=
  Outcome.bind_eq_ok.2 ⟨leaf, h, rfl⟩

theorem Operation.read_undoing {effect : Effect α} {undoing : Undoing} {leaf : Leaf α}
    (h : undoing.read effect = .ok (.inl leaf)) :
    (Operation.undoing undoing).read effect = .ok (.leaf leaf) :=
  Outcome.bind_eq_ok.2 ⟨.inl leaf, h, rfl⟩

/-! ## What the effects do, and what takes them back -/

section

variable {setting : Setting α} {effect : Effect α}

/-- An effect that calls for a leaf applies it. -/
theorem applyEffect_of_leaf {operation : Operation} {leaf : Leaf α} (hnesting : setting.nesting ≠ 0)
    (hoperation : setting.operation? effect.family effect.method = some operation)
    (hread : operation.read effect = .ok (.leaf leaf)) (multiplier : Nat) :
    applyEffect setting effect multiplier = leaf.apply setting (effect.repetitions multiplier) := by
  obtain ⟨depth, hdepth⟩ := Nat.exists_eq_succ_of_ne_zero hnesting
  unfold applyEffect
  rw [hdepth]
  unfold applyWithin
  rw [hoperation]
  dsimp only
  rw [hread]
  rfl

/-- An effect that a leaf takes back is taken back by it. -/
theorem revertWith_of_leaf {remove : Removal → DraftAttempt α Unit} {undoing : Undoing}
    {inverse : Effect α} {leaf : Leaf α} (hinverse : effect.inverse? = some (undoing, inverse))
    (hforce : setting.operations.contains (.undoing undoing) = true)
    (hread : undoing.read inverse = .ok (.inl leaf)) :
    revertWith setting remove effect = leaf.apply setting (inverse.repetitions 1) := by
  unfold revertWith
  rw [hinverse]
  dsimp only
  rw [if_pos hforce, hread]
  rfl

theorem Setting.of_delta? {delta : Delta α} (h : setting.delta? effect = some delta) :
    ∃ amount, effect.readChange delta.direction = .ok (.changeAmount delta.resource delta.direction
        (.flat amount) delta.rounding delta.reconciliation) ∧
      setting.operation? effect.family effect.method
        = some (.undoing (.resource delta.direction)) ∧
      delta.magnitude = amount * Amount.ofCount (effect.repetitions 1) := by
  unfold Setting.delta? at h
  split at h
  · rename_i direction hoperation
    split at h
    · rename_i resource read amount rounding policy hread
      cases h
      have hsame := Effect.readChange_flat rfl hread direction
      rw [hread] at hsame
      cases hsame
      exact ⟨amount, hread, hoperation, rfl⟩
    · cases h
  · cases h

omit [Amount α] in
theorem Setting.of_skip? {skip : Skip} (h : setting.skip? effect = some skip) :
    effect.readSkip .add = .ok (.changeSkip .add skip.phase skip.step skip.source) ∧
      setting.operation? effect.family effect.method = some (.undoing (.skip .add)) := by
  unfold Setting.skip? at h
  split at h
  · rename_i hoperation
    split at h
    · rename_i direction phase step source hread
      cases h
      exact ⟨Effect.readSkip_of_ok rfl hread .add, hoperation⟩
    · cases h
  · cases h

/-- No effect is of both kinds. -/
theorem Setting.skip?_of_delta? {delta : Delta α} (h : setting.delta? effect = some delta) :
    setting.skip? effect = none := by
  obtain ⟨amount, -, hoperation, -⟩ := Setting.of_delta? h
  unfold Setting.skip?
  rw [hoperation]

theorem Setting.delta?_of_skip? {skip : Skip} (h : setting.skip? effect = some skip) :
    setting.delta? effect = none := by
  obtain ⟨-, hoperation⟩ := Setting.of_skip? h
  unfold Setting.delta?
  rw [hoperation]

theorem applyEffect_of_delta? {delta : Delta α} (hnesting : setting.nesting ≠ 0)
    (h : setting.delta? effect = some delta) :
    applyEffect setting effect 1
      = Draft.record (Ledger.apply setting.content.catalog delta) := by
  obtain ⟨amount, hread, hoperation, hmagnitude⟩ := Setting.of_delta? h
  have hleaf : (Operation.undoing (.resource delta.direction)).read effect = .ok (.leaf
      (.changeAmount delta.resource delta.direction (.flat amount) delta.rounding
        delta.reconciliation)) := Operation.read_undoing (Undoing.read_resource hread)
  rw [applyEffect_of_leaf hnesting hoperation hleaf]
  funext draft
  obtain ⟨resource, direction, magnitude, rounding, reconciliation⟩ := delta
  dsimp only at hmagnitude
  rw [hmagnitude]
  rfl

theorem revertWith_of_delta? {remove : Removal → DraftAttempt α Unit} {delta : Delta α}
    (hforce : ∀ undoing : Undoing, setting.operations.contains (.undoing undoing) = true)
    (h : setting.delta? effect = some delta) :
    revertWith setting remove effect
      = Draft.record (Ledger.apply setting.content.catalog delta.opposite) := by
  obtain ⟨amount, hread, hoperation, hmagnitude⟩ := Setting.of_delta? h
  obtain ⟨inverse, hinverse, hparams, htimes, hpolicy⟩ :=
    Effect.inverse?_of_operation? hoperation rfl
  have hleaf : (Undoing.resource delta.direction.opposite).read inverse = .ok (.inl
      (.changeAmount delta.resource delta.direction.opposite (.flat amount) delta.rounding
        .clamp)) := by
    rw [← hpolicy]
    exact Undoing.read_resource (Effect.readChange_flat hparams hread _)
  have hrepetitions : inverse.repetitions 1 = effect.repetitions 1 := by
    unfold Effect.repetitions
    rw [htimes]
  rw [revertWith_of_leaf hinverse (hforce _) hleaf, hrepetitions]
  funext draft
  obtain ⟨resource, direction, magnitude, rounding, reconciliation⟩ := delta
  dsimp only at hmagnitude
  rw [hmagnitude]
  rfl

theorem applyEffect_of_skip? {skip : Skip} (hnesting : setting.nesting ≠ 0)
    (h : setting.skip? effect = some skip) :
    applyEffect setting effect 1
      = Draft.update fun player => { player with skips := player.skips.put true skip } := by
  obtain ⟨hread, hoperation⟩ := Setting.of_skip? h
  have hleaf : (Operation.undoing (.skip .add)).read effect
      = .ok (.leaf (.changeSkip .add skip.phase skip.step skip.source)) :=
    Operation.read_undoing (Undoing.read_skip hread)
  rw [applyEffect_of_leaf hnesting hoperation hleaf]
  rfl

theorem revertWith_of_skip? {remove : Removal → DraftAttempt α Unit} {skip : Skip}
    (hforce : ∀ undoing : Undoing, setting.operations.contains (.undoing undoing) = true)
    (h : setting.skip? effect = some skip) :
    revertWith setting remove effect
      = Draft.update fun player => { player with skips := player.skips.put false skip } := by
  obtain ⟨hread, hoperation⟩ := Setting.of_skip? h
  obtain ⟨inverse, hinverse, hparams, -, -⟩ := Effect.inverse?_of_operation? hoperation rfl
  have hleaf : (Undoing.skip .remove).read inverse
      = .ok (.inl (.changeSkip .remove skip.phase skip.step skip.source)) :=
    Undoing.read_skip (Effect.readSkip_of_ok hparams hread _)
  rw [revertWith_of_leaf hinverse (hforce _) hleaf]
  rfl

end

/-! ## Whole lists of effects -/

/-- From one player to another, amounts have been changed and skips been added. To undo it, whatever
    else has become of the player meanwhile, brings the old amounts back and withdraws the skips. -/
structure Player.UndoneBy (undo : DraftAttempt α Unit) (added : List Skip)
    (before after : Player α) : Prop where
  after_eq : after = { before with
    resources := after.resources
    skips := before.skips.addAll added }
  run : ∀ draft : Draft α, draft.player.resources = after.resources →
    ∃ last, undo.run draft = (.ok (), last) ∧ last.player = { draft.player with
      resources := before.resources
      skips := draft.player.skips.withdrawAll added }

namespace Player.UndoneBy

omit [Amount α] in
theorem nothing (player : Player α) : UndoneBy (pure ()) [] player player :=
  ⟨rfl, fun draft h => ⟨draft, rfl, by rw [← h]; rfl⟩⟩

omit [Amount α] in
/-- What was done last is undone first. -/
theorem trans {undo undo' : DraftAttempt α Unit} {added added' : List Skip}
    {first second third : Player α} (h : UndoneBy undo added first second)
    (h' : UndoneBy undo' added' second third) :
    UndoneBy (undo' >>= fun _ => undo) (added ++ added') first third := by
  refine ⟨?_, fun draft hdraft => ?_⟩
  · rw [h'.after_eq, h.after_eq]
    unfold Skips.addAll
    rw [List.foldl_append]
  · obtain ⟨between, hrun', hbetween⟩ := h'.run draft hdraft
    obtain ⟨last, hrun, hlast⟩ := h.run between (by rw [hbetween])
    refine ⟨last, (Attempt.run_bind_of_ok hrun').trans hrun, ?_⟩
    rw [hlast, hbetween]
    unfold Skips.withdrawAll
    rw [List.foldr_append]

theorem record {undo : LedgerAttempt α (Change α)} {before after : Player α} {change : Change α}
    (hafter : after = { before with resources := after.resources })
    (hundo : undo.run after.resources = (.ok change, before.resources)) :
    UndoneBy (Draft.record undo) [] before after := by
  refine ⟨hafter, fun draft hdraft => ?_⟩
  rw [← hdraft] at hundo
  exact Draft.run_record_of_ok hundo

omit [Amount α] in
theorem skip (player : Player α) (skip : Skip) :
    UndoneBy (Draft.update fun player => { player with skips := player.skips.put false skip })
      [skip] player { player with skips := player.skips.put true skip } := by
  refine ⟨rfl, fun draft hdraft => ?_⟩
  have hresources : player.resources = draft.player.resources := hdraft.symm
  refine ⟨{ draft with player := { draft.player with
    skips := draft.player.skips.put false skip } }, rfl, ?_⟩
  rw [hresources]
  rfl

end Player.UndoneBy

/-- Effects of the two kinds are undone by taking them back, the last first. -/
theorem revertAllWith_undoes [Amount.Signed α] {setting : Setting α}
    (hc : setting.content.catalog.Consistent)
    (hforce : ∀ undoing : Undoing, setting.operations.contains (.undoing undoing) = true)
    (remove : Removal → DraftAttempt α Unit) {effects : List (Effect α)}
    (heffects : ∀ effect ∈ effects,
      (∃ delta, setting.delta? effect = some delta) ∨ ∃ skip, setting.skip? effect = some skip)
    {draft after : Draft α} (hkept : draft.player.resources.WellKept setting.content.catalog)
    (hexact : Ledger.ExactAlong setting.content.catalog draft.player.resources
      (effects.filterMap setting.delta?))
    (hrun : (applyAll setting effects).run draft = (.ok (), after)) :
    Player.UndoneBy (revertAllWith setting remove effects) (effects.filterMap setting.skip?)
      draft.player after.player := by
  induction effects generalizing draft with
  | nil =>
    cases hrun
    exact .nothing _
  | cons effect rest ih =>
    have hrest : ∀ effect ∈ rest, (∃ delta, setting.delta? effect = some delta) ∨
        ∃ skip, setting.skip? effect = some skip :=
      fun other hother => heffects other (List.mem_cons_of_mem _ hother)
    obtain ⟨_, between, hfirst, hrun⟩ := Attempt.run_bind_eq_ok.1 hrun
    dsimp only at hfirst
    have hnesting : setting.nesting ≠ 0 := by
      intro hzero
      unfold applyEffect at hfirst
      rw [hzero] at hfirst
      cases hfirst
    rw [revertAllWith_cons]
    rcases heffects effect List.mem_cons_self with ⟨delta, hdelta⟩ | ⟨skip, hskip⟩
    · rw [List.filterMap_cons_some hdelta] at hexact
      rw [List.filterMap_cons_none (Setting.skip?_of_delta? hdelta)]
      obtain ⟨hexact, hexactRest⟩ := hexact
      rw [applyEffect_of_delta? hnesting hdelta] at hfirst
      obtain ⟨change, ledger, hledger, hbetween⟩ := Draft.run_record_eq_ok hfirst
      rw [Attempt.after_def, hledger] at hexactRest
      obtain ⟨hkept', change', hback⟩ := hkept.apply_opposite hc hexact hledger
      have hresources : between.player.resources = ledger := by rw [hbetween]
      rw [← hresources] at hkept' hexactRest hback
      rw [revertWith_of_delta? hforce hdelta]
      refine Player.UndoneBy.trans (.record ?_ hback) (ih hrest hkept' hexactRest hrun)
      rw [hresources]
      exact hbetween
    · rw [List.filterMap_cons_none (Setting.delta?_of_skip? hskip)] at hexact
      rw [List.filterMap_cons_some hskip]
      rw [applyEffect_of_skip? hnesting hskip] at hfirst
      rw [revertWith_of_skip? hforce hskip]
      cases hfirst
      refine (Player.UndoneBy.skip draft.player skip).trans (ih hrest ?_ ?_ hrun)
      · exact hkept
      · exact hexact

/-! ## A passive that is new -/

omit [Amount α] in
/-- The passive that was attached last is found under its id if it is the only one, -/
theorem Player.passive?_attached {player : Player α} {active : ActivePassive α}
    (hnew : player.hasPassive active.id = false) :
    ({ player with passives := player.passives ++ [active] } : Player α).passive? active.id
      = some active := by
  have hnone : player.passive? active.id = none := by
    unfold Player.hasPassive at hnew
    simpa using hnew
  unfold Player.passive? at hnone ⊢
  rw [List.find?_append, hnone, Option.none_or, List.find?_cons_of_pos (by simp)]

omit [Amount α] in
/-- and taking it off again leaves the others in their order. -/
theorem Player.eraseP_attached {player : Player α} {active : ActivePassive α}
    (hnew : player.hasPassive active.id = false) :
    (player.passives ++ [active]).eraseP (fun other => other.id == active.id)
      = player.passives := by
  have hnone : player.passives.find? (fun other => other.id == active.id) = none := by
    unfold Player.hasPassive Player.passive? at hnew
    simpa using hnew
  have hothers : ∀ other ∈ player.passives, ¬ (other.id == active.id) = true := by
    simpa using List.find?_eq_none.1 hnone
  rw [List.eraseP_append_right _ hothers, List.eraseP_cons_of_pos (by simp), List.append_nil]

/-- A passive whose effects can be undone is detached without a trace. -/
theorem removePassive_of_undoneBy {setting : Setting α} {player : Player α}
    {active : ActivePassive α} (hnew : player.hasPassive active.id = false)
    (hpruned : player.skips.Pruned) {added : List Skip}
    (hadded : ∀ skip ∈ added, player.skips.has skip = false) {draft : Draft α}
    (hundone : ∀ remove, Player.UndoneBy
      (revertAllWith setting remove active.definition.effects) added
      { player with passives := player.passives ++ [active] } draft.player) :
    ∃ last, (removePassive setting active.id).run draft = (.ok true, last) ∧
      last.player = player := by
  have hplayer := (hundone fun _ => pure ()).after_eq
  have hfound : draft.player.passive? active.id = some active := by
    rw [hplayer]
    exact Player.passive?_attached hnew
  -- Taking the passive off the list touches no amount.
  let detached : Draft α := { draft with player := draft.player.withoutPassive active.id }
  obtain ⟨last, hrevert, hlast⟩ :=
    (hundone (removeWithin setting (detached.player.attachments + 1))).run detached rfl
  refine ⟨last, ?_, ?_⟩
  · unfold removePassive removePassiveWith
    rw [Draft.run_current_bind, hfound]
    rw [← revertAll_run] at hrevert
    exact (Attempt.run_bind_of_ok rfl).trans (Attempt.run_bind_of_ok hrevert)
  · have hdetached : detached.player = { player with
        resources := draft.player.resources
        skips := player.skips.addAll added } := by
      show draft.player.withoutPassive active.id = _
      rw [hplayer]
      unfold Player.withoutPassive
      dsimp only
      rw [Player.eraseP_attached hnew]
    rw [hlast, hdetached]
    dsimp only
    rw [Skips.withdrawAll_addAll hpruned hadded]

/-- **Detaching a passive undoes attaching it.** In a ledger that is well kept, let the effects of a
    passive change amounts by fixed magnitudes, as far as they are meant to and without a loss in
    rounding, and add skips that were not there before. If it is attached, then detaching it right
    afterwards succeeds, and the player is as before. -/
theorem removePassive_undoes_addPassive [Amount.Signed α] {resources : List (Resource α)}
    {groups : List Group} {setting : Setting α}
    (hbuild : Catalog.build resources groups = .ok setting.content.catalog)
    (hforce : ∀ undoing : Undoing, setting.operations.contains (.undoing undoing) = true)
    {draft after : Draft α} (hkept : draft.player.resources.WellKept setting.content.catalog)
    (hpruned : draft.player.skips.Pruned) {definition : Passive α} {tag : PassiveTag}
    (heffects : ∀ effect ∈ definition.effects, (∃ delta, setting.delta? effect = some delta) ∨
      ∃ skip, setting.skip? effect = some skip ∧ draft.player.skips.has skip = false)
    (hexact : Ledger.ExactAlong setting.content.catalog draft.player.resources
      (definition.effects.filterMap setting.delta?))
    (hadd : (addPassive setting definition tag).run draft = (.ok (), after))
    (gains : List (Gain α)) :
    ∃ last, (removePassive setting definition.id).run { after with gains } = (.ok true, last) ∧
      last.player = draft.player := by
  have hc := Catalog.build_consistent hbuild
  unfold addPassive addPassiveWith at hadd
  rw [Draft.run_current_bind] at hadd
  by_cases hold : draft.player.hasPassive definition.id = true
  · rw [if_pos hold] at hadd
    cases hadd
  rw [if_neg hold] at hadd
  have hnew : draft.player.hasPassive definition.id = false := by simpa using hold
  obtain ⟨_, attached, hattach, happly⟩ := Attempt.run_bind_eq_ok.1 hadd
  obtain ⟨active, hactive, hattached⟩ : ∃ active : ActivePassive α,
      active.definition = definition ∧ attached = { draft with player := { draft.player with
        passives := draft.player.passives ++ [active] } } := by
    cases hattach
    exact ⟨_, rfl, rfl⟩
  subst hactive hattached
  have hkinds : ∀ effect ∈ active.definition.effects,
      (∃ delta, setting.delta? effect = some delta) ∨ ∃ skip, setting.skip? effect = some skip := by
    intro effect heffect
    exact (heffects effect heffect).imp id fun ⟨skip, hskip, _⟩ => ⟨skip, hskip⟩
  have hskips : ∀ skip ∈ active.definition.effects.filterMap setting.skip?,
      draft.player.skips.has skip = false := by
    intro skip hskip
    obtain ⟨effect, heffect, hskip⟩ := List.mem_filterMap.1 hskip
    rcases heffects effect heffect with ⟨delta, hdelta⟩ | ⟨skip', hskip', hfresh⟩
    · rw [Setting.skip?_of_delta? hdelta] at hskip
      cases hskip
    · rw [hskip', Option.some.injEq] at hskip
      exact hskip ▸ hfresh
  refine removePassive_of_undoneBy hnew hpruned hskips fun remove => ?_
  refine revertAllWith_undoes hc hforce remove hkinds ?_ ?_ happly
  · exact hkept
  · exact hexact

/-! ## A fair

It makes happy, has the upkeep skipped, twice over, and makes a little less happy. -/

namespace Sample

def fair : Passive Binary64 :=
  let skipUpkeep : Effect Binary64 :=
    { family := "phase_skip", method := "add"
      params := .record [("phaseId", .text "upkeep"), ("source", .text "fair")] }
  let change (method : String) (amount : Int) : Effect Binary64 :=
    { family := "resource", method
      params := .record [("resourceId", .text "happiness"), ("amount", .integer amount)] }
  { id := "fair", effects := [change "add" 5, skipUpkeep, skipUpkeep, change "remove" 2] }

def hamlet : Setting Binary64 := { content := { catalog } }

def cottager : Draft Binary64 := { player := .initial catalog "A" "Player A" }

/-- The changes that the fair makes. -/
def merriment : Delta Binary64 := { resource := "happiness", magnitude := Amount.ofInt 5 }

def hangover : Delta Binary64 :=
  { resource := "happiness", direction := .remove, magnitude := Amount.ofInt 2 }

theorem fair_deltas : fair.effects.filterMap hamlet.delta? = [merriment, hangover] := by
  decide +kernel

theorem fair_exact : cottager.player.resources.ExactAlong hamlet.content.catalog
    (fair.effects.filterMap hamlet.delta?) := by
  have hmerriment : merriment.signedAmount = .ok (Amount.ofInt 5) := by decide +kernel
  have hhangover : hangover.signedAmount = .ok (Amount.ofInt (-2)) := by decide +kernel
  rw [fair_deltas]
  exact ⟨Delta.exact_of_signedAmount hmerriment (by decide +kernel) (by decide +kernel),
    Delta.exact_of_signedAmount hhangover (by decide +kernel) (by decide +kernel), trivial⟩

end Sample

theorem removePassive_undoes_addPassive_fair :
    Catalog.build [Sample.happiness] [Sample.moods] = .ok Sample.hamlet.content.catalog ∧
    ∃ after, (addPassive Sample.hamlet Sample.fair {}).run Sample.cottager = (.ok (), after) ∧
      ∃ last, (removePassive Sample.hamlet "fair").run after = (.ok true, last) ∧
        last.player = Sample.cottager.player := by
  have hbuild : Catalog.build [Sample.happiness] [Sample.moods]
      = .ok Sample.hamlet.content.catalog := Sample.build_catalog
  have hc := Catalog.build_consistent hbuild
  have hforce : ∀ undoing : Undoing,
      Sample.hamlet.operations.contains (.undoing undoing) = true :=
    fun undoing => Operation.contains_all (.undoing undoing)
  have hkept : Sample.cottager.player.resources.WellKept Sample.hamlet.content.catalog :=
    .of_sound hc (Ledger.rolledUp_initial hc) Ledger.sound_sample
  have heffects : ∀ effect ∈ Sample.fair.effects,
      (∃ delta, Sample.hamlet.delta? effect = some delta) ∨
        ∃ skip, Sample.hamlet.skip? effect = some skip ∧
          Sample.cottager.player.skips.has skip = false := by
    intro effect heffect
    simp only [Sample.fair, List.mem_cons, List.not_mem_nil, or_false] at heffect
    rcases heffect with rfl | rfl | rfl | rfl
    · exact .inl (Option.isSome_iff_exists.1 (by decide +kernel))
    · exact .inr ⟨{ phase := "upkeep", source := "fair" }, by decide +kernel, by decide +kernel⟩
    · exact .inr ⟨{ phase := "upkeep", source := "fair" }, by decide +kernel, by decide +kernel⟩
    · exact .inl (Option.isSome_iff_exists.1 (by decide +kernel))
  obtain ⟨after, hadd⟩ : ∃ after,
      (addPassive Sample.hamlet Sample.fair {}).run Sample.cottager = (.ok (), after) :=
    ⟨_, Attempt.run_eq_of_outcome (by decide +kernel)⟩
  exact ⟨hbuild, after, hadd, removePassive_undoes_addPassive hbuild hforce hkept
    Skips.pruned_empty heffects Sample.fair_exact hadd after.gains⟩

end Realm
