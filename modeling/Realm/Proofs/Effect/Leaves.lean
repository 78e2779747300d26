import Mathlib.Logic.Function.Iterate
import Realm.Proofs.Effect.Repetition
import Realm.Proofs.Effect.Undoing

/-!
# Leaves are carried out or refused

A leaf touches one component of the player, and it does so as a whole. Where it is refused it is
refused before anything is touched, also a leaf that applies several times over: lands are never
refused, and a land that can be tilled once can be tilled again. `Leaf.ending` says this of every
leaf, with what it has done where it is carried out, and what an effect of the families without
attachments may do follows by cases (`leaf_effect_whole`).

New bounds are the one exception. They are put into force before the amount is looked at, so a raise
that meets an amount that is not finite fails and leaves the new bounds behind. Hence amounts are
asked to be finite.
-/

set_option autoImplicit false

namespace Realm

variable {α : Type} [Amount α]

/-! ## Writes that fail -/

/-- The amounts that may be written are finite. -/
def Ledger.FiniteAmounts (catalog : Catalog α) (ledger : Ledger α) : Prop :=
  ∀ id, catalog.contains id = true → catalog.isParent id = false →
    Amount.isFinite (ledger.amount id) = true

/-- A write that fails has not happened. -/
theorem Ledger.FiniteAmounts.unchanged {catalog : Catalog α} {ledger after : Ledger α}
    (hfinite : ledger.FiniteAmounts catalog) {write : Ledger.Write α} {error : LedgerError α}
    (h : (write.attempt catalog).run ledger = (.error error, after)) : after = ledger := by
  have hending := write.ending catalog ledger
  rw [h] at hending
  cases hending with
  | refused error => rfl
  | stranded error hwritable _ hamount =>
    obtain ⟨hknown, hunderived⟩ := Catalog.requireWritable_eq_ok.1 hwritable
    rw [hfinite write.resource hknown hunderived] at hamount
    cases hamount

namespace Draft

/-- The draft with the ledger that an operation has left and the gains that it has told of. -/
def noting (draft : Draft α) (change : Realm.Change α) (ledger : Ledger α) : Draft α :=
  { player := { draft.player with resources := ledger }
    gains := draft.gains ++ told draft.player.id (.ok change) }

variable {setting : Setting α} {draft : Draft α}

/-- Writing to the ledger of a player is refused, or leaves what the write leaves. -/
theorem run_record_write (hfinite : draft.player.resources.FiniteAmounts setting.content.catalog)
    (write : Ledger.Write α) :
    (∃ error, (Draft.record (write.attempt setting.content.catalog)).run draft
        = (.error error, draft)) ∨
    ∃ change ledger,
      (write.attempt setting.content.catalog).run draft.player.resources = (.ok change, ledger) ∧
      (Draft.record (write.attempt setting.content.catalog)).run draft
        = (.ok (), draft.noting change ledger) := by
  cases hrun : (write.attempt setting.content.catalog).run draft.player.resources with
  | mk outcome ledger =>
    cases outcome with
    | error error =>
      obtain rfl := hfinite.unchanged hrun
      exact .inl ⟨.ledger error, run_record_of_error hrun⟩
    | ok change =>
      refine .inr ⟨change, ledger, rfl, ?_⟩
      rw [Draft.run_record, Attempt.outcome_def, Attempt.after_def, hrun]
      rfl

omit [Amount α] in
theorem run_times_update (change : Player α → Player α) (n : Nat) (draft : Draft α) :
    (Attempt.times n (Draft.update change)).run draft
      = (.ok (), { draft with player := change^[n] draft.player }) := by
  induction n generalizing draft with
  | zero => rfl
  | succ n ih =>
    rw [Attempt.times_succ, Attempt.run_bind]
    exact ih { draft with player := change draft.player }

end Draft

/-! ## Lands -/

omit [Amount α] in
/-- Lands are added behind the ones there are, and counted. -/
theorem Player.iterate_addLand (slots n : Nat) (player : Player α) :
    ∃ added landCounter, (fun player => player.addLand slots)^[n] player
      = { player with lands := player.lands ++ added, landCounter } := by
  induction n generalizing player with
  | zero => exact ⟨[], player.landCounter, by rw [List.append_nil]; rfl⟩
  | succ n ih =>
    obtain ⟨added, landCounter, hrest⟩ := ih (player.addLand slots)
    rw [Function.iterate_succ_apply, hrest]
    refine ⟨{ id := player.nextLandId.1, slots } :: added, landCounter, ?_⟩
    rw [List.append_cons]
    rfl

namespace Land

variable {test : Land → Bool} {change : Land → Land}

theorem find?_updateFirst (hkeeps : ∀ land, test (change land) = test land) (lands : List Land) :
    (updateFirst test change lands).find? test = (lands.find? test).map change := by
  induction lands with
  | nil => rfl
  | cons land rest ih =>
    unfold updateFirst
    by_cases htest : test land = true
    · rw [if_pos htest, List.find?_cons_of_pos ((hkeeps land).trans htest),
        List.find?_cons_of_pos htest, Option.map_some]
    · rw [if_neg htest, List.find?_cons_of_neg htest, List.find?_cons_of_neg htest, ih]

/-- A change that keeps the land the first one, followed by another, is one change. -/
theorem updateFirst_updateFirst (hkeeps : ∀ land, test (change land) = test land)
    (next : Land → Land) (lands : List Land) :
    updateFirst test next (updateFirst test change lands)
      = updateFirst test (next ∘ change) lands := by
  induction lands with
  | nil => rfl
  | cons land rest ih =>
    by_cases htest : test land = true
    · simp only [updateFirst, htest, hkeeps, if_true, Function.comp_apply]
    · simp only [updateFirst, htest, Bool.false_eq_true, if_false, ih]

theorem updateFirst_same (test : Land → Bool) (lands : List Land) :
    updateFirst test (fun land => land) lands = lands := by
  induction lands with
  | nil => rfl
  | cons land rest ih =>
    unfold updateFirst
    split
    · rfl
    · rw [ih]

/-- A change of the slots of a land, of whether it has been tilled, and of nothing else. -/
def Tills (change : Land → Land) : Prop :=
  ∀ land, change land
    = { land with slots := (change land).slots, tilled := (change land).tilled }

theorem tills_iterate_till (limit n : Nat) : Tills (till limit)^[n] := by
  induction n with
  | zero => exact fun land => rfl
  | succ n ih =>
    intro land
    rw [Function.iterate_succ_apply', ih land]
    rfl

end Land

omit [Amount α] in
/-- A land that is there is tilled as many times as it is asked for. -/
theorem Draft.run_times_till (rules : Rules) (id : String) (n : Nat) {draft : Draft α} {land : Land}
    (hland : draft.player.land? id = some land) :
    (Attempt.times n (do let _ ← Draft.till rules id)).run draft
      = (.ok (), { draft with player := { draft.player with
          lands := Land.updateFirst (fun land => land.id == id)
            (Land.till rules.maxSlotsPerLand)^[n] draft.player.lands } }) := by
  induction n generalizing draft land with
  | zero =>
    show _ = (_, { draft with player := { draft.player with
      lands := Land.updateFirst _ (fun land => land) draft.player.lands } })
    rw [Land.updateFirst_same]
    rfl
  | succ n ih =>
    -- Tilling leaves the id of the land alone, so it is found again.
    have hkeeps : ∀ land : Land, ((Land.till rules.maxSlotsPerLand land).id == id)
        = (land.id == id) := fun _ => rfl
    have honce : (do let _ ← Draft.till rules id : DraftAttempt α Unit).run draft
        = (.ok (), { draft with player := { draft.player with
            lands := Land.updateFirst (fun land => land.id == id)
              (Land.till rules.maxSlotsPerLand) draft.player.lands } }) := by
      unfold Draft.till
      rw [bind_assoc, Draft.run_current_bind, hland]
      rfl
    rw [Attempt.times_succ, Attempt.run_bind_of_ok honce]
    have hagain : ({ draft.player with
        lands := Land.updateFirst (fun land => land.id == id) (Land.till rules.maxSlotsPerLand)
          draft.player.lands } : Player α).land? id = some (land.till rules.maxSlotsPerLand) :=
      (Land.find?_updateFirst hkeeps _).trans (congrArg (Option.map _) hland)
    rw [ih hagain, Land.updateFirst_updateFirst hkeeps, Function.iterate_succ]

/-! ## Endings -/

variable {setting : Setting α}

/-- How a leaf that applies `multiplier` times may end. -/
inductive Leaf.Ending (setting : Setting α) (multiplier : Nat) (draft : Draft α) :
    Leaf α → Except (EffectError α) Unit × Draft α → Prop
  /-- It is refused, and nothing has happened. -/
  | refused (leaf : Leaf α) (error : EffectError α) :
      Ending setting multiplier draft leaf (.error error, draft)
  /-- The amount is changed by as much as the leaf asks for, once. -/
  | changed {resource : String} {direction : Direction} {size : Size α}
      {rounding : Option Rounding} {policy : Reconciliation}
      (delta : Delta α) (change : Change α) (ledger : Ledger α)
      (hdelta : Leaf.delta setting.content.catalog draft.player.resources multiplier resource
        direction size rounding policy = .ok delta)
      (hrun : (Ledger.apply setting.content.catalog delta).run draft.player.resources
        = (.ok change, ledger)) :
      Ending setting multiplier draft (.changeAmount resource direction size rounding policy)
        (.ok (), draft.noting change ledger)
  /-- There is no bound to raise. -/
  | unbounded {resource : String} {amount : α}
      (hupper : (draft.player.resources.boundsOf resource).upper = none) :
      Ending setting multiplier draft (.raiseUpperBound resource amount) (.ok (), draft)
  /-- The bound is raised, once. -/
  | raised {resource : String} {amount : α} (upper : α) (change : Change α) (ledger : Ledger α)
      (hupper : (draft.player.resources.boundsOf resource).upper = some upper)
      (hrun : (Ledger.setBounds setting.content.catalog resource
          { draft.player.resources.boundsOf resource with
            upper := some (upper + amount * Amount.ofCount multiplier) } .clamp).run
          draft.player.resources = (.ok change, ledger)) :
      Ending setting multiplier draft (.raiseUpperBound resource amount)
        (.ok (), draft.noting change ledger)
  /-- Lands are added behind the ones there are. -/
  | settled {count : Nat} {slots : Option Nat} (added : List Land) (landCounter : Nat) :
      Ending setting multiplier draft (.addLands count slots)
        (.ok (), { draft with player := { draft.player with
          lands := draft.player.lands ++ added, landCounter } })
  /-- The land that is named is tilled. -/
  | tilled {id : String} (change : Land → Land) (hchange : Land.Tills change) :
      Ending setting multiplier draft (.tillLand id)
        (.ok (), { draft with player := { draft.player with
          lands := Land.updateFirst (fun land => land.id == id) change draft.player.lands } })
  | skipped {direction : Direction} {phase : String} {step : Option String} {source : String} :
      Ending setting multiplier draft (.changeSkip direction phase step source)
        (.ok (), { draft with player := { draft.player with
          skips := (draft.player.skips.change (direction == .add) phase step source).2 } })

namespace Leaf

variable {draft : Draft α}

theorem ending_changeAmount
    (hfinite : draft.player.resources.FiniteAmounts setting.content.catalog) (multiplier : Nat)
    (resource : String) (direction : Direction) (size : Size α) (rounding : Option Rounding)
    (policy : Reconciliation) :
    (changeAmount resource direction size rounding policy).Ending setting multiplier draft
      (((changeAmount resource direction size rounding policy).apply setting multiplier).run
        draft) := by
  unfold Leaf.apply
  rw [Draft.run_current_bind, Attempt.run_ofExcept_bind]
  cases hdelta : Leaf.delta setting.content.catalog draft.player.resources multiplier resource
      direction size rounding policy with
  | error error => exact .refused _ error
  | ok delta =>
    dsimp only
    rcases Draft.run_record_write hfinite (.apply delta) with
      ⟨error, hrefused⟩ | ⟨change, ledger, hrun, hrecorded⟩
    · exact hrefused ▸ .refused _ error
    · exact hrecorded ▸ .changed delta change ledger hdelta hrun

theorem ending_raiseUpperBound
    (hfinite : draft.player.resources.FiniteAmounts setting.content.catalog) (multiplier : Nat)
    (resource : String) (amount : α) :
    (raiseUpperBound resource amount).Ending setting multiplier draft
      (((raiseUpperBound resource amount).apply setting multiplier).run draft) := by
  unfold Leaf.apply
  rw [Draft.run_current_bind]
  dsimp only
  cases hupper : (draft.player.resources.boundsOf resource).upper with
  | none => exact .unbounded hupper
  | some upper =>
    dsimp only
    rcases Draft.run_record_write hfinite (.setBounds resource
        { draft.player.resources.boundsOf resource with
          upper := some (upper + amount * Amount.ofCount multiplier) } .clamp) with
      ⟨error, hrefused⟩ | ⟨change, ledger, hrun, hrecorded⟩
    · exact hrefused ▸ .refused _ error
    · exact hrecorded ▸ .raised upper change ledger hupper hrun

theorem ending_addLands (multiplier count : Nat) (given : Option Nat) (n slots : Nat) :
    (addLands count given).Ending setting multiplier draft
      ((Attempt.times n (Draft.update fun player => player.addLand slots)).run draft) := by
  obtain ⟨added, landCounter, hadded⟩ := Player.iterate_addLand slots n draft.player
  rw [Draft.run_times_update, hadded]
  exact .settled added landCounter

theorem ending_tillLand (multiplier : Nat) (id : String) :
    (tillLand id).Ending setting multiplier draft
      ((Attempt.times multiplier (do let _ ← Draft.till setting.rules id)).run draft) := by
  cases hland : draft.player.land? id with
  | some land =>
    rw [Draft.run_times_till _ _ _ hland]
    exact .tilled _ (Land.tills_iterate_till _ _)
  | none =>
    cases multiplier with
    | zero =>
      -- Nothing is asked for, so nobody looks for the land.
      have hkept : (tillLand id).Ending setting 0 draft
          (.ok (), { draft with player := { draft.player with
            lands := Land.updateFirst (fun land => land.id == id) (fun land => land)
              draft.player.lands } }) :=
        .tilled (fun land => land) fun _ => rfl
      rw [Land.updateFirst_same] at hkept
      exact hkept
    | succ n =>
      have hmissing : (do let _ ← Draft.till setting.rules id : DraftAttempt α Unit).run draft
          = (.error (.landNotFound id), draft) := by
        unfold Draft.till
        rw [bind_assoc, Draft.run_current_bind, hland]
        rfl
      rw [Attempt.times_succ, Attempt.run_bind_of_error hmissing]
      exact .refused _ _

/-- However a leaf ends, it has done what it is for as a whole, or nothing. -/
theorem ending (leaf : Leaf α) (multiplier : Nat)
    (hfinite : draft.player.resources.FiniteAmounts setting.content.catalog) :
    leaf.Ending setting multiplier draft ((leaf.apply setting multiplier).run draft) := by
  cases leaf with
  | changeAmount resource direction size rounding policy =>
    exact ending_changeAmount hfinite multiplier resource direction size rounding policy
  | raiseUpperBound resource amount =>
    exact ending_raiseUpperBound hfinite multiplier resource amount
  | addLands count given => exact ending_addLands multiplier count given _ _
  | tillLand id => exact ending_tillLand multiplier id
  | changeSkip direction phase step source => exact .skipped

end Leaf

/-! ## What effects call for -/

/-- The family of the effects that call for a leaf. -/
def Leaf.family : Leaf α → String
  | .changeAmount .. | .raiseUpperBound .. => "resource"
  | .addLands .. | .tillLand _ => "land"
  | .changeSkip .. => "phase_skip"

/-- The families whose effects all call for leaves. -/
def Effect.leafFamilies : List String := ["resource", "land", "phase_skip"]

namespace Effect

variable {effect : Effect α} {leaf : Leaf α}

theorem of_readChange {direction : Direction} (h : effect.readChange direction = .ok leaf) :
    ∃ resource size rounding,
      leaf = .changeAmount resource direction size rounding effect.reconciliation := by
  obtain ⟨⟨resource, amount, percent, rounding⟩, -, h⟩ := Outcome.bind_eq_ok.1 h
  cases amount <;> cases percent <;> cases h <;> exact ⟨_, _, _, rfl⟩

/-- A raise that is read is by a finite amount that is not negative. -/
theorem of_readBoundIncrease (h : effect.readBoundIncrease = .ok leaf) :
    ∃ resource amount, leaf = .raiseUpperBound resource amount ∧
      Amount.isFinite amount = true ∧ ¬ amount < 0 := by
  obtain ⟨⟨resource, amount, key⟩, -, h⟩ := Outcome.bind_eq_ok.1 h
  dsimp only at h
  split at h
  · cases h
  · split at h
    · cases h
    · split at h
      · cases h
      · split at h
        · cases h
        · rename_i hamount
          cases h
          rw [Bool.or_eq_true, not_or, Bool.not_eq_true', Bool.not_eq_false,
            decide_eq_true_eq] at hamount
          exact ⟨_, _, rfl, hamount⟩

omit [Amount α] in
theorem of_readLands (h : effect.readLands = .ok leaf) :
    ∃ count slots, leaf = .addLands count slots := by
  obtain ⟨⟨count, slots⟩, -, h⟩ := Outcome.bind_eq_ok.1 h
  cases h
  exact ⟨_, _, rfl⟩

omit [Amount α] in
theorem of_readTill (h : effect.readTill = .ok leaf) : ∃ id, leaf = .tillLand id := by
  obtain ⟨land, -, h⟩ := Outcome.bind_eq_ok.1 h
  split at h
  · cases h
  · cases h
  · cases h
    exact ⟨_, rfl⟩

omit [Amount α] in
theorem of_readSkip {direction : Direction} (h : effect.readSkip direction = .ok leaf) :
    ∃ phase step source, leaf = .changeSkip direction phase step source := by
  obtain ⟨⟨phase, step, source⟩, -, h⟩ := Outcome.bind_eq_ok.1 h
  dsimp only at h
  split at h
  · cases h
  · cases h
  · cases h
    exact ⟨_, _, _, rfl⟩

end Effect

omit [Amount α] in
/-- The operation that an effect calls for has its name. -/
theorem Setting.name_of_operation? {effect : Effect α} {operation : Operation}
    (h : setting.operation? effect.family effect.method = some operation) :
    operation.name = (effect.family, effect.method) := by
  have hnamed : Operation.named? effect.family effect.method = some operation :=
    Option.eq_some_of_filter_eq_some h
  unfold Operation.named? at hnamed
  have hname := List.find?_some hnamed
  exact eq_of_beq hname

theorem Operation.eq_tillLand {operation : Operation} (h : operation.name.2 = "till") :
    operation = .tillLand := by
  rcases operation with (direction | direction | _ | _ | _) | _ | _ | _ | _ | _ | _
  · cases direction <;> exact absurd h (by decide)
  · cases direction <;> exact absurd h (by decide)
  case tillLand => rfl
  all_goals exact absurd h (by decide)

/-- What an effect of a family without attachments calls for, and how it is read. -/
theorem Operation.leaf_of_read {operation : Operation} {effect : Effect α}
    {instruction : Instruction α} (hfamily : operation.name.1 ∈ Effect.leafFamilies)
    (hread : operation.read effect = .ok instruction) :
    ∃ leaf, instruction = .leaf leaf ∧ leaf.family = operation.name.1 ∧
      (operation = .tillLand ∧ effect.readTill = .ok leaf ∨
        operation ≠ .tillLand ∧ ∀ id, leaf ≠ .tillLand id) := by
  cases operation with
  | undoing undoing =>
    obtain ⟨read, hundoing, hread⟩ := Outcome.bind_eq_ok.1 hread
    cases undoing with
    | resource direction =>
      obtain ⟨leaf, hchange, hundoing⟩ := Outcome.bind_eq_ok.1 hundoing
      obtain ⟨resource, size, rounding, rfl⟩ := Effect.of_readChange hchange
      cases hundoing
      cases hread
      exact ⟨_, rfl, rfl, .inr ⟨nofun, nofun⟩⟩
    | skip direction =>
      obtain ⟨leaf, hskip, hundoing⟩ := Outcome.bind_eq_ok.1 hundoing
      obtain ⟨phase, step, source, rfl⟩ := Effect.of_readSkip hskip
      cases hundoing
      cases hread
      exact ⟨_, rfl, rfl, .inr ⟨nofun, nofun⟩⟩
    | removeBuilding => exact absurd hfamily (by decide)
    | removeDevelopment => exact absurd hfamily (by decide)
    | removePassive => exact absurd hfamily (by decide)
  | raiseUpperBound =>
    obtain ⟨leaf, hraise, hread⟩ := Outcome.bind_eq_ok.1 hread
    obtain ⟨resource, amount, rfl, -⟩ := Effect.of_readBoundIncrease hraise
    cases hread
    exact ⟨_, rfl, rfl, .inr ⟨nofun, nofun⟩⟩
  | addLand =>
    obtain ⟨leaf, hlands, hread⟩ := Outcome.bind_eq_ok.1 hread
    obtain ⟨count, slots, rfl⟩ := Effect.of_readLands hlands
    cases hread
    exact ⟨_, rfl, rfl, .inr ⟨nofun, nofun⟩⟩
  | tillLand =>
    obtain ⟨leaf, htill, hread⟩ := Outcome.bind_eq_ok.1 hread
    obtain ⟨id, rfl⟩ := Effect.of_readTill htill
    cases hread
    exact ⟨_, rfl, rfl, .inl ⟨rfl, htill⟩⟩
  | addBuilding => exact absurd hfamily (by decide)
  | addDevelopment => exact absurd hfamily (by decide)
  | addPassive => exact absurd hfamily (by decide)

/-- An effect is refused before anything is touched, or there is an instruction to carry out. -/
theorem applyEffect_cases (setting : Setting α) (effect : Effect α) (multiplier : Nat)
    (draft : Draft α) :
    (∃ error, (applyEffect setting effect multiplier).run draft = (.error error, draft)) ∨
    ∃ operation instruction, setting.nesting ≠ 0 ∧
      setting.operation? effect.family effect.method = some operation ∧
      operation.read effect = .ok instruction := by
  by_cases hnesting : setting.nesting = 0
  · refine .inl ⟨.nestedTooDeeply, ?_⟩
    unfold applyEffect
    rw [hnesting]
    rfl
  · cases hoperation : setting.operation? effect.family effect.method with
    | none =>
      obtain ⟨depth, hdepth⟩ := Nat.exists_eq_succ_of_ne_zero hnesting
      refine .inl ⟨.unknownEffect effect.family effect.method, ?_⟩
      unfold applyEffect
      rw [hdepth]
      unfold applyWithin
      rw [hoperation]
      rfl
    | some operation =>
      cases hread : operation.read effect with
      | error error =>
        exact .inl ⟨error, run_applyEffect_of_unreadable hnesting hoperation hread _ _⟩
      | ok instruction => exact .inr ⟨operation, instruction, hnesting, rfl, hread⟩

/-! ## What effects of leaves change -/

/-- What an effect of a family without attachments may make of a draft. -/
inductive Effect.Confined (effect : Effect α) (before : Draft α) : Draft α → Prop
  /-- An effect on a resource changes nothing but the ledger, and may record gains. -/
  | resource (hfamily : effect.family = "resource") (resources : Ledger α)
      (gains : List (Gain α)) :
      Confined effect before
        { player := { before.player with resources }, gains := before.gains ++ gains }
  /-- One that does not till changes nothing but the lands, to which it adds, and their counter. -/
  | land (hfamily : effect.family = "land") (hmethod : effect.method ≠ "till")
      (added : List Land) (landCounter : Nat) :
      Confined effect before { before with player := { before.player with
        lands := before.player.lands ++ added, landCounter } }
  /-- Tilling changes the slots of the land that is named and whether it has been tilled. -/
  | till (hfamily : effect.family = "land") (hmethod : effect.method = "till") (id : String)
      (hid : effect.readTill = .ok (.tillLand id)) (change : Land → Land)
      (hchange : Land.Tills change) :
      Confined effect before { before with player := { before.player with
        lands := Land.updateFirst (fun land => land.id == id) change before.player.lands } }
  /-- An effect on skips changes nothing but these. -/
  | skip (hfamily : effect.family = "phase_skip") (skips : Skips) :
      Confined effect before { before with player := { before.player with skips } }

theorem Leaf.Ending.confined {effect : Effect α} {leaf : Leaf α} {multiplier : Nat}
    {draft after : Draft α} (h : leaf.Ending setting multiplier draft (.ok (), after))
    (hfamily : leaf.family = effect.family)
    (htill : effect.method = "till" ∧ effect.readTill = .ok leaf ∨
      effect.method ≠ "till" ∧ ∀ id, leaf ≠ .tillLand id) : effect.Confined draft after := by
  cases h with
  | changed delta change ledger hdelta hrun => exact .resource hfamily.symm ledger _
  | unbounded hupper =>
    have hkept : effect.Confined draft
        { player := { draft.player with resources := draft.player.resources }
          gains := draft.gains ++ [] } := .resource hfamily.symm _ _
    rwa [List.append_nil] at hkept
  | raised upper change ledger hupper hrun => exact .resource hfamily.symm ledger _
  | settled added landCounter =>
    rcases htill with ⟨-, hread⟩ | ⟨hmethod, -⟩
    · obtain ⟨id, hleaf⟩ := Effect.of_readTill hread
      cases hleaf
    · exact .land hfamily.symm hmethod added landCounter
  | tilled change hchange =>
    rcases htill with ⟨hmethod, hread⟩ | ⟨-, hother⟩
    · exact .till hfamily.symm hmethod _ hread change hchange
    · exact absurd rfl (hother _)
  | skipped => exact .skip hfamily.symm _

/-- **Leaf effects are atomic and stay in their own component.** An effect of the families resource,
    land and phase skip that fails leaves the player and the gains as they were; one that succeeds
    changes what its family is about and nothing else. -/
theorem leaf_effect_whole {effect : Effect α} (hfamily : effect.family ∈ Effect.leafFamilies)
    {draft : Draft α} (hfinite : draft.player.resources.FiniteAmounts setting.content.catalog)
    (multiplier : Nat) :
    (∀ error after, (applyEffect setting effect multiplier).run draft = (.error error, after) →
      after = draft) ∧
    ∀ after, (applyEffect setting effect multiplier).run draft = (.ok (), after) →
      effect.Confined draft after := by
  rcases applyEffect_cases setting effect multiplier draft with
    ⟨error, hrefused⟩ | ⟨operation, instruction, hnesting, hoperation, hread⟩
  · rw [hrefused]
    refine ⟨fun _ after h => ?_, fun after h => ?_⟩
    · cases h
      rfl
    · cases h
  · have hname := Setting.name_of_operation? hoperation
    have hfamilies : operation.name.1 = effect.family := congrArg Prod.fst hname
    obtain ⟨leaf, rfl, hleaf, htill⟩ := Operation.leaf_of_read (hfamilies ▸ hfamily) hread
    have hending := leaf.ending (effect.repetitions multiplier) hfinite
    rw [applyEffect_of_leaf hnesting hoperation hread]
    refine ⟨fun error after h => ?_, fun after h => ?_⟩
    · rw [h] at hending
      cases hending
      rfl
    · rw [h] at hending
      refine hending.confined (hleaf.trans hfamilies) ?_
      rcases htill with ⟨rfl, htilled⟩ | ⟨hoperation, hother⟩
      · exact .inl ⟨congrArg Prod.snd hname.symm, htilled⟩
      · refine .inr ⟨fun hmethod => hoperation (Operation.eq_tillLand ?_), hother⟩
        rw [hname]
        exact hmethod

/-- More happiness than there is room for. -/
def Sample.jubilee : Effect Binary64 :=
  { family := "resource", method := "add"
    params := .record [("resourceId", .text "happiness"), ("amount", .integer 30)] }

open Sample in
/-- A jubilee is refused as it is, and as long as it stops at the bound it is welcome. -/
theorem leaf_effect_whole_jubilee :
    jubilee.family ∈ Effect.leafFamilies ∧ jubilee.clamped.family ∈ Effect.leafFamilies ∧
    cottager.player.resources.FiniteAmounts hamlet.content.catalog ∧
    (∃ error, (applyEffect hamlet jubilee 1).run cottager = (.error error, cottager)) ∧
    ∃ after, (applyEffect hamlet jubilee.clamped 1).run cottager = (.ok (), after) ∧
      jubilee.clamped.Confined cottager after := by
  have hfamily : jubilee.family ∈ Effect.leafFamilies := by decide
  have hclamped : jubilee.clamped.family ∈ Effect.leafFamilies := by decide
  have hfinite : cottager.player.resources.FiniteAmounts hamlet.content.catalog :=
    fun id hknown hunderived => (Ledger.sound_sample id hknown hunderived).amount
  have hrefused : ((applyEffect hamlet jubilee 1).outcome cottager).isOk = false := by
    decide +kernel
  refine ⟨hfamily, hclamped, hfinite, ?_, ?_⟩
  · cases hrun : (applyEffect hamlet jubilee 1).run cottager with
    | mk outcome after =>
      rw [Attempt.outcome_def, hrun] at hrefused
      cases outcome with
      | ok done => cases hrefused
      | error error =>
        rw [(leaf_effect_whole hfamily hfinite 1).1 error after hrun]
        exact ⟨error, rfl⟩
  · obtain ⟨after, hrun⟩ : ∃ after,
        (applyEffect hamlet jubilee.clamped 1).run cottager = (.ok (), after) :=
      ⟨_, Attempt.run_eq_of_outcome (by decide +kernel)⟩
    exact ⟨after, hrun, (leaf_effect_whole hclamped hfinite 1).2 after hrun⟩

end Realm
