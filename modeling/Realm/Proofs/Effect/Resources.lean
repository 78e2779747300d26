import Realm.Proofs.Effect.Leaves
import Realm.Proofs.Ledger.Known
import Realm.Proofs.Ledger.Widening

/-!
# Effects on resources

An effect changes an amount or raises an upper bound, and what it makes of the ledger is the
ledger's business. Two questions remain for the effect.

*What does a raise do besides?* Nothing (`raise_hurts_nothing`): in a ledger that is in order every
amount is the number that it was, and nobody is told of anything.

*What if there is no such resource?* A change is refused, whatever it is by, and so is a write to
the ledger. A raise is not: it asks for the bounds first, finds none, and takes the resource for one
that is not bounded (`unregistered_changed_or_raised`). That a resource without a definition has no
bounds is something that has to be kept, and every write keeps it (`BoundsKnown.write`).
-/

set_option autoImplicit false

namespace Realm

/-! ## Raising an upper bound -/

theorem Ledger.Sound.finiteAmounts {α : Type} [Amount α] {catalog : Catalog α} {ledger : Ledger α}
    (h : ledger.Sound catalog) : ledger.FiniteAmounts catalog :=
  fun id hknown hunderived => (h id hknown hunderived).amount

/-- What a raise that is carried out makes of a draft whose ledger is in order. -/
theorem Leaf.Ending.raises {setting : Setting Binary64} (hc : setting.content.catalog.Consistent)
    {multiplier : Nat} {draft after : Draft Binary64}
    (hsound : draft.player.resources.Sound setting.content.catalog)
    (hlevel : draft.player.resources.Level setting.content.catalog)
    {resource : String} {amount : Binary64} (hfinite : Amount.isFinite amount = true)
    (hpositive : ¬ amount < 0)
    (h : (Leaf.raiseUpperBound resource amount).Ending setting multiplier draft
      (.ok (), after)) :
    ∃ ledger, after = { draft with player := { draft.player with resources := ledger } } ∧
      Ledger.Raised setting.content.catalog resource (amount * Amount.ofCount multiplier)
        draft.player.resources ledger := by
  cases h with
  | unbounded hupper => exact ⟨draft.player.resources, rfl, .of_unbounded hupper⟩
  | raised upper change ledger hupper hrun =>
    obtain ⟨hraised, hgains⟩ := Ledger.raised_of_setBounds hc hsound hlevel hupper
      (fun hold hnew => Binary64.le_add_mul hold hfinite hpositive hnew) hrun
    refine ⟨ledger, ?_, hraised⟩
    unfold Draft.noting Draft.told
    dsimp only
    rw [hgains, List.map_nil, List.append_nil]

/-- **Raising an upper bound never hurts.** In a ledger whose amounts lie within their bounds and
    whose parents have their totals, an effect that raises an upper bound and succeeds leaves every
    amount the number that it was and the bounds of all other resources as they were. The bound
    itself grows by the amount that the effect names, as many times as it applies. Nothing else of
    the player changes, and no gain is recorded. -/
theorem raise_hurts_nothing {resources : List (Resource Binary64)} {groups : List Group}
    {setting : Setting Binary64}
    (hbuild : Catalog.build resources groups = .ok setting.content.catalog)
    {effect : Effect Binary64} (hfamily : effect.family = "resource")
    (hmethod : effect.method = "increase_upper_bound") {draft after : Draft Binary64}
    (hsound : draft.player.resources.Sound setting.content.catalog)
    (hlevel : draft.player.resources.Level setting.content.catalog) {multiplier : Nat}
    (hrun : (applyEffect setting effect multiplier).run draft = (.ok (), after)) :
    ∃ resource amount ledger, effect.readBoundIncrease = .ok (.raiseUpperBound resource amount) ∧
      after = { draft with player := { draft.player with resources := ledger } } ∧
      Ledger.Raised setting.content.catalog resource
        (amount * Amount.ofCount (effect.repetitions multiplier)) draft.player.resources ledger := by
  rcases applyEffect_cases setting effect multiplier draft with
    ⟨error, hrefused⟩ | ⟨operation, instruction, hnesting, hoperation, hread⟩
  · rw [hrefused] at hrun
    cases hrun
  · have hnamed : Operation.named? effect.family effect.method = some operation :=
      Option.eq_some_of_filter_eq_some hoperation
    rw [hfamily, hmethod, show Operation.named? "resource" "increase_upper_bound"
      = some .raiseUpperBound from by decide] at hnamed
    cases hnamed
    obtain ⟨leaf, hraise, hleaf⟩ := Outcome.bind_eq_ok.1 hread
    cases hleaf
    obtain ⟨resource, amount, rfl, hfinite, hpositive⟩ := Effect.of_readBoundIncrease hraise
    rw [applyEffect_of_leaf hnesting hoperation hread] at hrun
    have hending := (Leaf.raiseUpperBound resource amount).ending
      (effect.repetitions multiplier) hsound.finiteAmounts
    rw [hrun] at hending
    obtain ⟨ledger, hafter, hraised⟩ :=
      hending.raises (Catalog.build_consistent hbuild) hsound hlevel hfinite hpositive
    exact ⟨resource, amount, ledger, hraise, hafter, hraised⟩

/-- Five more of a resource, or room for as many. -/
def Sample.blessing (method resource : String) : Effect Binary64 :=
  Effect.clamped { family := "resource", method
                   params := .record [("resourceId", .text resource), ("amount", .integer 5)] }

open Sample in
/-- Room for more happiness, in a ledger that is as it was seeded. -/
theorem raise_hurts_nothing_blessing :
    Catalog.build [happiness] [moods] = .ok hamlet.content.catalog ∧
    cottager.player.resources.Sound hamlet.content.catalog ∧
    cottager.player.resources.Level hamlet.content.catalog ∧
    ∃ after, (applyEffect hamlet (blessing "increase_upper_bound" "happiness") 1).run cottager
        = (.ok (), after) ∧
      after.gains = [] ∧
      ∀ id, Amount.Same (after.player.resources.amount id) (cottager.player.resources.amount id) := by
  have hlevel : cottager.player.resources.Level hamlet.content.catalog :=
    Ledger.level_of_parents
      (Ledger.rolledUp_initial (Catalog.build_consistent build_catalog)).parent
  obtain ⟨after, hrun⟩ : ∃ after,
      (applyEffect hamlet (blessing "increase_upper_bound" "happiness") 1).run cottager
        = (.ok (), after) :=
    ⟨_, Attempt.run_eq_of_outcome (by decide +kernel)⟩
  obtain ⟨resource, amount, ledger, -, hafter, hraised⟩ :=
    raise_hurts_nothing build_catalog rfl rfl Ledger.sound_sample hlevel hrun
  refine ⟨build_catalog, Ledger.sound_sample, hlevel, after, hrun, ?_, ?_⟩
  · rw [hafter]
    rfl
  · rw [hafter]
    exact hraised.amounts

/-! ## Resources that are not registered -/

section

variable {α : Type} [Amount α] {setting : Setting α}

/-- A change of an amount that nobody has heard of is refused: a percentage when it is taken of the
    amount, a flat magnitude when it is applied. -/
theorem Leaf.run_changeAmount_of_unknown {resource : String}
    (hunknown : setting.content.catalog.contains resource = false) (multiplier : Nat)
    (direction : Direction) (size : Size α) (rounding : Option Rounding)
    (policy : Reconciliation) (draft : Draft α) :
    ((Leaf.changeAmount resource direction size rounding policy).apply setting multiplier).run draft
      = (.error (.ledger (.unknownResource resource)), draft) := by
  unfold Leaf.apply
  rw [Draft.run_current_bind, Attempt.run_ofExcept_bind]
  cases size with
  | flat amount =>
    have hrefused : ∀ delta : Delta α, delta.resource = resource →
        (Draft.record (Ledger.apply setting.content.catalog delta)).run draft
          = (.error (.ledger (.unknownResource resource)), draft) := by
      rintro delta rfl
      have hledger : ((Ledger.Write.apply delta).attempt setting.content.catalog).run
          draft.player.resources = (.error (.unknownResource delta.resource), _) :=
        Ledger.Write.run_of_unknown hunknown _
      exact Draft.run_record_of_error hledger
    exact hrefused _ rfl
  | percent percent =>
    have hamount : draft.player.resources.amountOf setting.content.catalog resource
        = .error (.unknownResource resource) := by
      unfold Ledger.amountOf
      rw [Catalog.requireKnown_eq_error.2 ⟨hunknown, rfl⟩]
      rfl
    unfold Leaf.delta percentDelta
    dsimp only
    rw [hamount]
    rfl

/-- A raise takes a resource without bounds for one that is not bounded. -/
theorem Leaf.run_raiseUpperBound_of_none {resource : String} {amount : α} {draft : Draft α}
    (hbounds : draft.player.resources.boundsOf resource = .none) (multiplier : Nat) :
    ((Leaf.raiseUpperBound resource amount).apply setting multiplier).run draft
      = (.ok (), draft) := by
  unfold Leaf.apply
  rw [Draft.run_current_bind]
  dsimp only
  rw [hbounds]
  rfl

/-- **An unregistered resource is not changed, and its bound is raised in vain.** A change of an
    amount fails where its resource is not registered, and leaves the draft alone. Raising the upper
    bound of such a resource succeeds, for every player that calls of the interpreter can lead to,
    and leaves the draft alone as well. -/
theorem unregistered_changed_or_raised {resources : List (Resource α)} {groups : List Group}
    (hbuild : Catalog.build resources groups = .ok setting.content.catalog)
    (hnesting : setting.nesting ≠ 0) {resource : String}
    (hunknown : setting.content.catalog.contains resource = false) (multiplier : Nat) :
    (∀ (effect : Effect α) direction size rounding policy,
      setting.operation? effect.family effect.method = some (.undoing (.resource direction)) →
      effect.readChange direction
        = .ok (.changeAmount resource direction size rounding policy) →
      ∀ draft, (applyEffect setting effect multiplier).run draft
        = (.error (.ledger (.unknownResource resource)), draft)) ∧
    (∀ (effect : Effect α) amount,
      setting.operation? effect.family effect.method = some .raiseUpperBound →
      effect.readBoundIncrease = .ok (.raiseUpperBound resource amount) →
      ∀ id name commands,
        (applyEffect setting effect multiplier).run (Draft.afterAll setting id name commands)
          = (.ok (), Draft.afterAll setting id name commands)) := by
  refine ⟨?_, ?_⟩
  · intro effect direction size rounding policy hoperation hread draft
    have hleaf := Operation.read_undoing (Undoing.read_resource hread)
    rw [applyEffect_of_leaf hnesting hoperation hleaf]
    exact Leaf.run_changeAmount_of_unknown hunknown _ _ _ _ _ _
  · intro effect amount hoperation hread id name commands
    have hknown : (Draft.afterAll setting id name commands).player.resources.BoundsKnown
        setting.content.catalog :=
      Draft.holds_afterAll (fun player => player.resources.BoundsKnown setting.content.catalog)
        (fun _ _ h => h.ledger fun _ call hledger => hledger.write call)
        (Ledger.boundsKnown_initial (Catalog.build_consistent hbuild)) commands
    have hleaf : Operation.raiseUpperBound.read effect
        = .ok (.leaf (.raiseUpperBound resource amount)) := Outcome.bind_eq_ok.2 ⟨_, hread, rfl⟩
    rw [applyEffect_of_leaf hnesting hoperation hleaf]
    exact Leaf.run_raiseUpperBound_of_none (hknown.boundsOf hunknown) _

end

open Sample in
/-- Mana, which nobody has registered, is not given, and there is always room for more of it. -/
theorem unregistered_changed_or_raised_mana :
    Catalog.build [happiness] [moods] = .ok hamlet.content.catalog ∧ hamlet.nesting ≠ 0 ∧
    hamlet.content.catalog.contains "mana" = false ∧
    (applyEffect hamlet (blessing "add" "mana") 2).run cottager
      = (.error (.ledger (.unknownResource "mana")), cottager) ∧
    (applyEffect hamlet (blessing "increase_upper_bound" "mana") 2).run cottager
      = (.ok (), cottager) := by
  have hbuild : Catalog.build [happiness] [moods] = .ok hamlet.content.catalog := build_catalog
  have hnesting : hamlet.nesting ≠ 0 := by decide
  have hunknown : hamlet.content.catalog.contains "mana" = false := by decide +kernel
  have heither := unregistered_changed_or_raised hbuild hnesting hunknown 2
  refine ⟨hbuild, hnesting, hunknown, ?_, ?_⟩
  · exact heither.1 (blessing "add" "mana") .add (.flat (Amount.ofInt 5)) none .clamp
      (by decide +kernel) (by decide +kernel) cottager
  · exact heither.2 (blessing "increase_upper_bound" "mana") (Amount.ofInt 5)
      (by decide +kernel) (by decide +kernel) "A" "Player A" []

open Sample in
/-- So a raise with a resource misspelt is not refused. -/
theorem raise_of_unregistered_passes :
    hamlet.content.catalog.contains "mana" = false ∧
    (blessing "increase_upper_bound" "mana").readBoundIncrease
      = .ok (.raiseUpperBound "mana" (Amount.ofInt 5)) ∧
    ¬ ∃ after, (applyEffect hamlet (blessing "increase_upper_bound" "mana") 1).run
        (Draft.afterAll hamlet "A" "Player A" [])
      = (.error (.ledger (.unknownResource "mana")), after) := by
  refine ⟨by decide +kernel, by decide +kernel, ?_⟩
  rintro ⟨after, hrun⟩
  have hpasses : ((applyEffect hamlet (blessing "increase_upper_bound" "mana") 1).outcome
      cottager).isOk = true := by
    decide +kernel
  rw [Attempt.outcome_def, show (Attempt.run _ cottager) = _ from hrun] at hpasses
  cases hpasses

end Realm
