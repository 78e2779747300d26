import Realm.Proofs.Ledger.Known

/-!
# What checking a ledger finds

A ledger that was read from a file may hold anything, and four rules say what it should hold: what
is stored belongs to registered resources, amounts are finite, amounts lie within their bounds, and
parents have the totals of their children. The operations keep all four. Checking asks for the first
three (`Ledger.Checked`), and what it reports is there to be seen (`Ledger.Fault`). It does not look
at the fourth (`Ledger.Level`): a parent whose total is out of date passes, as long as nothing else
is wrong with it.

So checking alone does not decide whether a ledger keeps the rules. Checking a ledger whose parents
have been brought up to date before does (`validate_finds`).
-/

set_option autoImplicit false

namespace Realm
namespace Ledger

variable {α : Type} [Amount α] {catalog : Catalog α} {ledger : Ledger α}

/-! ## The rules -/

/-- The rules that checking looks at. -/
structure Checked (catalog : Catalog α) (ledger : Ledger α) : Prop where
  known : ∀ id amount, ledger.amounts.find? id = some amount → catalog.contains id = true
  finite : ∀ id amount, ledger.amounts.find? id = some amount → Amount.isFinite amount = true
  within : ∀ id amount, ledger.amounts.find? id = some amount →
    (ledger.boundsOf id).contains amount = true
  bounds : ledger.BoundsKnown catalog

/-- Every parent has the total of its children. -/
def Level (catalog : Catalog α) (ledger : Ledger α) : Prop :=
  ∀ group ∈ catalog.groups.values,
    Amount.Same (group.total ledger.amounts) (ledger.amount group.parent.id)

/-- What an error of checking says of the ledger. -/
inductive Fault (catalog : Catalog α) (ledger : Ledger α) : LedgerError α → Prop
  | unknownAmount (id : String) (amount : α) (hstored : ledger.amounts.find? id = some amount)
      (hunknown : catalog.contains id = false) : Fault catalog ledger (.unknownResource id)
  | notFinite (id : String) (amount : α) (hstored : ledger.amounts.find? id = some amount)
      (hamount : Amount.isFinite amount = false) : Fault catalog ledger (.invalidAmount id amount)
  | outside (id : String) (amount : α) (hstored : ledger.amounts.find? id = some amount)
      (hamount : (ledger.boundsOf id).contains amount = false) :
      Fault catalog ledger (.boundViolation id amount (ledger.boundsOf id))
  | unknownBounds (id : String) (hstored : ledger.bounds.contains id = true)
      (hunknown : catalog.contains id = false) : Fault catalog ledger (.unknownResource id)

/-! ## Checks -/

/-- The check of a stored amount, as the three questions that it asks in turn. -/
theorem checkAmount_eq (catalog : Catalog α) (ledger : Ledger α) (id : String) (amount : α) :
    checkAmount catalog ledger (id, amount) =
      if catalog.contains id = false then .error (.unknownResource id)
      else if Amount.isFinite amount = false then .error (.invalidAmount id amount)
      else if (ledger.boundsOf id).contains amount = false then
        .error (.boundViolation id amount (ledger.boundsOf id))
      else .ok () := by
  unfold checkAmount Catalog.requireKnown
  dsimp only
  cases catalog.contains id <;> cases Amount.isFinite amount <;>
    cases (ledger.boundsOf id).contains amount <;>
    simp [bind, Except.bind, throw, throwThe, MonadExceptOf.throw, pure, Except.pure]

theorem checkAmount_eq_ok {id : String} {amount : α} :
    checkAmount catalog ledger (id, amount) = .ok () ↔
      catalog.contains id = true ∧ Amount.isFinite amount = true ∧
        (ledger.boundsOf id).contains amount = true := by
  rw [checkAmount_eq]
  cases catalog.contains id <;> cases Amount.isFinite amount <;>
    cases (ledger.boundsOf id).contains amount <;> simp

theorem validate_eq_ok : ledger.validate catalog = .ok () ↔ ledger.Checked catalog := by
  unfold validate
  rw [Outcome.then_eq_ok, Outcome.forM_eq_ok, Outcome.forM_eq_ok]
  constructor
  · rintro ⟨hamounts, hbounds⟩
    have hstored : ∀ id amount, ledger.amounts.find? id = some amount →
        catalog.contains id = true ∧ Amount.isFinite amount = true ∧
          (ledger.boundsOf id).contains amount = true := fun id amount hfind =>
      checkAmount_eq_ok.1 (hamounts (id, amount) (Table.mem_toList_iff.2 hfind))
    refine ⟨fun id amount hfind => (hstored id amount hfind).1,
      fun id amount hfind => (hstored id amount hfind).2.1,
      fun id amount hfind => (hstored id amount hfind).2.2, fun id hid => ?_⟩
    exact Catalog.requireKnown_eq_ok.1 (hbounds id (Table.mem_keys_iff.2 hid))
  · intro h
    refine ⟨fun ⟨id, amount⟩ hmem => ?_, fun id hid => ?_⟩
    · have hfind := Table.mem_toList_iff.1 hmem
      exact checkAmount_eq_ok.2 ⟨h.known id amount hfind, h.finite id amount hfind,
        h.within id amount hfind⟩
    · exact Catalog.requireKnown_eq_ok.2 (h.bounds id (Table.mem_keys_iff.1 hid))

theorem fault_of_checkAmount {id : String} {amount : α} {error : LedgerError α}
    (hstored : ledger.amounts.find? id = some amount)
    (h : checkAmount catalog ledger (id, amount) = .error error) : ledger.Fault catalog error := by
  rw [checkAmount_eq] at h
  split at h
  · rename_i hunknown
    cases h
    exact .unknownAmount id amount hstored hunknown
  · split at h
    · rename_i hamount
      cases h
      exact .notFinite id amount hstored hamount
    · split at h
      · rename_i houtside
        cases h
        exact .outside id amount hstored houtside
      · cases h

theorem fault_of_validate {error : LedgerError α} (h : ledger.validate catalog = .error error) :
    ledger.Fault catalog error := by
  unfold validate at h
  rcases Outcome.bind_eq_error.1 h with hamounts | ⟨-, -, hbounds⟩
  · obtain ⟨⟨id, amount⟩, hmem, herror⟩ := Outcome.exists_of_forM_error hamounts
    exact fault_of_checkAmount (Table.mem_toList_iff.1 hmem) herror
  · obtain ⟨id, hmem, herror⟩ := Outcome.exists_of_forM_error hbounds
    obtain ⟨hunknown, rfl⟩ := Catalog.requireKnown_eq_error.1 herror
    exact .unknownBounds id (Table.mem_keys_iff.1 hmem) hunknown

/-! ## Totals -/

/-- Parents that hold their totals are level with them. -/
theorem level_of_parents {catalog : Catalog Binary64} {ledger : Ledger Binary64}
    (h : ∀ group ∈ catalog.groups.values,
      ledger.amounts.find? group.parent.id = some (group.total ledger.amounts)) :
    ledger.Level catalog := by
  intro group hgroup
  have hamount : ledger.amount group.parent.id = group.total ledger.amounts := by
    unfold amount Table.findD
    rw [h group hgroup, Option.getD_some]
  rw [hamount]
  exact Binary64.same_self _

theorem level_recomputeAll {catalog : Catalog Binary64} (hc : catalog.Consistent)
    (ledger : Ledger Binary64) : (ledger.recomputeAll catalog).Level catalog := by
  have hall : ∀ group ∈ catalog.groups.values, group ∈ catalog.groups.values := fun _ h => h
  refine level_of_parents fun group hgroup => ?_
  calc (ledger.recomputeAll catalog).amounts.find? group.parent.id
      = some (group.total ledger.amounts) := find?_recomputeEach hc hall hgroup
    _ = some (group.total (ledger.recomputeAll catalog).amounts) :=
        congrArg some (total_recomputeEach hc hall hgroup).symm

/-- **Checking finds what is wrong, but for stale totals.** A ledger passes exactly if it keeps the
    three rules that checking looks at, and an error names a fault that the ledger has. So passing
    means keeping all four rules exactly for the ledgers where keeping three of them is keeping the
    fourth; among these are all ledgers whose parents have just been brought up to date, and all
    that operations have led to. -/
theorem validate_finds (catalog : Catalog Binary64) (ledger : Ledger Binary64) :
    (ledger.validate catalog = .ok () ↔ ledger.Checked catalog) ∧
    (∀ error, ledger.validate catalog = .error error → ledger.Fault catalog error) ∧
    ((ledger.validate catalog = .ok () ↔ ledger.Checked catalog ∧ ledger.Level catalog) ↔
      (ledger.Checked catalog → ledger.Level catalog)) ∧
    ∀ resources groups, Catalog.build resources groups = .ok catalog →
      (ledger.recomputeAll catalog).Level catalog ∧
      ∀ commands : List (Command Binary64), (afterAll catalog commands).Level catalog := by
  refine ⟨validate_eq_ok, fun error => fault_of_validate, ?_, ?_⟩
  · rw [validate_eq_ok]
    constructor
    · exact fun h hchecked => (h.1 hchecked).2
    · exact fun h => ⟨fun hchecked => ⟨hchecked, h hchecked⟩, And.left⟩
  · intro resources groups hbuild
    have hc := Catalog.build_consistent hbuild
    exact ⟨level_recomputeAll hc ledger,
      fun commands => level_of_parents (rolledUp_afterAll hc commands).parent⟩

end Ledger

namespace Sample

/-- Read from a file in which somebody has put the parent up. -/
def embellished : Ledger Binary64 :=
  { amounts := (Table.empty.insert "happiness" (Amount.ofInt 0)).insert "mood" (Amount.ofInt 5) }

end Sample

namespace Ledger

/-- Brought up to date and checked, a ledger is in order. -/
theorem validate_finds_embellished :
    Catalog.build [Sample.happiness] [Sample.moods] = .ok Sample.catalog ∧
    (Sample.embellished.recomputeAll Sample.catalog).validate Sample.catalog = .ok () ∧
    (Sample.embellished.recomputeAll Sample.catalog).Level Sample.catalog :=
  ⟨Sample.build_catalog, by decide +kernel,
    ((validate_finds Sample.catalog Sample.embellished).2.2.2 _ _ Sample.build_catalog).1⟩

/-- Without, it passes all the same, though its parent is five and the only child is zero. -/
theorem stale_total_passes :
    Catalog.build [Sample.happiness] [Sample.moods] = .ok Sample.catalog ∧
    Sample.embellished.validate Sample.catalog = .ok () ∧
    ¬ (Sample.embellished.Checked Sample.catalog ∧ Sample.embellished.Level Sample.catalog) := by
  refine ⟨Sample.build_catalog, by decide +kernel, ?_⟩
  rintro ⟨-, hlevel⟩
  have hmood : Amount.order (Sample.moods.total Sample.embellished.amounts)
      (Sample.embellished.amount "mood") = .eq :=
    hlevel Sample.moods (Table.mem_values_iff.2 ⟨"moods", by decide +kernel⟩)
  revert hmood
  decide +kernel

end Ledger

end Realm
