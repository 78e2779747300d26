import Realm.Proofs.Ledger.Bounds

/-!
# Writes are atomic and local

A write that fails has not happened, and one that succeeds has touched what its report says and
nothing else (`write_touches`). Of the three endings of a write, the one that is neither a refusal
nor a success needs an amount that is not finite, so it is ruled out where amounts are finite.

That a report tells the truth depends on the catalog. The amount of the resource is stored before
its parent is brought up to date, so the reported amount is the final one only because no resource
is the parent of its own group.
-/

set_option autoImplicit false

namespace Realm
namespace Ledger

variable {α : Type} [Amount α]

/-! ## What storing an amount reports -/

/-- The parent of the resource's group, before and after. -/
theorem changeOf_rollup {catalog : Catalog α} (hc : catalog.Consistent) {ledger : Ledger α}
    {resource : String} {amount : α} (hresource : catalog.isParent resource = false) :
    (ledger.changeOf catalog resource amount).rollup =
      (catalog.groupOf? resource).map fun group =>
        { parent := group.parent.id
          previous := ledger.amount group.parent.id
          current := (ledger.store catalog resource amount).amount group.parent.id } := by
  unfold changeOf store
  cases hfind : catalog.groupOf? resource with
  | none => rfl
  | some group =>
    have hne : resource ≠ group.parent.id :=
      (hc.ne_parent hresource ((hc.groupOf?_iff resource group).1 hfind).1).symm
    simp only [Option.map_some, recompute, Ledger.amount, Table.findD, Table.find?_insert, hne,
      if_true, if_false, Option.getD_some]

/-! ## What a write touches -/

/-- The bounds that a write brings. -/
def Write.bounds? : Write α → Option (Bounds α)
  | .setBounds _ bounds _ => some bounds
  | _ => none

omit [Amount α] in
theorem Write.rebound_of_bounds?_none {write : Write α} (h : write.bounds? = none)
    (ledger : Ledger α) : write.rebound ledger = ledger := by
  cases write with
  | apply delta => rfl
  | setAmount resource amount policy => rfl
  | setBounds resource bounds policy => cases h

/-- What a write that succeeded has touched, and what it reports of it. -/
structure Write.Touches (catalog : Catalog α) (write : Write α) (before : Ledger α)
    (change : Change α) (after : Ledger α) : Prop where
  /-- The amounts of the resource and of the parent of its group may differ, no other. -/
  amounts : ∀ id, write.resource ≠ id →
    (∀ group, catalog.groupOf? write.resource = some group → group.parent.id ≠ id) →
      after.amounts.find? id = before.amounts.find? id
  /-- The bounds of the resource may differ, no other, -/
  bounds : ∀ id, write.resource ≠ id → after.bounds.find? id = before.bounds.find? id
  /-- and not these either, unless the write brings bounds. -/
  kept : write.bounds? = none → after.bounds = before.bounds
  resource : change.resource = write.resource
  previous : change.previous = before.amount write.resource
  current : change.current = after.amount write.resource
  /-- A parent is reported if there is one. -/
  rollup : change.rollup = (catalog.groupOf? write.resource).map fun group =>
    { parent := group.parent.id
      previous := before.amount group.parent.id
      current := after.amount group.parent.id }

theorem touches_store {catalog : Catalog α} (hc : catalog.Consistent) (write : Write α)
    (ledger : Ledger α) (amount : α) (hwritable : catalog.isParent write.resource = false) :
    write.Touches catalog ledger ((write.rebound ledger).changeOf catalog write.resource amount)
      ((write.rebound ledger).store catalog write.resource amount) where
  amounts := by
    intro id hne hgroup
    rw [find?_store_of_ne hne hgroup, Write.rebound_amounts]
  bounds := by
    intro id hne
    rw [store_bounds, write.rebound_bounds_of_ne ledger hne]
  kept := by
    intro hnone
    rw [store_bounds, Write.rebound_of_bounds?_none hnone]
  resource := rfl
  previous := write.rebound_amount ledger write.resource
  current := by
    rw [amount_store_of_not_parent hc hwritable, if_pos rfl]
    rfl
  rollup := by
    rw [changeOf_rollup hc hwritable]
    simp only [Write.rebound_amount]

/-- **Writes are atomic and local.** A write that fails leaves every amount and all bounds as they
    were. One that succeeds changes the amount of its resource, the amount of the parent of its
    group and, if it brings bounds, the bounds of its resource; and it reports the two amounts as
    they were before and as they are after. -/
theorem write_touches {resources : List (Resource α)} {groups : List Group} {catalog : Catalog α}
    (hbuild : Catalog.build resources groups = .ok catalog) {ledger : Ledger α}
    (hfinite : ∀ id, catalog.contains id = true → catalog.isParent id = false →
      Amount.isFinite (ledger.amount id) = true)
    (write : Write α) :
    (∀ error after, (write.attempt catalog).run ledger = (.error error, after) →
      after = ledger) ∧
    ∀ change after, (write.attempt catalog).run ledger = (.ok change, after) →
      write.Touches catalog ledger change after := by
  have hc := Catalog.build_consistent hbuild
  have hending := write.ending catalog ledger
  generalize (write.attempt catalog).run ledger = result at hending
  cases hending with
  | refused error =>
    refine ⟨fun _ after h => ?_, fun change after h => ?_⟩
    · cases h
      rfl
    · cases h
  | stranded error hwritable _ hamount =>
    obtain ⟨hknown, hunderived⟩ := Catalog.requireWritable_eq_ok.1 hwritable
    rw [hfinite write.resource hknown hunderived] at hamount
    cases hamount
  | written attempted amount hwritable _ _ _ _ =>
    refine ⟨fun error after h => ?_, fun change after h => ?_⟩
    · cases h
    · cases h
      exact touches_store hc write ledger amount (Catalog.requireWritable_eq_ok.1 hwritable).2

/-- Raising an amount within its bounds succeeds. -/
def raiseSample : Write Binary64 := .apply { resource := "happiness", magnitude := Amount.ofInt 3 }

/-- An amount that is raised, and its parent with it. -/
theorem write_touches_raise :
    Catalog.build [Sample.happiness] [Sample.moods] = .ok Sample.catalog ∧
    (∀ id, Sample.catalog.contains id = true → Sample.catalog.isParent id = false →
      Amount.isFinite ((initial Sample.catalog).amount id) = true) ∧
    ∃ change after,
      (raiseSample.attempt Sample.catalog).run (initial Sample.catalog) = (.ok change, after) ∧
      raiseSample.Touches Sample.catalog (initial Sample.catalog) change after := by
  have hfinite : ∀ id, Sample.catalog.contains id = true → Sample.catalog.isParent id = false →
      Amount.isFinite ((initial Sample.catalog).amount id) = true :=
    fun id hknown hunderived => (sound_sample id hknown hunderived).amount
  refine ⟨Sample.build_catalog, hfinite, ?_⟩
  have hok : ((raiseSample.attempt Sample.catalog).run (initial Sample.catalog)).1.isOk = true := by
    decide +kernel
  cases hrun : (raiseSample.attempt Sample.catalog).run (initial Sample.catalog) with
  | mk outcome after =>
    cases outcome with
    | error error =>
      rw [hrun] at hok
      cases hok
    | ok change =>
      exact ⟨change, after, rfl, (write_touches Sample.build_catalog hfinite _).2 _ _ hrun⟩

end Ledger

end Realm
