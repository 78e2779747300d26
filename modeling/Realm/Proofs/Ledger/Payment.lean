import Realm.Proofs.Ledger.Write

/-!
# Payments

What it takes to pay an amount: the resource may be written, and what is left is finite and within
the bounds in force (`Pays`). A payment that goes through touches no other resource that may be
paid, so of several payments each is judged by the ledger that they all start from
(`pays_store_iff`).
-/

set_option autoImplicit false

namespace Realm
namespace Ledger

variable {α : Type} [Amount α]

/-- An amount can be paid. -/
structure Pays (catalog : Catalog α) (ledger : Ledger α) (entry : String × α) : Prop where
  writable : catalog.requireWritable entry.1 = .ok ()
  cost : Amount.isFinite entry.2 = true
  rest : Amount.isFinite (ledger.amount entry.1 + -entry.2) = true
  within : (ledger.boundsOf entry.1).contains (ledger.amount entry.1 + -entry.2) = true

/-- The change that pays an amount. -/
def payment (entry : String × α) : Delta α :=
  { resource := entry.1, direction := .remove, magnitude := entry.2 }

theorem run_payment (catalog : Catalog α) (entry : String × α) (ledger : Ledger α) :
    (apply catalog (payment entry)).run ledger =
      match catalog.requireWritable entry.1 with
      | .error error => (.error error, ledger)
      | .ok _ =>
        if Amount.isFinite entry.2 = true then
          (write catalog entry.1 (ledger.amount entry.1 + -entry.2) .reject).run ledger
        else (.error (.invalidAmount entry.1 entry.2), ledger) := by
  have hsigned : (payment entry).signedAmount
      = if Amount.isFinite entry.2 = true then .ok (-entry.2)
        else .error (.invalidAmount entry.1 entry.2) := rfl
  unfold apply
  rw [Attempt.run_ofExcept_bind, show (payment entry).resource = entry.1 from rfl]
  cases catalog.requireWritable entry.1 with
  | error error => rfl
  | ok _ =>
    dsimp only
    rw [Attempt.run_ofExcept_bind, hsigned]
    by_cases hcost : Amount.isFinite entry.2 = true
    · rw [if_pos hcost, if_pos hcost]
      rfl
    · rw [if_neg hcost, if_neg hcost]

/-- What can be paid is paid. -/
theorem Pays.run {catalog : Catalog α} {ledger : Ledger α} {entry : String × α}
    (h : ledger.Pays catalog entry) :
    (apply catalog (payment entry)).run ledger
      = (.ok (ledger.changeOf catalog entry.1 (ledger.amount entry.1 + -entry.2)),
          ledger.store catalog entry.1 (ledger.amount entry.1 + -entry.2)) := by
  rw [run_payment, h.writable]
  dsimp only
  rw [if_pos h.cost, run_write, if_pos h.rest]
  unfold reconcile
  rw [if_pos h.within]

/-- Only what can be paid is paid. -/
theorem pays_of_run {catalog : Catalog α} {ledger after : Ledger α} {entry : String × α}
    {change : Change α} (h : (apply catalog (payment entry)).run ledger = (.ok change, after)) :
    ledger.Pays catalog entry := by
  rw [run_payment] at h
  cases hwritable : catalog.requireWritable entry.1 with
  | error error =>
    rw [hwritable] at h
    cases h
  | ok _ =>
    rw [hwritable] at h
    dsimp only at h
    split at h
    · rename_i hcost
      rw [run_write] at h
      split at h
      · rename_i hrest
        unfold reconcile at h
        by_cases hwithin :
            (ledger.boundsOf entry.1).contains (ledger.amount entry.1 + -entry.2) = true
        · exact ⟨hwritable, hcost, hrest, hwithin⟩
        · rw [if_neg hwithin] at h
          cases h
      · cases h
    · cases h

/-- Whether something can be paid does not depend on what has been stored for other resources: a
    derived one cannot be paid either way. -/
theorem pays_store_iff {catalog : Catalog α} (hc : catalog.Consistent) {ledger : Ledger α}
    {resource : String} {amount : α} {entry : String × α} (hne : resource ≠ entry.1) :
    (ledger.store catalog resource amount).Pays catalog entry ↔ ledger.Pays catalog entry := by
  have hsame : catalog.requireWritable entry.1 = .ok () →
      (ledger.store catalog resource amount).amount entry.1 = ledger.amount entry.1 := by
    intro hwritable
    have hunderived := (Catalog.requireWritable_eq_ok.1 hwritable).2
    rw [amount_store_of_not_parent hc hunderived, if_neg hne]
  -- Bounds are in the same place whatever is stored, and the amount is the same if it is not derived.
  constructor
  · rintro ⟨hwritable, hcost, hrest, hwithin⟩
    rw [hsame hwritable] at hrest hwithin
    rw [store_boundsOf] at hwithin
    exact ⟨hwritable, hcost, hrest, hwithin⟩
  · rintro ⟨hwritable, hcost, hrest, hwithin⟩
    refine ⟨hwritable, hcost, ?_, ?_⟩
    · rw [hsame hwritable]
      exact hrest
    · rw [store_boundsOf, hsame hwritable]
      exact hwithin

end Ledger

end Realm
