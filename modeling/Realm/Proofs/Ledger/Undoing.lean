import Realm.Proofs.Amount.Sign
import Realm.Proofs.Ledger.Bounds
import Realm.Proofs.Ledger.Commuting

/-!
# Taking changes back

A change of an amount is taken back by the change in the opposite direction, which stops at the
bounds instead of being refused. Whether that brings the ledger back is first a matter of
arithmetic, for sums are rounded, and of the bounds, for a change that has stopped at one has not
been as large as the one that takes it back (`Delta.Exact`). It is then a matter of the ledger: the
opposite change may be stopped where the amount has been beyond its bounds all along, and it brings
the parent of the group up to date where it had not been. In a ledger that is well kept neither
happens, and a change that is exact can be taken back (`WellKept.apply_opposite`).
-/

set_option autoImplicit false

namespace Realm

variable {α : Type} [Amount α]

omit [Amount α] in
/-- The change that takes a change back. -/
def Delta.opposite (delta : Delta α) : Delta α :=
  { delta with direction := delta.direction.opposite, reconciliation := .clamp }

/-- The magnitude is rounded before the sign is put, and so it is rounded alike either way. -/
theorem Delta.signedAmount_opposite [Amount.Signed α] {delta : Delta α} {signed : α}
    (h : delta.signedAmount = .ok signed) : delta.opposite.signedAmount = .ok (-signed) := by
  obtain ⟨resource, direction, magnitude, rounding, reconciliation⟩ := delta
  unfold opposite
  unfold signedAmount at h ⊢
  dsimp only at h ⊢
  by_cases hfinite : Amount.isFinite magnitude = true
  · rw [if_pos hfinite] at h ⊢
    cases direction with
    | add =>
      cases h
      rfl
    | remove =>
      cases h
      exact congrArg Except.ok (Amount.Signed.neg_neg _).symm
  · rw [if_neg hfinite] at h
    cases h

/-- The change goes as far as it is meant to, and subtracting it gives back what there was. -/
def Delta.Exact (ledger : Ledger α) (delta : Delta α) : Prop :=
  ∀ signed, delta.signedAmount = .ok signed →
    (ledger.boundsOf delta.resource).contains (ledger.amount delta.resource + signed) = true ∧
    ledger.amount delta.resource + signed - signed = ledger.amount delta.resource

theorem Delta.exact_of_signedAmount {ledger : Ledger α} {delta : Delta α} {signed : α}
    (hsigned : delta.signedAmount = .ok signed)
    (hwithin : (ledger.boundsOf delta.resource).contains
      (ledger.amount delta.resource + signed) = true)
    (hsub : ledger.amount delta.resource + signed - signed = ledger.amount delta.resource) :
    delta.Exact ledger := by
  intro other hother
  rw [hsigned, Except.ok.injEq] at hother
  subst hother
  exact ⟨hwithin, hsub⟩

namespace Ledger

/-! ## Changes -/

/-- A change that fits is made. -/
theorem run_apply_of_contains {catalog : Catalog α} {ledger : Ledger α} {delta : Delta α}
    {signed : α} (hwritable : catalog.requireWritable delta.resource = .ok ())
    (hsigned : delta.signedAmount = .ok signed)
    (hfinite : Amount.isFinite (ledger.amount delta.resource + signed) = true)
    (hwithin : (ledger.boundsOf delta.resource).contains
      (ledger.amount delta.resource + signed) = true) :
    (apply catalog delta).run ledger
      = (.ok (ledger.changeOf catalog delta.resource (ledger.amount delta.resource + signed)),
          ledger.store catalog delta.resource (ledger.amount delta.resource + signed)) := by
  unfold apply
  rw [Attempt.run_ofExcept_bind, hwritable]
  dsimp only
  rw [Attempt.run_ofExcept_bind, hsigned]
  dsimp only
  rw [Attempt.run_get_bind, run_write, if_pos hfinite]
  unfold reconcile
  rw [if_pos hwithin]

/-- What a change has made sure of. -/
theorem of_run_apply {catalog : Catalog α} {ledger after : Ledger α} {delta : Delta α}
    {change : Change α} (h : (apply catalog delta).run ledger = (.ok change, after)) :
    catalog.requireWritable delta.resource = .ok () ∧
    ∃ signed, delta.signedAmount = .ok signed ∧
      Amount.isFinite (ledger.amount delta.resource + signed) = true := by
  have hending := Write.ending catalog (.apply delta) ledger
  rw [show ((Write.apply delta).attempt catalog).run ledger = (.ok change, after) from h] at hending
  cases hending with
  | written attempted amount hwritable _ hattempted hfinite _ =>
    refine ⟨hwritable, ?_⟩
    simp only [Write.attempted] at hattempted
    cases hsigned : delta.signedAmount with
    | error error =>
      rw [hsigned] at hattempted
      cases hattempted
    | ok signed =>
      rw [hsigned] at hattempted
      cases hattempted
      exact ⟨signed, rfl, hfinite⟩

/-! ## Ledgers that are well kept -/

/-- Every registered resource has an amount, within its bounds if it may be written, and every
    parent has the total of its children. -/
structure WellKept (catalog : Catalog α) (ledger : Ledger α) : Prop where
  stored : ∀ id, catalog.contains id = true → ledger.amounts.contains id = true
  within : ∀ id, catalog.contains id = true → catalog.isParent id = false →
    (ledger.boundsOf id).contains (ledger.amount id) = true
  parent : ∀ group ∈ catalog.groups.values,
    ledger.amount group.parent.id = group.total ledger.amounts

/-- Parents that are kept up to date and amounts that are sound make a ledger well kept. -/
theorem WellKept.of_sound {catalog : Catalog α} (hc : catalog.Consistent) {ledger : Ledger α}
    (hrolledUp : ledger.RolledUp catalog) (hsound : ledger.Sound catalog) :
    ledger.WellKept catalog where
  stored id hknown := by
    rw [(keys_eq_ids_iff hc).1 hrolledUp.keys id]
    exact hknown
  within id hknown hunderived := (hsound id hknown hunderived).within
  parent group hgroup := by
    unfold Ledger.amount Table.findD
    rw [hrolledUp.parent group hgroup, Option.getD_some]

theorem contains_store_of_contains {catalog : Catalog α} {ledger : Ledger α} {resource id : String}
    {amount : α} (h : ledger.amounts.contains id = true) :
    (ledger.store catalog resource amount).amounts.contains id = true := by
  unfold store
  cases catalog.groupOf? resource with
  | none => simp [h]
  | some group => simp [recompute, h]

namespace WellKept

variable {catalog : Catalog α} {ledger : Ledger α}

theorem find?_eq (h : ledger.WellKept catalog) {id : String} (hknown : catalog.contains id = true) :
    ledger.amounts.find? id = some (ledger.amount id) := by
  obtain ⟨amount, hfind⟩ := Table.contains_iff.1 (h.stored id hknown)
  unfold Ledger.amount Table.findD
  rw [hfind, Option.getD_some]

variable (hc : catalog.Consistent) (h : ledger.WellKept catalog) {resource : String}
  (hwritable : catalog.requireWritable resource = .ok ())
include hc h hwritable

theorem store {amount : α} (hwithin : (ledger.boundsOf resource).contains amount = true) :
    (ledger.store catalog resource amount).WellKept catalog := by
  obtain ⟨hknown, hunderived⟩ := Catalog.requireWritable_eq_ok.1 hwritable
  refine ⟨fun id hid => contains_store_of_contains (h.stored id hid),
    fun id hid hidUnderived => ?_, fun group hgroup => ?_⟩
  · rw [store_boundsOf, amount_store_of_not_parent hc hidUnderived]
    by_cases heq : resource = id
    · rw [if_pos heq, ← heq]
      exact hwithin
    · rw [if_neg heq]
      exact h.within id hid hidUnderived
  · by_cases hchild : resource ∈ group.childIds
    · unfold Ledger.amount Table.findD
      rw [find?_store_parent hc hgroup hchild, Option.getD_some]
    · rw [total_store_of_not_child hc hgroup hchild, ← h.parent group hgroup]
      exact Table.findD_congr 0 (find?_store_of_not_child hc hunderived hgroup hchild)

/-- Storing the old amount again brings the whole ledger back, the parent of the group with it. -/
theorem store_back (amount : α) :
    (ledger.store catalog resource amount).store catalog resource (ledger.amount resource)
      = ledger := by
  obtain ⟨hknown, hunderived⟩ := Catalog.requireWritable_eq_ok.1 hwritable
  have hown : ∀ id, catalog.isParent id = false →
      ((ledger.store catalog resource amount).store catalog resource
        (ledger.amount resource)).amounts.find? id = ledger.amounts.find? id := by
    intro id hid
    rw [find?_store_of_not_parent hc hid, find?_store_of_not_parent hc hid]
    by_cases heq : resource = id
    · rw [if_pos heq, ← heq, h.find?_eq hknown]
    · rw [if_neg heq, if_neg heq]
  refine ext_find? (fun id => ?_) fun id => by simp only [store_bounds]
  cases hid : catalog.isParent id with
  | false => exact hown id hid
  | true =>
    obtain ⟨group, hgroup, rfl⟩ := (hc.isParent_iff id).1 hid
    by_cases hchild : resource ∈ group.childIds
    · rw [find?_store_parent hc hgroup hchild, h.find?_eq (hc.contains_parent _ hid),
        h.parent group hgroup]
      exact congrArg some (total_congr fun child hmem =>
        hown child (hc.child_not_parent group hgroup child hmem))
    · rw [find?_store_of_not_child hc hunderived hgroup hchild,
        find?_store_of_not_child hc hunderived hgroup hchild]

end WellKept

/-- **A change that is exact can be taken back.** The opposite change succeeds and leaves the ledger
    as it was. -/
theorem WellKept.apply_opposite [Amount.Signed α] {catalog : Catalog α} (hc : catalog.Consistent)
    {ledger after : Ledger α} (h : ledger.WellKept catalog) {delta : Delta α}
    (hexact : delta.Exact ledger) {change : Change α}
    (hrun : (apply catalog delta).run ledger = (.ok change, after)) :
    after.WellKept catalog ∧
    ∃ change', (apply catalog delta.opposite).run after = (.ok change', ledger) := by
  obtain ⟨hwritable, signed, hsigned, hfinite⟩ := of_run_apply hrun
  obtain ⟨hwithin, hsub⟩ := hexact signed hsigned
  rw [run_apply_of_contains hwritable hsigned hfinite hwithin] at hrun
  cases hrun
  obtain ⟨hknown, hunderived⟩ := Catalog.requireWritable_eq_ok.1 hwritable
  refine ⟨h.store hc hwritable hwithin, ?_⟩
  -- The opposite change attempts the old amount, which is finite and within the bounds.
  have hback : (ledger.store catalog delta.resource
      (ledger.amount delta.resource + signed)).amount delta.resource + -signed
        = ledger.amount delta.resource := by
    rw [amount_store_of_not_parent hc hunderived, if_pos rfl, ← Amount.Signed.sub_eq, hsub]
  have hopposite : catalog.requireWritable delta.opposite.resource = .ok () := hwritable
  refine ⟨_, (run_apply_of_contains hopposite (Delta.signedAmount_opposite hsigned) ?_ ?_).trans
    (Prod.ext rfl ?_)⟩
  · rw [show delta.opposite.resource = delta.resource from rfl, hback]
    exact Amount.Signed.isFinite_of_add hfinite
  · rw [show delta.opposite.resource = delta.resource from rfl, hback, store_boundsOf]
    exact h.within _ hknown hunderived
  · dsimp only
    rw [show delta.opposite.resource = delta.resource from rfl, hback]
    exact h.store_back hc hwritable _

end Ledger
end Realm
