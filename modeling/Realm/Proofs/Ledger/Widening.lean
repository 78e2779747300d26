import Realm.Proofs.Amount.Growth
import Realm.Proofs.Ledger.Bounds
import Realm.Proofs.Ledger.Validation

/-!
# Raising an upper bound

New bounds come into force by an operation that may do more than that: it moves the amount into
them, brings a parent up to date and tells of gains. Where the new bounds are the old ones with a
higher upper bound, nothing of this is to happen, and nothing does (`raised_of_setBounds`): the
amount lies within the old bounds, so it lies within the new ones and is stored as it is, and the
parent already has its total. The latter is what makes the ledger's fourth rule matter here. A raise
in a ledger with a stale total would bring the total up to date and tell of it.

The parent is not the same number bit by bit. Both zeros are totals of zero.
-/

set_option autoImplicit false

namespace Realm
namespace Ledger

/-! ## Storing what is there -/

section

variable {α : Type} [Amount α]

theorem amount_insert_self (ledger : Ledger α) (resource id : String) :
    { ledger with amounts := ledger.amounts.insert resource (ledger.amount resource) }.amount id
      = ledger.amount id := by
  refine (Table.findD_insert _ _ _ _ _).trans ?_
  split
  · rename_i hid
    rw [hid]
  · rfl

theorem total_insert_self (ledger : Ledger α) (resource : String) (group : Group) :
    group.total (ledger.amounts.insert resource (ledger.amount resource))
      = group.total ledger.amounts := by
  unfold Group.total
  cases group.relation with
  | sumOfAll =>
    dsimp only
    congr 1
    exact List.map_congr_left fun child _ => amount_insert_self ledger resource child

/-- Storing the amount that is there brings the parent up to date, and that is all it does. -/
theorem amount_store_self (catalog : Catalog α) (ledger : Ledger α) (resource id : String) :
    (ledger.store catalog resource (ledger.amount resource)).amount id = ledger.amount id ∨
      ∃ group, catalog.groupOf? resource = some group ∧ group.parent.id = id ∧
        (ledger.store catalog resource (ledger.amount resource)).amount id
          = group.total ledger.amounts := by
  unfold store
  cases hgroup : catalog.groupOf? resource with
  | none => exact .inl (amount_insert_self ledger resource id)
  | some group =>
    dsimp only
    unfold amount
    rw [recompute_amounts, Table.findD_insert]
    by_cases hid : group.parent.id = id
    · rw [if_pos hid]
      exact .inr ⟨group, rfl, hid, total_insert_self ledger resource group⟩
    · rw [if_neg hid]
      exact .inl (amount_insert_self ledger resource id)

/-- Bounds that have been replaced are usable and the resource may be written; and where the amount
    lies within the new bounds, it has been stored as it was. -/
theorem of_run_setBounds {catalog : Catalog α} {ledger : Ledger α} {resource : String}
    {bounds : Bounds α} {policy : Reconciliation} {change : Change α} {after : Ledger α}
    (hrun : (setBounds catalog resource bounds policy).run ledger = (.ok change, after)) :
    catalog.requireWritable resource = .ok () ∧ bounds.areUsable = true ∧
      (bounds.contains (ledger.amount resource) = true →
        let rebound := (Write.setBounds resource bounds policy).rebound ledger
        change = rebound.changeOf catalog resource (ledger.amount resource) ∧
          after = rebound.store catalog resource (ledger.amount resource)) := by
  have hending := Write.ending_setBounds catalog resource bounds policy ledger
  rw [hrun] at hending
  cases hending with
  | written attempted amount hwritable husable hattempted hfinite hamount =>
    refine ⟨hwritable, husable, fun hcontains => ?_⟩
    cases hattempted
    have hkept : amount = ledger.amount resource := by
      change reconcile resource (Ledger.boundsOf _ resource) _ _ = _ at hamount
      rw [Write.rebound_boundsOf_setBounds] at hamount
      unfold reconcile at hamount
      rw [if_pos hcontains] at hamount
      cases hamount
      rfl
    rw [hkept]
    exact ⟨rfl, rfl⟩

end

variable {catalog : Catalog Binary64} {ledger : Ledger Binary64}

theorem same_store_self (hc : catalog.Consistent) (hlevel : ledger.Level catalog)
    (resource id : String) :
    Amount.Same ((ledger.store catalog resource (ledger.amount resource)).amount id)
      (ledger.amount id) := by
  rcases amount_store_self catalog ledger resource id with hkept | ⟨group, hgroup, rfl, htotal⟩
  · rw [hkept]
    exact Binary64.same_self _
  · rw [htotal]
    exact hlevel group ((hc.groupOf?_iff resource group).1 hgroup).1

theorem gain?_of_same {resource : String} {previous current : Binary64}
    (h : Amount.Same current previous) : Change.gain? resource previous current = none := by
  unfold Change.gain?
  rw [show Amount.noticeable (current - previous) = false from Binary64.noticeable_sub_of_same h,
    if_neg Bool.false_ne_true]

/-- Storing what is there is nothing to tell of. -/
theorem gains_changeOf_self (hc : catalog.Consistent) (hlevel : ledger.Level catalog)
    (resource : String) :
    (ledger.changeOf catalog resource (ledger.amount resource)).gains = [] := by
  unfold Change.gains changeOf
  dsimp only
  rw [gain?_of_same (Binary64.same_self _)]
  cases hgroup : catalog.groupOf? resource with
  | none => rfl
  | some group =>
    have hsame : Amount.Same
        (group.total (ledger.amounts.insert resource (ledger.amount resource)))
        ({ ledger with amounts := ledger.amounts.insert resource (ledger.amount resource) }.amount
          group.parent.id) := by
      rw [total_insert_self, amount_insert_self]
      exact hlevel group ((hc.groupOf?_iff resource group).1 hgroup).1
    exact congrArg Option.toList (gain?_of_same hsame)

/-! ## Raising -/

/-- A ledger after the upper bound of a resource has been raised, if it has one. -/
structure Raised (catalog : Catalog Binary64) (resource : String) (increase : Binary64)
    (before after : Ledger Binary64) : Prop where
  /-- Amounts are the numbers that they were, and the ones that are no totals are untouched. -/
  amounts : ∀ id, Amount.Same (after.amount id) (before.amount id)
  stored : ∀ id, catalog.isParent id = false → after.amount id = before.amount id
  /-- So are the bounds of all other resources, and the lower bound of this one. -/
  others : ∀ id, resource ≠ id → after.boundsOf id = before.boundsOf id
  lower : (after.boundsOf resource).lower = (before.boundsOf resource).lower
  /-- The upper bound is higher by the increase, and is missing where it was missing. -/
  upper : (after.boundsOf resource).upper
    = (before.boundsOf resource).upper.map fun upper => upper + increase
  grown : ∀ upper, (before.boundsOf resource).upper = some upper → upper ≤ upper + increase

/-- Where there is no upper bound there is nothing to raise. -/
theorem Raised.of_unbounded {resource : String} {increase : Binary64}
    (hupper : (ledger.boundsOf resource).upper = none) :
    Raised catalog resource increase ledger ledger where
  amounts _ := Binary64.same_self _
  stored _ _ := rfl
  others _ _ := rfl
  lower := rfl
  upper := by rw [hupper, Option.map_none]
  grown upper h := by
    rw [hupper] at h
    cases h

/-- Bounds that reach farther up hold the amount that the old ones held. -/
theorem SoundAt.contains_raised {resource : String} (hsound : ledger.SoundAt resource)
    {upper raised : Binary64} (hupper : (ledger.boundsOf resource).upper = some upper)
    (hfinite : Amount.isFinite raised = true) (hle : upper ≤ raised) :
    Bounds.contains { ledger.boundsOf resource with upper := some raised } (ledger.amount resource)
      = true := by
  obtain ⟨hlower, hwithin⟩ := Bounds.contains_iff.1 hsound.within
  refine Bounds.contains_iff.2 ⟨hlower, fun other hother => ?_⟩
  cases hother
  exact Amount.Ordered.le_trans hsound.amount (hsound.bounds.upper upper hupper) hfinite
    (hwithin upper hupper) hle

/-- Which bounds are in force is nothing to the totals. -/
theorem Level.rebound (h : ledger.Level catalog) (write : Write Binary64) :
    (write.rebound ledger).Level catalog := by
  intro group hgroup
  rw [Write.rebound_amounts, Write.rebound_amount]
  exact h group hgroup

/-- **Raising an upper bound raises it and does nothing else.** -/
theorem raised_of_setBounds (hc : catalog.Consistent) (hsound : ledger.Sound catalog)
    (hlevel : ledger.Level catalog) {resource : String} {upper increase : Binary64}
    (hupper : (ledger.boundsOf resource).upper = some upper)
    (hincrease : Amount.isFinite upper = true → Amount.isFinite (upper + increase) = true →
      upper ≤ upper + increase)
    {change : Change Binary64} {after : Ledger Binary64}
    (hrun : (setBounds catalog resource
        { ledger.boundsOf resource with upper := some (upper + increase) } .clamp).run ledger
      = (.ok change, after)) :
    Raised catalog resource increase ledger after ∧ change.gains = [] := by
  obtain ⟨hwritable, husable, hkept⟩ := of_run_setBounds hrun
  obtain ⟨hknown, hunderived⟩ := Catalog.requireWritable_eq_ok.1 hwritable
  have hresource : ledger.SoundAt resource := hsound resource hknown hunderived
  have hraised : Amount.isFinite (upper + increase) = true :=
    (Bounds.finite_of_areUsable husable).upper _ rfl
  have hle := hincrease (hresource.bounds.upper upper hupper) hraised
  obtain ⟨rfl, rfl⟩ := hkept (hresource.contains_raised hupper hraised hle)
  generalize hwrite : Write.setBounds resource
    { ledger.boundsOf resource with upper := some (upper + increase) } .clamp = write
  have hlevel' := hlevel.rebound write
  rw [← write.rebound_amount ledger resource]
  refine ⟨⟨fun id => ?_, fun id hid => ?_, fun id hne => ?_, ?_, ?_, fun other hother => ?_⟩,
    gains_changeOf_self hc hlevel' resource⟩
  · rw [← write.rebound_amount ledger id]
    exact same_store_self hc hlevel' resource id
  · rw [amount_store_of_not_parent hc hid, ← write.rebound_amount ledger id]
    split
    · rename_i heq
      rw [heq]
    · rfl
  · rw [store_boundsOf]
    exact write.rebound_boundsOf_of_ne ledger (hwrite ▸ hne)
  · rw [store_boundsOf, ← hwrite, Write.rebound_boundsOf_setBounds]
  · rw [store_boundsOf, ← hwrite, Write.rebound_boundsOf_setBounds, hupper, Option.map_some]
  · rw [hupper] at hother
    cases hother
    exact hle

end Ledger

end Realm
