import Realm.Ledger
import Realm.Proofs.Catalog

/-!
# How a write to a ledger ends

Three operations change a ledger from outside: a change of an amount, setting an amount, replacing
bounds. They are three ways to one place, `Ledger.write`, and this module says once how any of them
ends (`Write.ending`): it is *refused* and leaves the ledger alone; or it is *stranded*, which only
new bounds can be, if the amount they were given to was not finite to begin with; or it is
*written*, and then the ledger is the old one, under the bounds the write brought, with one amount
stored and one parent brought up to date (`Ledger.store`).

What the ledger keeps is then a matter of `store` alone, and no later proof opens an operation.
-/

set_option autoImplicit false

namespace Realm

theorem Bounds.eq_none_of_isUnbounded {α : Type} {bounds : Bounds α}
    (h : bounds.isUnbounded = true) : bounds = .none := by
  obtain ⟨lower, upper⟩ := bounds
  simp only [isUnbounded, Bool.and_eq_true, Option.isNone_iff_eq_none] at h
  obtain ⟨rfl, rfl⟩ := h
  rfl

namespace Ledger

variable {α : Type} [Amount α]

/-! ## Writes -/

/-- A call that changes a ledger. -/
inductive Write (α : Type) where
  | apply (delta : Delta α)
  | setAmount (resource : String) (amount : α) (policy : Reconciliation)
  | setBounds (resource : String) (bounds : Bounds α) (policy : Reconciliation)

namespace Write

def attempt (catalog : Catalog α) : Write α → LedgerAttempt α (Change α)
  | .apply delta => Ledger.apply catalog delta
  | .setAmount resource amount policy => Ledger.setAmount catalog resource amount policy
  | .setBounds resource bounds policy => Ledger.setBounds catalog resource bounds policy

/-- The resource that is written. -/
def resource : Write α → String
  | .apply delta => delta.resource
  | .setAmount resource _ _ => resource
  | .setBounds resource _ _ => resource

/-- The amount that is to be stored, if it lies within the bounds. -/
def attempted (ledger : Ledger α) : Write α → Except (LedgerError α) α
  | .apply delta => do return ledger.amount delta.resource + (← delta.signedAmount)
  | .setAmount _ amount _ => .ok amount
  | .setBounds resource _ _ => .ok (ledger.amount resource)

/-- What happens to the amount if it does not. An amount is always moved into new bounds: a policy
    that refuses to has been heard before. -/
def policy : Write α → Reconciliation
  | .apply delta => delta.reconciliation
  | .setAmount _ _ policy => policy
  | .setBounds _ _ _ => .clamp

/-- The bounds that the write brings, if it brings any, can be put into force. -/
def BoundsUsable : Write α → Prop
  | .setBounds _ bounds _ => bounds.areUsable = true
  | _ => True

/-- The ledger under the bounds that the write brings. -/
def rebound (ledger : Ledger α) : Write α → Ledger α
  | .setBounds resource bounds _ =>
    { ledger with
      bounds := if bounds.isUnbounded then ledger.bounds.erase resource
        else ledger.bounds.insert resource bounds }
  | _ => ledger

omit [Amount α] in
@[simp] theorem rebound_amounts (ledger : Ledger α) (write : Write α) :
    (write.rebound ledger).amounts = ledger.amounts := by
  cases write <;> rfl

theorem rebound_amount (ledger : Ledger α) (write : Write α) (id : String) :
    (write.rebound ledger).amount id = ledger.amount id := by
  unfold amount
  rw [rebound_amounts]

omit [Amount α] in
/-- A write brings bounds for its own resource only. -/
theorem rebound_bounds_of_ne (ledger : Ledger α) (write : Write α) {id : String}
    (h : write.resource ≠ id) :
    (write.rebound ledger).bounds.find? id = ledger.bounds.find? id := by
  cases write with
  | apply delta => rfl
  | setAmount resource amount policy => rfl
  | setBounds resource bounds policy =>
    have hne : resource ≠ id := h
    unfold rebound
    dsimp only
    split <;> simp [hne]

omit [Amount α] in
/-- The bounds that a write brings are in force afterwards. -/
theorem rebound_boundsOf_setBounds (ledger : Ledger α) (resource : String) (bounds : Bounds α)
    (policy : Reconciliation) :
    ((Write.setBounds resource bounds policy).rebound ledger).boundsOf resource = bounds := by
  unfold rebound boundsOf Table.findD
  dsimp only
  by_cases hunbounded : bounds.isUnbounded = true
  · rw [if_pos hunbounded, Table.find?_erase, if_pos rfl, Option.getD_none,
      Bounds.eq_none_of_isUnbounded hunbounded]
  · rw [if_neg hunbounded, Table.find?_insert, if_pos rfl, Option.getD_some]

omit [Amount α] in
theorem rebound_boundsOf_of_ne (ledger : Ledger α) (write : Write α) {id : String}
    (h : write.resource ≠ id) : (write.rebound ledger).boundsOf id = ledger.boundsOf id := by
  unfold boundsOf
  exact Table.findD_congr _ (write.rebound_bounds_of_ne ledger h)

/-- The write leaves every lower bound as it is. -/
def KeepsLower (ledger : Ledger α) : Write α → Prop
  | .setBounds resource bounds _ => bounds.lower = (ledger.boundsOf resource).lower
  | _ => True

omit [Amount α] in
theorem KeepsLower.rebound {ledger : Ledger α} {write : Write α} (h : write.KeepsLower ledger)
    (id : String) : ((write.rebound ledger).boundsOf id).lower = (ledger.boundsOf id).lower := by
  cases write with
  | apply delta => rfl
  | setAmount resource amount policy => rfl
  | setBounds resource bounds policy =>
    by_cases hid : resource = id
    · subst hid
      rw [rebound_boundsOf_setBounds]
      exact h
    · rw [rebound_boundsOf_of_ne ledger (.setBounds resource bounds policy) hid]

end Write

/-! ## Storing an amount -/

/-- Stores an amount and brings the parent of the resource's group up to date. -/
def store (catalog : Catalog α) (ledger : Ledger α) (resource : String) (amount : α) : Ledger α :=
  let written := { ledger with amounts := ledger.amounts.insert resource amount }
  match catalog.groupOf? resource with
  | none => written
  | some group => (written.recompute group).2

/-- What is reported of it. -/
def changeOf (catalog : Catalog α) (ledger : Ledger α) (resource : String) (amount : α) :
    Change α :=
  let written := { ledger with amounts := ledger.amounts.insert resource amount }
  { resource
    previous := ledger.amount resource
    current := amount
    rollup := (catalog.groupOf? resource).map fun group => (written.recompute group).1 }

@[simp] theorem store_bounds (catalog : Catalog α) (ledger : Ledger α) (resource : String)
    (amount : α) : (ledger.store catalog resource amount).bounds = ledger.bounds := by
  unfold store
  cases catalog.groupOf? resource with
  | none => rfl
  | some group => rfl

theorem store_boundsOf (catalog : Catalog α) (ledger : Ledger α) (resource : String) (amount : α)
    (id : String) : (ledger.store catalog resource amount).boundsOf id = ledger.boundsOf id := by
  unfold boundsOf
  rw [store_bounds]

/-- Only the resource and the parent of its group get another amount. -/
theorem find?_store_of_ne {catalog : Catalog α} {ledger : Ledger α} {resource id : String}
    {amount : α} (hne : resource ≠ id)
    (hgroup : ∀ group, catalog.groupOf? resource = some group → group.parent.id ≠ id) :
    (ledger.store catalog resource amount).amounts.find? id = ledger.amounts.find? id := by
  unfold store
  cases hfind : catalog.groupOf? resource with
  | none => simp [hne]
  | some group => simp [recompute, hne, hgroup group hfind]

theorem find?_store_of_not_parent {catalog : Catalog α} (hc : catalog.Consistent)
    {ledger : Ledger α} {resource id : String} {amount : α} (hid : catalog.isParent id = false) :
    (ledger.store catalog resource amount).amounts.find? id
      = if resource = id then some amount else ledger.amounts.find? id := by
  have hgroup : ∀ group, catalog.groupOf? resource = some group → group.parent.id ≠ id :=
    fun group hfind => hc.ne_parent hid ((hc.groupOf?_iff resource group).1 hfind).1
  by_cases heq : resource = id
  · subst heq
    unfold store
    cases hfind : catalog.groupOf? resource with
    | none => simp
    | some group => simp [recompute, hgroup group hfind]
  · rw [find?_store_of_ne heq hgroup, if_neg heq]

theorem amount_store_of_not_parent {catalog : Catalog α} (hc : catalog.Consistent)
    {ledger : Ledger α} {resource id : String} {amount : α} (hid : catalog.isParent id = false) :
    (ledger.store catalog resource amount).amount id
      = if resource = id then amount else ledger.amount id := by
  unfold Ledger.amount Table.findD
  rw [find?_store_of_not_parent hc hid]
  by_cases h : resource = id <;> simp [h]

/-! ## Endings -/

/-- How a write of an amount runs. -/
theorem run_write (catalog : Catalog α) (resource : String) (attempted : α)
    (policy : Reconciliation) (ledger : Ledger α) :
    (write catalog resource attempted policy).run ledger =
      if Amount.isFinite attempted = true then
        match reconcile resource (ledger.boundsOf resource) attempted policy with
        | .ok amount =>
          (.ok (ledger.changeOf catalog resource amount), ledger.store catalog resource amount)
        | .error error => (.error error, ledger)
      else (.error (.invalidAmount resource attempted), ledger) := by
  unfold write
  by_cases hfinite : Amount.isFinite attempted = true
  · simp only [hfinite, Bool.not_true, Bool.false_eq_true, if_false, if_true]
    rw [Attempt.run_bind, Attempt.run_get]
    dsimp only
    rw [Attempt.run_bind, Attempt.run_ofExcept]
    cases reconcile resource (ledger.boundsOf resource) attempted policy with
    | error error => rfl
    | ok amount =>
      dsimp only
      unfold changeOf store
      cases catalog.groupOf? resource with
      | none => rfl
      | some group => rfl
  · simp [hfinite]

/-- How a write may end. -/
inductive Write.Ending (catalog : Catalog α) (write : Write α) (ledger : Ledger α) :
    Except (LedgerError α) (Change α) × Ledger α → Prop
  /-- It is refused, and nothing has happened. -/
  | refused (error : LedgerError α) : Ending catalog write ledger (.error error, ledger)
  /-- It brought bounds for an amount that is not finite. -/
  | stranded (error : LedgerError α)
      (hwritable : catalog.requireWritable write.resource = .ok ())
      (husable : write.BoundsUsable)
      (hamount : Amount.isFinite (ledger.amount write.resource) = false) :
      Ending catalog write ledger (.error error, write.rebound ledger)
  /-- An amount is stored: the attempted one, as far as the bounds allow it. -/
  | written (attempted amount : α)
      (hwritable : catalog.requireWritable write.resource = .ok ())
      (husable : write.BoundsUsable)
      (hattempted : write.attempted ledger = .ok attempted)
      (hfinite : Amount.isFinite attempted = true)
      (hamount : reconcile write.resource ((write.rebound ledger).boundsOf write.resource) attempted
        write.policy = .ok amount) :
      Ending catalog write ledger
        (.ok ((write.rebound ledger).changeOf catalog write.resource amount),
          (write.rebound ledger).store catalog write.resource amount)

/-- Clamping always finds an amount. -/
theorem reconcile_clamp (resource : String) (bounds : Bounds α) (attempted : α) :
    ∃ amount, reconcile resource bounds attempted .clamp = .ok amount := by
  unfold reconcile
  by_cases h : bounds.contains attempted = true
  · exact ⟨attempted, by simp [h]⟩
  · exact ⟨bounds.clamp attempted, by simp [h]⟩

/-- The ending of a write whose bounds are in force and whose amount is known. -/
theorem Write.ending_write {catalog : Catalog α} (write : Write α) {ledger : Ledger α}
    {attempted : α} (hwritable : catalog.requireWritable write.resource = .ok ())
    (husable : write.BoundsUsable) (hattempted : write.attempted ledger = .ok attempted)
    (hrefused : ∀ error, Amount.isFinite attempted = false ∨ write.policy = .reject →
      write.Ending catalog ledger (.error error, write.rebound ledger)) :
    write.Ending catalog ledger
      ((Ledger.write catalog write.resource attempted write.policy).run
        (write.rebound ledger)) := by
  rw [run_write]
  by_cases hfinite : Amount.isFinite attempted = true
  · rw [if_pos hfinite]
    cases hamount : reconcile write.resource ((write.rebound ledger).boundsOf write.resource)
        attempted write.policy with
    | ok amount => exact .written attempted amount hwritable husable hattempted hfinite hamount
    | error error =>
      refine hrefused error (.inr ?_)
      cases hpolicy : write.policy with
      | reject => rfl
      | clamp =>
        obtain ⟨amount, hclamp⟩ := reconcile_clamp write.resource
          ((write.rebound ledger).boundsOf write.resource) attempted
        rw [hpolicy, hclamp] at hamount
        cases hamount
  · rw [if_neg hfinite]
    exact hrefused _ (.inl (by simpa using hfinite))

theorem Write.ending_apply (catalog : Catalog α) (delta : Delta α) (ledger : Ledger α) :
    (Write.apply delta).Ending catalog ledger ((Ledger.apply catalog delta).run ledger) := by
  unfold Ledger.apply
  rw [Attempt.run_ofExcept_bind]
  cases hwritable : catalog.requireWritable delta.resource with
  | error error => exact .refused error
  | ok _ =>
    dsimp only
    rw [Attempt.run_ofExcept_bind]
    cases hsigned : delta.signedAmount with
    | error error => exact .refused error
    | ok signed =>
      dsimp only
      rw [Attempt.run_get_bind]
      have hattempted : (Write.apply delta).attempted ledger
          = .ok (ledger.amount delta.resource + signed) := by
        simp only [Write.attempted, hsigned]
        rfl
      exact Write.ending_write (.apply delta) hwritable trivial hattempted
        fun error _ => .refused error

theorem Write.ending_setAmount (catalog : Catalog α) (resource : String) (amount : α)
    (policy : Reconciliation) (ledger : Ledger α) :
    (Write.setAmount resource amount policy).Ending catalog ledger
      ((Ledger.setAmount catalog resource amount policy).run ledger) := by
  unfold Ledger.setAmount
  rw [Attempt.run_ofExcept_bind]
  cases hwritable : catalog.requireWritable resource with
  | error error => exact .refused error
  | ok _ =>
    exact Write.ending_write (.setAmount resource amount policy) hwritable trivial rfl
      fun error _ => .refused error

theorem Write.ending_setBounds (catalog : Catalog α) (resource : String) (bounds : Bounds α)
    (policy : Reconciliation) (ledger : Ledger α) :
    (Write.setBounds resource bounds policy).Ending catalog ledger
      ((Ledger.setBounds catalog resource bounds policy).run ledger) := by
  unfold Ledger.setBounds
  rw [Attempt.run_ofExcept_bind]
  cases hwritable : catalog.requireWritable resource with
  | error error => exact .refused error
  | ok _ =>
    dsimp only
    by_cases husable : bounds.areUsable = true
    · rw [if_neg (by simp [husable]), Attempt.run_get_bind]
      by_cases hrefuses :
          (!bounds.contains (ledger.amount resource) && policy == .reject) = true
      · rw [if_pos hrefuses]
        exact .refused _
      · rw [if_neg hrefuses, Attempt.run_set_bind]
        refine Write.ending_write (.setBounds resource bounds policy) hwritable husable rfl
          fun error hcause => ?_
        rcases hcause with hamount | hpolicy
        · exact .stranded error hwritable husable hamount
        · cases hpolicy
    · rw [if_pos (by simp [husable])]
      exact .refused _

/-- Every write ends in one of the three ways. -/
theorem Write.ending (catalog : Catalog α) (write : Write α) (ledger : Ledger α) :
    write.Ending catalog ledger ((write.attempt catalog).run ledger) := by
  cases write with
  | apply delta => exact Write.ending_apply catalog delta ledger
  | setAmount resource amount policy =>
    exact Write.ending_setAmount catalog resource amount policy ledger
  | setBounds resource bounds policy =>
    exact Write.ending_setBounds catalog resource bounds policy ledger

/-- A write that brings no other lower bound leaves every one as it is, however it ends. -/
theorem Write.KeepsLower.after {catalog : Catalog α} {ledger : Ledger α} {write : Write α}
    (h : write.KeepsLower ledger) (id : String) :
    (((write.attempt catalog).after ledger).boundsOf id).lower = (ledger.boundsOf id).lower := by
  rw [Attempt.after_def]
  have hending := write.ending catalog ledger
  generalize (write.attempt catalog).run ledger = result at hending
  cases hending with
  | refused error => rfl
  | stranded error _ _ _ => exact h.rebound id
  | written attempted amount _ _ _ _ _ =>
    rw [store_boundsOf]
    exact h.rebound id

end Ledger

end Realm
