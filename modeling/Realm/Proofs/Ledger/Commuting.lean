import Mathlib.Logic.Function.Conjugate
import Realm.Proofs.Ledger.Rollup

/-!
# Writes to different resources commute

Two writes that name different resources may be made in either order: the ledger is the same in the
end, to the last digit of every parent, and each write fails with the same error or stores the same
amount (`writes_commute`). Only what a report says of the parent of a group may differ, since the
parent passes through another amount on the way.

Two things make it so. What becomes of a write is decided by the amount and the bounds of its own
resource (`Write.verdict`), which no other write touches (`verdict_after_of_ne`). And a parent is
not adjusted when a child is written but found anew from all children in their order, so of two
children of one group the later one finds the total of the same amounts (`commute_store`).
-/

set_option autoImplicit false

namespace Realm

/-- The report without what it says of the group. -/
def Change.alone {α : Type} (change : Change α) : Change α := { change with rollup := none }

namespace Ledger

variable {α : Type} [Amount α]

/-! ## What becomes of a write -/

/-- What becomes of a write. -/
inductive Verdict (α : Type) where
  /-- It is refused, and nothing happens. -/
  | refused (error : LedgerError α)
  /-- The bounds that it brings are in force, and its amount is refused. -/
  | stranded (error : LedgerError α)
  | written (amount : α)

/-- What the write makes of a ledger. -/
def Verdict.ledger (catalog : Catalog α) (write : Write α) : Verdict α → Ledger α → Ledger α
  | .refused _ => id
  | .stranded _ => write.rebound
  | .written amount => fun ledger =>
    (write.rebound ledger).store catalog write.resource amount

/-- What it reports. -/
def Verdict.outcome (catalog : Catalog α) (write : Write α) (ledger : Ledger α) :
    Verdict α → Except (LedgerError α) (Change α)
  | .refused error => .error error
  | .stranded error => .error error
  | .written amount => .ok ((write.rebound ledger).changeOf catalog write.resource amount)

namespace Write

/-- The amount that is to be stored, if the write is not refused before. -/
def request (ledger : Ledger α) : Write α → Except (LedgerError α) α
  | .setBounds resource bounds policy =>
    if !bounds.areUsable then .error (.invalidBounds resource bounds)
    else if !bounds.contains (ledger.amount resource) && policy == .reject then
      .error (.boundViolation resource (ledger.amount resource) bounds)
    else .ok (ledger.amount resource)
  | write => write.attempted ledger

/-- What becomes of the amount. -/
def settle (ledger : Ledger α) (write : Write α) (attempted : α) : Verdict α :=
  if Amount.isFinite attempted = true then
    match reconcile write.resource ((write.rebound ledger).boundsOf write.resource) attempted
        write.policy with
    | .ok amount => .written amount
    | .error error => .stranded error
  else .stranded (.invalidAmount write.resource attempted)

/-- What becomes of the write. -/
def verdict (catalog : Catalog α) (ledger : Ledger α) (write : Write α) : Verdict α :=
  match catalog.requireWritable write.resource with
  | .error error => .refused error
  | .ok _ =>
    match write.request ledger with
    | .error error => .refused error
    | .ok attempted => write.settle ledger attempted

/-- The three operations are one, but for what they ask and for the bounds they bring. -/
theorem run_attempt (catalog : Catalog α) (write : Write α) (ledger : Ledger α) :
    (write.attempt catalog).run ledger =
      match catalog.requireWritable write.resource with
      | .error error => (.error error, ledger)
      | .ok _ =>
        match write.request ledger with
        | .error error => (.error error, ledger)
        | .ok attempted => (Ledger.write catalog write.resource attempted write.policy).run
            (write.rebound ledger) := by
  cases write with
  | apply delta =>
    show (Ledger.apply catalog delta).run ledger = _
    unfold Ledger.apply
    rw [Attempt.run_ofExcept_bind]
    cases hwritable : catalog.requireWritable delta.resource with
    | error error => simp only [resource, hwritable]
    | ok _ =>
      simp only [resource, hwritable, request, attempted]
      rw [Attempt.run_ofExcept_bind]
      cases delta.signedAmount with
      | error error => rfl
      | ok signed => rfl
  | setAmount resource amount policy =>
    show (Ledger.setAmount catalog resource amount policy).run ledger = _
    unfold Ledger.setAmount
    rw [Attempt.run_ofExcept_bind]
    simp only [Write.resource, request, attempted]
    cases catalog.requireWritable resource with
    | error error => rfl
    | ok _ => rfl
  | setBounds resource bounds policy =>
    show (Ledger.setBounds catalog resource bounds policy).run ledger = _
    unfold Ledger.setBounds
    rw [Attempt.run_ofExcept_bind]
    simp only [Write.resource, request]
    cases catalog.requireWritable resource with
    | error error => rfl
    | ok _ =>
      dsimp only
      by_cases husable : (!bounds.areUsable) = true
      · rw [if_pos husable, if_pos husable]
        rfl
      · rw [if_neg husable, if_neg husable, Attempt.run_get_bind]
        by_cases hrefuses :
            (!bounds.contains (ledger.amount resource) && policy == .reject) = true
        · rw [if_pos hrefuses, if_pos hrefuses]
          rfl
        · rw [if_neg hrefuses, if_neg hrefuses, Attempt.run_set_bind]
          rfl

/-- A write is carried out as it is decided. -/
theorem run_eq_verdict (catalog : Catalog α) (write : Write α) (ledger : Ledger α) :
    (write.attempt catalog).run ledger =
      ((write.verdict catalog ledger).outcome catalog write ledger,
        (write.verdict catalog ledger).ledger catalog write ledger) := by
  rw [run_attempt]
  unfold verdict
  cases catalog.requireWritable write.resource with
  | error error => rfl
  | ok _ =>
    dsimp only
    cases write.request ledger with
    | error error => rfl
    | ok attempted =>
      dsimp only
      rw [run_write]
      unfold settle
      by_cases hfinite : Amount.isFinite attempted = true
      · rw [if_pos hfinite, if_pos hfinite]
        cases reconcile write.resource ((write.rebound ledger).boundsOf write.resource) attempted
          write.policy with
        | error error => rfl
        | ok amount => rfl
      · rw [if_neg hfinite, if_neg hfinite]
        rfl

/-- The amount and the bounds of the resource decide. -/
theorem verdict_congr {catalog : Catalog α} {write : Write α} {ledger other : Ledger α}
    (hamount : ledger.amount write.resource = other.amount write.resource)
    (hbounds : ledger.boundsOf write.resource = other.boundsOf write.resource) :
    write.verdict catalog ledger = write.verdict catalog other := by
  have hrequest : write.request ledger = write.request other := by
    cases write with
    | apply delta =>
      simp only [request, attempted]
      rw [show ledger.amount delta.resource = other.amount delta.resource from hamount]
    | setAmount resource amount policy => rfl
    | setBounds resource bounds policy =>
      simp only [request]
      rw [show ledger.amount resource = other.amount resource from hamount]
  have hrebound : (write.rebound ledger).boundsOf write.resource
      = (write.rebound other).boundsOf write.resource := by
    cases write with
    | apply delta => exact hbounds
    | setAmount resource amount policy => exact hbounds
    | setBounds resource bounds policy =>
      rw [show (Write.setBounds resource bounds policy).resource = resource from rfl,
        rebound_boundsOf_setBounds, rebound_boundsOf_setBounds]
  unfold verdict settle
  rw [hrequest, hrebound]

/-- Unless it is refused, a write names no derived resource. -/
theorem verdict_refused_or (catalog : Catalog α) (write : Write α) (ledger : Ledger α) :
    (∃ error, write.verdict catalog ledger = .refused error) ∨
      catalog.isParent write.resource = false := by
  unfold verdict
  cases hwritable : catalog.requireWritable write.resource with
  | error error => exact .inl ⟨error, rfl⟩
  | ok _ => exact .inr (Catalog.requireWritable_eq_ok.1 hwritable).2

/-! ## What other writes leave alone -/

theorem amount_after_of_ne {catalog : Catalog α} (hc : catalog.Consistent) (write : Write α)
    (ledger : Ledger α) {id : String} (hne : write.resource ≠ id)
    (hid : catalog.isParent id = false) :
    ((write.attempt catalog).after ledger).amount id = ledger.amount id := by
  rw [Attempt.after_def, run_eq_verdict]
  cases write.verdict catalog ledger with
  | refused error => rfl
  | stranded error => exact write.rebound_amount ledger id
  | written amount =>
    show ((write.rebound ledger).store catalog write.resource amount).amount id = _
    rw [amount_store_of_not_parent hc hid, if_neg hne, rebound_amount]

theorem boundsOf_after_of_ne (catalog : Catalog α) (write : Write α) (ledger : Ledger α)
    {id : String} (hne : write.resource ≠ id) :
    ((write.attempt catalog).after ledger).boundsOf id = ledger.boundsOf id := by
  rw [Attempt.after_def, run_eq_verdict]
  cases write.verdict catalog ledger with
  | refused error => rfl
  | stranded error => exact write.rebound_boundsOf_of_ne ledger hne
  | written amount =>
    show ((write.rebound ledger).store catalog write.resource amount).boundsOf id = _
    rw [store_boundsOf, write.rebound_boundsOf_of_ne ledger hne]

/-- What becomes of a write does not depend on a write to another resource. -/
theorem verdict_after_of_ne {catalog : Catalog α} (hc : catalog.Consistent) {write other : Write α}
    (hne : other.resource ≠ write.resource) (ledger : Ledger α) :
    write.verdict catalog ((other.attempt catalog).after ledger)
      = write.verdict catalog ledger := by
  cases hwritable : catalog.requireWritable write.resource with
  | error error =>
    unfold verdict
    rw [hwritable]
  | ok _ =>
    have hunderived := (Catalog.requireWritable_eq_ok.1 hwritable).2
    exact verdict_congr (other.amount_after_of_ne hc ledger hne hunderived)
      (other.boundsOf_after_of_ne catalog ledger hne)

end Write

/-! ## What two writes do -/

omit [Amount α] in
theorem ext_find? {ledger other : Ledger α}
    (hamounts : ∀ id, ledger.amounts.find? id = other.amounts.find? id)
    (hbounds : ∀ id, ledger.bounds.find? id = other.bounds.find? id) : ledger = other := by
  obtain ⟨amounts, bounds⟩ := ledger
  obtain ⟨amounts', bounds'⟩ := other
  exact congrArg₂ Ledger.mk (Table.ext_find? hamounts) (Table.ext_find? hbounds)

omit [Amount α] in
/-- The bounds that a write brings take the place of any. -/
theorem Write.rebound_bounds_congr (write : Write α) {ledger other : Ledger α} {id : String}
    (h : ledger.bounds.find? id = other.bounds.find? id) :
    (write.rebound ledger).bounds.find? id = (write.rebound other).bounds.find? id := by
  cases write with
  | apply delta => exact h
  | setAmount resource amount policy => exact h
  | setBounds resource bounds policy =>
    unfold rebound
    dsimp only
    split
    · rw [Table.find?_erase, Table.find?_erase, h]
    · rw [Table.find?_insert, Table.find?_insert, h]

omit [Amount α] in
theorem commute_rebound {write other : Write α} (hne : write.resource ≠ other.resource) :
    Function.Commute write.rebound other.rebound := by
  intro ledger
  refine ext_find? (fun id => ?_) fun id => ?_
  · simp only [Write.rebound_amounts]
  · by_cases hid : write.resource = id
    · have hother : other.resource ≠ id := fun heq => hne (hid.trans heq.symm)
      rw [other.rebound_bounds_of_ne _ hother]
      exact write.rebound_bounds_congr (other.rebound_bounds_of_ne ledger hother)
    · rw [write.rebound_bounds_of_ne _ hid]
      exact other.rebound_bounds_congr (write.rebound_bounds_of_ne ledger hid).symm

/-- Bounds that are brought do not count in what is stored. -/
theorem commute_rebound_store (catalog : Catalog α) (write : Write α) (resource : String)
    (amount : α) :
    Function.Commute write.rebound fun ledger => ledger.store catalog resource amount := by
  intro ledger
  cases write with
  | apply delta => rfl
  | setAmount _ _ _ => rfl
  | setBounds _ bounds policy =>
    dsimp only
    unfold store
    cases catalog.groupOf? resource with
    | none => rfl
    | some group => rfl

/-- A parent that one of two stored amounts counts in is up to date with both. -/
theorem find?_parent_store_store {catalog : Catalog α} (hc : catalog.Consistent)
    {ledger : Ledger α} {resource other : String} {amount amount' : α}
    (hresource : catalog.isParent resource = false) (hother : catalog.isParent other = false)
    {group : Group} (hgroup : group ∈ catalog.groups.values) :
    ((ledger.store catalog other amount').store catalog resource amount).amounts.find?
        group.parent.id
      = if resource ∈ group.childIds ∨ other ∈ group.childIds then
          some (group.total
            ((ledger.store catalog other amount').store catalog resource amount).amounts)
        else ledger.amounts.find? group.parent.id := by
  by_cases hchild : resource ∈ group.childIds
  · rw [find?_store_parent hc hgroup hchild, if_pos (.inl hchild)]
  rw [find?_store_of_not_child hc hresource hgroup hchild,
    total_store_of_not_child hc hgroup hchild]
  by_cases hchild' : other ∈ group.childIds
  · rw [find?_store_parent hc hgroup hchild', if_pos (.inr hchild')]
  · rw [find?_store_of_not_child hc hother hgroup hchild', if_neg (not_or.2 ⟨hchild, hchild'⟩)]

section

variable {catalog : Catalog α} (hc : catalog.Consistent) {resource other : String}
  (hne : resource ≠ other) (hresource : catalog.isParent resource = false)
  (hother : catalog.isParent other = false) (amount amount' : α) (ledger : Ledger α)
include hc hne

/-- What is not a parent is stored for itself. -/
theorem find?_store_store_comm {id : String} (hid : catalog.isParent id = false) :
    ((ledger.store catalog other amount').store catalog resource amount).amounts.find? id
      = ((ledger.store catalog resource amount).store catalog other amount').amounts.find? id := by
  rw [find?_store_of_not_parent hc hid, find?_store_of_not_parent hc hid,
    find?_store_of_not_parent hc hid, find?_store_of_not_parent hc hid]
  by_cases heq : resource = id
  · rw [if_pos heq, if_neg fun heq' => hne (heq.trans heq'.symm)]
    simp only [heq, if_true]
  · rw [if_neg heq, if_neg heq]

/-- So a parent finds the same amounts of its children, whichever is stored last. -/
theorem total_store_store_comm {group : Group} (hgroup : group ∈ catalog.groups.values) :
    group.total ((ledger.store catalog other amount').store catalog resource amount).amounts
      = group.total
        ((ledger.store catalog resource amount).store catalog other amount').amounts :=
  total_congr fun child hchild => find?_store_store_comm hc hne amount amount' ledger
    (hc.child_not_parent group hgroup child hchild)

include hresource hother

theorem commute_store :
    Function.Commute (fun ledger : Ledger α => ledger.store catalog resource amount)
      fun ledger => ledger.store catalog other amount' := by
  intro ledger
  refine ext_find? (fun id => ?_) fun id => by simp only [store_bounds]
  cases hid : catalog.isParent id with
  | false => exact find?_store_store_comm hc hne amount amount' ledger hid
  | true =>
    obtain ⟨group, hgroup, rfl⟩ := (hc.isParent_iff id).1 hid
    rw [find?_parent_store_store hc hresource hother hgroup,
      find?_parent_store_store hc hother hresource hgroup,
      total_store_store_comm hc hne amount amount' ledger hgroup]
    by_cases hchild : resource ∈ group.childIds
    · simp [hchild]
    · simp [hchild]

end

/-! ## Either order -/

/-- What a write does commutes with what commutes with its parts. -/
theorem Verdict.commute_ledger {catalog : Catalog α} {write : Write α} {f : Ledger α → Ledger α}
    (hrebound : Function.Commute f write.rebound)
    (hstore : ∀ amount, Function.Commute f
      fun ledger => ledger.store catalog write.resource amount)
    (verdict : Verdict α) : Function.Commute f (verdict.ledger catalog write) := by
  cases verdict with
  | refused error => exact .id_right
  | stranded error => exact hrebound
  | written amount => exact (hstore amount).comp_right hrebound

theorem Write.commute_ledger {catalog : Catalog α} (hc : catalog.Consistent) {write other : Write α}
    (hne : write.resource ≠ other.resource) (ledger : Ledger α) :
    Function.Commute ((write.verdict catalog ledger).ledger catalog write)
      ((other.verdict catalog ledger).ledger catalog other) := by
  obtain ⟨error, hrefused⟩ | hwrite := write.verdict_refused_or catalog ledger
  · rw [hrefused]
    exact .id_left
  obtain ⟨error, hrefused⟩ | hother := other.verdict_refused_or catalog ledger
  · rw [hrefused]
    exact .id_right
  refine Verdict.commute_ledger ?_ (fun amount' => ?_) _
  · refine (Verdict.commute_ledger (commute_rebound hne.symm) (fun amount => ?_) _).symm
    exact commute_rebound_store catalog other write.resource amount
  · refine (Verdict.commute_ledger ?_ (fun amount => ?_) _).symm
    · exact (commute_rebound_store catalog write other.resource amount').symm
    · exact commute_store hc hne.symm hother hwrite amount' amount

theorem Write.after_eq (catalog : Catalog α) (write : Write α) (ledger : Ledger α) :
    (write.attempt catalog).after ledger
      = (write.verdict catalog ledger).ledger catalog write ledger := by
  rw [Attempt.after_def, run_eq_verdict]

/-- What is reported of the resource itself follows from what becomes of the write. -/
theorem Write.outcome_alone_after {catalog : Catalog α} (hc : catalog.Consistent)
    {write other : Write α} (hne : other.resource ≠ write.resource) (ledger : Ledger α) :
    ((write.attempt catalog).outcome ((other.attempt catalog).after ledger)).map Change.alone
      = ((write.attempt catalog).outcome ledger).map Change.alone := by
  rw [Attempt.outcome_def, Attempt.outcome_def, run_eq_verdict, run_eq_verdict,
    verdict_after_of_ne hc hne]
  obtain ⟨error, hrefused⟩ | hwrite := write.verdict_refused_or catalog ledger
  · rw [hrefused]
    rfl
  · have hamount := other.amount_after_of_ne hc ledger hne hwrite
    cases write.verdict catalog ledger with
    | refused error => rfl
    | stranded error => rfl
    | written amount =>
      refine congrArg Except.ok ?_
      simp only [Change.alone, changeOf, rebound_amount, hamount]

/-- **Writes to different resources commute.** In either order the ledger is the same in the end,
    and each write ends alike: it fails with the same error, or it reports the same amounts, before
    and after, of its resource. -/
theorem writes_commute {resources : List (Resource α)} {groups : List Group} {catalog : Catalog α}
    (hbuild : Catalog.build resources groups = .ok catalog) (ledger : Ledger α)
    {first second : Write α} (hne : first.resource ≠ second.resource) :
    (second.attempt catalog).after ((first.attempt catalog).after ledger)
      = (first.attempt catalog).after ((second.attempt catalog).after ledger) ∧
    ((first.attempt catalog).outcome ((second.attempt catalog).after ledger)).map Change.alone
      = ((first.attempt catalog).outcome ledger).map Change.alone ∧
    ((second.attempt catalog).outcome ((first.attempt catalog).after ledger)).map Change.alone
      = ((second.attempt catalog).outcome ledger).map Change.alone := by
  have hc := Catalog.build_consistent hbuild
  refine ⟨?_, Write.outcome_alone_after hc hne.symm ledger,
    Write.outcome_alone_after hc hne ledger⟩
  have hcommute := Write.commute_ledger hc hne ledger
  calc (second.attempt catalog).after ((first.attempt catalog).after ledger)
      = (second.verdict catalog ledger).ledger catalog second
          ((first.verdict catalog ledger).ledger catalog first ledger) := by
        rw [second.after_eq, Write.verdict_after_of_ne hc hne, first.after_eq]
    _ = (first.verdict catalog ledger).ledger catalog first
          ((second.verdict catalog ledger).ledger catalog second ledger) := (hcommute ledger).symm
    _ = (first.attempt catalog).after ((second.attempt catalog).after ledger) := by
        rw [first.after_eq, Write.verdict_after_of_ne hc hne.symm, second.after_eq]

/-! Timber and ore are children of one group. -/

def raiseTimber : Write Binary64 := .apply { resource := "timber", magnitude := Amount.ofInt 3 }

def setOre : Write Binary64 := .setAmount "ore" (Amount.ofDecimal false 25 (-1)) .clamp

theorem writes_commute_siblings :
    raiseTimber.resource ≠ setOre.resource ∧
    ∃ catalog, Catalog.build [Sample.timber, Sample.ore] [Sample.stores] = .ok catalog ∧
      (setOre.attempt catalog).after ((raiseTimber.attempt catalog).after (initial catalog))
        = (raiseTimber.attempt catalog).after ((setOre.attempt catalog).after (initial catalog)) := by
  have hne : raiseTimber.resource ≠ setOre.resource := by decide
  obtain ⟨catalog, hcatalog⟩ : ∃ catalog,
      Catalog.build [Sample.timber, Sample.ore] [Sample.stores] = .ok catalog := ⟨_, rfl⟩
  exact ⟨hne, catalog, hcatalog, (writes_commute hcatalog (initial catalog) hne).1⟩

end Ledger
end Realm
