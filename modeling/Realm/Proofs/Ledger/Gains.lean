import Realm.Proofs.Amount.Exact
import Realm.Proofs.Ledger.Write

/-!
# What a write reports

A write tells of its gains, and the gains are to account for it: what is told of a resource is by how
much its amount has changed. Where amounts are exact this is so of every resource
(`Write.accounts`), the parents of groups included, and whatever became of the amount that was
attempted.

Two amounts are stored at most, one after the other, and each is compared with what was there at that
moment. So it does not matter whether they are two: the second change begins where the first one
ended.
-/

set_option autoImplicit false

namespace Realm

variable {α : Type} [Amount α]

/-- What gains of a resource add up to. -/
def Gain.total (resource : String) (gains : List (Gain α)) : α :=
  ((gains.filter fun gain => gain.resourceId == resource).map (·.amount)).sum

/-- It does not matter whose gains they are. -/
theorem Gain.total_map_named (resource : String) (playerId : Option String)
    (gains : List (Gain α)) :
    Gain.total resource (gains.map fun gain => { gain with playerId })
      = Gain.total resource gains := by
  unfold Gain.total
  rw [List.filter_map, List.map_map]
  rfl

section

variable [Amount.Exact α]

theorem Gain.total_append (resource : String) (gains others : List (Gain α)) :
    Gain.total resource (gains ++ others)
      = Gain.total resource gains + Gain.total resource others := by
  unfold Gain.total
  rw [List.filter_append, List.map_append, Amount.Exact.sum_append]

/-- A change that is not told of is no change. -/
theorem Gain.total_gain? (id resource : String) (previous current : α) :
    Gain.total id (Change.gain? resource previous current).toList
      = if resource = id then current - previous else 0 := by
  unfold Change.gain? Gain.total
  by_cases hnoticeable : Amount.noticeable (current - previous) = true
  · rw [if_pos hnoticeable]
    by_cases hid : resource = id <;> simp [hid, Amount.Exact.add_zero]
  · have hzero : current - previous = 0 := by
      simpa [Amount.Exact.noticeable_iff] using hnoticeable
    rw [if_neg hnoticeable, hzero, ite_self]
    rfl

namespace Ledger

omit [Amount.Exact α] in
theorem amount_insert (ledger : Ledger α) (resource id : String) (amount : α) :
    { ledger with amounts := ledger.amounts.insert resource amount }.amount id
      = if resource = id then amount else ledger.amount id :=
  Table.findD_insert _ _ _ _ _

/-- What is told of one amount that is stored is what becomes of it. -/
theorem total_insert (ledger : Ledger α) (resource id : String) (amount : α) :
    Gain.total id (Change.gain? resource (ledger.amount resource) amount).toList
      = { ledger with amounts := ledger.amounts.insert resource amount }.amount id
        - ledger.amount id := by
  rw [Gain.total_gain?, amount_insert]
  by_cases hid : resource = id
  · rw [if_pos hid, if_pos hid, hid]
  · rw [if_neg hid, if_neg hid, Amount.Exact.sub_self]

theorem total_store (catalog : Catalog α) (ledger : Ledger α) (resource id : String)
    (amount : α) :
    Gain.total id (ledger.changeOf catalog resource amount).gains
      = (ledger.store catalog resource amount).amount id - ledger.amount id := by
  unfold Change.gains changeOf store
  dsimp only
  rw [Gain.total_append, total_insert]
  cases catalog.groupOf? resource with
  | none => exact Amount.Exact.add_zero _
  | some group =>
    -- The parent is compared with the ledger in which the resource is stored already.
    exact (congrArg _ (total_insert _ _ _ _)).trans (Amount.Exact.sub_add_sub _ _ _)

/-- Every write accounts for what it has done, and one that fails has changed no amount. -/
theorem Write.accounts (catalog : Catalog α) (write : Write α) (ledger : Ledger α) :
    match (write.attempt catalog).run ledger with
    | (.ok change, after) =>
      ∀ id, Gain.total id change.gains = after.amount id - ledger.amount id
    | (.error _, after) => ∀ id, after.amount id = ledger.amount id := by
  have hending := write.ending catalog ledger
  generalize (write.attempt catalog).run ledger = result at hending ⊢
  cases hending with
  | refused error => exact fun id => rfl
  | stranded error hwritable husable hamount => exact write.rebound_amount ledger
  | written attempted amount hwritable husable hattempted hfinite hamount =>
    intro id
    rw [total_store, rebound_amount]

end Ledger

end

end Realm
