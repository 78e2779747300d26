import Realm.Proofs.Ledger.Bounds
import Realm.Proofs.Ledger.Rollup

/-!
# The ledger that a player starts with

Every resource that is not derived starts at zero, moved into the bounds that content declares for
it, and with these bounds in force. So a new ledger is sound where the declared bounds are usable.
-/

set_option autoImplicit false

namespace Realm
namespace Ledger

variable {α : Type} [Amount α]

/-! ## Seeding -/

/-- A resource has the amount and the bounds to start with. -/
structure SeededAt (ledger : Ledger α) (id : String) (bounds : Bounds α) : Prop where
  amount : ledger.amount id = bounds.clamp 0
  bounds : ledger.boundsOf id = bounds

theorem find?_seed_of_ne {catalog : Catalog α} {ledger : Ledger α} {resource : Resource α}
    {id : String} (hne : resource.id ≠ id) :
    (seed catalog ledger resource).amounts.find? id = ledger.amounts.find? id ∧
      (seed catalog ledger resource).bounds.find? id = ledger.bounds.find? id := by
  unfold seed
  split
  · exact ⟨rfl, rfl⟩
  · constructor
    · simp [hne]
    · dsimp only
      split <;> simp [hne]

theorem boundsOf_seed_of_ne {catalog : Catalog α} {ledger : Ledger α} {resource : Resource α}
    {id : String} (hne : resource.id ≠ id) :
    (seed catalog ledger resource).boundsOf id = ledger.boundsOf id := by
  unfold boundsOf
  exact Table.findD_congr _ (find?_seed_of_ne hne).2

theorem SeededAt.seed_of_ne {catalog : Catalog α} {ledger : Ledger α} {resource : Resource α}
    {id : String} {bounds : Bounds α} (h : ledger.SeededAt id bounds) (hne : resource.id ≠ id) :
    (seed catalog ledger resource).SeededAt id bounds := by
  refine ⟨?_, ?_⟩
  · rw [← h.amount]
    exact Table.findD_congr 0 (find?_seed_of_ne hne).1
  · rw [boundsOf_seed_of_ne hne, h.bounds]

/-- Bounds that bound nothing are not written down, and none are in force where none are. -/
theorem seededAt_seed {catalog : Catalog α} {ledger : Ledger α} {resource : Resource α}
    (hid : catalog.isParent resource.id = false)
    (hbounds : ledger.boundsOf resource.id = .none ∨
      ledger.boundsOf resource.id = resource.bounds) :
    (seed catalog ledger resource).SeededAt resource.id resource.bounds := by
  unfold seed
  rw [if_neg (by simp [hid])]
  refine ⟨?_, ?_⟩
  · simp [amount, Table.findD]
  · by_cases hunbounded : resource.bounds.isUnbounded = true
    · have hnone : resource.bounds = .none := Bounds.eq_none_of_isUnbounded hunbounded
      rw [if_pos hunbounded, hnone]
      rw [hnone] at hbounds
      exact hbounds.elim id id
    · rw [if_neg hunbounded]
      simp [boundsOf, Table.findD]

/-- Seeding resources seeds each of them, if those of one id have the same bounds. -/
theorem seededAt_seeds {catalog : Catalog α} {id : String} (hid : catalog.isParent id = false)
    {bounds : Bounds α} {resources : List (Resource α)}
    (hsame : ∀ resource ∈ resources, resource.id = id → resource.bounds = bounds)
    {ledger : Ledger α}
    (hstart : ledger.SeededAt id bounds ∨
      (ledger.boundsOf id = .none ∧ ∃ resource ∈ resources, resource.id = id)) :
    (resources.foldl (seed catalog) ledger).SeededAt id bounds := by
  induction resources generalizing ledger with
  | nil =>
    rcases hstart with hseeded | ⟨-, resource, hmem, -⟩
    · exact hseeded
    · cases hmem
  | cons resource rest ih =>
    rw [List.foldl_cons]
    refine ih (fun other hother => hsame other (List.mem_cons_of_mem _ hother)) ?_
    by_cases heq : resource.id = id
    · -- Seeded for the first time or once more, the resource has the same bounds.
      subst heq
      have hbounds := hsame resource List.mem_cons_self rfl
      subst hbounds
      refine .inl (seededAt_seed hid ?_)
      rcases hstart with hseeded | ⟨hnone, -⟩
      · exact .inr hseeded.bounds
      · exact .inl hnone
    · rcases hstart with hseeded | ⟨hnone, other, hmem, hother⟩
      · exact .inl (hseeded.seed_of_ne heq)
      · refine .inr ⟨by rw [boundsOf_seed_of_ne heq, hnone], other, ?_, hother⟩
        refine (List.mem_cons.1 hmem).resolve_left ?_
        rintro rfl
        exact heq hother

/-- A resource that is not derived starts with zero, moved into its declared bounds. -/
theorem seededAt_initial {catalog : Catalog α} (hc : catalog.Consistent) {id : String}
    {resource : Resource α} (hfind : catalog.definition? id = some resource)
    (hid : catalog.isParent id = false) : (initial catalog).SeededAt id resource.bounds := by
  have hseeded : (catalog.definitions.values.foldl (seed catalog) empty).SeededAt id
      resource.bounds := by
    refine seededAt_seeds hid ?_ (.inr ⟨rfl, resource, ?_, ?_⟩)
    · intro other hmem hother
      obtain ⟨key, hkey⟩ := Table.mem_values_iff.1 hmem
      rw [← hc.definition_id key other hkey, hother] at hkey
      cases hkey.symm.trans hfind
      rfl
    · exact Table.mem_values_iff.2 ⟨id, hfind⟩
    · exact hc.definition_id id resource hfind
  refine ⟨?_, ?_⟩
  · rw [← hseeded.amount]
    exact Table.findD_congr 0 (find?_recomputeEach_of_ne fun group hgroup => hc.ne_parent hid hgroup)
  · rw [← hseeded.bounds]
    unfold boundsOf
    rw [show (initial catalog).bounds = _ from recomputeEach_bounds _ _]

/-! ## Soundness -/

variable [Amount.Ordered α]

theorem soundAt_initial {catalog : Catalog α} (hc : catalog.Consistent)
    (hzero : Amount.isFinite (0 : α) = true) {id : String} {resource : Resource α}
    (hfind : catalog.definition? id = some resource) (hid : catalog.isParent id = false)
    (husable : resource.bounds.areUsable = true) : (initial catalog).SoundAt id := by
  obtain ⟨hamount, hbounds⟩ := seededAt_initial hc hfind hid
  obtain ⟨hfinite, hwithin⟩ := Bounds.contains_clamp husable hzero
  refine ⟨?_, ?_, ?_⟩
  · rw [hamount]
    exact hfinite
  · rw [hbounds]
    exact Bounds.finite_of_areUsable husable
  · rw [hbounds, hamount]
    exact hwithin

end Ledger

end Realm
