import Realm.Proofs.Ledger.Commuting
import Realm.Proofs.Ledger.Initial

/-!
# Bounds are those of registered resources

Nothing is written for a resource that nobody has registered (`Write.run_of_unknown`). To read its
bounds is another matter: it has none, and that does not tell it from a resource that is not
bounded. Whoever asks for bounds without asking for the resource relies on what is kept here, that a
new ledger has bounds for registered resources only and that no write brings others
(`BoundsKnown.write`).
-/

set_option autoImplicit false

namespace Realm
namespace Ledger

variable {α : Type} [Amount α] {catalog : Catalog α} {ledger : Ledger α}

theorem Write.run_of_unknown {write : Write α} (hunknown : catalog.contains write.resource = false)
    (ledger : Ledger α) :
    (write.attempt catalog).run ledger = (.error (.unknownResource write.resource), ledger) := by
  rw [Write.run_attempt, Catalog.requireWritable_of_unknown hunknown]

/-- Bounds are in force for registered resources only. -/
def BoundsKnown (catalog : Catalog α) (ledger : Ledger α) : Prop :=
  ∀ id, ledger.bounds.contains id = true → catalog.contains id = true

omit [Amount α] in
theorem BoundsKnown.boundsOf (h : ledger.BoundsKnown catalog) {id : String}
    (hunknown : catalog.contains id = false) : ledger.boundsOf id = .none := by
  have hbounds : ledger.bounds.contains id = false := by
    rw [← Bool.not_eq_true]
    intro hstored
    rw [h id hstored] at hunknown
    cases hunknown
  unfold Ledger.boundsOf Table.findD
  rw [Table.contains_eq_false_iff.1 hbounds]
  rfl

omit [Amount α] in
theorem BoundsKnown.rebound (h : ledger.BoundsKnown catalog) {write : Write α}
    (hwritable : catalog.requireWritable write.resource = .ok ()) :
    (write.rebound ledger).BoundsKnown catalog := by
  intro id hstored
  by_cases hid : write.resource = id
  · rw [← hid]
    exact (Catalog.requireWritable_eq_ok.1 hwritable).1
  · refine h id ?_
    unfold Table.contains at hstored ⊢
    rwa [write.rebound_bounds_of_ne ledger hid] at hstored

/-- A write brings bounds for a registered resource, however it ends. -/
theorem BoundsKnown.write (h : ledger.BoundsKnown catalog) (write : Write α) :
    ((write.attempt catalog).after ledger).BoundsKnown catalog := by
  rw [Attempt.after_def]
  have hending := write.ending catalog ledger
  generalize (write.attempt catalog).run ledger = result at hending
  cases hending with
  | refused error => exact h
  | stranded error hwritable _ _ => exact h.rebound hwritable
  | written attempted amount hwritable _ _ _ _ =>
    unfold BoundsKnown
    rw [store_bounds]
    exact h.rebound hwritable

theorem BoundsKnown.seed (h : ledger.BoundsKnown catalog) {resource : Resource α}
    (hknown : catalog.contains resource.id = true) :
    (seed catalog ledger resource).BoundsKnown catalog := by
  intro id hstored
  by_cases hid : resource.id = id
  · rw [← hid]
    exact hknown
  · refine h id ?_
    unfold Table.contains at hstored ⊢
    rwa [(find?_seed_of_ne hid).2] at hstored

theorem boundsKnown_initial (hc : catalog.Consistent) : (initial catalog).BoundsKnown catalog := by
  have hseeds : (catalog.definitions.values.foldl (seed catalog) empty).BoundsKnown catalog := by
    refine List.foldlRecOn catalog.definitions.values (seed catalog)
      (fun id hstored => absurd hstored (by simp [empty])) fun ledger h resource hresource => ?_
    obtain ⟨id, hfind⟩ := Table.mem_values_iff.1 hresource
    refine h.seed ?_
    rw [hc.definition_id id resource hfind]
    exact Table.contains_of_find? hfind
  unfold BoundsKnown initial
  rw [show (recomputeAll _ catalog).bounds = _ from recomputeEach_bounds _ _]
  exact hseeds

end Ledger

end Realm
