import Realm.Proofs.Ledger.Finite
import Realm.Proofs.Ledger.Validation

/-!
# Which catalogs seed a ledger in order

A new ledger keeps what checking asks for, but for two things that nobody has looked at by then.
Content may declare a lower bound above the upper one, and between such bounds there is no place for
an amount: clamping gives the lower one, which is not within them. And the first amounts of a
group's children may already be too large to be added up.

`validate_initial` says that nothing else can be wrong: where the declared bounds are finite, a new
ledger passes exactly if no bounds cross and no total overflows, and what the check reports
otherwise is one of the two (`SeedingFault`). Neither is refused when the catalog is made, though
`setBounds` refuses crossed bounds for good (`crossed_bounds_seeded`).
-/

set_option autoImplicit false

namespace Realm

open Amount Amount.Ordered

/-! ## Bounds that cross -/

namespace Bounds

variable {α : Type} [Amount α] [Amount.Ordered α] {bounds : Bounds α} {amount : α}

theorem areUsable_iff : bounds.areUsable = true ↔ bounds.Finite ∧ bounds.Uncrossed := by
  constructor
  · intro h
    exact ⟨finite_of_areUsable h, uncrossed_of_areUsable h⟩
  · rintro ⟨hfinite, huncrossed⟩
    unfold areUsable
    rw [Bool.and_eq_true, List.all_eq_true]
    refine ⟨fun bound hbound => ?_, ?_⟩
    · rcases List.mem_append.1 hbound with hlower | hupper
      · exact hfinite.lower bound (Option.mem_toList.1 hlower)
      · exact hfinite.upper bound (Option.mem_toList.1 hupper)
    · cases hlower : bounds.lower with
      | none => rfl
      | some lower =>
        cases hupper : bounds.upper with
        | none => rfl
        | some upper =>
          have hle : lower ≤ upper := huncrossed lower upper hlower hupper
          have hlt : ¬ upper < lower := by
            rw [lt_iff_not_le (hfinite.upper upper hupper) (hfinite.lower lower hlower)]
            exact not_not_intro hle
          simp [hlt]

/-- Where the bounds cross, clamping gives the lower one, whatever the amount was. -/
theorem clamp_of_crossed (hfinite : bounds.Finite) (hamount : isFinite amount = true)
    {lower upper : α} (hlower : bounds.lower = some lower) (hupper : bounds.upper = some upper)
    (h : upper < lower) : bounds.clamp amount = lower := by
  have hlf := hfinite.lower lower hlower
  have huf := hfinite.upper upper hupper
  have habove : ¬ lower ≤ upper := (lt_iff_not_le huf hlf).1 h
  unfold clamp
  rw [hlower, hupper]
  dsimp only
  rw [min_eq hamount huf]
  split
  · rename_i hle
    rw [max_eq hamount hlf, if_neg]
    intro hreached
    exact habove (le_trans hlf hamount huf hreached hle)
  · rw [max_eq huf hlf, if_neg habove]

theorem exists_crossed (hfinite : bounds.Finite) (h : ¬ bounds.Uncrossed) :
    ∃ lower upper, bounds.lower = some lower ∧ bounds.upper = some upper ∧ upper < lower := by
  unfold Uncrossed at h
  push Not at h
  obtain ⟨lower, upper, hlower, hupper, hcrossed⟩ := h
  refine ⟨lower, upper, hlower, hupper, ?_⟩
  exact (lt_iff_not_le (hfinite.upper upper hupper) (hfinite.lower lower hlower)).2 hcrossed

theorem isFinite_clamp (hfinite : bounds.Finite) (hamount : isFinite amount = true) :
    isFinite (bounds.clamp amount) = true := by
  by_cases huncrossed : bounds.Uncrossed
  · exact (contains_clamp (areUsable_iff.2 ⟨hfinite, huncrossed⟩) hamount).1
  · obtain ⟨lower, upper, hlower, hupper, hcrossed⟩ := exists_crossed hfinite huncrossed
    rw [clamp_of_crossed hfinite hamount hlower hupper hcrossed]
    exact hfinite.lower lower hlower

/-- Clamping ends within the bounds exactly if these do not cross. -/
theorem contains_clamp_iff (hfinite : bounds.Finite) (hamount : isFinite amount = true) :
    bounds.contains (bounds.clamp amount) = true ↔ bounds.Uncrossed := by
  constructor
  · intro h
    exact uncrossed_of_contains hfinite (isFinite_clamp hfinite hamount) h
  · intro huncrossed
    exact (contains_clamp (areUsable_iff.2 ⟨hfinite, huncrossed⟩) hamount).2

end Bounds

/-! ## The definitions of a catalog -/

namespace Catalog

variable {α : Type}

/-- What is registered and not derived is what the content lists. -/
theorem underived_iff {resources : List (Resource α)} {groups : List Group} {catalog : Catalog α}
    (hbuild : build resources groups = .ok catalog) {id : String} {resource : Resource α} :
    catalog.definition? id = some resource ∧ catalog.isParent id = false ↔
      resource ∈ resources ∧ resource.id = id := by
  have hadmissible := (build_succeeds_iff_admissible resources groups).1.1 ⟨catalog, hbuild⟩
  have hdescribes := describes_of_build hbuild
  rw [hdescribes.definition?_iff, ← Bool.not_eq_true, hdescribes.isParent_iff]
  constructor
  · rintro ⟨⟨hresource | ⟨group, hgroup, rfl⟩, hid⟩, hunderived⟩
    · exact ⟨hresource, hid⟩
    · exact absurd ⟨group, hgroup, hid⟩ hunderived
  · rintro ⟨hresource, hid⟩
    refine ⟨⟨.inl hresource, hid⟩, ?_⟩
    rintro ⟨group, hgroup, hparent⟩
    exact hadmissible.parents_new group hgroup resource hresource (hid.trans hparent.symm)

variable [Amount α]

/-- The amount that a resource starts with, as its definition says: zero, moved into its bounds. -/
def openingAmount (catalog : Catalog α) (id : String) : α :=
  ((catalog.definition? id).map fun resource => resource.bounds.clamp 0).getD 0

/-- The total that a group starts with. -/
def openingTotal (catalog : Catalog α) (group : Group) : α :=
  match group.relation with
  | .sumOfAll => Amount.sum (group.childIds.map catalog.openingAmount)

end Catalog

namespace Ledger

variable {α : Type} [Amount α] {catalog : Catalog α}

/-! ## What a new ledger holds -/

theorem contains_initial (hc : catalog.Consistent) (id : String) :
    (initial catalog).amounts.contains id = catalog.contains id :=
  (keys_eq_ids_iff hc).1 (rolledUp_initial hc).keys id

theorem amount_initial (hc : catalog.Consistent) {id : String} (hid : catalog.isParent id = false) :
    (initial catalog).amount id = catalog.openingAmount id := by
  unfold Catalog.openingAmount
  cases hfind : catalog.definition? id with
  | some resource => exact (seededAt_initial hc hfind hid).amount
  | none =>
    -- What is not registered has no amount, which counts as zero.
    have hunknown : catalog.contains id = false := Table.contains_eq_false_iff.2 hfind
    have habsent := contains_initial hc id
    rw [hunknown, Table.contains_eq_false_iff] at habsent
    unfold amount Table.findD
    rw [habsent]
    rfl

theorem total_initial (hc : catalog.Consistent) {group : Group}
    (hgroup : group ∈ catalog.groups.values) :
    group.total (initial catalog).amounts = catalog.openingTotal group := by
  unfold Group.total Catalog.openingTotal
  cases group.relation with
  | sumOfAll =>
    dsimp only
    congr 1
    refine List.map_congr_left fun child hchild => ?_
    exact amount_initial hc (hc.child_not_parent group hgroup child hchild)

/-- A parent starts with the total of its group, and without bounds. -/
theorem parent_initial (hc : catalog.Consistent) {group : Group}
    (hgroup : group ∈ catalog.groups.values) :
    (initial catalog).amount group.parent.id = catalog.openingTotal group ∧
      (initial catalog).boundsOf group.parent.id = .none := by
  have hrolled := rolledUp_initial hc
  refine ⟨?_, ?_⟩
  · rw [← total_initial hc hgroup]
    exact amount_of_find? (hrolled.parent group hgroup)
  · unfold boundsOf Table.findD
    rw [hrolled.unbounded group hgroup]
    rfl

section

variable {resources : List (Resource α)} {groups : List Group}

/-- Everything that the content lists is seeded. -/
theorem seededAt_of_mem (hbuild : Catalog.build resources groups = .ok catalog)
    {resource : Resource α} (hresource : resource ∈ resources) :
    (initial catalog).SeededAt resource.id resource.bounds := by
  obtain ⟨hfind, hid⟩ := (Catalog.underived_iff hbuild).2 ⟨hresource, rfl⟩
  exact seededAt_initial (Catalog.build_consistent hbuild) hfind hid

/-- What is stored belongs to something that the content lists, or to a parent. -/
theorem listed_or_parent (hbuild : Catalog.build resources groups = .ok catalog) {id : String}
    (hstored : (initial catalog).amounts.contains id = true) :
    (∃ resource ∈ resources, resource.id = id) ∨
      ∃ group ∈ catalog.groups.values, group.parent.id = id := by
  have hc := Catalog.build_consistent hbuild
  cases hid : catalog.isParent id with
  | true => exact .inr ((hc.isParent_iff id).1 hid)
  | false =>
    rw [contains_initial hc] at hstored
    obtain ⟨resource, hfind⟩ := Table.contains_iff.1 hstored
    exact .inl ⟨resource, (Catalog.underived_iff hbuild).1 ⟨hfind, hid⟩⟩

end

variable [Amount.Ordered α]

namespace SeededAt

variable {ledger : Ledger α} {id : String} {bounds : Bounds α}

theorem contains_iff (h : ledger.SeededAt id bounds) (hzero : isFinite (0 : α) = true)
    (hfinite : bounds.Finite) :
    (ledger.boundsOf id).contains (ledger.amount id) = true ↔ bounds.Uncrossed := by
  rw [h.amount, h.bounds]
  exact Bounds.contains_clamp_iff hfinite hzero

theorem isFinite_amount (h : ledger.SeededAt id bounds) (hzero : isFinite (0 : α) = true)
    (hfinite : bounds.Finite) : isFinite (ledger.amount id) = true := by
  rw [h.amount]
  exact Bounds.isFinite_clamp hfinite hzero

end SeededAt

/-! ## Checking it -/

/-- What can be wrong with a new ledger: a resource whose bounds cross, or a group whose total is
    not finite. -/
inductive SeedingFault (resources : List (Resource α)) (catalog : Catalog α) :
    LedgerError α → Prop
  | crossed (resource : Resource α) (hresource : resource ∈ resources) (lower upper : α)
      (hlower : resource.bounds.lower = some lower) (hupper : resource.bounds.upper = some upper)
      (hcrossed : upper < lower) :
      SeedingFault resources catalog (.boundViolation resource.id lower resource.bounds)
  | overflowed (group : Group) (hgroup : group ∈ catalog.groups.values)
      (htotal : isFinite (catalog.openingTotal group) = false) :
      SeedingFault resources catalog (.invalidAmount group.parent.id (catalog.openingTotal group))

variable {resources : List (Resource α)} {groups : List Group}

/-- A new ledger keeps what checking asks for if nothing crosses and nothing overflows, and only
    then. -/
theorem checked_initial_iff (hzero : isFinite (0 : α) = true)
    (hbuild : Catalog.build resources groups = .ok catalog)
    (hfinite : ∀ resource ∈ resources, resource.bounds.Finite) :
    (initial catalog).Checked catalog ↔
      (∀ resource ∈ resources, resource.bounds.Uncrossed) ∧
        ∀ group ∈ catalog.groups.values, isFinite (catalog.openingTotal group) = true := by
  have hc := Catalog.build_consistent hbuild
  constructor
  · intro h
    refine ⟨fun resource hresource => ?_, fun group hgroup => ?_⟩
    · have hfind := ((Catalog.underived_iff hbuild).2 ⟨hresource, rfl⟩).1
      have hstored := contains_initial hc resource.id
      rw [show catalog.contains resource.id = true from Table.contains_of_find? hfind] at hstored
      obtain ⟨amount, hamount⟩ := Table.contains_iff.1 hstored
      have hwithin := h.within resource.id amount hamount
      rw [← amount_of_find? hamount] at hwithin
      exact ((seededAt_of_mem hbuild hresource).contains_iff hzero
        (hfinite resource hresource)).1 hwithin
    · rw [← total_initial hc hgroup]
      exact h.finite _ _ ((rolledUp_initial hc).parent group hgroup)
  · rintro ⟨huncrossed, htotals⟩
    have hsound : ∀ id amount, (initial catalog).amounts.find? id = some amount →
        isFinite amount = true ∧ ((initial catalog).boundsOf id).contains amount = true := by
      intro id amount hamount
      rw [← amount_of_find? hamount]
      rcases listed_or_parent hbuild (Table.contains_of_find? hamount) with
        ⟨resource, hresource, rfl⟩ | ⟨group, hgroup, rfl⟩
      · have hseeded := seededAt_of_mem hbuild hresource
        have hbounds := hfinite resource hresource
        exact ⟨hseeded.isFinite_amount hzero hbounds,
          (hseeded.contains_iff hzero hbounds).2 (huncrossed resource hresource)⟩
      · obtain ⟨hparent, hunbounded⟩ := parent_initial hc hgroup
        rw [hparent, hunbounded]
        exact ⟨htotals group hgroup, rfl⟩
    refine ⟨fun id amount hamount => ?_, fun id amount hamount => (hsound id amount hamount).1,
      fun id amount hamount => (hsound id amount hamount).2, boundsKnown_initial hc⟩
    rw [← contains_initial hc]
    exact Table.contains_of_find? hamount

/-- An error of checking a new ledger is one of the two that there can be. -/
theorem seedingFault_of_fault (hzero : isFinite (0 : α) = true)
    (hbuild : Catalog.build resources groups = .ok catalog)
    (hfinite : ∀ resource ∈ resources, resource.bounds.Finite) {error : LedgerError α}
    (h : (initial catalog).Fault catalog error) : SeedingFault resources catalog error := by
  have hc := Catalog.build_consistent hbuild
  cases h with
  | unknownAmount id amount hstored hunknown =>
    rw [← contains_initial hc, Table.contains_of_find? hstored] at hunknown
    cases hunknown
  | unknownBounds id hstored hunknown =>
    rw [boundsKnown_initial hc id hstored] at hunknown
    cases hunknown
  | notFinite id amount hstored hamount =>
    obtain rfl := amount_of_find? hstored
    rcases listed_or_parent hbuild (Table.contains_of_find? hstored) with
      ⟨resource, hresource, rfl⟩ | ⟨group, hgroup, rfl⟩
    · -- What the content lists starts with a finite amount, crossed bounds or not.
      rw [(seededAt_of_mem hbuild hresource).isFinite_amount hzero (hfinite resource hresource)]
        at hamount
      cases hamount
    · rw [(parent_initial hc hgroup).1] at hamount ⊢
      exact .overflowed group hgroup hamount
  | outside id amount hstored hamount =>
    obtain rfl := amount_of_find? hstored
    rcases listed_or_parent hbuild (Table.contains_of_find? hstored) with
      ⟨resource, hresource, rfl⟩ | ⟨group, hgroup, rfl⟩
    · have hseeded := seededAt_of_mem hbuild hresource
      have hbounds := hfinite resource hresource
      have hcrossed : ¬ resource.bounds.Uncrossed := by
        intro huncrossed
        rw [(hseeded.contains_iff hzero hbounds).2 huncrossed] at hamount
        cases hamount
      obtain ⟨lower, upper, hlower, hupper, hlt⟩ := Bounds.exists_crossed hbounds hcrossed
      rw [hseeded.amount, hseeded.bounds, Bounds.clamp_of_crossed hbounds hzero hlower hupper hlt]
      exact .crossed resource hresource lower upper hlower hupper hlt
    · rw [(parent_initial hc hgroup).2] at hamount
      cases hamount

/-- **A new ledger passes unless bounds cross or a total overflows.** The catalog is any that the
    content made and the declared bounds are finite. A listed resource starts within its bounds
    exactly if they do not cross, and what checking reports is one of the two faults. -/
theorem validate_initial {resources : List (Resource Binary64)} {groups : List Group}
    {catalog : Catalog Binary64} (hbuild : Catalog.build resources groups = .ok catalog)
    (hfinite : ∀ resource ∈ resources, resource.bounds.Finite) :
    ((initial catalog).validate catalog = .ok () ↔
      (∀ resource ∈ resources, resource.bounds.Uncrossed) ∧
        ∀ group ∈ catalog.groups.values, isFinite (catalog.openingTotal group) = true) ∧
    (∀ resource ∈ resources,
      (((initial catalog).boundsOf resource.id).contains
        ((initial catalog).amount resource.id) = true ↔ resource.bounds.Uncrossed)) ∧
    ∀ error, (initial catalog).validate catalog = .error error →
      SeedingFault resources catalog error := by
  have hzero : isFinite (0 : Binary64) = true := Binary64.isFinite_zero
  refine ⟨?_, fun resource hresource => ?_, fun error herror => ?_⟩
  · rw [validate_eq_ok]
    exact checked_initial_iff hzero hbuild hfinite
  · exact (seededAt_of_mem hbuild hresource).contains_iff hzero (hfinite resource hresource)
  · exact seedingFault_of_fault hzero hbuild hfinite (fault_of_validate herror)

end Ledger

/-! ## A granary -/

namespace Sample

/-- At least five of grain. -/
def grain (upper : Int) : Resource Binary64 :=
  { id := "grain"
    label := "Grain"
    bounds := { lower := some (Amount.ofInt 5), upper := some (Amount.ofInt upper) } }

def victuals : Group :=
  { id := "victuals", parent := { id := "food", label := "Food" }, childIds := ["grain"] }

def granary (upper : Int) : Catalog Binary64 :=
  (Catalog.build [grain upper] [victuals]).toOption.getD .empty

theorem build_granary (upper : Int) :
    Catalog.build [grain upper] [victuals] = .ok (granary upper) := rfl

theorem finite_grain {upper : Int} (hupper : isFinite (Amount.ofInt upper : Binary64) = true) :
    ∀ resource ∈ [grain upper], resource.bounds.Finite := by
  intro resource hresource
  obtain rfl := List.mem_singleton.1 hresource
  refine ⟨fun lower hlower => ?_, fun bound hbound => ?_⟩
  · rw [← Option.some.inj hlower]
    decide +kernel
  · rw [← Option.some.inj hbound]
    exact hupper

end Sample

namespace Ledger

open Sample

/-- Between five and twenty, the grain starts at five, and so does the food. -/
theorem validate_initial_granary :
    Catalog.build [grain 20] [victuals] = .ok (granary 20) ∧
    (∀ resource ∈ [grain 20], resource.bounds.Finite) ∧
    (initial (granary 20)).validate (granary 20) = .ok () ∧
    (initial (granary 20)).amount "food" = Amount.ofInt 5 := by
  have hfinite : ∀ resource ∈ [grain 20], resource.bounds.Finite :=
    finite_grain (by decide +kernel)
  refine ⟨build_granary 20, hfinite,
    (validate_initial (build_granary 20) hfinite).1.2 ⟨?_, by decide +kernel⟩, by decide +kernel⟩
  intro resource hresource lower upper hlower hupper
  obtain rfl := List.mem_singleton.1 hresource
  rw [← Option.some.inj hlower, ← Option.some.inj hupper]
  decide +kernel

/-- At least five and at most three is accepted content, and the new ledger does not pass. -/
theorem crossed_bounds_seeded :
    Catalog.build [grain 3] [victuals] = .ok (granary 3) ∧
    (∀ resource ∈ [grain 3], resource.bounds.Finite) ∧
    (initial (granary 3)).amount "grain" = Amount.ofInt 5 ∧
    (initial (granary 3)).validate (granary 3)
      = .error (.boundViolation "grain" (Amount.ofInt 5) (grain 3).bounds) :=
  ⟨build_granary 3, finite_grain (by decide +kernel), by decide +kernel, by decide +kernel⟩

end Ledger

end Realm
