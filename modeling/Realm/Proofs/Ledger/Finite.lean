import Realm.Proofs.Amount.Nearest
import Realm.Proofs.Ledger.Initial

/-!
# Where amounts may become infinite

A write refuses an amount that is not finite, and bounds that are usable clamp to finite amounts, so
whatever is called for, in a ledger of sixty-four bit numbers every resource that may be written has
a finite amount. Parents are not written but added up, and nobody looks at the sum: two children
near the limit of the format make a parent that is infinite (`total_overflows`). It happens in no
other way. The amounts of a ledger are all finite exactly when the totals are, and a total is finite
as long as the children are not too many and not too rich (`finite_afterAll`).
-/

set_option autoImplicit false

namespace Realm
namespace Ledger

/-- Every amount that is stored is finite. -/
def AllFinite {α : Type} [Amount α] (ledger : Ledger α) : Prop :=
  ∀ id amount, ledger.amounts.find? id = some amount → Amount.isFinite amount = true

section

variable {α : Type} [Amount α]

theorem amount_of_find? {ledger : Ledger α} {id : String} {amount : α}
    (h : ledger.amounts.find? id = some amount) : ledger.amount id = amount := by
  unfold Ledger.amount Table.findD
  rw [h, Option.getD_some]

/-! ## Resources that may be written -/

theorem SoundAt.recomputeAll {catalog : Catalog α} (hc : catalog.Consistent) {ledger : Ledger α}
    {id : String} (hid : catalog.isParent id = false) (h : ledger.SoundAt id) :
    (ledger.recomputeAll catalog).SoundAt id := by
  refine h.congr ?_ ?_
  · exact Table.findD_congr 0 (find?_recomputeEach_of_ne fun group hgroup => hc.ne_parent hid hgroup)
  · unfold boundsOf
    rw [show (ledger.recomputeAll catalog).bounds = _ from recomputeEach_bounds _ _]

variable [Amount.Ordered α]

theorem SoundAt.perform {catalog : Catalog α} (hc : catalog.Consistent) {ledger : Ledger α}
    {id : String} (hid : catalog.isParent id = false) (h : ledger.SoundAt id)
    (command : Command α) : (command.perform catalog ledger).SoundAt id := by
  cases command with
  | write call => exact h.write hc hid call
  | rebuild => exact h.recomputeAll hc hid

theorem soundAt_afterAll {catalog : Catalog α} (hc : catalog.Consistent)
    (hzero : Amount.isFinite (0 : α) = true) {id : String} {resource : Resource α}
    (hfind : catalog.definition? id = some resource) (hid : catalog.isParent id = false)
    (husable : resource.bounds.areUsable = true) (commands : List (Command α)) :
    (afterAll catalog commands).SoundAt id :=
  holds_afterAll (·.SoundAt id) (soundAt_initial hc hzero hfind hid husable)
    (fun _ command h => h.perform hc hid command) commands

/-- What is not derived has a finite amount at any time. -/
theorem isFinite_afterAll {catalog : Catalog α} (hc : catalog.Consistent)
    (hzero : Amount.isFinite (0 : α) = true)
    (husable : ∀ id resource, catalog.definition? id = some resource →
      resource.bounds.areUsable = true)
    (commands : List (Command α)) {id : String} (hid : catalog.isParent id = false) :
    Amount.isFinite ((afterAll catalog commands).amount id) = true := by
  cases hfind : catalog.definition? id with
  | some resource =>
    exact (soundAt_afterAll hc hzero hfind hid (husable id resource hfind) commands).amount
  | none =>
    -- What is not registered has no amount, which counts as zero.
    have hkeys := (keys_eq_ids_iff hc).1 (rolledUp_afterAll hc commands).keys id
    have hunknown : catalog.contains id = false := by
      unfold Catalog.contains
      rw [Table.contains_eq_false_iff]
      exact hfind
    rw [hunknown, Table.contains_eq_false_iff] at hkeys
    unfold amount Table.findD
    rw [hkeys]
    exact hzero

end

/-! ## Totals -/

/-- The amounts of a ledger are finite if those of the parents are. -/
theorem allFinite_iff_totals {α : Type} [Amount α] {catalog : Catalog α} (hc : catalog.Consistent)
    {ledger : Ledger α} (hrolled : ledger.RolledUp catalog)
    (hwritable : ∀ id, catalog.isParent id = false → Amount.isFinite (ledger.amount id) = true) :
    ledger.AllFinite ↔
      ∀ group ∈ catalog.groups.values, Amount.isFinite (group.total ledger.amounts) = true := by
  constructor
  · intro h group hgroup
    exact h _ _ (hrolled.parent group hgroup)
  · intro h id amount hfind
    cases hid : catalog.isParent id with
    | false =>
      rw [← amount_of_find? hfind]
      exact hwritable id hid
    | true =>
      obtain ⟨group, hgroup, rfl⟩ := (hc.isParent_iff id).1 hid
      rw [hrolled.parent group hgroup] at hfind
      cases hfind
      exact h group hgroup

open Binary64 in
/-- The children are so few and their amounts so small that adding them up cannot overflow: no
    amount is larger than a power of two, and so many times the power is not too large. -/
structure Modest (ledger : Ledger Binary64) (group : Group) (exponent : Nat) : Prop where
  count : group.childIds.length ≤ power 53
  room : group.childIds.length * power exponent < power 2098
  amounts : ∀ child ∈ group.childIds, (ledger.amount child).units.natAbs ≤ power exponent

theorem Modest.isFinite_total {ledger : Ledger Binary64} {group : Group} {exponent : Nat}
    (h : ledger.Modest group exponent)
    (hchildren : ∀ child ∈ group.childIds, Amount.isFinite (ledger.amount child) = true) :
    Amount.isFinite (group.total ledger.amounts) = true := by
  unfold Group.total
  cases group.relation with
  | sumOfAll =>
    have hamounts : ∀ amount ∈ group.childIds.map fun child => ledger.amount child,
        Binary64.isFinite amount = true ∧ amount.units.natAbs ≤ Binary64.power exponent := by
      intro amount hamount
      obtain ⟨child, hchild, rfl⟩ := List.mem_map.1 hamount
      exact ⟨hchildren child hchild, h.amounts child hchild⟩
    have hlength : (group.childIds.map fun child => ledger.amount child).length
        = group.childIds.length := List.length_map _
    exact Binary64.isFinite_sum hamounts (hlength ▸ h.count) (hlength ▸ h.room)

/-- **Only a total may be infinite.** From a new ledger under usable bounds, whatever is called for:
    the amounts that may be written are finite; all amounts are, exactly when no total has
    overflowed; and no total overflows whose children are modest. -/
theorem finite_afterAll {resources : List (Resource Binary64)} {groups : List Group}
    {catalog : Catalog Binary64} (hbuild : Catalog.build resources groups = .ok catalog)
    (husable : ∀ id resource, catalog.definition? id = some resource →
      resource.bounds.areUsable = true)
    (commands : List (Command Binary64)) :
    (∀ id, catalog.isParent id = false →
      Amount.isFinite ((afterAll catalog commands).amount id) = true) ∧
    ((afterAll catalog commands).AllFinite ↔
      ∀ group ∈ catalog.groups.values,
        Amount.isFinite (group.total (afterAll catalog commands).amounts) = true) ∧
    ∀ group ∈ catalog.groups.values, ∀ exponent, (afterAll catalog commands).Modest group exponent →
      Amount.isFinite (group.total (afterAll catalog commands).amounts) = true := by
  have hc := Catalog.build_consistent hbuild
  have hwritable : ∀ id, catalog.isParent id = false →
      Amount.isFinite ((afterAll catalog commands).amount id) = true := by
    intro id hid
    exact isFinite_afterAll hc Binary64.isFinite_zero husable commands hid
  refine ⟨hwritable, allFinite_iff_totals hc (rolledUp_afterAll hc commands) hwritable, ?_⟩
  intro group hgroup exponent hmodest
  refine hmodest.isFinite_total ?_
  intro child hchild
  -- A child is no parent itself, so its amount has been written and not added up.
  exact hwritable child (hc.child_not_parent group hgroup child hchild)

end Ledger

/-! ## An overflow

Sorting does not compute in a proof, so the catalog of the example is written out, but for the order
of its children, which a lemma brings into place. -/

namespace Sample

def vault (id : String) : Resource Binary64 := { id, label := id }

def vaults : Group :=
  { id := "vaults", parent := { id := "hoard", label := "Hoard" }, childIds := ["east", "west"] }

def vaultResources : Table (Resource Binary64) :=
  (Table.empty.insert "east" (vault "east")).insert "west" (vault "west")

def vaultMembers : Table String := (Table.empty.insert "east" "vaults").insert "west" "vaults"

/-- The catalog of the vaults, its children in some order. -/
def treasuryOf (children : List String) : Catalog Binary64 :=
  let groups := Table.empty.insert "vaults" { vaults with childIds := children }
  { definitions := vaultResources.insert "hoard" vaults.parentResource
    groups
    membership := vaultMembers
    parents := Table.empty.insert "hoard" "vaults"
    ordered := Catalog.displayOrder vaultResources groups vaultMembers }

def treasury : Catalog Binary64 := treasuryOf ["east", "west"]

theorem inOrder_vaults : Catalog.inOrder vaultResources ["east", "west"] = ["east", "west"] := by
  have hplaced : Catalog.inOrder vaultResources ["east", "west"]
      = (([((0 : Int), "east"), (0, "west")].mergeSort Catalog.precedes).map (·.2)).eraseReps := rfl
  rw [hplaced, Catalog.mergeSort_pair]
  decide

theorem build_treasury : Catalog.build [vault "east", vault "west"] [vaults] = .ok treasury := by
  have hbuild : Catalog.build [vault "east", vault "west"] [vaults]
      = .ok (treasuryOf (Catalog.inOrder vaultResources ["east", "west"])) := rfl
  rw [hbuild, inOrder_vaults]
  rfl

/-- Fills both vaults. -/
def hoarding (amount : Binary64) : List (Ledger.Command Binary64) :=
  [.write (.setAmount "east" amount .reject), .write (.setAmount "west" amount .reject)]

theorem usable_treasury (id : String) (resource : Resource Binary64)
    (hfind : treasury.definition? id = some resource) : resource.bounds.areUsable = true := by
  have hmem : resource ∈ treasury.definitions.values := Table.mem_values_iff.2 ⟨id, hfind⟩
  have hall : ∀ resource ∈ treasury.definitions.values, resource.bounds.areUsable = true := by
    decide +kernel
  exact hall resource hmem

end Sample

namespace Ledger

open Sample

/-- Two vaults with three each. -/
theorem finite_afterAll_hoarding :
    Catalog.build [vault "east", vault "west"] [vaults] = .ok treasury ∧
    (∀ id resource, treasury.definition? id = some resource →
      resource.bounds.areUsable = true) ∧
    (afterAll treasury (hoarding (Amount.ofInt 3))).AllFinite := by
  have hfinite := finite_afterAll build_treasury usable_treasury (hoarding (Amount.ofInt 3))
  refine ⟨build_treasury, usable_treasury, hfinite.2.1.2 ?_⟩
  intro group hgroup
  refine hfinite.2.2 group hgroup 1100 ?_
  have hmodest : ∀ group ∈ treasury.groups.values,
      group.childIds.length ≤ Binary64.power 53 ∧
      group.childIds.length * Binary64.power 1100 < Binary64.power 2098 ∧
      ∀ child ∈ group.childIds,
        ((afterAll treasury (hoarding (Amount.ofInt 3))).amount child).units.natAbs
          ≤ Binary64.power 1100 := by
    decide +kernel
  obtain ⟨hcount, hroom, hamounts⟩ := hmodest group hgroup
  exact ⟨hcount, hroom, hamounts⟩

/-- Two vaults that the format can just count, and a hoard that it cannot. -/
theorem total_overflows :
    Catalog.build [vault "east", vault "west"] [vaults] = .ok treasury ∧
    (∀ id resource, treasury.definition? id = some resource →
      resource.bounds.areUsable = true) ∧
    ¬ (afterAll treasury (hoarding (Amount.ofDecimal false 17 307))).AllFinite := by
  refine ⟨build_treasury, usable_treasury, ?_⟩
  intro h
  have hhoard : (afterAll treasury (hoarding (Amount.ofDecimal false 17 307))).amounts.find? "hoard"
      = some (.infinite false) := by
    decide +kernel
  exact Bool.false_ne_true (h "hoard" _ hhoard)

end Ledger

end Realm
