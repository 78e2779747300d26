import Realm.Proofs.Ledger.Write

/-!
# Parents are the totals of their children

A group's parent has an amount of its own in the ledger, and nothing but the ledger's care makes it
the total of the children: every operation that may move a child has to bring the parent up to date,
no operation may write it, and no write may reach two groups at once. `RolledUp` says that it is so;
it holds of the ledger that a player starts with (`rolledUp_initial`), every operation keeps it
whether it succeeds or fails (`RolledUp.write`, `RolledUp.recomputeAll`), and so it holds after any
sequence of operations (`rolledUp_afterAll`).

What makes this work is that a parent is nobody's child: bringing one parent up to date changes no
total (`total_insert_of_not_child`), so the parents can be brought up to date one after the other
and in any order.
-/

set_option autoImplicit false

namespace Realm
namespace Ledger

variable {α : Type} [Amount α]

/-- The parents hold the totals of their children, exactly the registered resources have amounts,
    and no parent has bounds. -/
structure RolledUp (catalog : Catalog α) (ledger : Ledger α) : Prop where
  parent : ∀ group ∈ catalog.groups.values,
    ledger.amounts.find? group.parent.id = some (group.total ledger.amounts)
  keys : ledger.amounts.keys = catalog.definitions.values.map (·.id)
  unbounded : ∀ group ∈ catalog.groups.values, ledger.bounds.find? group.parent.id = none

/-! ## Totals -/

/-- A total depends on the amounts of the children. -/
theorem total_congr {group : Group} {a b : Table α}
    (h : ∀ child ∈ group.childIds, a.find? child = b.find? child) :
    group.total a = group.total b := by
  unfold Group.total
  cases group.relation with
  | sumOfAll =>
    dsimp only
    congr 1
    exact List.map_congr_left fun child hchild => Table.findD_congr 0 (h child hchild)

/-- An amount that is not a child's changes no total. -/
theorem total_insert_of_not_child {group : Group} {amounts : Table α} {id : String} {amount : α}
    (h : id ∉ group.childIds) : group.total (amounts.insert id amount) = group.total amounts := by
  refine total_congr fun child hchild => ?_
  rw [Table.find?_insert, if_neg]
  rintro rfl
  exact h hchild

omit [Amount α] in
/-- The amounts are those of the registered resources. -/
theorem keys_eq_ids_iff {catalog : Catalog α} (hc : catalog.Consistent) {amounts : Table α} :
    amounts.keys = catalog.definitions.values.map (·.id) ↔
      ∀ id, amounts.contains id = catalog.contains id := by
  rw [← Table.keys_eq_map_values hc.definition_id]
  exact Table.keys_eq_iff

/-! ## Bringing parents up to date -/

@[simp] theorem recompute_amounts (ledger : Ledger α) (group : Group) :
    (ledger.recompute group).2.amounts
      = ledger.amounts.insert group.parent.id (group.total ledger.amounts) := rfl

@[simp] theorem recompute_bounds (ledger : Ledger α) (group : Group) :
    (ledger.recompute group).2.bounds = ledger.bounds := rfl

/-- Brings the parents of some groups up to date. -/
def recomputeEach (groups : List Group) (ledger : Ledger α) : Ledger α :=
  groups.foldl (fun ledger group => (ledger.recompute group).2) ledger

theorem recomputeEach_bounds (groups : List Group) (ledger : Ledger α) :
    (recomputeEach groups ledger).bounds = ledger.bounds := by
  unfold recomputeEach
  induction groups generalizing ledger with
  | nil => rfl
  | cons group rest ih => rw [List.foldl_cons, ih, recompute_bounds]

/-- Nothing but the parents of these groups is touched. -/
theorem find?_recomputeEach_of_ne {groups : List Group} {ledger : Ledger α} {id : String}
    (h : ∀ group ∈ groups, group.parent.id ≠ id) :
    (recomputeEach groups ledger).amounts.find? id = ledger.amounts.find? id := by
  unfold recomputeEach
  induction groups generalizing ledger with
  | nil => rfl
  | cons group rest ih =>
    rw [List.foldl_cons, ih fun other hother => h other (List.mem_cons_of_mem _ hother),
      recompute_amounts, Table.find?_insert, if_neg (h group List.mem_cons_self)]

/-- The totals, which no parent counts in, stay what they were all along. -/
theorem total_recomputeEach {catalog : Catalog α} (hc : catalog.Consistent) {groups : List Group}
    (hgroups : ∀ group ∈ groups, group ∈ catalog.groups.values) {ledger : Ledger α} {group : Group}
    (hgroup : group ∈ catalog.groups.values) :
    group.total (recomputeEach groups ledger).amounts = group.total ledger.amounts := by
  refine total_congr fun child hchild => find?_recomputeEach_of_ne fun other hother heq => ?_
  exact hc.parent_not_child (hgroups other hother) hgroup (heq ▸ hchild)

/-- Each of the parents ends up with its total. -/
theorem find?_recomputeEach {catalog : Catalog α} (hc : catalog.Consistent) {groups : List Group}
    (hgroups : ∀ group ∈ groups, group ∈ catalog.groups.values) {ledger : Ledger α} {group : Group}
    (hmem : group ∈ groups) :
    (recomputeEach groups ledger).amounts.find? group.parent.id
      = some (group.total ledger.amounts) := by
  induction groups generalizing ledger with
  | nil => cases hmem
  | cons head rest ih =>
    have hrest : ∀ other ∈ rest, other ∈ catalog.groups.values := fun other hother =>
      hgroups other (List.mem_cons_of_mem _ hother)
    have hgroup := hgroups group hmem
    have hhead := hgroups head List.mem_cons_self
    show (recomputeEach rest (ledger.recompute head).2).amounts.find? group.parent.id = _
    by_cases hlater : group ∈ rest
    · rw [ih hrest hlater, recompute_amounts,
        total_insert_of_not_child (hc.parent_not_child hhead hgroup)]
    · -- The group is the first one, and no later one shares its parent.
      have heq : group = head := (List.mem_cons.1 hmem).resolve_right hlater
      subst heq
      rw [find?_recomputeEach_of_ne, recompute_amounts, Table.find?_insert, if_pos rfl]
      intro other hother hshared
      exact hlater (hc.parent_injective other (hrest other hother) group hgroup hshared ▸ hother)

/-- Bringing all parents up to date makes a ledger rolled up, if nothing else is missing. -/
theorem rolledUp_recomputeAll {catalog : Catalog α} (hc : catalog.Consistent) {ledger : Ledger α}
    (hkeys : ∀ id, catalog.isParent id = false →
      ledger.amounts.contains id = catalog.contains id)
    (hbounds : ∀ group ∈ catalog.groups.values, ledger.bounds.find? group.parent.id = none) :
    (ledger.recomputeAll catalog).RolledUp catalog := by
  have hall : ∀ group ∈ catalog.groups.values, group ∈ catalog.groups.values := fun _ h => h
  have hparent : ∀ group ∈ catalog.groups.values,
      (ledger.recomputeAll catalog).amounts.find? group.parent.id
        = some (group.total ledger.amounts) := fun group hgroup =>
    find?_recomputeEach hc hall hgroup
  refine ⟨fun group hgroup => ?_, ?_, fun group hgroup => ?_⟩
  · rw [hparent group hgroup]
    exact congrArg some (total_recomputeEach hc hall hgroup).symm
  · refine (keys_eq_ids_iff hc).2 fun id => ?_
    cases hid : catalog.isParent id with
    | true =>
      obtain ⟨group, hgroup, rfl⟩ := (hc.isParent_iff id).1 hid
      rw [Table.contains_of_find? (hparent group hgroup), hc.contains_parent _ hid]
    | false =>
      rw [← hkeys id hid]
      unfold Table.contains
      rw [show (ledger.recomputeAll catalog).amounts.find? id = ledger.amounts.find? id from
        find?_recomputeEach_of_ne fun group hgroup => hc.ne_parent hid hgroup]
  · rw [show (ledger.recomputeAll catalog).bounds = ledger.bounds from recomputeEach_bounds _ _]
    exact hbounds group hgroup

theorem RolledUp.recomputeAll {catalog : Catalog α} (hc : catalog.Consistent) {ledger : Ledger α}
    (h : ledger.RolledUp catalog) : (ledger.recomputeAll catalog).RolledUp catalog :=
  rolledUp_recomputeAll hc (fun id _ => (keys_eq_ids_iff hc).1 h.keys id) h.unbounded

/-! ## Writing -/

/-- Writing a child leaves the totals of the other groups alone. -/
theorem total_store_of_not_child {catalog : Catalog α} (hc : catalog.Consistent)
    {ledger : Ledger α} {resource : String} {amount : α} {group : Group}
    (hgroup : group ∈ catalog.groups.values) (hchild : resource ∉ group.childIds) :
    group.total (ledger.store catalog resource amount).amounts = group.total ledger.amounts := by
  refine total_congr fun child hmem => find?_store_of_ne ?_ fun other hother => ?_
  · rintro rfl
    exact hchild hmem
  · rintro rfl
    exact hc.parent_not_child ((hc.groupOf?_iff _ _).1 hother).1 hgroup hmem

/-- A parent that the amount does not count in stays as it is. -/
theorem find?_store_of_not_child {catalog : Catalog α} (hc : catalog.Consistent)
    {ledger : Ledger α} {resource : String} {amount : α}
    (hresource : catalog.isParent resource = false) {group : Group}
    (hgroup : group ∈ catalog.groups.values) (hchild : resource ∉ group.childIds) :
    (ledger.store catalog resource amount).amounts.find? group.parent.id
      = ledger.amounts.find? group.parent.id := by
  refine find?_store_of_ne (hc.ne_parent hresource hgroup).symm fun other hfind hshared => ?_
  obtain ⟨hother, hmember⟩ := (hc.groupOf?_iff resource other).1 hfind
  exact hchild (hc.parent_injective other hother group hgroup hshared ▸ hmember)

/-- Writing a child brings its parent up to date. -/
theorem find?_store_parent {catalog : Catalog α} (hc : catalog.Consistent) {ledger : Ledger α}
    {resource : String} {amount : α} {group : Group} (hgroup : group ∈ catalog.groups.values)
    (hchild : resource ∈ group.childIds) :
    (ledger.store catalog resource amount).amounts.find? group.parent.id
      = some (group.total (ledger.store catalog resource amount).amounts) := by
  unfold store
  rw [(hc.groupOf?_iff resource group).2 ⟨hgroup, hchild⟩]
  dsimp only
  rw [recompute_amounts, Table.find?_insert, if_pos rfl,
    total_insert_of_not_child (hc.parent_not_child hgroup hgroup)]

/-- Nothing gets an amount but the resource and the parent of its group. -/
theorem contains_store {catalog : Catalog α} (hc : catalog.Consistent) {ledger : Ledger α}
    {resource : String} {amount : α} (hresource : catalog.contains resource = true)
    (h : ∀ id, ledger.amounts.contains id = catalog.contains id) (id : String) :
    (ledger.store catalog resource amount).amounts.contains id = catalog.contains id := by
  unfold store
  cases hfind : catalog.groupOf? resource with
  | none =>
    dsimp only
    rw [Table.contains_insert, h]
    by_cases hid : resource = id <;> simp_all
  | some group =>
    dsimp only
    have hparent : catalog.contains group.parent.id = true :=
      hc.contains_parent _
        ((hc.isParent_iff _).2 ⟨group, ((hc.groupOf?_iff _ _).1 hfind).1, rfl⟩)
    rw [recompute_amounts, Table.contains_insert, Table.contains_insert, h]
    by_cases hid : resource = id <;> by_cases hgroup : group.parent.id = id <;> simp_all

theorem RolledUp.store {catalog : Catalog α} (hc : catalog.Consistent) {ledger : Ledger α}
    (h : ledger.RolledUp catalog) {resource : String} {amount : α}
    (hwritable : catalog.requireWritable resource = .ok ()) :
    (ledger.store catalog resource amount).RolledUp catalog := by
  obtain ⟨hknown, hunderived⟩ := Catalog.requireWritable_eq_ok.1 hwritable
  refine ⟨fun group hgroup => ?_, ?_, fun group hgroup => ?_⟩
  · by_cases hchild : resource ∈ group.childIds
    · exact find?_store_parent hc hgroup hchild
    · rw [total_store_of_not_child hc hgroup hchild, ← h.parent group hgroup]
      exact find?_store_of_not_child hc hunderived hgroup hchild
  · exact (keys_eq_ids_iff hc).2 (contains_store hc hknown ((keys_eq_ids_iff hc).1 h.keys))
  · rw [store_bounds]
    exact h.unbounded group hgroup

/-- New bounds are never a parent's. -/
theorem RolledUp.rebound {catalog : Catalog α} (hc : catalog.Consistent) {ledger : Ledger α}
    (h : ledger.RolledUp catalog) {write : Write α}
    (hwritable : catalog.requireWritable write.resource = .ok ()) :
    (write.rebound ledger).RolledUp catalog := by
  obtain ⟨-, hunderived⟩ := Catalog.requireWritable_eq_ok.1 hwritable
  refine ⟨fun group hgroup => ?_, ?_, fun group hgroup => ?_⟩
  · rw [Write.rebound_amounts]
    exact h.parent group hgroup
  · rw [Write.rebound_amounts]
    exact h.keys
  · rw [write.rebound_bounds_of_ne ledger (hc.ne_parent hunderived hgroup).symm]
    exact h.unbounded group hgroup

/-- However a write ends, the parents hold the totals of their children. -/
theorem RolledUp.write {catalog : Catalog α} (hc : catalog.Consistent) {ledger : Ledger α}
    (h : ledger.RolledUp catalog) (write : Write α) :
    ((write.attempt catalog).after ledger).RolledUp catalog := by
  rw [Attempt.after_def]
  have hending := write.ending catalog ledger
  generalize (write.attempt catalog).run ledger = result at hending
  cases hending with
  | refused error => exact h
  | stranded error hwritable _ _ => exact h.rebound hc hwritable
  | written attempted amount hwritable _ _ _ _ => exact (h.rebound hc hwritable).store hc hwritable

/-! ## The first ledger -/

theorem contains_seed {catalog : Catalog α} (ledger : Ledger α) (resource : Resource α)
    {id : String} (hid : catalog.isParent id = false) :
    (seed catalog ledger resource).amounts.contains id
      = (decide (resource.id = id) || ledger.amounts.contains id) := by
  unfold seed
  split
  · rename_i hparent
    have hne : resource.id ≠ id := by
      rintro rfl
      rw [hparent] at hid
      cases hid
    simp [hne]
  · simp

theorem contains_seeds {catalog : Catalog α} (resources : List (Resource α)) (ledger : Ledger α)
    {id : String} (hid : catalog.isParent id = false) :
    (resources.foldl (seed catalog) ledger).amounts.contains id
      = (resources.any (fun resource => decide (resource.id = id))
          || ledger.amounts.contains id) := by
  induction resources generalizing ledger with
  | nil => rfl
  | cons resource rest ih =>
    rw [List.foldl_cons, ih, contains_seed ledger resource hid, List.any_cons]
    cases decide (resource.id = id) <;> simp

/-- A parent gets no bounds of its own. -/
theorem bounds_seeds {catalog : Catalog α} (resources : List (Resource α)) (ledger : Ledger α)
    {id : String} (hid : catalog.isParent id = true) :
    (resources.foldl (seed catalog) ledger).bounds.find? id = ledger.bounds.find? id := by
  induction resources generalizing ledger with
  | nil => rfl
  | cons resource rest ih =>
    rw [List.foldl_cons, ih]
    unfold seed
    split
    · rfl
    · rename_i hparent
      have hne : resource.id ≠ id := by
        rintro rfl
        exact hparent hid
      dsimp only
      split <;> simp [hne]

theorem rolledUp_initial {catalog : Catalog α} (hc : catalog.Consistent) :
    (initial catalog).RolledUp catalog := by
  refine rolledUp_recomputeAll hc (fun id hid => ?_) fun group hgroup => ?_
  · rw [contains_seeds _ _ hid, Bool.eq_iff_iff]
    simp only [empty, Table.contains_empty, Bool.or_false, List.any_eq_true, decide_eq_true_eq]
    unfold Catalog.contains
    rw [Table.contains_iff]
    constructor
    · rintro ⟨resource, hmem, rfl⟩
      obtain ⟨id, hfind⟩ := Table.mem_values_iff.1 hmem
      exact ⟨resource, hc.definition_id id resource hfind ▸ hfind⟩
    · rintro ⟨resource, hfind⟩
      exact ⟨resource, Table.mem_values_iff.2 ⟨id, hfind⟩, hc.definition_id id resource hfind⟩
  · rw [bounds_seeds _ _ ((hc.isParent_iff _).2 ⟨group, hgroup, rfl⟩)]
    rfl

/-! ## Runs -/

/-- A call that changes a ledger or brings its parents up to date. -/
inductive Command (α : Type) where
  | write (call : Write α)
  | rebuild

/-- The ledger after a call, however the call ended. -/
def Command.perform (catalog : Catalog α) (ledger : Ledger α) : Command α → Ledger α
  | .write call => (call.attempt catalog).after ledger
  | .rebuild => ledger.recomputeAll catalog

/-- The ledger after a sequence of calls on a new one. -/
def afterAll (catalog : Catalog α) (commands : List (Command α)) : Ledger α :=
  commands.foldl (Command.perform catalog) (initial catalog)

/-- What holds of a new ledger and what every call keeps, holds of a ledger at any time. -/
theorem holds_afterAll {catalog : Catalog α} (holds : Ledger α → Prop)
    (hinitial : holds (initial catalog))
    (hperform : ∀ ledger (command : Command α), holds ledger →
      holds (command.perform catalog ledger))
    (commands : List (Command α)) : holds (afterAll catalog commands) :=
  List.foldlRecOn commands (Command.perform catalog) hinitial
    fun ledger hledger command _ => hperform ledger command hledger

theorem RolledUp.perform {catalog : Catalog α} (hc : catalog.Consistent) {ledger : Ledger α}
    (h : ledger.RolledUp catalog) (command : Command α) :
    (command.perform catalog ledger).RolledUp catalog := by
  cases command with
  | write call => exact h.write hc call
  | rebuild => exact h.recomputeAll hc

/-- The parents hold the totals of their children at any time. -/
theorem rolledUp_afterAll {catalog : Catalog α} (hc : catalog.Consistent)
    (commands : List (Command α)) : (afterAll catalog commands).RolledUp catalog :=
  holds_afterAll (·.RolledUp catalog) (rolledUp_initial hc)
    (fun _ command h => h.perform hc command) commands

end Ledger

end Realm
