import Realm.Amount.Binary64
import Realm.Proofs.Catalog.Admission

/-!
# What a catalog tells

A catalog answers by its tables: what is defined, which group a resource belongs to, which resources
are the parents of which groups, and in what order a group shows its children. `Describes` says what
all of these answers are in terms of the resources and groups that the catalog was made of, and
`Complete.describes` that they are.
-/

set_option autoImplicit false

namespace Realm

variable {α : Type}

namespace Catalog

/-- The catalog tells what the resources and groups say. -/
structure Describes (catalog : Catalog α) (resources : List (Resource α)) (groups : List Group) :
    Prop where
  /-- The definitions are the resources and one more for each parent. -/
  definition?_iff : ∀ id definition, catalog.definition? id = some definition ↔
    (definition ∈ resources ∨ ∃ group ∈ groups, definition = group.parentResource) ∧
      definition.id = id
  /-- The groups are the given ones, except for the children they list. -/
  group_of_given : ∀ given ∈ groups, ∃ childIds,
    catalog.groups.find? given.id = some { given with childIds }
  given_of_group : ∀ key group, catalog.groups.find? key = some group →
    ∃ given ∈ groups, given.id = key ∧ group = { given with childIds := group.childIds }
  /-- The children are the members, -/
  mem_childIds_iff : ∀ key group, catalog.groups.find? key = some group →
    ∀ id, id ∈ group.childIds ↔ Claimed resources groups id key
  /-- each once, -/
  nodup_childIds : ∀ key group, catalog.groups.find? key = some group → group.childIds.Nodup
  /-- by order and then by id. -/
  sorted_childIds : ∀ key group, catalog.groups.find? key = some group →
    ∃ members ⊆ resources, group.childIds = members.map (·.id) ∧
      members.Pairwise fun a b => a.order < b.order ∨ a.order = b.order ∧ a.id < b.id
  groupOf?_iff : ∀ id group, catalog.groupOf? id = some group ↔
    catalog.groups.find? group.id = some group ∧ Claimed resources groups id group.id
  isParent_iff : ∀ id, catalog.isParent id = true ↔ ∃ group ∈ groups, group.parent.id = id
  groupOfParent?_iff : ∀ id group, catalog.groupOfParent? id = some group ↔
    catalog.groups.find? group.id = some group ∧ group.parent.id = id
  /-- No parent belongs to a group. -/
  parent_not_member : ∀ id, catalog.isParent id = true →
    catalog.groupOf? id = none ∧ ∀ group ∈ catalog.groups.values, id ∉ group.childIds

/-! ## The tables -/

theorem find?_assemble_iff {definitions : Table (Resource α)} {enrolled : Enrolled} {key : String}
    {group : Group} : (assemble definitions enrolled).groups.find? key = some group ↔
      ∃ listed, enrolled.groups.find? key = some listed ∧
        { listed with childIds := inOrder definitions listed.childIds } = group := by
  unfold assemble
  rw [Table.find?_map, Option.map_eq_some_iff]

section

variable {definitions : Table (Resource α)} {enrolled : Enrolled} {resources : List (Resource α)}
  {groups : List Group} {key : String} {group : Group}

theorem Complete.given_of_group (h : Complete definitions enrolled resources groups)
    (hgroup : (assemble definitions enrolled).groups.find? key = some group) :
    ∃ given ∈ groups, given.id = key ∧ group = { given with childIds := group.childIds } := by
  obtain ⟨listed, hlisted, rfl⟩ := find?_assemble_iff.1 hgroup
  obtain ⟨given, hgiven, hkey, heq⟩ := h.enrolled.given key listed hlisted
  refine ⟨given, hgiven, hkey, ?_⟩
  rw [heq]

theorem Complete.group_id (h : Complete definitions enrolled resources groups)
    (hgroup : (assemble definitions enrolled).groups.find? key = some group) : group.id = key := by
  obtain ⟨given, -, hkey, heq⟩ := h.given_of_group hgroup
  rw [heq]
  exact hkey

theorem Complete.group_of_given (h : Complete definitions enrolled resources groups)
    {given : Group} (hgiven : given ∈ groups) : ∃ childIds,
      (assemble definitions enrolled).groups.find? given.id = some { given with childIds } := by
  obtain ⟨listed, hlisted⟩ :=
    Table.contains_iff.1 ((h.enrolled.contains_iff given.id).2 ⟨given, hgiven, rfl⟩)
  obtain ⟨other, hother, hkey, heq⟩ := h.enrolled.given given.id listed hlisted
  have hsame : other = given :=
    List.inj_on_of_nodup_map h.admissible.group_ids hother hgiven hkey
  rw [hsame] at heq
  refine ⟨inOrder definitions listed.childIds, find?_assemble_iff.2 ⟨listed, hlisted, ?_⟩⟩
  rw [heq]

theorem Complete.mem_childIds_iff (h : Complete definitions enrolled resources groups)
    (hgroup : (assemble definitions enrolled).groups.find? key = some group) {id : String} :
    id ∈ group.childIds ↔ Claimed resources groups id key := by
  obtain ⟨listed, hlisted, rfl⟩ := find?_assemble_iff.1 hgroup
  rw [mem_inOrder_iff (keyed_of_lists h.definitions), h.enrolled.children key listed hlisted,
    mem_claimsOf_iff, h.definitions.contains_iff, and_iff_left_iff_imp]
  exact fun hclaim => h.admissible.claimed_known hclaim

theorem Complete.groupOf?_iff (h : Complete definitions enrolled resources groups) {id : String} :
    (assemble definitions enrolled).groupOf? id = some group ↔
      (assemble definitions enrolled).groups.find? group.id = some group ∧
        Claimed resources groups id group.id := by
  have hmember : ∀ key, (assemble definitions enrolled).membership.find? id = some key ↔
      Claimed resources groups id key :=
    fun key => (h.enrolled.membership id key).trans mem_claimsOf_iff
  unfold groupOf?
  rw [Option.bind_eq_some_iff]
  constructor
  · rintro ⟨key, hkey, hfind⟩
    rw [h.group_id hfind]
    exact ⟨hfind, (hmember key).1 hkey⟩
  · rintro ⟨hfind, hclaim⟩
    exact ⟨group.id, (hmember group.id).2 hclaim, hfind⟩

theorem Complete.isParent_iff (h : Complete definitions enrolled resources groups) {id : String} :
    (assemble definitions enrolled).isParent id = true ↔ ∃ group ∈ groups, group.parent.id = id :=
  h.enrolled.parents_contains_iff

theorem Complete.groupOfParent?_iff (h : Complete definitions enrolled resources groups)
    {id : String} : (assemble definitions enrolled).groupOfParent? id = some group ↔
      (assemble definitions enrolled).groups.find? group.id = some group ∧
        group.parent.id = id := by
  unfold groupOfParent?
  rw [Option.bind_eq_some_iff]
  constructor
  · rintro ⟨key, hkey, hfind⟩
    obtain ⟨given, hgiven, hparent, hid⟩ := (h.enrolled.parents id key).1 hkey
    obtain ⟨childIds, hgiven'⟩ := h.group_of_given hgiven
    rw [hid, hfind, Option.some.injEq] at hgiven'
    rw [h.group_id hfind]
    refine ⟨hfind, ?_⟩
    rw [hgiven']
    exact hparent
  · rintro ⟨hfind, hparent⟩
    obtain ⟨given, hgiven, hid, heq⟩ := h.given_of_group hfind
    refine ⟨group.id, (h.enrolled.parents id group.id).2 ⟨given, hgiven, ?_, hid⟩, hfind⟩
    rw [← hparent, heq]

/-- The definitions are the resources and the parents. -/
theorem Complete.lists_definitions (h : Complete definitions enrolled resources groups) :
    (assemble definitions enrolled).definitions.Lists (·.id)
      (resources ++ groups.map Group.parentResource) := by
  have hparents : ∀ definition : Resource α,
      definition ∈ (assemble definitions enrolled).groups.values.map Group.parentResource ↔
        definition ∈ groups.map Group.parentResource := by
    intro definition
    rw [List.mem_map, List.mem_map]
    constructor
    · rintro ⟨group, hgroup, rfl⟩
      obtain ⟨key, hkey⟩ := Table.mem_values_iff.1 hgroup
      obtain ⟨given, hgiven, -, heq⟩ := h.given_of_group hkey
      exact ⟨given, hgiven, by rw [heq]; rfl⟩
    · rintro ⟨given, hgiven, rfl⟩
      obtain ⟨childIds, hfind⟩ := h.group_of_given hgiven
      exact ⟨_, Table.mem_values_iff.2 ⟨given.id, hfind⟩, rfl⟩
  have hdefinitions : (assemble definitions enrolled).definitions
      = ((assemble definitions enrolled).groups.values.map Group.parentResource).foldl
          (fun all definition => all.insert definition.id definition) definitions := by
    rw [List.foldl_map]
    rfl
  rw [hdefinitions]
  refine (h.definitions.foldl_insert _ ?_).congr fun definition => ?_
  · simp only [List.mem_append, hparents, List.mem_map]
    -- Resources have ids of their own, parents have ids of their own, and no parent has a
    -- resource's.
    rintro a (ha | ⟨group, hgroup, rfl⟩) b (hb | ⟨other, hother, rfl⟩) heq
    · exact List.inj_on_of_nodup_map h.admissible.resource_ids ha hb heq
    · exact absurd heq (h.admissible.parents_new other hother a ha)
    · exact absurd heq.symm (h.admissible.parents_new group hgroup b hb)
    · rw [List.inj_on_of_nodup_map h.admissible.parent_ids hgroup hother heq]
  · rw [List.mem_append, List.mem_append, hparents]

theorem Complete.parent_not_claimed (h : Complete definitions enrolled resources groups)
    (hgroup : group ∈ groups) : ¬ Claimed resources groups group.parent.id key := by
  intro hclaim
  obtain ⟨resource, hresource, heq⟩ := h.admissible.claimed_known hclaim
  exact h.admissible.parents_new group hgroup resource hresource heq

/-- What is put together from content tells what the content says. -/
theorem Complete.describes (h : Complete definitions enrolled resources groups) :
    (assemble definitions enrolled).Describes resources groups := by
  refine ⟨fun id definition => ?_, fun given => h.group_of_given, fun key group => h.given_of_group,
    fun key group hgroup id => h.mem_childIds_iff hgroup, fun key group hgroup => ?_,
    fun key group hgroup => ?_, fun id group => h.groupOf?_iff, fun id => h.isParent_iff,
    fun id group => h.groupOfParent?_iff, fun id hid => ?_⟩
  · rw [definition?, h.lists_definitions id definition, List.mem_append, List.mem_map]
    simp only [eq_comm]
  · obtain ⟨listed, -, rfl⟩ := find?_assemble_iff.1 hgroup
    exact nodup_inOrder (keyed_of_lists h.definitions) listed.childIds
  · obtain ⟨listed, -, rfl⟩ := find?_assemble_iff.1 hgroup
    obtain ⟨members, hids, hmembers, hsorted⟩ :=
      inOrder_members (keyed_of_lists h.definitions) listed.childIds
    refine ⟨members, fun resource hresource => ?_, hids, hsorted⟩
    exact ((h.definitions _ resource).1 ((hmembers resource).1 hresource).2).1
  · obtain ⟨parent, hparent, rfl⟩ := h.isParent_iff.1 hid
    refine ⟨Option.eq_none_iff_forall_ne_some.2 fun group hgroup => ?_,
      fun group hgroup hchild => ?_⟩
    · exact h.parent_not_claimed hparent (h.groupOf?_iff.1 hgroup).2
    · obtain ⟨key, hkey⟩ := Table.mem_values_iff.1 hgroup
      exact h.parent_not_claimed hparent ((h.mem_childIds_iff hkey).1 hchild)

end

/-! ## Every catalog -/

theorem describes_of_build {resources : List (Resource α)} {groups : List Group}
    {catalog : Catalog α} (h : build resources groups = .ok catalog) :
    catalog.Describes resources groups := by
  obtain ⟨definitions, enrolled, hcomplete, rfl⟩ := (decides_build resources groups).value catalog h
  exact hcomplete.describes

/-- Content makes a catalog exactly where it is admissible, and the catalog then tells what the
    content says. -/
theorem build_succeeds_iff_admissible (resources : List (Resource α)) (groups : List Group) :
    ((∃ catalog, build resources groups = .ok catalog) ↔ Admissible resources groups) ∧
    ∀ catalog, build resources groups = .ok catalog → catalog.Describes resources groups :=
  ⟨(decides_build resources groups).succeeds_iff, fun _ hcatalog => describes_of_build hcatalog⟩

end Catalog

/-! One group claims a resource, another resource claims the group. -/

namespace Sample

def timber : Resource Binary64 := { id := "timber", label := "Timber", order := 2 }

def ore : Resource Binary64 :=
  { id := "ore", label := "Ore", order := 1, groupId := some "stores" }

def stores : Group :=
  { id := "stores", parent := { id := "wealth", label := "Wealth" }, childIds := ["timber"] }

end Sample

namespace Catalog

open Sample

theorem build_succeeds_iff_admissible_stores : ∃ catalog,
    build [timber, ore] [stores] = .ok catalog ∧ Admissible [timber, ore] [stores] ∧
    catalog.Describes [timber, ore] [stores] ∧
    (catalog.groups.find? "stores").map (·.childIds) = some ["ore", "timber"] := by
  obtain ⟨haccepts, hdescribes⟩ := build_succeeds_iff_admissible [timber, ore] [stores]
  obtain ⟨catalog, hcatalog⟩ : ∃ catalog, build [timber, ore] [stores] = .ok catalog := ⟨_, rfl⟩
  refine ⟨catalog, hcatalog, haccepts.1 ⟨catalog, hcatalog⟩, hdescribes catalog hcatalog, ?_⟩
  have hchildren : (catalog.groups.find? "stores").map (·.childIds)
      = some (([((2 : Int), "timber"), (1, "ore")].mergeSort precedes).map (·.2)).eraseReps := by
    cases hcatalog
    rfl
  rw [hchildren, mergeSort_pair]
  decide

end Catalog
end Realm
