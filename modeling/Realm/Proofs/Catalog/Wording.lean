import Realm.Amount.Binary64
import Realm.Proofs.Catalog.Description

/-!
# Content in other words

Content may be written down in many ways: its resources and its groups in any order, the children of
a group in any order and more than once, and a membership on the side of the resource, on the side
of the group, or on both. `Rewords` is what two ways of writing one content down have in common:
the resources but for the groups they name, the groups but for the children they list, and the
memberships that are declared on either side.

A catalog does not depend on the wording (`build_reworded`). Whether it is made does not, although
the check stops at the first thing that is wrong and so may complain of one wording otherwise than
of another: what is checked as a whole (`Admissible`) mentions memberships only as declared on some
side. And neither does what it is put together from: a table has one form for what it answers, and
the children of a group are sorted and told once each (`inOrder_congr`).
-/

set_option autoImplicit false

namespace Realm

variable {α : Type}

/-- The resource without the group it names. -/
def Resource.ungrouped (resource : Resource α) : Resource α := { resource with groupId := none }

/-- The group without the children it lists. -/
def Group.unlisted (group : Group) : Group := { group with childIds := [] }

namespace Catalog

/-- The same content in other words. -/
structure Rewords (resources : List (Resource α)) (groups : List Group)
    (resources' : List (Resource α)) (groups' : List Group) : Prop where
  /-- The same resources in some order, whichever groups they name, -/
  perm_resources : (resources.map Resource.ungrouped).Perm (resources'.map Resource.ungrouped)
  /-- the same groups in some order, whichever children they list, -/
  perm_groups : (groups.map Group.unlisted).Perm (groups'.map Group.unlisted)
  /-- and the same memberships, whoever declares them. -/
  claimed_iff : ∀ id key, Claimed resources groups id key ↔ Claimed resources' groups' id key

/-- Two catalogs that differ, if at all, in which resources name their groups. -/
structure Matches (catalog other : Catalog α) : Prop where
  definitions : (catalog.definitions.map fun _ => Resource.ungrouped)
    = other.definitions.map fun _ => Resource.ungrouped
  /-- The groups list the same children. -/
  groups : catalog.groups = other.groups
  membership : catalog.membership = other.membership
  parents : catalog.parents = other.parents
  ordered : catalog.ordered = other.ordered

variable {resources resources' : List (Resource α)} {groups groups' : List Group}

namespace Rewords

theorem symm (h : Rewords resources groups resources' groups') :
    Rewords resources' groups' resources groups :=
  ⟨h.perm_resources.symm, h.perm_groups.symm, fun id key => (h.claimed_iff id key).symm⟩

theorem trans {resources'' : List (Resource α)} {groups'' : List Group}
    (h : Rewords resources groups resources' groups')
    (h' : Rewords resources' groups' resources'' groups'') :
    Rewords resources groups resources'' groups'' :=
  ⟨h.perm_resources.trans h'.perm_resources, h.perm_groups.trans h'.perm_groups,
    fun id key => (h.claimed_iff id key).trans (h'.claimed_iff id key)⟩

/-- Resources and groups may be written in any order. -/
theorem reorder (hresources : resources.Perm resources') (hgroups : groups.Perm groups') :
    Rewords resources groups resources' groups' := by
  refine ⟨hresources.map _, hgroups.map _, fun id key => ?_⟩
  rw [← mem_claimsOf_iff, ← mem_claimsOf_iff]
  exact ((hgroups.flatMap_right _).append (hresources.flatMap_right _)).mem_iff

/-! ## Whether a catalog is made -/

variable (h : Rewords resources groups resources' groups')
include h

theorem perm_ids : (resources.map (·.id)).Perm (resources'.map (·.id)) := by
  have hids := h.perm_resources.map (·.id)
  rwa [List.map_map, List.map_map] at hids

theorem perm_group_ids : (groups.map (·.id)).Perm (groups'.map (·.id)) := by
  have hids := h.perm_groups.map (·.id)
  rwa [List.map_map, List.map_map] at hids

theorem perm_parents : (groups.map (·.parent)).Perm (groups'.map (·.parent)) := by
  have hparents := h.perm_groups.map (·.parent)
  rwa [List.map_map, List.map_map] at hparents

theorem exists_resource {id : String} (hid : ∃ resource ∈ resources, resource.id = id) :
    ∃ resource ∈ resources', resource.id = id :=
  List.mem_map.1 (h.perm_ids.subset (List.mem_map.2 hid))

/-- A group stands in the other wording too, with children of its own. -/
theorem exists_group {group : Group} (hgroup : group ∈ groups) :
    ∃ other ∈ groups', other.unlisted = group.unlisted :=
  List.mem_map.1 (h.perm_groups.subset (List.mem_map.2 ⟨group, hgroup, rfl⟩))

theorem admissible (hadmissible : Admissible resources groups) :
    Admissible resources' groups' := by
  refine ⟨h.perm_ids.nodup hadmissible.resource_ids, h.perm_group_ids.nodup hadmissible.group_ids,
    ?_, fun group hgroup resource hresource heq => ?_, fun group hgroup child hchild => ?_,
    fun resource hresource key hkey => ?_, fun id key other hkey hother => ?_⟩
  · have hparents := (h.perm_parents.map (·.id)).nodup
    rw [List.map_map, List.map_map] at hparents
    exact hparents hadmissible.parent_ids
  · obtain ⟨old, hold, hid⟩ := h.symm.exists_resource ⟨resource, hresource, rfl⟩
    obtain ⟨given, hgiven, hsame⟩ := h.symm.exists_group hgroup
    have hparent : given.parent = group.parent := congrArg (·.parent) hsame
    refine hadmissible.parents_new given hgiven old hold ?_
    rw [hid, hparent]
    exact heq
  · have hclaim := (h.claimed_iff child group.id).2 (.listed hgroup rfl hchild)
    exact h.exists_resource (hadmissible.claimed_known hclaim)
  · have hclaim := (h.claimed_iff resource.id key).2 (.named hresource rfl hkey)
    obtain ⟨given, hgiven, rfl⟩ := hadmissible.claimed_group hclaim
    obtain ⟨group, hgroup, hsame⟩ := h.exists_group hgiven
    have hid : group.id = given.id := congrArg (·.id) hsame
    exact ⟨group, hgroup, hid⟩
  · exact hadmissible.one_group id key other ((h.claimed_iff id key).2 hkey)
      ((h.claimed_iff id other).2 hother)

end Rewords

/-! ## Children and blocks

Neither takes any notice of the groups that resources name. -/

theorem inOrder_ungrouped (definitions : Table (Resource α)) (childIds : List String) :
    inOrder (definitions.map fun _ => Resource.ungrouped) childIds
      = inOrder definitions childIds := by
  have hplaced : (childIds.filterMap (definitions.map fun _ => Resource.ungrouped).find?).map
      Resource.place = (childIds.filterMap definitions.find?).map Resource.place := by
    simp only [List.map_filterMap, Table.find?_map, Option.map_map]
    rfl
  unfold inOrder
  exact congrArg (fun placed : List (Int × String) =>
    ((placed.mergeSort precedes).map (·.2)).eraseReps) hplaced

/-- Children are told in one way, however they are listed. -/
theorem inOrder_congr {definitions : Table (Resource α)} (hkeyed : Keyed definitions)
    {childIds childIds' : List String} (h : ∀ id, id ∈ childIds ↔ id ∈ childIds') :
    inOrder definitions childIds = inOrder definitions childIds' := by
  have hsorted : ∀ ids, (inOrder definitions ids).Pairwise fun a b =>
      shownBefore definitions a b = true := by
    intro ids
    rw [inOrder_eq hkeyed]
    exact (pairwise_mergeSort_shownBefore definitions _).sublist (List.dedup_sublist _)
  refine List.Perm.eq_of_pairwise (fun a b _ _ => Std.Antisymm.antisymm a b) (hsorted _)
    (hsorted _) ?_
  refine (List.perm_ext_iff_of_nodup (nodup_inOrder hkeyed _) (nodup_inOrder hkeyed _)).2 ?_
  intro id
  rw [mem_inOrder_iff hkeyed, mem_inOrder_iff hkeyed, h id]

theorem displayOrder_ungrouped (definitions : Table (Resource α)) (groups : Table Group)
    (membership : Table String) :
    displayOrder (definitions.map fun _ => Resource.ungrouped) groups membership
      = displayOrder definitions groups membership := by
  have hblocks : blocks (definitions.map fun _ => Resource.ungrouped) groups membership
      = blocks definitions groups membership := by
    unfold blocks
    rw [Table.values_map, List.filter_map, List.map_map]
    rfl
  unfold displayOrder
  rw [hblocks]

/-! ## What a catalog is put together from -/

section

variable {definitions definitions' : Table (Resource α)} {enrolled enrolled' : Enrolled}
  (h : Rewords resources groups resources' groups')
  (hcomplete : Complete definitions enrolled resources groups)
  (hcomplete' : Complete definitions' enrolled' resources' groups')
include h hcomplete hcomplete'

theorem Rewords.registered : (definitions.map fun _ => Resource.ungrouped)
    = definitions'.map fun _ => Resource.ungrouped := by
  have hlists : (definitions.map fun _ => Resource.ungrouped).Lists (·.id)
      (resources.map Resource.ungrouped) := hcomplete.definitions.map fun _ => rfl
  have hlists' : (definitions'.map fun _ => Resource.ungrouped).Lists (·.id)
      (resources'.map Resource.ungrouped) := hcomplete'.definitions.map fun _ => rfl
  exact hlists.unique (hlists'.congr fun _ => h.perm_resources.symm.mem_iff)

theorem Rewords.defined :
    ((assemble definitions enrolled).definitions.map fun _ => Resource.ungrouped)
      = (assemble definitions' enrolled').definitions.map fun _ => Resource.ungrouped := by
  have hlists : ((assemble definitions enrolled).definitions.map fun _ =>
      Resource.ungrouped).Lists (·.id)
      ((resources ++ groups.map Group.parentResource).map Resource.ungrouped) :=
    hcomplete.lists_definitions.map fun _ => rfl
  have hlists' : ((assemble definitions' enrolled').definitions.map fun _ =>
      Resource.ungrouped).Lists (·.id)
      ((resources' ++ groups'.map Group.parentResource).map Resource.ungrouped) :=
    hcomplete'.lists_definitions.map fun _ => rfl
  have hparents : (groups'.map (Group.parentResource (α := α))).Perm
      (groups.map Group.parentResource) := by
    have hunlisted := h.perm_groups.symm.map (Group.parentResource (α := α))
    rwa [List.map_map, List.map_map] at hunlisted
  rw [List.map_append] at hlists hlists'
  refine hlists.unique (hlists'.congr fun _ => ?_)
  exact (h.perm_resources.symm.append (hparents.map _)).mem_iff

theorem Rewords.membership : enrolled.membership = enrolled'.membership := by
  refine Table.ext_find? fun id => Option.ext fun key => ?_
  rw [hcomplete.enrolled.membership id key, hcomplete'.enrolled.membership id key,
    mem_claimsOf_iff, mem_claimsOf_iff, h.claimed_iff]

theorem Rewords.find?_parent {parent key : String}
    (hparent : enrolled.parents.find? parent = some key) :
    enrolled'.parents.find? parent = some key := by
  obtain ⟨group, hgroup, rfl, rfl⟩ := (hcomplete.enrolled.parents parent key).1 hparent
  obtain ⟨other, hother, hsame⟩ := h.exists_group hgroup
  refine (hcomplete'.enrolled.parents _ _).2 ⟨other, hother, ?_, ?_⟩
  · exact congrArg (·.parent.id) hsame
  · exact congrArg (·.id) hsame

theorem Rewords.childIds_eq {key : String} {group group' : Group}
    (hgroup : (assemble definitions enrolled).groups.find? key = some group)
    (hgroup' : (assemble definitions' enrolled').groups.find? key = some group') :
    group.childIds = group'.childIds := by
  obtain ⟨listed, hlisted, rfl⟩ := find?_assemble_iff.1 hgroup
  obtain ⟨listed', hlisted', rfl⟩ := find?_assemble_iff.1 hgroup'
  dsimp only
  rw [← inOrder_ungrouped definitions, ← inOrder_ungrouped definitions',
    h.registered hcomplete hcomplete']
  have hlists : (definitions'.map fun _ => Resource.ungrouped).Lists (·.id)
      (resources'.map Resource.ungrouped) := hcomplete'.definitions.map fun _ => rfl
  refine inOrder_congr (keyed_of_lists hlists) fun id => ?_
  rw [hcomplete.enrolled.children key listed hlisted,
    hcomplete'.enrolled.children key listed' hlisted', mem_claimsOf_iff, mem_claimsOf_iff,
    h.claimed_iff]

theorem Rewords.find?_group {key : String} {group : Group}
    (hgroup : (assemble definitions enrolled).groups.find? key = some group) :
    (assemble definitions' enrolled').groups.find? key = some group := by
  obtain ⟨given, hgiven, rfl, heq⟩ := hcomplete.given_of_group hgroup
  obtain ⟨other, hother, hsame⟩ := h.exists_group hgiven
  obtain ⟨childIds, hfind⟩ := hcomplete'.group_of_given hother
  have hid : other.id = given.id := congrArg (·.id) hsame
  have hrelisted : ({ other with childIds } : Group) = { given with childIds } :=
    congrArg (fun group : Group => { group with childIds }) hsame
  rw [hrelisted, hid] at hfind
  have hchildren : group.childIds = childIds := h.childIds_eq hcomplete hcomplete' hgroup hfind
  rw [hfind, heq, hchildren]

end

theorem Rewords.matches {definitions definitions' : Table (Resource α)}
    {enrolled enrolled' : Enrolled} (h : Rewords resources groups resources' groups')
    (hcomplete : Complete definitions enrolled resources groups)
    (hcomplete' : Complete definitions' enrolled' resources' groups') :
    (assemble definitions enrolled).Matches (assemble definitions' enrolled') := by
  have hgroups : (assemble definitions enrolled).groups
      = (assemble definitions' enrolled').groups := by
    refine Table.ext_find? fun key => Option.ext fun group => ⟨?_, ?_⟩
    · exact h.find?_group hcomplete hcomplete'
    · exact h.symm.find?_group hcomplete' hcomplete
  have hmembership := h.membership hcomplete hcomplete'
  refine ⟨h.defined hcomplete hcomplete', hgroups, hmembership, ?_, ?_⟩
  · refine Table.ext_find? fun parent => Option.ext fun key => ⟨?_, ?_⟩
    · exact h.find?_parent hcomplete hcomplete'
    · exact h.symm.find?_parent hcomplete' hcomplete
  · show displayOrder definitions (assemble definitions enrolled).groups enrolled.membership
      = displayOrder definitions' (assemble definitions' enrolled').groups enrolled'.membership
    rw [hgroups, hmembership, ← displayOrder_ungrouped definitions,
      ← displayOrder_ungrouped definitions', h.registered hcomplete hcomplete']

/-! ## Every catalog -/

/-- **A catalog does not depend on how its content is written down.** Of two wordings of one content
    a catalog is made of both or of neither, and the two catalogs define the same resources, but for
    the groups that these name, have the same groups with the same children, tell the same of
    members and parents, and show everything in the same order. -/
theorem build_reworded (h : Rewords resources groups resources' groups') :
    ((∃ catalog, build resources groups = .ok catalog) ↔
      ∃ catalog, build resources' groups' = .ok catalog) ∧
    ∀ catalog catalog', build resources groups = .ok catalog →
      build resources' groups' = .ok catalog' → catalog.Matches catalog' := by
  have hdecides := decides_build resources groups
  have hdecides' := decides_build resources' groups'
  refine ⟨?_, fun catalog catalog' hbuild hbuild' => ?_⟩
  · rw [hdecides.succeeds_iff, hdecides'.succeeds_iff]
    exact ⟨h.admissible, h.symm.admissible⟩
  · obtain ⟨definitions, enrolled, hcomplete, rfl⟩ := hdecides.value catalog hbuild
    obtain ⟨definitions', enrolled', hcomplete', rfl⟩ := hdecides'.value catalog' hbuild'
    exact h.matches hcomplete hcomplete'

end Catalog

/-! Timber, which the group lists, names it instead, and ore, which names the group, is listed, and
twice. -/

namespace Sample

def timberOfStores : Resource Binary64 := { timber with groupId := some "stores" }

def oreListed : Resource Binary64 := { ore with groupId := none }

def storesOfOre : Group := { stores with childIds := ["ore", "ore"] }

end Sample

namespace Catalog

open Sample

theorem rewords_stores : Rewords [timber, ore] [stores] [oreListed, timberOfStores]
    [storesOfOre] := by
  have hswapped : Rewords [timber, ore] [stores] [ore, timber] [stores] :=
    .reorder (.swap ore timber []) (.refl _)
  refine hswapped.trans ⟨.refl _, .refl _, fun id key => ?_⟩
  rw [← mem_claimsOf_iff, ← mem_claimsOf_iff,
    show claimsOf [ore, timber] [stores] = [("timber", "stores"), ("ore", "stores")] from rfl,
    show claimsOf [oreListed, timberOfStores] [storesOfOre]
      = [("ore", "stores"), ("ore", "stores"), ("timber", "stores")] from rfl]
  simp [or_comm]

theorem build_reworded_stores :
    Rewords [timber, ore] [stores] [oreListed, timberOfStores] [storesOfOre] ∧
    ∃ catalog catalog', build [timber, ore] [stores] = .ok catalog ∧
      build [oreListed, timberOfStores] [storesOfOre] = .ok catalog' ∧
      catalog.Matches catalog' := by
  obtain ⟨catalog, hcatalog⟩ : ∃ catalog, build [timber, ore] [stores] = .ok catalog := ⟨_, rfl⟩
  obtain ⟨haccepted, hmatches⟩ := build_reworded rewords_stores
  obtain ⟨catalog', hcatalog'⟩ := haccepted.1 ⟨catalog, hcatalog⟩
  exact ⟨rewords_stores, catalog, catalog', hcatalog, hcatalog',
    hmatches catalog catalog' hcatalog hcatalog'⟩

end Catalog
end Realm
