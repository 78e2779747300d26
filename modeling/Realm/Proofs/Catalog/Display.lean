import Realm.Proofs.Catalog

/-!
# The order of display

Resources are shown in blocks: one for each resource outside all groups, and one for each group, its
parent first and then its children. The blocks are sorted by place and id, laid out one after the
other, and what has been shown is not shown again. In a catalog that is made of content nothing
would ever be shown again: every resource lies in one block only (`Complete.entry_unique`), so the
blocks stand as they are, and together they show every definition once.
-/

set_option autoImplicit false

namespace Realm

variable {α : Type}

namespace Catalog

/-- What has a block of its own. -/
inductive Entry (α : Type) where
  | resource (resource : Resource α)
  | group (group : Group)

namespace Entry

def order : Entry α → Int
  | .resource single => single.order
  | .group several => several.order

def id : Entry α → String
  | .resource single => single.id
  | .group several => several.id

/-- What the block shows. -/
def shown : Entry α → List String
  | .resource single => [single.id]
  | .group several => several.parent.id :: several.childIds

end Entry

/-! ## Blocks in order -/

/-- The entries of the blocks, before they are put in order. -/
def unsorted (definitions : Table (Resource α)) (groups : Table Group) (membership : Table String) :
    List (Entry α) :=
  ((definitions.values.filter fun resource => !membership.contains resource.id).map .resource)
    ++ groups.values.map .group

/-- The entries of the blocks, in order. -/
def entries (definitions : Table (Resource α)) (groups : Table Group) (membership : Table String) :
    List (Entry α) :=
  (unsorted definitions groups membership).mergeSort fun a b =>
    precedes (a.order, a.id) (b.order, b.id)

section

variable {definitions : Table (Resource α)} {groups : Table Group} {membership : Table String}

theorem displayOrder_eq : displayOrder definitions groups membership =
    ((entries definitions groups membership).flatMap Entry.shown).eraseDups := by
  have hblocks : blocks definitions groups membership =
      (unsorted definitions groups membership).map fun entry =>
        ((entry.order, entry.id), entry.shown) := by
    unfold blocks unsorted
    rw [List.map_append, List.map_map, List.map_map]
    rfl
  have hsort : ((unsorted definitions groups membership).map fun entry =>
        ((entry.order, entry.id), entry.shown)).mergeSort (fun a b => precedes a.1 b.1)
      = (entries definitions groups membership).map fun entry =>
        ((entry.order, entry.id), entry.shown) := by
    unfold entries
    rw [List.map_mergeSort (s := fun a b => precedes a.1 b.1)]
    exact fun _ _ _ _ => rfl
  unfold displayOrder
  rw [hblocks, hsort, List.flatMap_map]

theorem mem_entries_resource_iff {resource : Resource α} :
    .resource resource ∈ entries definitions groups membership ↔
      resource ∈ definitions.values ∧ membership.contains resource.id = false := by
  unfold entries unsorted
  simp

theorem mem_entries_group_iff {group : Group} :
    .group group ∈ entries definitions groups membership ↔ group ∈ groups.values := by
  unfold entries unsorted
  simp

theorem sorted_entries : (entries definitions groups membership).Pairwise fun a b =>
    a.order < b.order ∨ a.order = b.order ∧ a.id ≤ b.id := by
  have hsorted : (entries definitions groups membership).Pairwise fun a b =>
      precedes (a.order, a.id) (b.order, b.id) = true := by
    refine List.pairwise_mergeSort ?_ ?_ _
    · exact fun _ _ _ => precedes_trans _ _ _
    · exact fun _ _ => precedes_total _ _
  exact hsorted.imp precedes_iff.1

theorem nodup_entries (hdefinitions : Keyed definitions)
    (hgroups : ∀ key group, groups.find? key = some group → group.id = key) :
    (entries definitions groups membership).Nodup := by
  unfold entries unsorted
  rw [(List.mergeSort_perm _ _).nodup_iff]
  refine List.Nodup.append ?_ ?_ ?_
  · refine List.Nodup.map ?_ (List.Nodup.filter _ (Table.nodup_values hdefinitions))
    rintro a b ⟨⟩
    rfl
  · refine List.Nodup.map ?_ (Table.nodup_values hgroups)
    rintro a b ⟨⟩
    rfl
  · intro entry hresource hgroup
    obtain ⟨resource, -, rfl⟩ := List.mem_map.1 hresource
    obtain ⟨group, -, hentry⟩ := List.mem_map.1 hgroup
    cases hentry

end

/-! ## Each resource in one block -/

section

variable {definitions : Table (Resource α)} {enrolled : Enrolled} {resources : List (Resource α)}
  {groups : List Group}

/-- The entries of the catalog that is put together. -/
def entriesOf (definitions : Table (Resource α)) (enrolled : Enrolled) : List (Entry α) :=
  entries definitions (assemble definitions enrolled).groups enrolled.membership

theorem Complete.groupOf?_eq_none_iff (h : Complete definitions enrolled resources groups)
    {id : String} : (assemble definitions enrolled).groupOf? id = none ↔
      enrolled.membership.contains id = false := by
  rw [Table.contains_eq_false_iff]
  constructor
  · intro hnone
    refine Option.eq_none_iff_forall_ne_some.2 fun key hkey => ?_
    have hclaim := mem_claimsOf_iff.1 ((h.enrolled.membership id key).1 hkey)
    obtain ⟨given, hgiven, rfl⟩ := h.admissible.claimed_group hclaim
    obtain ⟨childIds, hfind⟩ := h.group_of_given hgiven
    have hgroup : (assemble definitions enrolled).groupOf? id = some { given with childIds } :=
      h.groupOf?_iff.2 ⟨hfind, hclaim⟩
    rw [hnone] at hgroup
    cases hgroup
  · intro hnone
    show (enrolled.membership.find? id).bind _ = none
    rw [hnone]
    rfl

/-- The resources with blocks of their own are neither parents nor children. -/
theorem Complete.mem_entries_resource_iff (h : Complete definitions enrolled resources groups)
    {resource : Resource α} : .resource resource ∈ entriesOf definitions enrolled ↔
      resource ∈ (assemble definitions enrolled).definitions.values ∧
      (assemble definitions enrolled).isParent resource.id = false ∧
      (assemble definitions enrolled).groupOf? resource.id = none := by
  unfold entriesOf
  rw [Catalog.mem_entries_resource_iff, h.groupOf?_eq_none_iff, h.definitions.mem_values_iff,
    h.lists_definitions.mem_values_iff, ← and_assoc]
  refine and_congr_left fun _ => ?_
  rw [← Bool.not_eq_true, h.isParent_iff, List.mem_append, List.mem_map]
  constructor
  · intro hresource
    refine ⟨.inl hresource, ?_⟩
    rintro ⟨group, hgroup, heq⟩
    exact h.admissible.parents_new group hgroup resource hresource heq.symm
  · rintro ⟨hresource | ⟨group, hgroup, rfl⟩, hparent⟩
    · exact hresource
    · exact absurd ⟨group, hgroup, rfl⟩ hparent

theorem Complete.mem_entries_group_iff (_ : Complete definitions enrolled resources groups)
    {group : Group} : .group group ∈ entriesOf definitions enrolled ↔
      group ∈ (assemble definitions enrolled).groups.values :=
  Catalog.mem_entries_group_iff

/-- What is shown by itself is not shown by a group. -/
theorem Complete.shown_alone (h : Complete definitions enrolled resources groups)
    {resource : Resource α} (hresource : .resource resource ∈ entriesOf definitions enrolled)
    {group : Group} (hgroup : .group group ∈ entriesOf definitions enrolled) :
    resource.id ∉ group.parent.id :: group.childIds := by
  have hconsistent := h.describes.consistent
  obtain ⟨-, hparent, hnone⟩ := h.mem_entries_resource_iff.1 hresource
  have hmem := h.mem_entries_group_iff.1 hgroup
  intro hid
  rcases List.mem_cons.1 hid with heq | hchild
  · exact hconsistent.ne_parent hparent hmem heq.symm
  · have hfind := (hconsistent.groupOf?_iff resource.id group).2 ⟨hmem, hchild⟩
    rw [hnone] at hfind
    cases hfind

/-- No resource lies in two blocks. -/
theorem Complete.entry_unique (h : Complete definitions enrolled resources groups)
    {a b : Entry α} (ha : a ∈ entriesOf definitions enrolled)
    (hb : b ∈ entriesOf definitions enrolled) {id : String} (hida : id ∈ a.shown)
    (hidb : id ∈ b.shown) : a = b := by
  have hconsistent := h.describes.consistent
  cases a with
  | resource resource =>
    obtain rfl := List.mem_singleton.1 hida
    cases b with
    | resource other =>
      have hfirst := (h.mem_entries_resource_iff.1 ha).1
      have hsecond := (h.mem_entries_resource_iff.1 hb).1
      rw [List.inj_on_of_nodup_map hconsistent.nodup_ids hfirst hsecond (List.mem_singleton.1 hidb)]
    | group group => exact absurd hidb (h.shown_alone ha hb)
  | group group =>
    cases b with
    | resource resource =>
      obtain rfl := List.mem_singleton.1 hidb
      exact absurd hida (h.shown_alone hb ha)
    | group other =>
      have hgroup := h.mem_entries_group_iff.1 ha
      have hother := h.mem_entries_group_iff.1 hb
      refine congrArg Entry.group ?_
      rcases List.mem_cons.1 hida with rfl | hchild
      · rcases List.mem_cons.1 hidb with heq | hchild'
        · exact hconsistent.parent_injective group hgroup other hother heq
        · exact absurd hchild' (hconsistent.parent_not_child hgroup hother)
      · rcases List.mem_cons.1 hidb with rfl | hchild'
        · exact absurd hchild (hconsistent.parent_not_child hother hgroup)
        · have hfirst := (hconsistent.groupOf?_iff id group).2 ⟨hgroup, hchild⟩
          have hsecond := (hconsistent.groupOf?_iff id other).2 ⟨hother, hchild'⟩
          rw [hfirst, Option.some.injEq] at hsecond
          exact hsecond

theorem Complete.nodup_shown (h : Complete definitions enrolled resources groups) :
    ((entriesOf definitions enrolled).flatMap Entry.shown).Nodup := by
  have hconsistent := h.describes.consistent
  refine List.nodup_flatMap.2 ⟨fun entry hentry => ?_, ?_⟩
  · cases entry with
    | resource resource => exact List.nodup_singleton _
    | group group =>
      have hgroup := h.mem_entries_group_iff.1 hentry
      obtain ⟨key, hkey⟩ := Table.mem_values_iff.1 hgroup
      exact List.nodup_cons.2 ⟨hconsistent.parent_not_child hgroup hgroup,
        h.describes.nodup_childIds key group hkey⟩
  · refine (nodup_entries (keyed_of_lists h.definitions) fun _ _ => h.group_id).imp_of_mem ?_
    intro a b ha hb hne id hida hidb
    exact hne (h.entry_unique ha hb hida hidb)

/-- What is shown is what is defined. -/
theorem Complete.mem_shown_iff (h : Complete definitions enrolled resources groups) {id : String} :
    id ∈ (entriesOf definitions enrolled).flatMap Entry.shown ↔
      id ∈ (assemble definitions enrolled).definitions.values.map (·.id) := by
  have hconsistent := h.describes.consistent
  rw [← Table.keys_eq_map_values hconsistent.definition_id, Table.mem_keys_iff, List.mem_flatMap]
  constructor
  · rintro ⟨entry, hentry, hid⟩
    cases entry with
    | resource resource =>
      obtain rfl := List.mem_singleton.1 hid
      obtain ⟨key, hkey⟩ := Table.mem_values_iff.1 (h.mem_entries_resource_iff.1 hentry).1
      rw [hconsistent.definition_id key resource hkey]
      exact Table.contains_of_find? hkey
    | group group =>
      have hgroup := h.mem_entries_group_iff.1 hentry
      rcases List.mem_cons.1 hid with rfl | hchild
      · exact hconsistent.contains_parent _ ((hconsistent.isParent_iff _).2 ⟨group, hgroup, rfl⟩)
      · obtain ⟨key, hkey⟩ := Table.mem_values_iff.1 hgroup
        obtain ⟨resource, hresource, rfl⟩ :=
          h.admissible.claimed_known ((h.mem_childIds_iff hkey).1 hchild)
        exact Table.contains_of_find?
          ((h.describes.definition?_iff _ resource).2 ⟨.inl hresource, rfl⟩)
  · intro hid
    obtain ⟨resource, hfind⟩ := Table.contains_iff.1 hid
    obtain rfl := hconsistent.definition_id id resource hfind
    cases hparent : (assemble definitions enrolled).isParent resource.id with
    | true =>
      obtain ⟨group, hgroup, heq⟩ := (hconsistent.isParent_iff _).1 hparent
      exact ⟨.group group, h.mem_entries_group_iff.2 hgroup, heq ▸ List.mem_cons_self⟩
    | false =>
      cases hgroup : (assemble definitions enrolled).groupOf? resource.id with
      | none =>
        exact ⟨.resource resource, h.mem_entries_resource_iff.2
          ⟨Table.mem_values_iff.2 ⟨_, hfind⟩, hparent, hgroup⟩, List.mem_singleton_self _⟩
      | some group =>
        obtain ⟨hmem, hchild⟩ := (hconsistent.groupOf?_iff _ group).1 hgroup
        exact ⟨.group group, h.mem_entries_group_iff.2 hmem, List.mem_cons_of_mem _ hchild⟩

/-- No block says again what another has shown. -/
theorem Complete.ordered_eq (h : Complete definitions enrolled resources groups) :
    (assemble definitions enrolled).ordered
      = (entriesOf definitions enrolled).flatMap Entry.shown := by
  have hordered : (assemble definitions enrolled).ordered
      = ((entriesOf definitions enrolled).flatMap Entry.shown).eraseDups := displayOrder_eq
  rw [hordered, eraseDups_of_nodup h.nodup_shown]

end

/-! ## Every catalog -/

/-- The entries are those of the blocks that the catalog is shown in, in order. -/
structure ShownIn (catalog : Catalog α) (entries : List (Entry α)) : Prop where
  /-- Each entry stands once, -/
  nodup : entries.Nodup
  /-- one for each resource that is neither a parent nor a child, -/
  resource_iff : ∀ resource, .resource resource ∈ entries ↔
    resource ∈ catalog.definitions.values ∧ catalog.isParent resource.id = false ∧
      catalog.groupOf? resource.id = none
  /-- and one for each group. -/
  group_iff : ∀ group, .group group ∈ entries ↔ group ∈ catalog.groups.values
  sorted : entries.Pairwise fun a b => a.order < b.order ∨ a.order = b.order ∧ a.id ≤ b.id
  /-- The groups list all of their children, -/
  children_iff : ∀ group ∈ catalog.groups.values, ∀ id,
    id ∈ group.childIds ↔ catalog.groupOf? id = some group
  /-- in order. -/
  children_sorted : ∀ group ∈ catalog.groups.values,
    ∃ members ⊆ catalog.definitions.values, group.childIds = members.map (·.id) ∧
      members.Pairwise fun a b => a.order < b.order ∨ a.order = b.order ∧ a.id < b.id
  /-- The catalog shows the blocks one after the other. -/
  ordered : catalog.ordered = entries.flatMap Entry.shown

/-- Every definition is shown once, by itself or with its group. -/
theorem ordered_in_blocks {resources : List (Resource α)} {groups : List Group}
    {catalog : Catalog α} (h : build resources groups = .ok catalog) :
    catalog.ordered.Perm (catalog.definitions.values.map (·.id)) ∧
    ∃ entries, catalog.ShownIn entries := by
  obtain ⟨definitions, enrolled, hcomplete, rfl⟩ := (decides_build resources groups).value catalog h
  have hconsistent := hcomplete.describes.consistent
  constructor
  · rw [hcomplete.ordered_eq,
      List.perm_ext_iff_of_nodup hcomplete.nodup_shown hconsistent.nodup_ids]
    exact fun id => hcomplete.mem_shown_iff
  · refine ⟨entriesOf definitions enrolled,
      nodup_entries (keyed_of_lists hcomplete.definitions) fun _ _ => hcomplete.group_id,
      fun _ => hcomplete.mem_entries_resource_iff, fun _ => hcomplete.mem_entries_group_iff,
      sorted_entries, fun group hgroup id => ?_, fun group hgroup => ?_, hcomplete.ordered_eq⟩
    · rw [hconsistent.groupOf?_iff, and_iff_right hgroup]
    · obtain ⟨key, hkey⟩ := Table.mem_values_iff.1 hgroup
      obtain ⟨members, hmembers, hids, hsorted⟩ :=
        hcomplete.describes.sorted_childIds key group hkey
      refine ⟨members, fun resource hresource => ?_, hids, hsorted⟩
      refine hcomplete.lists_definitions.mem_values_iff.2 (List.mem_append_left _ ?_)
      exact hmembers hresource

theorem ordered_in_blocks_moods :
    build [Sample.happiness] [Sample.moods] = .ok Sample.catalog ∧
    Sample.catalog.ordered.Perm ["happiness", "mood"] ∧
    ∃ entries, Sample.catalog.ShownIn entries :=
  ⟨Sample.build_catalog, ordered_in_blocks Sample.build_catalog⟩

end Catalog
end Realm
