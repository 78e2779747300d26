import Realm.Amount.Binary64
import Realm.Proofs.Catalog.Description

/-!
# What a ledger relies on

A ledger relies on the catalog: that a write concerns one group at most, that no parent is a child,
that no two groups share a parent. None of it is checked again when amounts are written; it is
checked once, by `Catalog.build`. `Catalog.Consistent` names these facts, which do not mention the
content any more, and `build_consistent` reads them off what every catalog tells about its content.
-/

set_option autoImplicit false

namespace Realm
namespace Catalog

variable {α : Type}

/-- What holds of every catalog that is made of content. -/
structure Consistent (catalog : Catalog α) : Prop where
  /-- A resource is kept under its id. -/
  definition_id : ∀ id resource, catalog.definitions.find? id = some resource → resource.id = id
  /-- The derived resources are the parents of the groups, -/
  isParent_iff : ∀ id, catalog.isParent id = true ↔
    ∃ group ∈ catalog.groups.values, group.parent.id = id
  /-- and are registered like any other. -/
  contains_parent : ∀ id, catalog.isParent id = true → catalog.contains id = true
  /-- No two groups share a parent. -/
  parent_injective : ∀ group ∈ catalog.groups.values, ∀ other ∈ catalog.groups.values,
    group.parent.id = other.parent.id → group = other
  /-- The children of a group are the resources that belong to it, -/
  groupOf?_iff : ∀ id group, catalog.groupOf? id = some group ↔
    group ∈ catalog.groups.values ∧ id ∈ group.childIds
  /-- and none of them is derived. -/
  child_not_parent : ∀ group ∈ catalog.groups.values, ∀ id ∈ group.childIds,
    catalog.isParent id = false

/-- What is not derived is no group's parent. -/
theorem Consistent.ne_parent {catalog : Catalog α} (hc : catalog.Consistent) {id : String}
    (hid : catalog.isParent id = false) {group : Group} (hgroup : group ∈ catalog.groups.values) :
    group.parent.id ≠ id := by
  intro heq
  rw [(hc.isParent_iff id).2 ⟨group, hgroup, heq⟩] at hid
  cases hid

/-- The definitions have ids of their own. -/
theorem Consistent.nodup_ids {catalog : Catalog α} (hc : catalog.Consistent) :
    (catalog.definitions.values.map (·.id)).Nodup := by
  rw [← Table.keys_eq_map_values hc.definition_id]
  exact Table.nodup_keys _

/-- A parent is nobody's child. -/
theorem Consistent.parent_not_child {catalog : Catalog α} (hc : catalog.Consistent)
    {group other : Group} (hgroup : group ∈ catalog.groups.values)
    (hother : other ∈ catalog.groups.values) : group.parent.id ∉ other.childIds := by
  intro hmem
  exact hc.ne_parent (hc.child_not_parent other hother _ hmem) hgroup rfl

theorem requireKnown_eq_ok {catalog : Catalog α} {id : String} :
    catalog.requireKnown id = .ok () ↔ catalog.contains id = true := by
  unfold Catalog.requireKnown
  split <;> simp_all

theorem requireKnown_eq_error {catalog : Catalog α} {id : String} {error : LedgerError α} :
    catalog.requireKnown id = .error error ↔
      catalog.contains id = false ∧ error = .unknownResource id := by
  unfold Catalog.requireKnown
  cases catalog.contains id <;> simp [eq_comm]

theorem requireWritable_eq_ok {catalog : Catalog α} {id : String} :
    catalog.requireWritable id = .ok () ↔
      catalog.contains id = true ∧ catalog.isParent id = false := by
  unfold Catalog.requireWritable Catalog.requireKnown
  by_cases hknown : catalog.contains id = true
  · by_cases hparent : catalog.isParent id = true
    · simp [hknown, hparent, bind, Except.bind, throw, throwThe, MonadExceptOf.throw]
    · simp [hknown, hparent, bind, Except.bind, pure, Except.pure]
  · simp [hknown, bind, Except.bind]

theorem requireWritable_of_unknown {catalog : Catalog α} {id : String}
    (h : catalog.contains id = false) :
    catalog.requireWritable id = .error (.unknownResource id) := by
  unfold Catalog.requireWritable
  rw [requireKnown_eq_error.2 ⟨h, rfl⟩]
  rfl

theorem Describes.mem_groups_iff {catalog : Catalog α} {resources : List (Resource α)}
    {groups : List Group} (h : catalog.Describes resources groups) {group : Group} :
    group ∈ catalog.groups.values ↔ catalog.groups.find? group.id = some group := by
  rw [Table.mem_values_iff]
  constructor
  · rintro ⟨key, hkey⟩
    obtain ⟨given, -, hid, heq⟩ := h.given_of_group key group hkey
    have hgroup : group.id = key := by rw [heq, hid]
    rw [hgroup]
    exact hkey
  · exact fun hfind => ⟨group.id, hfind⟩

theorem Describes.consistent {catalog : Catalog α} {resources : List (Resource α)}
    {groups : List Group} (h : catalog.Describes resources groups) : catalog.Consistent := by
  have hparent : ∀ id, catalog.isParent id = true ↔
      ∃ group ∈ catalog.groups.values, group.parent.id = id := by
    intro id
    rw [h.isParent_iff]
    constructor
    · rintro ⟨given, hgiven, rfl⟩
      obtain ⟨childIds, hfind⟩ := h.group_of_given given hgiven
      exact ⟨_, Table.mem_values_iff.2 ⟨given.id, hfind⟩, rfl⟩
    · rintro ⟨group, hgroup, rfl⟩
      obtain ⟨key, hkey⟩ := Table.mem_values_iff.1 hgroup
      obtain ⟨given, hgiven, -, heq⟩ := h.given_of_group key group hkey
      exact ⟨given, hgiven, by rw [heq]⟩
  refine ⟨fun id resource hfind => ((h.definition?_iff id resource).1 hfind).2, hparent,
    fun id hid => ?_, fun group hgroup other hother heq => ?_, fun id group => ?_,
    fun group hgroup id hchild => ?_⟩
  · obtain ⟨group, hgroup, rfl⟩ := (h.isParent_iff id).1 hid
    refine Table.contains_of_find? ((h.definition?_iff _ group.parentResource).2 ⟨.inr ?_, rfl⟩)
    exact ⟨group, hgroup, rfl⟩
  · -- Both are the group that their common parent is recorded for.
    have hfirst := (h.groupOfParent?_iff _ group).2 ⟨h.mem_groups_iff.1 hgroup, rfl⟩
    have hsecond := (h.groupOfParent?_iff _ other).2 ⟨h.mem_groups_iff.1 hother, heq.symm⟩
    rw [hfirst, Option.some.injEq] at hsecond
    exact hsecond
  · rw [h.groupOf?_iff, h.mem_groups_iff]
    exact and_congr_right fun hfind => (h.mem_childIds_iff group.id group hfind id).symm
  · rw [← Bool.not_eq_true]
    exact fun hid => (h.parent_not_member id hid).2 group hgroup hchild

/-- Every catalog that is made of content is consistent. -/
theorem build_consistent {resources : List (Resource α)} {groups : List Group}
    {catalog : Catalog α} (h : build resources groups = .ok catalog) : catalog.Consistent :=
  (describes_of_build h).consistent

end Catalog

/-! ## A small catalog

One resource within bounds and the group that it makes up, for examples. -/

namespace Sample

def happiness : Resource Binary64 :=
  { id := "happiness"
    label := "Happiness"
    bounds := { lower := some (Amount.ofInt (-10)), upper := some (Amount.ofInt 10) } }

def moods : Group :=
  { id := "moods", parent := { id := "mood", label := "Mood" }, childIds := ["happiness"] }

def catalog : Catalog Binary64 :=
  (Catalog.build [happiness] [moods]).toOption.getD .empty

theorem build_catalog : Catalog.build [happiness] [moods] = .ok catalog := rfl

end Sample

end Realm
