import Realm.Proofs.Attempt
import Realm.Proofs.Catalog.Order

/-!
# Which content makes a catalog

`Catalog.build` is a check as much as a construction. `Admissible` says of resources and groups what
the check asks, without mention of tables or of the order in which it reads them: ids that are
distinct, children and groups that are there, and no resource that two groups claim, whichever way
they do it. `decides_build` is that content makes a catalog exactly where it is admissible, and what
the catalog is then put together from (`Complete`).

Construction is three passes, over resources, over groups and over resources again, and each is
settled the same way: of the items done so far there is a condition and an account of the tables
that have been filled, and a step goes through exactly where the condition still holds with one item
more (`Outcome.decides_foldlM`). Membership is declared on both sides, so both are read as lists of
*claims*, and the table of members records those (`Records`).
-/

set_option autoImplicit false

namespace Realm

variable {α : Type}

/-! ## Claims -/

/-- The memberships that a group declares, of a resource in the group. -/
def Group.claims (group : Group) : List (String × String) := group.childIds.map (·, group.id)

/-- The membership that a resource declares. -/
def Resource.claims (resource : Resource α) : List (String × String) :=
  resource.groupId.toList.map (resource.id, ·)

theorem Group.mem_claims_iff {group : Group} {id key : String} :
    (id, key) ∈ group.claims ↔ id ∈ group.childIds ∧ group.id = key := by
  unfold claims
  simp

theorem Resource.mem_claims_iff {resource : Resource α} {id key : String} :
    (id, key) ∈ resource.claims ↔ resource.id = id ∧ resource.groupId = some key := by
  unfold claims
  simp only [List.mem_map, Option.mem_toList, Prod.mk.injEq]
  constructor
  · rintro ⟨_, hgroup, hid, rfl⟩
    exact ⟨hid, hgroup⟩
  · rintro ⟨hid, hgroup⟩
    exact ⟨key, hgroup, hid, rfl⟩

namespace Catalog

/-- A resource is said to belong to a group, by the group or by itself. -/
inductive Claimed (resources : List (Resource α)) (groups : List Group) (id key : String) : Prop
  | listed {group : Group} (hgroup : group ∈ groups) (hkey : group.id = key)
    (hchild : id ∈ group.childIds)
  | named {resource : Resource α} (hresource : resource ∈ resources) (hid : resource.id = id)
    (hkey : resource.groupId = some key)

/-- Resources and groups that go together. -/
structure Admissible (resources : List (Resource α)) (groups : List Group) : Prop where
  resource_ids : (resources.map (·.id)).Nodup
  group_ids : (groups.map (·.id)).Nodup
  parent_ids : (groups.map (·.parent.id)).Nodup
  parents_new : ∀ group ∈ groups, ∀ resource ∈ resources, resource.id ≠ group.parent.id
  children_known : ∀ group ∈ groups, ∀ child ∈ group.childIds,
    ∃ resource ∈ resources, resource.id = child
  groups_known : ∀ resource ∈ resources, ∀ key, resource.groupId = some key →
    ∃ group ∈ groups, group.id = key
  one_group : ∀ id key other, Claimed resources groups id key →
    Claimed resources groups id other → key = other

/-! ## Members -/

/-- No resource is claimed by two groups. -/
def Agree (claims : List (String × String)) : Prop :=
  ∀ id key other, (id, key) ∈ claims → (id, other) ∈ claims → key = other

/-- The members are those that claims tell of. -/
def Records (membership : Table String) (claims : List (String × String)) : Prop :=
  ∀ id key, membership.find? id = some key ↔ (id, key) ∈ claims

theorem Records.agree {membership : Table String} {claims : List (String × String)}
    (h : Records membership claims) : Agree claims := by
  intro id key other hkey hother
  rw [← h, Option.eq_some_iff_get_eq] at hkey hother
  exact hkey.2.symm.trans hother.2

theorem Agree.mono {claims fewer : List (String × String)} (h : Agree claims)
    (hsub : fewer ⊆ claims) : Agree fewer :=
  fun id key other hkey hother => h id key other (hsub hkey) (hsub hother)

theorem Records.congr {membership : Table String} {claims others : List (String × String)}
    (h : Records membership claims) (hclaims : ∀ claim, claim ∈ claims ↔ claim ∈ others) :
    Records membership others := by
  intro id key
  rw [h id key, hclaims]

theorem Records.append_of_mem {membership : Table String} {claims : List (String × String)}
    (h : Records membership claims) {claim : String × String} (hclaim : claim ∈ claims) :
    Records membership (claims ++ [claim]) := by
  refine h.congr fun other => ?_
  rw [List.mem_append, List.mem_singleton]
  refine ⟨.inl, ?_⟩
  rintro (hother | rfl)
  · exact hother
  · exact hclaim

/-- A claim goes through where no other group has claimed the resource. -/
theorem decides_claim {membership : Table String} {claims : List (String × String)}
    (h : Records membership claims) (resource group : String) :
    Outcome.Decides (Agree (claims ++ [(resource, group)]))
      (Records · (claims ++ [(resource, group)])) (claim (α := α) membership resource group) := by
  unfold claim
  cases hfind : membership.find? resource with
  | none =>
    have hrecords : Records (membership.insert resource group) (claims ++ [(resource, group)]) := by
      intro id key
      rw [Table.find?_insert, List.mem_append, List.mem_singleton, Prod.mk.injEq, ← h id key]
      by_cases hid : resource = id
      · subst hid
        simp [hfind, eq_comm]
      · simp [hid, Ne.symm hid]
    exact Outcome.decides_ok hrecords.agree hrecords
  | some first =>
    have hfirst : (resource, first) ∈ claims := (h resource first).1 hfind
    dsimp only
    by_cases heq : first = group
    · rw [if_pos heq]
      have hrecords : Records membership (claims ++ [(resource, group)]) :=
        h.append_of_mem (heq ▸ hfirst)
      exact Outcome.decides_ok hrecords.agree hrecords
    · rw [if_neg heq]
      refine Outcome.decides_error fun hagree => heq ?_
      exact hagree resource first group (List.mem_append_left _ hfirst) (by simp)

/-- The membership that the children listed by a group add to. -/
def claimAll (definitions : Table (Resource α)) (key : String) (membership : Table String)
    (childIds : List String) : Except (LedgerError α) (Table String) :=
  childIds.foldlM (fun membership child =>
    if definitions.contains child then claim membership child key
    else throw (.unknownGroupChild key child)) membership

/-- The children that a group lists go through where they are resources and nobody else's. -/
theorem decides_claimAll (definitions : Table (Resource α)) {membership : Table String}
    {claims : List (String × String)} (h : Records membership claims) (key : String)
    (childIds : List String) :
    Outcome.Decides ((∀ child ∈ childIds, definitions.contains child = true) ∧
        Agree (claims ++ childIds.map (·, key)))
      (Records · (claims ++ childIds.map (·, key)))
      (claimAll definitions key membership childIds) := by
  have hnil : Records membership (claims ++ [].map (·, key)) := by simpa using h
  refine Outcome.decides_foldlM
    (fun done : List String => (∀ child ∈ done, definitions.contains child = true) ∧
      Agree (claims ++ done.map (·, key)))
    (fun done membership => Records membership (claims ++ done.map (·, key)))
    ⟨by simp, hnil.agree⟩ hnil ?_ ?_ childIds
  · rintro done child ⟨hknown, hagree⟩
    refine ⟨fun other hother => hknown other (List.mem_append_left _ hother), hagree.mono ?_⟩
    rw [List.map_append, ← List.append_assoc]
    exact List.subset_append_left _ _
  · rintro done child before ⟨hknown, -⟩ hbefore
    rw [List.map_append, List.map_singleton, ← List.append_assoc]
    by_cases hchild : definitions.contains child = true
    · rw [if_pos hchild]
      refine (decides_claim hbefore child key).congr ⟨fun hagree => ⟨?_, hagree⟩, And.right⟩
      intro other hother
      rcases List.mem_append.1 hother with hother | hother
      · exact hknown other hother
      · rw [List.mem_singleton.1 hother]
        exact hchild
    · rw [if_neg hchild]
      exact Outcome.decides_error fun hfits => hchild (hfits.1 child (by simp))

/-! ## Resources -/

theorem decides_registers (resources : List (Resource α)) :
    Outcome.Decides (resources.map (·.id)).Nodup (Table.Lists · (·.id) resources)
      (resources.foldlM register .empty) :=
  Table.decides_index (·.id) (fun resource => LedgerError.duplicateResource resource.id) resources

theorem keyed_of_lists {definitions : Table (Resource α)} {resources : List (Resource α)}
    (h : definitions.Lists (·.id) resources) : Keyed definitions :=
  fun id resource hfind => ((h id resource).1 hfind).2

/-! ## Groups -/

/-- Groups that go together, and with the resources. -/
structure Orderly (definitions : Table (Resource α)) (groups : List Group) : Prop where
  ids : (groups.map (·.id)).Nodup
  parent_ids : (groups.map (·.parent.id)).Nodup
  parents_new : ∀ group ∈ groups, definitions.contains group.parent.id = false
  children_known : ∀ group ∈ groups, ∀ child ∈ group.childIds, definitions.contains child = true
  agree : Agree (groups.flatMap Group.claims)

/-- The groups are enrolled, with what has been claimed. -/
structure Enrolled.Holds (enrolled : Enrolled) (groups : List Group)
    (claims : List (String × String)) : Prop where
  membership : Records enrolled.membership claims
  parents : ∀ parent key, enrolled.parents.find? parent = some key ↔
    ∃ group ∈ groups, group.parent.id = parent ∧ group.id = key
  contains_iff : ∀ key, enrolled.groups.contains key = true ↔ ∃ group ∈ groups, group.id = key
  given : ∀ key group, enrolled.groups.find? key = some group →
    ∃ given ∈ groups, given.id = key ∧ group = { given with childIds := group.childIds }
  children : ∀ key group, enrolled.groups.find? key = some group →
    ∀ id, id ∈ group.childIds ↔ (id, key) ∈ claims

theorem Enrolled.Holds.parents_contains_iff {enrolled : Enrolled} {groups : List Group}
    {claims : List (String × String)} (h : enrolled.Holds groups claims) {parent : String} :
    enrolled.parents.contains parent = true ↔ ∃ group ∈ groups, group.parent.id = parent := by
  rw [Table.contains_iff]
  constructor
  · rintro ⟨key, hkey⟩
    obtain ⟨group, hgroup, hparent, -⟩ := (h.parents parent key).1 hkey
    exact ⟨group, hgroup, hparent⟩
  · rintro ⟨group, hgroup, hparent⟩
    exact ⟨group.id, (h.parents parent group.id).2 ⟨group, hgroup, hparent, rfl⟩⟩

theorem orderly_append_iff {definitions : Table (Resource α)} {done : List Group}
    (hdone : Orderly definitions done) {group : Group} :
    Orderly definitions (done ++ [group]) ↔
      (∀ other ∈ done, other.id ≠ group.id) ∧
      (definitions.contains group.parent.id = false ∧
        ∀ other ∈ done, other.parent.id ≠ group.parent.id) ∧
      (∀ child ∈ group.childIds, definitions.contains child = true) ∧
      Agree (done.flatMap Group.claims ++ group.claims) := by
  have hids : ((done ++ [group]).map (·.id)).Nodup ↔ ∀ other ∈ done, other.id ≠ group.id := by
    rw [List.map_append, List.map_singleton, List.nodup_append_comm, List.singleton_append,
      List.nodup_cons, and_iff_left hdone.ids]
    simp
  have hparents : ((done ++ [group]).map (·.parent.id)).Nodup ↔
      ∀ other ∈ done, other.parent.id ≠ group.parent.id := by
    rw [List.map_append, List.map_singleton, List.nodup_append_comm, List.singleton_append,
      List.nodup_cons, and_iff_left hdone.parent_ids]
    simp
  have hclaims : (done ++ [group]).flatMap Group.claims
      = done.flatMap Group.claims ++ group.claims := by simp
  constructor
  · intro h
    have hmem : group ∈ done ++ [group] := by simp
    exact ⟨hids.1 h.ids, ⟨h.parents_new group hmem, hparents.1 h.parent_ids⟩,
      h.children_known group hmem, hclaims ▸ h.agree⟩
  · rintro ⟨hid, ⟨hnew, hparent⟩, hknown, hagree⟩
    refine ⟨hids.2 hid, hparents.2 hparent, fun other hother => ?_, fun other hother => ?_,
      hclaims ▸ hagree⟩
    · rcases List.mem_append.1 hother with hother | hother
      · exact hdone.parents_new other hother
      · rw [List.mem_singleton.1 hother]
        exact hnew
    · rcases List.mem_append.1 hother with hother | hother
      · exact hdone.children_known other hother
      · rw [List.mem_singleton.1 hother]
        exact hknown

/-- A group that is enrolled holds, and so do those before it. -/
theorem Enrolled.Holds.insert {enrolled : Enrolled} {done : List Group}
    (h : enrolled.Holds done (done.flatMap Group.claims)) {group : Group}
    (hid : ∀ other ∈ done, other.id ≠ group.id)
    (hparent : ∀ other ∈ done, other.parent.id ≠ group.parent.id) {membership : Table String}
    (hmembership : Records membership (done.flatMap Group.claims ++ group.claims)) :
    Enrolled.Holds
      { groups := enrolled.groups.insert group.id group
        membership
        parents := enrolled.parents.insert group.parent.id group.id }
      (done ++ [group]) (done.flatMap Group.claims ++ group.claims) := by
  -- Claims for the new group are new, and it makes none for others.
  have hclaims : ∀ id key, (id, key) ∈ done.flatMap Group.claims → group.id ≠ key := by
    intro id key hclaim heq
    obtain ⟨other, hother, hmem⟩ := List.mem_flatMap.1 hclaim
    exact hid other hother ((Group.mem_claims_iff.1 hmem).2.trans heq.symm)
  refine ⟨hmembership, Table.find?_insert_iff_exists h.parents hparent, fun key => ?_,
    fun key other hfind => ?_, fun key other hfind id => ?_⟩
  · rw [Table.contains_insert, Bool.or_eq_true, decide_eq_true_eq, h.contains_iff key]
    simp [or_comm]
  · rw [Table.find?_insert] at hfind
    by_cases heq : group.id = key
    · rw [if_pos heq, Option.some.injEq] at hfind
      subst hfind
      exact ⟨group, by simp, heq, rfl⟩
    · rw [if_neg heq] at hfind
      obtain ⟨given, hgiven, hgiven'⟩ := h.given key other hfind
      exact ⟨given, List.mem_append_left _ hgiven, hgiven'⟩
  · rw [Table.find?_insert] at hfind
    rw [List.mem_append, Group.mem_claims_iff]
    by_cases heq : group.id = key
    · rw [if_pos heq, Option.some.injEq] at hfind
      subst hfind
      rw [and_iff_left heq, or_iff_right fun hclaim => hclaims id key hclaim heq]
    · rw [if_neg heq] at hfind
      rw [h.children key other hfind id, or_iff_left fun hclaim => heq hclaim.2]

theorem decides_enroll {definitions : Table (Resource α)} {done : List Group}
    {enrolled : Enrolled} (hdone : Orderly definitions done)
    (h : enrolled.Holds done (done.flatMap Group.claims)) (group : Group) :
    Outcome.Decides (Orderly definitions (done ++ [group]))
      (Enrolled.Holds · (done ++ [group]) ((done ++ [group]).flatMap Group.claims))
      (enroll definitions enrolled group) := by
  refine Outcome.Decides.congr ?_ (orderly_append_iff hdone).symm
  rw [List.flatMap_append, List.flatMap_singleton]
  unfold enroll
  by_cases hold : enrolled.groups.contains group.id = true
  · rw [if_pos hold]
    refine Outcome.decides_error fun hfits => ?_
    obtain ⟨other, hother, hid⟩ := (h.contains_iff group.id).1 hold
    exact hfits.1 other hother hid
  rw [if_neg hold]
  have hid : ∀ other ∈ done, other.id ≠ group.id :=
    fun other hother heq => hold ((h.contains_iff group.id).2 ⟨other, hother, heq⟩)
  by_cases hparent :
    (definitions.contains group.parent.id || enrolled.parents.contains group.parent.id) = true
  · rw [if_pos hparent]
    refine Outcome.decides_error ?_
    rintro ⟨-, ⟨hnew, hothers⟩, -⟩
    rw [hnew, Bool.false_or] at hparent
    obtain ⟨other, hother, heq⟩ := h.parents_contains_iff.1 hparent
    exact hothers other hother heq
  · rw [if_neg hparent]
    rw [Bool.or_eq_true, not_or, Bool.not_eq_true] at hparent
    have hothers : ∀ other ∈ done, other.parent.id ≠ group.parent.id :=
      fun other hother heq => hparent.2 (h.parents_contains_iff.2 ⟨other, hother, heq⟩)
    refine (decides_claimAll definitions h.membership group.id group.childIds).bind
      (fun hfits => hfits.2.2) fun membership hclaims hmembership => ?_
    exact Outcome.decides_ok ⟨hid, ⟨hparent.1, hothers⟩, hclaims⟩ (h.insert hid hothers hmembership)

theorem decides_enrolls (definitions : Table (Resource α)) (groups : List Group) :
    Outcome.Decides (Orderly definitions groups)
      (Enrolled.Holds · groups (groups.flatMap Group.claims))
      (groups.foldlM (enroll definitions) {}) := by
  refine Outcome.decides_foldlM (Orderly definitions)
    (fun done enrolled => Enrolled.Holds enrolled done (done.flatMap Group.claims))
    ⟨by simp, by simp, by simp, by simp, by simp [Agree]⟩
    ⟨by simp [Records], by simp, by simp, by simp, by simp⟩ (fun done group h => ?_)
    (fun _ group _ hdone h => decides_enroll hdone h group) groups
  have hsub : done.flatMap Group.claims ⊆ (done ++ [group]).flatMap Group.claims := by
    rw [List.flatMap_append]
    exact List.subset_append_left _ _
  obtain ⟨hids, hparents, hnew, hknown, hagree⟩ := h
  rw [List.map_append] at hids hparents
  exact ⟨hids.of_append_left, hparents.of_append_left,
    fun other hother => hnew other (List.mem_append_left _ hother),
    fun other hother => hknown other (List.mem_append_left _ hother), hagree.mono hsub⟩

/-! ## The memberships that resources declare -/

/-- What resources declare goes together with the groups. -/
structure Fitting (groups : List Group) (resources : List (Resource α)) : Prop where
  known : ∀ resource ∈ resources, ∀ key, resource.groupId = some key →
    ∃ group ∈ groups, group.id = key
  agree : Agree (groups.flatMap Group.claims ++ resources.flatMap Resource.claims)

theorem fitting_append_iff {groups : List Group} {done : List (Resource α)}
    (hdone : Fitting groups done) {resource : Resource α} :
    Fitting groups (done ++ [resource]) ↔
      (∀ key, resource.groupId = some key → ∃ group ∈ groups, group.id = key) ∧
      Agree (groups.flatMap Group.claims ++ done.flatMap Resource.claims ++ resource.claims) := by
  have hclaims : groups.flatMap Group.claims ++ (done ++ [resource]).flatMap Resource.claims
      = groups.flatMap Group.claims ++ done.flatMap Resource.claims ++ resource.claims := by simp
  constructor
  · intro h
    exact ⟨h.known resource (by simp), hclaims ▸ h.agree⟩
  · rintro ⟨hknown, hagree⟩
    refine ⟨fun other hother => ?_, hclaims ▸ hagree⟩
    rcases List.mem_append.1 hother with hother | hother
    · exact hdone.known other hother
    · rw [List.mem_singleton.1 hother]
      exact hknown

/-- A claim made before changes nothing. -/
theorem Enrolled.Holds.append_of_mem {enrolled : Enrolled} {groups : List Group}
    {claims : List (String × String)} (h : enrolled.Holds groups claims) {id key : String}
    (hclaim : (id, key) ∈ claims) : enrolled.Holds groups (claims ++ [(id, key)]) := by
  refine ⟨h.membership.append_of_mem hclaim, h.parents, h.contains_iff, h.given, ?_⟩
  intro other group hfind child
  rw [h.children other group hfind child, List.mem_append, List.mem_singleton]
  refine ⟨.inl, ?_⟩
  rintro (hchild | heq)
  · exact hchild
  · rw [heq]
    exact hclaim

/-- The group lists the resource that has claimed it. -/
theorem Enrolled.Holds.list {enrolled : Enrolled} {groups : List Group}
    {claims : List (String × String)} (h : enrolled.Holds groups claims) {id key : String}
    {group : Group} (hfind : enrolled.groups.find? key = some group) {membership : Table String}
    (hmembership : Records membership (claims ++ [(id, key)])) :
    Enrolled.Holds
      { enrolled with
        membership
        groups := enrolled.groups.insert key { group with childIds := group.childIds ++ [id] } }
      groups (claims ++ [(id, key)]) := by
  refine ⟨hmembership, h.parents, fun other => ?_, fun other found hfound => ?_,
    fun other found hfound child => ?_⟩
  · rw [← h.contains_iff other, Table.contains_insert, Bool.or_eq_true, decide_eq_true_eq]
    refine ⟨?_, .inr⟩
    rintro (rfl | hother)
    · exact Table.contains_of_find? hfind
    · exact hother
  · rw [Table.find?_insert] at hfound
    by_cases heq : key = other
    · rw [if_pos heq, Option.some.injEq] at hfound
      obtain ⟨given, hgiven, hkey, hgroup⟩ := h.given key group hfind
      refine ⟨given, hgiven, hkey.trans heq, ?_⟩
      rw [← hfound, hgroup]
    · rw [if_neg heq] at hfound
      exact h.given other found hfound
  · rw [Table.find?_insert] at hfound
    rw [List.mem_append, List.mem_singleton, Prod.mk.injEq]
    by_cases heq : key = other
    · rw [if_pos heq, Option.some.injEq] at hfound
      rw [← hfound, List.mem_append, List.mem_singleton, h.children key group hfind child, heq,
        and_iff_left rfl]
    · rw [if_neg heq] at hfound
      rw [h.children other found hfound child, or_iff_left fun hclaim => heq hclaim.2.symm]

theorem decides_join {groups : List Group} {done : List (Resource α)} {enrolled : Enrolled}
    (hdone : Fitting groups done)
    (h : enrolled.Holds groups (groups.flatMap Group.claims ++ done.flatMap Resource.claims))
    (resource : Resource α) :
    Outcome.Decides (Fitting groups (done ++ [resource]))
      (Enrolled.Holds · groups
        (groups.flatMap Group.claims ++ (done ++ [resource]).flatMap Resource.claims))
      (join enrolled resource) := by
  refine Outcome.Decides.congr ?_ (fitting_append_iff hdone).symm
  rw [List.flatMap_append, List.flatMap_singleton, ← List.append_assoc]
  unfold join Resource.claims
  cases hgroup : resource.groupId with
  | none =>
    simp only [Option.toList_none, List.map_nil, List.append_nil]
    exact Outcome.decides_ok ⟨by simp, h.membership.agree⟩ h
  | some key =>
    simp only [Option.toList_some, List.map_singleton]
    cases hfind : enrolled.groups.find? key with
    | none =>
      refine Outcome.decides_error fun hfits => ?_
      have hcontains := (h.contains_iff key).2 (hfits.1 key rfl)
      rw [Table.contains_eq_false_iff.2 hfind] at hcontains
      cases hcontains
    | some group =>
      have hknown : ∀ other, some key = some other → ∃ group ∈ groups, group.id = other := by
        rintro _ ⟨⟩
        exact (h.contains_iff key).1 (Table.contains_of_find? hfind)
      refine (decides_claim h.membership resource.id key).bind And.right
        fun membership hagree hmembership => ?_
      by_cases hold : enrolled.membership.contains resource.id = true
      · rw [if_pos hold]
        obtain ⟨first, hfirst⟩ := Table.contains_iff.1 hold
        have hclaim := (h.membership resource.id first).1 hfirst
        have heq : first = key :=
          hagree resource.id first key (List.mem_append_left _ hclaim) (by simp)
        exact Outcome.decides_ok ⟨hknown, hagree⟩ (h.append_of_mem (heq ▸ hclaim))
      · rw [if_neg hold]
        exact Outcome.decides_ok ⟨hknown, hagree⟩ (h.list hfind hmembership)

theorem decides_joins {groups : List Group} {enrolled : Enrolled}
    (h : enrolled.Holds groups (groups.flatMap Group.claims)) (resources : List (Resource α)) :
    Outcome.Decides (Fitting groups resources)
      (Enrolled.Holds · groups
        (groups.flatMap Group.claims ++ resources.flatMap Resource.claims))
      (resources.foldlM join enrolled) := by
  refine Outcome.decides_foldlM (Fitting groups)
    (fun done enrolled => Enrolled.Holds enrolled groups
      (groups.flatMap Group.claims ++ done.flatMap Resource.claims))
    ⟨by simp, by simpa using h.membership.agree⟩ (by simpa using h) (fun done resource hdone => ?_)
    (fun _ resource _ hdone h => decides_join hdone h resource) resources
  refine ⟨fun other hother => hdone.known other (List.mem_append_left _ hother),
    hdone.agree.mono ?_⟩
  rw [List.flatMap_append, ← List.append_assoc]
  exact List.subset_append_left _ _

/-! ## The catalog -/

/-- The claims that resources and groups make. -/
def claimsOf (resources : List (Resource α)) (groups : List Group) : List (String × String) :=
  groups.flatMap Group.claims ++ resources.flatMap Resource.claims

theorem mem_claimsOf_iff {resources : List (Resource α)} {groups : List Group} {id key : String} :
    (id, key) ∈ claimsOf resources groups ↔ Claimed resources groups id key := by
  unfold claimsOf
  rw [List.mem_append, List.mem_flatMap, List.mem_flatMap]
  constructor
  · rintro (⟨group, hgroup, hclaim⟩ | ⟨resource, hresource, hclaim⟩)
    · obtain ⟨hchild, hkey⟩ := Group.mem_claims_iff.1 hclaim
      exact .listed hgroup hkey hchild
    · obtain ⟨hid, hkey⟩ := Resource.mem_claims_iff.1 hclaim
      exact .named hresource hid hkey
  · rintro (⟨hgroup, hkey, hchild⟩ | ⟨hresource, hid, hkey⟩)
    · exact .inl ⟨_, hgroup, Group.mem_claims_iff.2 ⟨hchild, hkey⟩⟩
    · exact .inr ⟨_, hresource, Resource.mem_claims_iff.2 ⟨hid, hkey⟩⟩

theorem Admissible.claimed_known {resources : List (Resource α)} {groups : List Group}
    (h : Admissible resources groups) {id key : String} (hclaim : Claimed resources groups id key) :
    ∃ resource ∈ resources, resource.id = id := by
  cases hclaim with
  | listed hgroup _ hchild => exact h.children_known _ hgroup id hchild
  | named hresource hid _ => exact ⟨_, hresource, hid⟩

theorem Admissible.claimed_group {resources : List (Resource α)} {groups : List Group}
    (h : Admissible resources groups) {id key : String} (hclaim : Claimed resources groups id key) :
    ∃ group ∈ groups, group.id = key := by
  cases hclaim with
  | listed hgroup hkey _ => exact ⟨_, hgroup, hkey⟩
  | named hresource _ hkey => exact h.groups_known _ hresource key hkey

theorem mem_claimsOf_values_iff {definitions : Table (Resource α)} {resources : List (Resource α)}
    (h : definitions.Lists (·.id) resources) (groups : List Group) (claim : String × String) :
    claim ∈ claimsOf definitions.values groups ↔ claim ∈ claimsOf resources groups := by
  unfold claimsOf
  simp only [List.mem_append, List.mem_flatMap, h.mem_values_iff]

theorem admissible_iff {definitions : Table (Resource α)} {resources : List (Resource α)}
    (hnodup : (resources.map (·.id)).Nodup) (h : definitions.Lists (·.id) resources)
    (groups : List Group) : Admissible resources groups ↔
      Orderly definitions groups ∧ Fitting groups definitions.values := by
  constructor
  · intro hadmissible
    have hagree : Agree (claimsOf definitions.values groups) := by
      intro id key other hkey hother
      rw [mem_claimsOf_values_iff h, mem_claimsOf_iff] at hkey hother
      exact hadmissible.one_group id key other hkey hother
    refine ⟨⟨hadmissible.group_ids, hadmissible.parent_ids, fun group hgroup => ?_,
      fun group hgroup child hchild => ?_, hagree.mono (List.subset_append_left _ _)⟩,
      fun resource hresource => ?_, hagree⟩
    · rw [← Bool.not_eq_true, h.contains_iff]
      rintro ⟨resource, hresource, heq⟩
      exact hadmissible.parents_new group hgroup resource hresource heq
    · exact h.contains_iff.2 (hadmissible.children_known group hgroup child hchild)
    · exact hadmissible.groups_known resource (h.mem_values_iff.1 hresource)
  · rintro ⟨horderly, hfitting⟩
    refine ⟨hnodup, horderly.ids, horderly.parent_ids,
      fun group hgroup resource hresource heq => ?_,
      fun group hgroup child hchild => ?_, fun resource hresource => ?_,
      fun id key other hkey hother => ?_⟩
    · have hnew := horderly.parents_new group hgroup
      rw [h.contains_iff.2 ⟨resource, hresource, heq⟩] at hnew
      cases hnew
    · exact h.contains_iff.1 (horderly.children_known group hgroup child hchild)
    · exact hfitting.known resource (h.mem_values_iff.2 hresource)
    · rw [← mem_claimsOf_iff, ← mem_claimsOf_values_iff h] at hkey hother
      exact hfitting.agree id key other hkey hother

/-- What a catalog is put together from: all of the content, and nothing else. -/
structure Complete (definitions : Table (Resource α)) (enrolled : Enrolled)
    (resources : List (Resource α)) (groups : List Group) : Prop where
  admissible : Admissible resources groups
  definitions : definitions.Lists (·.id) resources
  enrolled : enrolled.Holds groups (claimsOf resources groups)

theorem Enrolled.Holds.congr {enrolled : Enrolled} {groups : List Group}
    {claims others : List (String × String)} (h : enrolled.Holds groups claims)
    (hclaims : ∀ claim, claim ∈ claims ↔ claim ∈ others) : enrolled.Holds groups others :=
  ⟨h.membership.congr hclaims, h.parents, h.contains_iff, h.given, fun key group hfind id =>
    (h.children key group hfind id).trans (hclaims (id, key))⟩

/-- Content makes a catalog exactly where it is admissible. -/
theorem decides_build (resources : List (Resource α)) (groups : List Group) :
    Outcome.Decides (Admissible resources groups)
      (fun catalog => ∃ definitions enrolled, Complete definitions enrolled resources groups ∧
        catalog = assemble definitions enrolled) (build resources groups) := by
  refine (decides_registers resources).bind (fun h => h.resource_ids)
    fun definitions hnodup hlists => ?_
  have hiff := admissible_iff hnodup hlists groups
  refine (decides_enrolls definitions groups).bind (fun h => (hiff.1 h).1)
    fun enrolled horderly hholds => ?_
  refine (decides_joins hholds definitions.values).bind (fun h => (hiff.1 h).2)
    fun enrolled hfitting hholds => ?_
  have hadmissible := hiff.2 ⟨horderly, hfitting⟩
  exact Outcome.decides_ok hadmissible ⟨definitions, enrolled,
    ⟨hadmissible, hlists, hholds.congr (mem_claimsOf_values_iff hlists groups)⟩, rfl⟩

end Catalog
end Realm
