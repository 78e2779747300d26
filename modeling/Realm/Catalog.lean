import Realm.Resource

/-!
# The catalog

Every resource and group of the content, checked against each other once and never changed. A
catalog is made of a list of resources and a list of groups; it is refused if an id occurs twice, a
group lists a child that is no resource, a resource names a group that is not there, or two groups
claim one resource.

A group may list its children, and a resource may name its group; both say the same thing, and both
may say it at once. A resource that names a group which does not list it is listed from then on, and
in the end the children of each group are put in order, by place and id, and told once each. The
display order is made of blocks, one for each resource outside all groups and one for each group —
its parent, then its children.

The parents of groups are resources of the catalog too, but *derived* ones.
-/

set_option autoImplicit false

namespace Realm

/-! ## What can go wrong with amounts and definitions -/

/-- A violated rule of the catalog or of a ledger. -/
inductive LedgerError (α : Type) where
  | unknownResource (resource : String)
  | invalidAmount (resource : String) (amount : α)
  | derivedResource (resource : String)
  | boundViolation (resource : String) (attempted : α) (bounds : Bounds α)
  | invalidBounds (resource : String) (bounds : Bounds α)
  | duplicateResource (resource : String)
  | duplicateGroup (group : String)
  | unknownGroup (resource group : String)
  | unknownGroupChild (group child : String)
  | resourceInMultipleGroups (resource first second : String)
  deriving DecidableEq

/-- The wording of an error. -/
def LedgerError.message {α : Type} [Amount α] : LedgerError α → String
  | .unknownResource resource => s!"unknown resource: {resource}"
  | .invalidAmount resource amount =>
    "invalid amount for " ++ resource ++ ": " ++ Amount.text amount ++ " is not finite"
  | .derivedResource resource =>
    s!"resource {resource} is derived from its group and cannot be mutated directly"
  | .boundViolation resource attempted bounds =>
    "resource " ++ resource ++ " would become " ++ Amount.text attempted ++ ", outside bounds "
      ++ bounds.text
  | .invalidBounds resource bounds => "invalid bounds for " ++ resource ++ ": " ++ bounds.text
  | .duplicateResource resource => s!"duplicate resource id: {resource}"
  | .duplicateGroup group => s!"duplicate group id: {group}"
  | .unknownGroup resource group => s!"resource {resource} references unknown group {group}"
  | .unknownGroupChild group child => s!"group {group} lists unregistered child {child}"
  | .resourceInMultipleGroups resource first second =>
    s!"resource {resource} belongs to both {first} and {second}"

/-- Registered resources and groups. -/
structure Catalog (α : Type) where
  /-- Every resource, the parents of groups included. -/
  definitions : Table (Resource α)
  /-- The groups, their children in display order. -/
  groups : Table Group
  /-- The group that a resource belongs to. -/
  membership : Table String
  /-- The group that a derived resource is the parent of. -/
  parents : Table String
  /-- Every resource in display order. -/
  ordered : List String

namespace Catalog

variable {α : Type}

def empty : Catalog α :=
  { definitions := .empty, groups := .empty, membership := .empty, parents := .empty, ordered := [] }

/-! ## Construction -/

/-- Adds a resource whose id is new. -/
def register (definitions : Table (Resource α)) (resource : Resource α) :
    Except (LedgerError α) (Table (Resource α)) :=
  if definitions.contains resource.id then .error (.duplicateResource resource.id)
  else .ok (definitions.insert resource.id resource)

/-- Records that a resource belongs to a group. Saying it twice is fine, a second group is not. -/
def claim (membership : Table String) (resource group : String) :
    Except (LedgerError α) (Table String) :=
  match membership.find? resource with
  | none => .ok (membership.insert resource group)
  | some first =>
    if first = group then .ok membership
    else .error (.resourceInMultipleGroups resource first group)

/-- The groups seen so far. -/
structure Enrolled where
  groups : Table Group := .empty
  membership : Table String := .empty
  parents : Table String := .empty

/-- Adds a group whose id is new, whose parent's id is new, and whose listed children are resources
    that no other group has claimed. -/
def enroll (definitions : Table (Resource α)) (enrolled : Enrolled) (group : Group) :
    Except (LedgerError α) Enrolled := do
  if enrolled.groups.contains group.id then
    throw (.duplicateGroup group.id)
  if definitions.contains group.parent.id || enrolled.parents.contains group.parent.id then
    throw (.duplicateResource group.parent.id)
  let membership ← group.childIds.foldlM (fun membership child =>
      if definitions.contains child then claim membership child group.id
      else throw (.unknownGroupChild group.id child))
    enrolled.membership
  return {
    groups := enrolled.groups.insert group.id group
    membership
    parents := enrolled.parents.insert group.parent.id group.id }

/-- Adds the membership that a resource declares itself. A group that has not listed the resource
    lists it from then on. -/
def join (enrolled : Enrolled) (resource : Resource α) : Except (LedgerError α) Enrolled :=
  match resource.groupId with
  | none => .ok enrolled
  | some id =>
    match enrolled.groups.find? id with
    | none => .error (.unknownGroup resource.id id)
    | some group => do
      let membership ← claim enrolled.membership resource.id id
      if enrolled.membership.contains resource.id then
        return enrolled
      else
        return { enrolled with
          membership
          groups := enrolled.groups.insert id
            { group with childIds := group.childIds ++ [resource.id] } }

/-- By place, then by id. -/
def precedes (a b : Int × String) : Bool :=
  a.1 < b.1 || (a.1 == b.1 && !decide (b.2 < a.2))

/-- Listed children in display order, each once. -/
def inOrder (definitions : Table (Resource α)) (childIds : List String) : List String :=
  let placed := (childIds.filterMap definitions.find?).map fun resource =>
    (resource.order, resource.id)
  ((placed.mergeSort precedes).map (·.2)).eraseReps

/-- The blocks of the display order, each with its place and id: a resource outside all groups, or
    the parent of a group and its children. -/
def blocks (definitions : Table (Resource α)) (groups : Table Group) (membership : Table String) :
    List ((Int × String) × List String) :=
  ((definitions.values.filter fun resource => !membership.contains resource.id).map
      fun resource => ((resource.order, resource.id), [resource.id]))
    ++ groups.values.map fun group => ((group.order, group.id), group.parent.id :: group.childIds)

/-- The blocks one after the other. What has been shown is not shown again. -/
def displayOrder (definitions : Table (Resource α)) (groups : Table Group)
    (membership : Table String) : List String :=
  (((blocks definitions groups membership).mergeSort fun a b => precedes a.1 b.1).flatMap
    (·.2)).eraseDups

/-- The catalog of resources and of groups that list all their members. -/
def assemble (definitions : Table (Resource α)) (enrolled : Enrolled) : Catalog α :=
  let groups := enrolled.groups.map fun _ group =>
    { group with childIds := inOrder definitions group.childIds }
  { definitions := groups.values.foldl
      (fun all group => all.insert group.parent.id group.parentResource) definitions
    groups
    membership := enrolled.membership
    parents := enrolled.parents
    ordered := displayOrder definitions groups enrolled.membership }

/-- Makes a catalog of resources and groups. -/
def build (resources : List (Resource α)) (groups : List Group) :
    Except (LedgerError α) (Catalog α) := do
  let definitions ← resources.foldlM register .empty
  let enrolled ← groups.foldlM (enroll definitions) {}
  let enrolled ← definitions.values.foldlM join enrolled
  return assemble definitions enrolled

/-! ## Look-ups -/

def definition? (catalog : Catalog α) (id : String) : Option (Resource α) :=
  catalog.definitions.find? id

def contains (catalog : Catalog α) (id : String) : Bool := catalog.definitions.contains id

/-- Whether a resource is the parent of a group. -/
def isParent (catalog : Catalog α) (id : String) : Bool := catalog.parents.contains id

/-- The group a resource belongs to. -/
def groupOf? (catalog : Catalog α) (resource : String) : Option Group :=
  (catalog.membership.find? resource).bind catalog.groups.find?

/-- The group a derived resource is the parent of. -/
def groupOfParent? (catalog : Catalog α) (resource : String) : Option Group :=
  (catalog.parents.find? resource).bind catalog.groups.find?

/-- The name under which a resource is shown, its id if it has no definition. -/
def label (catalog : Catalog α) (id : String) : String :=
  ((catalog.definition? id).map (·.label)).getD id

/-- What every action costs, by resource. -/
def actionCosts (catalog : Catalog α) : List (String × α) :=
  catalog.definitions.values.filterMap fun resource =>
    resource.actionCost.map fun cost => (resource.id, cost)

/-- The resources that have tiers. -/
def tierTracks (catalog : Catalog α) : List (String × TierTrack α) :=
  catalog.definitions.values.filterMap fun resource =>
    resource.tierTrack.map fun track => (resource.id, track)

/-- Refuses a resource that is not registered. -/
def requireKnown (catalog : Catalog α) (id : String) : Except (LedgerError α) Unit :=
  if catalog.contains id then .ok () else .error (.unknownResource id)

/-- Refuses a resource that is not registered or derived. -/
def requireWritable (catalog : Catalog α) (id : String) : Except (LedgerError α) Unit := do
  catalog.requireKnown id
  if catalog.isParent id then throw (.derivedResource id)

end Catalog

end Realm
