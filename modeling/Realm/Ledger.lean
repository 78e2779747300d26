import Realm.Attempt
import Realm.Catalog

/-!
# Ledgers

The amounts of one player and the bounds in force for them. Amounts are written in one place,
`Ledger.write`, which refuses amounts that are not finite, reconciles the rest with the bounds, and
brings the parent of the written resource's group up to date. Derived resources are never written
from outside.

The operations are attempts: what a ledger holds after one that failed is part of their meaning.
-/

set_option autoImplicit false

namespace Realm

/-! ## Changes -/

/-- A change to make: by how much, in which direction, how rounded and how reconciled. -/
structure Delta (α : Type) where
  resource : String
  direction : Direction := .add
  magnitude : α
  rounding : Option Rounding := none
  reconciliation : Reconciliation := .standard
  deriving DecidableEq

/-- The parent of a group before and after a child was written. -/
structure Rollup (α : Type) where
  parent : String
  previous : α
  current : α
  deriving DecidableEq

/-- What a write did. -/
structure Change (α : Type) where
  resource : String
  previous : α
  current : α
  rollup : Option (Rollup α)
  deriving DecidableEq

namespace Delta

variable {α : Type} [Amount α]

/-- The signed amount to add. The magnitude is rounded before the sign is put, so that removing is
    rounded like adding. -/
def signedAmount (delta : Delta α) : Except (LedgerError α) α :=
  if Amount.isFinite delta.magnitude then
    let magnitude := match delta.rounding with
      | some mode => mode.round delta.magnitude
      | none => delta.magnitude
    .ok (match delta.direction with | .add => magnitude | .remove => -magnitude)
  else .error (.invalidAmount delta.resource delta.magnitude)

end Delta

namespace Change

variable {α : Type} [Amount α]

def delta (change : Change α) : α := change.current - change.previous

/-- A gain for a change from one amount to another, if it is large enough to be recorded. -/
def gain? (resource : String) (previous current : α) : Option (Gain α) :=
  if Amount.noticeable (current - previous) then
    some { resourceId := resource, amount := current - previous }
  else none

/-- The gains of a change: of the written resource, then of its group's parent. -/
def gains (change : Change α) : List (Gain α) :=
  (gain? change.resource change.previous change.current).toList
    ++ (change.rollup.bind fun rollup =>
        gain? rollup.parent rollup.previous rollup.current).toList

end Change

/-! ## The ledger -/

/-- The amounts and live bounds of one player. -/
structure Ledger (α : Type) where
  amounts : Table α
  bounds : Table (Bounds α) := .empty
  deriving DecidableEq

/-- An operation on a ledger. -/
abbrev LedgerAttempt (α β : Type) := Attempt (Ledger α) (LedgerError α) β

namespace Ledger

variable {α : Type} [Amount α]

def empty : Ledger α := { amounts := .empty }

/-- The amount of a resource, zero if it was never written. -/
def amount (ledger : Ledger α) (id : String) : α := ledger.amounts.findD id 0

/-- The bounds in force for a resource. -/
def boundsOf (ledger : Ledger α) (id : String) : Bounds α := ledger.bounds.findD id .none

/-- The amount of a registered resource. -/
def amountOf (ledger : Ledger α) (catalog : Catalog α) (id : String) :
    Except (LedgerError α) α := do
  catalog.requireKnown id
  return ledger.amount id

/-- Brings the parent of a group up to date. -/
def recompute (ledger : Ledger α) (group : Group) : Rollup α × Ledger α :=
  let current := group.total ledger.amounts
  ({ parent := group.parent.id, previous := ledger.amount group.parent.id, current },
    { ledger with amounts := ledger.amounts.insert group.parent.id current })

/-- Brings the parents of all groups up to date. -/
def recomputeAll (ledger : Ledger α) (catalog : Catalog α) : Ledger α :=
  catalog.groups.values.foldl (fun ledger group => (ledger.recompute group).2) ledger

/-- Gives a resource its first amount: zero, moved into its bounds. -/
def seed (catalog : Catalog α) (ledger : Ledger α) (resource : Resource α) : Ledger α :=
  if catalog.isParent resource.id then ledger
  else
    { amounts := ledger.amounts.insert resource.id (resource.bounds.clamp 0)
      bounds := if resource.bounds.isUnbounded then ledger.bounds
        else ledger.bounds.insert resource.id resource.bounds }

/-- The ledger a player starts with. -/
def initial (catalog : Catalog α) : Ledger α :=
  (catalog.definitions.values.foldl (seed catalog) empty).recomputeAll catalog

/-- The amount that an attempted one becomes within bounds. -/
def reconcile (resource : String) (bounds : Bounds α) (attempted : α) :
    Reconciliation → Except (LedgerError α) α := fun policy =>
  if bounds.contains attempted then .ok attempted
  else
    match policy with
    | .clamp => .ok (bounds.clamp attempted)
    | .reject => .error (.boundViolation resource attempted bounds)

/-- Writes an amount that is known to concern a writable resource. -/
def write (catalog : Catalog α) (resource : String) (attempted : α) (policy : Reconciliation) :
    LedgerAttempt α (Change α) := do
  if !Amount.isFinite attempted then
    Attempt.fail (.invalidAmount resource attempted)
  else
    let ledger ← get
    let current ← .ofExcept (reconcile resource (ledger.boundsOf resource) attempted policy)
    let previous := ledger.amount resource
    let ledger := { ledger with amounts := ledger.amounts.insert resource current }
    match catalog.groupOf? resource with
    | none =>
      set ledger
      return { resource, previous, current, rollup := none }
    | some group =>
      let (rollup, ledger) := ledger.recompute group
      set ledger
      return { resource, previous, current, rollup := some rollup }

/-- Adds a change to an amount. -/
def apply (catalog : Catalog α) (delta : Delta α) : LedgerAttempt α (Change α) := do
  .ofExcept (catalog.requireWritable delta.resource)
  let signed ← .ofExcept delta.signedAmount
  let ledger ← get
  write catalog delta.resource (ledger.amount delta.resource + signed) delta.reconciliation

/-- Sets an amount. -/
def setAmount (catalog : Catalog α) (resource : String) (amount : α) (policy : Reconciliation) :
    LedgerAttempt α (Change α) := do
  .ofExcept (catalog.requireWritable resource)
  write catalog resource amount policy

/-- Replaces the bounds of a resource. An amount outside the new bounds is moved into them or makes
    the operation fail, as the policy says. -/
def setBounds (catalog : Catalog α) (resource : String) (bounds : Bounds α)
    (policy : Reconciliation) : LedgerAttempt α (Change α) := do
  .ofExcept (catalog.requireWritable resource)
  if !bounds.areUsable then
    Attempt.fail (.invalidBounds resource bounds)
  else
    let ledger ← get
    let current := ledger.amount resource
    if !bounds.contains current && policy == .reject then
      Attempt.fail (.boundViolation resource current bounds)
    else
      set { ledger with
        bounds := if bounds.isUnbounded then ledger.bounds.erase resource
          else ledger.bounds.insert resource bounds }
      write catalog resource current .clamp

/-- Checks one stored amount. -/
def checkAmount (catalog : Catalog α) (ledger : Ledger α) (entry : String × α) :
    Except (LedgerError α) Unit := do
  catalog.requireKnown entry.1
  if !Amount.isFinite entry.2 then
    throw (.invalidAmount entry.1 entry.2)
  let bounds := ledger.boundsOf entry.1
  if !bounds.contains entry.2 then
    throw (.boundViolation entry.1 entry.2 bounds)

/-- Checks a ledger that was read from a file: the amounts in the order of their resources, then
    the resources of the bounds. -/
def validate (ledger : Ledger α) (catalog : Catalog α) : Except (LedgerError α) Unit := do
  ledger.amounts.toList.forM (checkAmount catalog ledger)
  ledger.bounds.keys.forM catalog.requireKnown

/-! ## Records -/

def ofDocument? (document : Document α) : Option (Ledger α) := do
  let [amounts, bounds] ← document.slots? [["amounts"], ["bounds"]] | none
  return {
    amounts := ← Document.required (Document.table? Document.amount?) amounts
    bounds := ← Document.defaulted .empty (Document.table? Bounds.ofDocument?) bounds }

def toJson (ledger : Ledger α) : Json α :=
  .record [("amounts", Json.ofEntries .amount ledger.amounts.toList),
    ("bounds", Json.ofEntries Bounds.toJson ledger.bounds.toList)]

end Ledger

end Realm
