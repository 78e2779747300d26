import Realm.Document

/-!
# Bounds

An amount may be held between a lower and an upper bound, either of which may be missing. Nothing
keeps a pair of bounds from crossing: such bounds contain nothing, and clamping into them gives the
lower one.
-/

set_option autoImplicit false

namespace Realm

/-- What happens to a change that would leave the bounds. -/
inductive Reconciliation where
  /-- The amount stops at the bound. -/
  | clamp
  /-- The change is refused. -/
  | reject
  deriving DecidableEq

/-- The policy of a change that names none. -/
def Reconciliation.standard : Reconciliation := .reject

/-- An optional lower and an optional upper bound, both inclusive. -/
structure Bounds (α : Type) where
  lower : Option α := none
  upper : Option α := none
  deriving DecidableEq

namespace Bounds

variable {α : Type}

/-- No bound on either side. -/
def none : Bounds α := {}

def isUnbounded (bounds : Bounds α) : Bool := bounds.lower.isNone && bounds.upper.isNone

variable [Amount α]

/-- Whether an amount lies within the bounds. -/
def contains (bounds : Bounds α) (amount : α) : Bool :=
  (match bounds.lower with | some lower => decide (lower ≤ amount) | .none => true) &&
  (match bounds.upper with | some upper => decide (amount ≤ upper) | .none => true)

/-- The amount moved into the bounds, to the upper one first, so that the lower one wins. -/
def clamp (bounds : Bounds α) (amount : α) : α :=
  let amount := match bounds.upper with | some upper => min amount upper | .none => amount
  match bounds.lower with | some lower => max amount lower | .none => amount

/-- Both bounds are finite and do not cross. -/
def areUsable (bounds : Bounds α) : Bool :=
  (bounds.lower.toList ++ bounds.upper.toList).all Amount.isFinite &&
  (match bounds.lower, bounds.upper with
   | some lower, some upper => !decide (upper < lower)
   | _, _ => true)

/-- The bounds as a message shows them. -/
def text (bounds : Bounds α) : String :=
  let side : Option α → String
    | .none => "None"
    | some bound => "Some(" ++ Amount.fieldText bound ++ ")"
  "ResourceBounds \x7b lower_bound: " ++ side bounds.lower ++ ", upper_bound: "
    ++ side bounds.upper ++ " \x7d"

/-! ## Records -/

def ofDocument? (document : Document α) : Option (Bounds α) := do
  let [lower, upper] ← document.slots? [["lowerBound"], ["upperBound"]] | .none
  return {
    lower := ← Document.optional Document.amount? lower
    upper := ← Document.optional Document.amount? upper }

def toJson (bounds : Bounds α) : Json α :=
  .record (Json.optional "lowerBound" .amount bounds.lower
    ++ Json.optional "upperBound" .amount bounds.upper)

end Bounds

/-! ## Names in records -/

namespace Reconciliation

def names : List (String × Reconciliation) := [("clamp", .clamp), ("reject", .reject)]

def name : Reconciliation → String
  | .clamp => "clamp"
  | .reject => "reject"

end Reconciliation

namespace Rounding

def names : List (String × Rounding) := [("up", .up), ("down", .down), ("nearest", .nearest)]

def name : Rounding → String
  | .up => "up"
  | .down => "down"
  | .nearest => "nearest"

end Rounding

end Realm
