import Realm.Effect

/-!
# Requirements

A requirement is a condition as content writes it: like an effect a family, a method and parameters
kept unread. The one condition there is compares two operands; an operand is a number or a count
taken from the player.

`Requirement.compare` writes a comparison as a requirement and `Requirement.comparison?` reads one
back.
-/

set_option autoImplicit false

namespace Realm

/-! ## Comparators -/

/-- How two numbers are compared. -/
inductive Comparator where
  | less
  | atMost
  | greater
  | atLeast
  | equal
  | different
  deriving DecidableEq

namespace Comparator

def names : List (String × Comparator) :=
  [("lt", .less), ("lte", .atMost), ("gt", .greater), ("gte", .atLeast), ("eq", .equal),
   ("ne", .different)]

def name : Comparator → String
  | .less => "lt"
  | .atMost => "lte"
  | .greater => "gt"
  | .atLeast => "gte"
  | .equal => "eq"
  | .different => "ne"

/-- The comparator in a sentence: the left side must be … the right side. -/
def phrase : Comparator → String
  | .less => "less than"
  | .atMost => "at most"
  | .greater => "greater than"
  | .atLeast => "at least"
  | .equal => "exactly"
  | .different => "different from"

/-- Whether a comparator accepts an outcome. -/
def accepts (comparator : Comparator) (outcome : Ordering) : Bool :=
  match comparator with
  | .less => outcome.isLT
  | .atMost => outcome.isLE
  | .greater => outcome.isGT
  | .atLeast => outcome.isGE
  | .equal => outcome.isEq
  | .different => !outcome.isEq

/-- Whether a comparator holds between two amounts, in the total order of amounts. -/
def holds {α : Type} [Amount α] (comparator : Comparator) (left right : α) : Bool :=
  comparator.accepts (Amount.order left right)

end Comparator

/-! ## Operands -/

/-- Where a number is taken from. -/
inductive Source where
  /-- The amount of a resource. -/
  | resource (key : String)
  /-- The amount of a resource that is a stat. -/
  | stat (key : String)
  /-- The number of inhabitants, of one role or of all. -/
  | population (role : Option String)
  /-- One if the building is owned, zero if not. -/
  | building (id : String)
  /-- The number of lands. -/
  | land
  /-- The number of developments of a kind on all lands. -/
  | development (id : String)
  deriving DecidableEq

/-- One side of a comparison. -/
inductive Operand (α : Type) where
  | literal (value : α)
  | source (source : Source)
  deriving DecidableEq

/-- Two operands and how they are to compare. -/
structure Comparison (α : Type) where
  left : Operand α
  comparator : Comparator
  right : Operand α
  deriving DecidableEq

namespace Source

variable {α : Type} [Amount α]

/-- The field of a source's parameters, which have to be a record with named fields. -/
private def named? (name : String) : Document α → Option (Option (Document α))
  | .record fields => Document.slot? fields [name]
  | _ => none

/-- The kinds of source, each with the reading of its parameters. -/
private def kinds : List (String × (Document α → Option Source)) :=
  [("resource", fun params => do
      return .resource (← Document.required Document.text? (← named? "key" params))),
   ("stat", fun params => do
      return .stat (← Document.required Document.text? (← named? "key" params))),
   ("population", fun params => do
      return .population (← Document.optional Document.text? (← named? "role" params))),
   ("building", fun params => do
      return .building (← Document.required Document.text? (← named? "id" params))),
   ("land", fun params => do
      let _ ← named? "" params
      return .land),
   ("development", fun params => do
      return .development (← Document.required Document.text? (← named? "id" params)))]

def ofDocument? (document : Document α) : Option Source := do
  let [some kind, some params] ← document.slots? [["type"], ["params"]] | none
  let read ← kind.oneOf? kinds
  read params

def toJson : Source → Json α
  | .resource key => write "resource" [("key", .text key)]
  | .stat key => write "stat" [("key", .text key)]
  | .population role => write "population" (Json.optional "role" .text role)
  | .building id => write "building" [("id", .text id)]
  | .land => write "land" []
  | .development id => write "development" [("id", .text id)]
where
  write (kind : String) (params : List (String × Json α)) : Json α :=
    .record [("params", .record params), ("type", .text kind)]

end Source

namespace Operand

variable {α : Type} [Amount α]

def ofDocument? (document : Document α) : Option (Operand α) :=
  match document.amount? with
  | some value => some (.literal value)
  | none => (Source.ofDocument? document).map .source

def toJson : Operand α → Json α
  | .literal value => .amount value
  | .source origin => origin.toJson

end Operand

namespace Comparison

variable {α : Type} [Amount α]

def ofDocument? (document : Document α) : Option (Comparison α) := do
  let [left, right, comparator] ← document.slots? [["left"], ["right"], ["operator"]] | none
  return {
    left := ← Document.required Operand.ofDocument? left
    right := ← Document.required Operand.ofDocument? right
    comparator := ← Document.required (Document.oneOf? Comparator.names) comparator }

def toJson (comparison : Comparison α) : Json α :=
  .record [("left", comparison.left.toJson), ("operator", .text comparison.comparator.name),
    ("right", comparison.right.toJson)]

end Comparison

/-! ## Requirements -/

/-- A requirement as content writes it. -/
structure Requirement (α : Type) where
  family : String
  method : String
  params : Json α := .empty

/-- The two numbers of a comparison that failed. -/
structure Shortfall (α : Type) where
  left : α
  right : α
  deriving DecidableEq

/-- An unmet requirement. -/
structure Unmet (α : Type) where
  requirement : Requirement α
  details : Shortfall α
  message : String

namespace Requirement

variable {α : Type}

def key (requirement : Requirement α) : String := requirement.family ++ "." ++ requirement.method

/-- The key of the one requirement there is. -/
def compareKey : String := "evaluator.compare"

variable [Amount α]

/-- A comparison as a requirement. -/
def compare (comparison : Comparison α) : Requirement α :=
  { family := "evaluator", method := "compare", params := comparison.toJson }

/-- What can be wrong with a requirement. -/
inductive Fault where
  | unknown
  | malformed
  deriving DecidableEq

/-- The comparison a requirement asks for. -/
def comparison? (requirement : Requirement α) : Except Fault (Comparison α) :=
  if requirement.family = "evaluator" ∧ requirement.method = "compare" then
    match Comparison.ofDocument? (.ofJson requirement.params) with
    | some comparison => .ok comparison
    | none => .error .malformed
  else .error .unknown

def ofDocument? (document : Document α) : Option (Requirement α) := do
  let [family, method, params] ← document.slots? [["type"], ["method"], ["params"]] | none
  return {
    family := ← Document.required Document.text? family
    method := ← Document.required Document.text? method
    params := ← Document.defaulted .empty (fun params => some params.toJson) params }

def toJson (requirement : Requirement α) : Json α :=
  .record [("type", .text requirement.family), ("method", .text requirement.method),
    ("params", requirement.params)]

end Requirement

namespace Shortfall

variable {α : Type} [Amount α]

def ofDocument? (document : Document α) : Option (Shortfall α) := do
  let [left, right] ← document.slots? [["left"], ["right"]] | none
  return {
    left := ← Document.required Document.amount? left
    right := ← Document.required Document.amount? right }

def toJson (details : Shortfall α) : Json α :=
  .record [("left", .amount details.left), ("right", .amount details.right)]

end Shortfall

namespace Unmet

variable {α : Type} [Amount α]

def ofDocument? (document : Document α) : Option (Unmet α) := do
  let [requirement, details, message] ←
    document.slots? [["requirement"], ["details"], ["message"]] | none
  return {
    requirement := ← Document.required Requirement.ofDocument? requirement
    details := ← Document.required Shortfall.ofDocument? details
    message := ← Document.required Document.text? message }

def toJson (unmet : Unmet α) : Json α :=
  .record [("requirement", unmet.requirement.toJson), ("details", unmet.details.toJson),
    ("message", .text unmet.message)]

end Unmet

end Realm
