import Realm.Content
import Realm.Effect.Error
import Realm.Player
import Realm.Rules

/-!
# Evaluating requirements

A requirement either holds of a player, or does not hold and comes back with the two numbers and a
sentence, or cannot be evaluated at all. The first two are answers; only the last is an error.

A list of requirements is evaluated in one of two modes, up to the first unmet one or to the end.
-/

set_option autoImplicit false

namespace Realm

/-- How many unmet requirements are asked for. -/
inductive EvaluationMode where
  | firstFailure
  | collectAll
  deriving DecidableEq

variable {α : Type} [Amount α]

/-- A number of things, as an amount. -/
def countOf (n : Nat) : α := Amount.ofCount (min n Document.countLimit)

namespace Source

/-- The number that a source stands for. -/
def value (content : Content α) (rules : Rules) (player : Player α) :
    Source → Except (EffectError α) α
  | .resource key | .stat key => amountOf key
  | .population role => amountOf (role.getD rules.populationResource)
  | .building id => .ok (if player.buildings.contains id then Amount.one else 0)
  | .land => .ok (countOf player.lands.length)
  | .development id => .ok (countOf (player.developmentCount id))
where
  amountOf (key : String) : Except (EffectError α) α :=
    (player.resources.amountOf content.catalog key).mapError .ledger

/-- What a message calls a source. -/
def label (content : Content α) (rules : Rules) : Source → String
  | .resource key | .stat key => content.catalog.label key
  | .population role => content.catalog.label (role.getD rules.populationResource)
  | .building id => ((content.buildings.find? id).map (·.name)).getD id
  | .land => "Lands"
  | .development id => ((content.developments.find? id).map (·.name)).getD id

end Source

namespace Operand

/-- The number that an operand stands for. -/
def value (content : Content α) (rules : Rules) (player : Player α) :
    Operand α → Except (EffectError α) α
  | .literal value => .ok value
  | .source origin => origin.value content rules player

/-- An operand in a message: a number stands for itself, a source is named. -/
def describe (content : Content α) (rules : Rules) (operand : Operand α) (value : α) : String :=
  match operand with
  | .literal _ => Amount.text value
  | .source origin => origin.label content rules ++ " (" ++ Amount.text value ++ ")"

end Operand

namespace Comparison

/-- Whether a comparison is of all inhabitants with the number there may be. -/
def isCapacityCheck (rules : Rules) (comparison : Comparison α) : Bool :=
  match comparison.left, comparison.right with
  | .source (.population none), .source (.stat key) => key == rules.maxPopulationStat
  | _, _ => false

/-- The sentence for a comparison that does not hold. -/
def complaint (content : Content α) (rules : Rules) (comparison : Comparison α)
    (details : Shortfall α) : String :=
  if comparison.isCapacityCheck rules then
    "Population is at capacity (" ++ Amount.text details.left ++ "/" ++ Amount.text details.right
      ++ ")"
  else
    comparison.left.describe content rules details.left ++ " must be "
      ++ comparison.comparator.phrase ++ " "
      ++ comparison.right.describe content rules details.right

end Comparison

namespace Requirement

/-- The error of a requirement that cannot be read. -/
def Fault.error (requirement : Requirement α) : Fault → EffectError α
  | .unknown => .unknownRequirement requirement.family requirement.method
  | .malformed => .invalidParams compareKey .malformed

/-- The comparison a requirement asks for, as far as evaluating it is concerned. -/
def read (requirement : Requirement α) : Except (EffectError α) (Comparison α) :=
  requirement.comparison?.mapError (·.error requirement)

/-- Checks one requirement of a player. -/
def check (content : Content α) (rules : Rules) (player : Player α)
    (requirement : Requirement α) : Except (EffectError α) (Option (Unmet α)) := do
  let comparison ← requirement.read
  let left ← comparison.left.value content rules player
  let right ← comparison.right.value content rules player
  if comparison.comparator.holds left right then return none
  else
    let details : Shortfall α := { left, right }
    return some { requirement, details, message := comparison.complaint content rules details }

/-- The unmet ones among requirements, in order: all of them, or the first. -/
def evaluate (content : Content α) (rules : Rules) (player : Player α) (mode : EvaluationMode) :
    List (Requirement α) → Except (EffectError α) (List (Unmet α))
  | [] => return []
  | requirement :: rest => do
    match ← check content rules player requirement, mode with
    | some unmet, .firstFailure => return [unmet]
    | some unmet, .collectAll => return unmet :: (← evaluate content rules player mode rest)
    | none, _ => evaluate content rules player mode rest

end Requirement

end Realm
