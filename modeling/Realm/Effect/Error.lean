import Realm.Catalog

/-!
# What can go wrong with effects

An error is a mistake of the content or of the caller, never a move that a player cannot afford:
unmet requirements are answers, not errors.
-/

set_option autoImplicit false

namespace Realm

/-- What is wrong with the parameters of an effect or a requirement. -/
inductive ParamsFault where
  /-- They are not of the shape that is wanted. -/
  | malformed
  /-- A change needs a flat amount or a percentage, and one of them only. -/
  | notOneSize
  deriving DecidableEq

/-- Why an upper bound is not raised. -/
inductive BoundIncreaseFault where
  | notClamped
  | keyGiven
  | amountNotNumber
  | amountNegative
  deriving DecidableEq

/-- A failure of an effect or of the evaluation of a requirement. -/
inductive EffectError (α : Type) where
  | ledger (error : LedgerError α)
  | unknownEffect (family method : String)
  | invalidParams (key : String) (fault : ParamsFault)
  | percentNotFinite (resource : String) (value : α)
  | invalidBoundIncrease (resource : String) (fault : BoundIncreaseFault)
  | missingLandId
  | landNotFound (land : String)
  | missingSource (key : String)
  | unknownBuilding (building : String)
  | unknownDevelopment (development : String)
  | noFreeSlot (land : Option String)
  | duplicatePassive (passive : String)
  | unknownRequirement (family method : String)
  /-- Effects apply each other more deeply than is allowed. -/
  | nestedTooDeeply
  deriving DecidableEq

def ParamsFault.message : ParamsFault → String
  | .malformed => "<detail>"
  | .notOneSize => "exactly one of amount or percent is required"

def BoundIncreaseFault.message : BoundIncreaseFault → String
  | .notClamped => "reconciliation must be clamp"
  | .keyGiven => "key is not allowed, use resourceId"
  | .amountNotNumber => "amount must be a number"
  | .amountNegative => "amount must be non-negative"

/-- The wording of an error. -/
def EffectError.message {α : Type} [Amount α] : EffectError α → String
  | .ledger error => error.message
  | .unknownEffect family method => "unknown effect: " ++ family ++ "." ++ method
  | .invalidParams key fault => "invalid params for " ++ key ++ ": " ++ fault.message
  | .percentNotFinite resource value =>
    "percent delta for " ++ resource ++ " is not finite: " ++ Amount.text value
  | .invalidBoundIncrease resource fault =>
    "invalid upper bound increase for " ++ resource ++ ": " ++ fault.message
  | .missingLandId => "land.till requires a landId"
  | .landNotFound land => "land not found: " ++ land
  | .missingSource key => key ++ " requires a non-empty source"
  | .unknownBuilding building => "unknown building: " ++ building
  | .unknownDevelopment development => "unknown development: " ++ development
  | .noFreeSlot land => "no free development slot (land: " ++ land.getD "any" ++ ")"
  | .duplicatePassive passive => "passive already active: " ++ passive
  | .unknownRequirement family method => "unknown requirement: " ++ family ++ "." ++ method
  | .nestedTooDeeply => "effects nest too deeply"

end Realm
