import Realm.Requirement

/-!
# Placeholders

An action is written once for all its uses: its effects and requirements may have placeholders,
texts such as `$landId`, in their parameters, and whoever performs the action gives their values. A
placeholder is a whole text, not a part of one, and its value takes its place as it is, be it a
text, a number or a record; a value that looks like a placeholder is not replaced in turn.
-/

set_option autoImplicit false

namespace Realm

/-- The values that are given for an action's placeholders. -/
abbrev ActionParams (α : Type) := Table (Json α)

/-- A placeholder without a value. -/
structure MissingParam where
  name : String
  deriving DecidableEq

def MissingParam.message (missing : MissingParam) : String :=
  "missing action parameter `" ++ missing.name ++ "`"

namespace Placeholder

/-- The characters of a placeholder's name. -/
def isNameChar (c : Char) : Bool := c.isAlphanum || c = '_'

/-- The name of the placeholder that a text is. -/
def name? (text : String) : Option String :=
  match text.toList with
  | '$' :: c :: rest => if (c :: rest).all isNameChar then some (String.ofList (c :: rest)) else none
  | _ => none

variable {α : Type}

mutual

/-- Puts the values in the place of the placeholders. The first one without a value, in the order
    of the text, makes it fail. -/
def substitute (params : ActionParams α) : Json α → Except MissingParam (Json α)
  | .text text =>
    match name? text with
    | none => .ok (.text text)
    | some name =>
      match params.find? name with
      | some value => .ok value
      | none => .error { name }
  | .list items => do return .list (← substituteItems params items)
  | .record fields => do return .record (← substituteFields params fields)
  | value => .ok value

def substituteItems (params : ActionParams α) :
    List (Json α) → Except MissingParam (List (Json α))
  | [] => .ok []
  | item :: rest => do
    let item ← substitute params item
    return item :: (← substituteItems params rest)

def substituteFields (params : ActionParams α) :
    List (String × Json α) → Except MissingParam (List (String × Json α))
  | [] => .ok []
  | (name, value) :: rest => do
    let value ← substitute params value
    return (name, value) :: (← substituteFields params rest)

end

end Placeholder

variable {α : Type}

/-- An effect with its placeholders replaced. -/
def Effect.substitute (params : ActionParams α) (effect : Effect α) :
    Except MissingParam (Effect α) := do
  return { effect with params := ← Placeholder.substitute params effect.params }

/-- A requirement with its placeholders replaced. -/
def Requirement.substitute (params : ActionParams α) (requirement : Requirement α) :
    Except MissingParam (Requirement α) := do
  return { requirement with params := ← Placeholder.substitute params requirement.params }

end Realm
