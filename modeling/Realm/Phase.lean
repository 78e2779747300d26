import Realm.Effect

/-!
# Phases and steps

Every player's turn goes through the same phases, and every phase through its steps. A step may
have effects of its own, and in some phases players may act.
-/

set_option autoImplicit false

namespace Realm

/-- A step of a phase, and what it does to the player whose turn it is. -/
structure Step (α : Type) where
  id : String
  effects : List (Effect α) := []

/-- A phase of a player's turn. -/
structure Phase (α : Type) where
  id : String
  /-- Whether players may act in it. -/
  action : Bool := false
  steps : List (Step α) := [{ id := "start" }]

namespace Phase

variable {α : Type}

/-- A phase whose one step has the phase's name. -/
def named (id : String) : Phase α := { id, steps := [{ id }] }

end Phase

variable {α : Type} [Amount α]

namespace Step

def ofDocument? (document : Document α) : Option (Step α) := do
  let [id, effects] ← document.slots? [["id"], ["effects"]] | none
  return {
    id := ← Document.required Document.text? id
    effects := ← Document.defaulted [] (Document.list? Effect.ofDocument?) effects }

def toJson (step : Step α) : Json α :=
  .record [("id", .text step.id), ("effects", Json.listOf Effect.toJson step.effects)]

end Step

namespace Phase

def ofDocument? (document : Document α) : Option (Phase α) := do
  let standard : Phase α := { id := "" }
  let [id, action, steps] ← document.slots? [["id"], ["action"], ["steps"]] | none
  return {
    id := ← Document.required Document.text? id
    action := ← Document.defaulted standard.action Document.bool? action
    steps := ← Document.defaulted standard.steps (Document.list? Step.ofDocument?) steps }

def toJson (phase : Phase α) : Json α :=
  .record [("id", .text phase.id), ("action", .bool phase.action),
    ("steps", Json.listOf Step.toJson phase.steps)]

end Phase

end Realm
