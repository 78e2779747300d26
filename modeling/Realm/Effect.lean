import Realm.Bounds

/-!
# Effects

An effect is an instruction as content writes it: a family, a method of the family, parameters that
nobody has read yet, and two remarks — how a change that leaves the bounds is reconciled, and where
the effect comes from. Reading the parameters is the business of applying the effect; until then
they are kept as they were written, so that content with a mistake in it can still be loaded,
written back and reported on.

`Operation` lists the operations that the realm knows, and `Operation.undo` which of them takes
another one back. Every operation that adds a thing can be undone, and every undoing either moves
an amount, moves a skip or takes something away: no undoing adds a building, a passive or a
development. `Effect.inverse?` is the same relation on effects.
-/

set_option autoImplicit false

namespace Realm

namespace Effect

/-- Remarks on an effect. -/
structure Note where
  reconciliation : Option Reconciliation := none
  /-- What the effect is attributed to. -/
  source : Option String := none
  deriving DecidableEq

end Effect

/-- An effect as content writes it. -/
structure Effect (α : Type) where
  family : String
  method : String
  params : Json α := .empty
  note : Option Effect.Note := none
  /-- How many times the effect applies, once if it does not say. -/
  times : Option Nat := none

namespace Effect

variable {α : Type}

/-- The name by which messages call an effect. -/
def key (effect : Effect α) : String := effect.family ++ "." ++ effect.method

/-- The reconciliation an effect asks for. -/
def reconciliation (effect : Effect α) : Reconciliation :=
  (effect.note.bind (·.reconciliation)).getD .standard

def source (effect : Effect α) : Option String := effect.note.bind (·.source)

/-- The same effect, its change stopping at the bounds. -/
def clamped (effect : Effect α) : Effect α :=
  { effect with note := some { effect.note.getD {} with reconciliation := some .clamp } }

end Effect

/-! ## The operations -/

/-- The direction of a change. -/
inductive Direction where
  | add
  | remove
  deriving DecidableEq

namespace Direction

def names : List (String × Direction) := [("add", .add), ("remove", .remove)]

def name : Direction → String
  | .add => "add"
  | .remove => "remove"

def opposite : Direction → Direction
  | .add => .remove
  | .remove => .add

end Direction

/-- The operations that take something back: they move an amount or a skip either way, and take
    buildings, developments and passives away. -/
inductive Undoing where
  | resource (direction : Direction)
  | skip (direction : Direction)
  | removeBuilding
  | removeDevelopment
  | removePassive
  deriving DecidableEq

/-- The operations of the realm. -/
inductive Operation where
  | undoing (operation : Undoing)
  | raiseUpperBound
  | addLand
  | tillLand
  | addBuilding
  | addDevelopment
  | addPassive
  deriving DecidableEq

namespace Operation

/-- Every operation, in the order of their keys. -/
def all : List Operation :=
  [.addBuilding, .undoing .removeBuilding, .addDevelopment, .undoing .removeDevelopment,
   .addLand, .tillLand, .addPassive, .undoing .removePassive,
   .undoing (.skip .add), .undoing (.skip .remove),
   .undoing (.resource .add), .raiseUpperBound, .undoing (.resource .remove)]

/-- The family and the method of an operation. -/
def name : Operation → String × String
  | .undoing (.resource direction) => ("resource", direction.name)
  | .undoing (.skip direction) => ("phase_skip", direction.name)
  | .undoing .removeBuilding => ("building", "remove")
  | .undoing .removeDevelopment => ("development", "remove")
  | .undoing .removePassive => ("passive", "remove")
  | .raiseUpperBound => ("resource", "increase_upper_bound")
  | .addLand => ("land", "add")
  | .tillLand => ("land", "till")
  | .addBuilding => ("building", "add")
  | .addDevelopment => ("development", "add")
  | .addPassive => ("passive", "add")

def key (operation : Operation) : String := operation.name.1 ++ "." ++ operation.name.2

/-- The operation with a family and a method. -/
def named? (family method : String) : Option Operation :=
  all.find? fun operation => operation.name == (family, method)

/-- The operation that takes an operation back. Lands, tilling, raised bounds and removals of
    things are not taken back. -/
def undo : Operation → Option Undoing
  | .undoing (.resource direction) => some (.resource direction.opposite)
  | .undoing (.skip direction) => some (.skip direction.opposite)
  | .addBuilding => some .removeBuilding
  | .addDevelopment => some .removeDevelopment
  | .addPassive => some .removePassive
  | _ => none

end Operation

namespace Effect

variable {α : Type}

/-- The operation an effect calls for. -/
def operation? (effect : Effect α) : Option Operation :=
  Operation.named? effect.family effect.method

/-- The effect that takes an effect back: the undoing operation with the same parameters, remarks
    and repetitions, its change stopping at the bounds. -/
def inverse? (effect : Effect α) : Option (Undoing × Effect α) := do
  let undoing ← (← effect.operation?).undo
  return (undoing, { effect with method := (Operation.undoing undoing).name.2 }.clamped)

/-! ## Records -/

variable [Amount α]

def Note.ofDocument? (document : Document α) : Option Note := do
  let [reconciliation, source] ← document.slots? [["reconciliation"], ["source"]] | none
  return {
    reconciliation := ← Document.optional (Document.oneOf? Reconciliation.names) reconciliation
    source := ← Document.optional Document.text? source }

def Note.toJson (note : Note) : Json α :=
  .record (Json.optional "reconciliation" (.text ·.name) note.reconciliation
    ++ Json.optional "source" .text note.source)

def ofDocument? (document : Document α) : Option (Effect α) := do
  let [family, method, params, note, times] ←
    document.slots? [["type"], ["method"], ["params"], ["meta"], ["repeat"]] | none
  return {
    family := ← Document.required Document.text? family
    method := ← Document.required Document.text? method
    params := ← Document.defaulted .empty (fun params => some params.toJson) params
    note := ← Document.optional Note.ofDocument? note
    times := ← Document.optional Document.count? times }

def toJson (effect : Effect α) : Json α :=
  .record ([("type", .text effect.family), ("method", .text effect.method),
      ("params", effect.params)]
    ++ Json.optional "meta" Note.toJson effect.note
    ++ Json.optional "repeat" .count effect.times)

end Effect

end Realm
