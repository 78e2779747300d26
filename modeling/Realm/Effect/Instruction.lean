import Realm.Effect.Error
import Realm.Ledger
import Realm.Text.Blank

/-!
# Instructions

An effect with its parameters read. Reading happens once, before anything is touched, and every
mistake that can be seen in the parameters alone is found there.

Instructions come in three kinds, and the kind says what else they may set off:

* a `Leaf` changes one component of the player and sets nothing off;
* a `Removal` takes a thing away, which takes back what the thing's effects did;
* an `Addition` adds a thing, which applies the thing's effects.

What takes an effect back is a leaf or a removal (`Undoing.read`), never an addition. That is why
taking away always comes to an end, while adding need not.
-/

set_option autoImplicit false

namespace Realm

/-- How much a change of an amount is. -/
inductive Size (α : Type) where
  /-- A fixed magnitude. -/
  | flat (amount : α)
  /-- A percentage of the current amount. -/
  | percent (percent : α)
  deriving DecidableEq

/-- An instruction that changes one component of the player. -/
inductive Leaf (α : Type) where
  | changeAmount (resource : String) (direction : Direction) (size : Size α)
      (rounding : Option Rounding) (policy : Reconciliation)
  | raiseUpperBound (resource : String) (amount : α)
  | addLands (count : Nat) (slots : Option Nat)
  | tillLand (land : String)
  | changeSkip (direction : Direction) (phase : String) (step : Option String) (source : String)
  deriving DecidableEq

/-- An instruction that takes a thing away. -/
inductive Removal where
  | building (id : String)
  | passive (id : String)
  | development (id : String) (land : Option String)
  deriving DecidableEq

/-- An instruction that adds a thing. -/
inductive Addition (α : Type) where
  | building (id : String)
  | passive (definition : Passive α) (source : Option String)
  | development (id : String) (land : Option String)

/-- An effect with its parameters read. -/
inductive Instruction (α : Type) where
  | leaf (leaf : Leaf α)
  | removal (removal : Removal)
  | addition (addition : Addition α)

namespace Effect

variable {α : Type} [Amount α]

/-- Reads the parameters with a reader of records. -/
def readParams {β : Type} (effect : Effect α) (read : Document α → Option β) :
    Except (EffectError α) β :=
  match read (.ofJson effect.params) with
  | some value => .ok value
  | none => .error (.invalidParams effect.key .malformed)

/-! ## The parameters of the operations -/

/-- A change of an amount: a resource, a flat amount or a percentage, and a rounding. -/
def readChange (effect : Effect α) (direction : Direction) : Except (EffectError α) (Leaf α) := do
  let (resource, amount, percent, rounding) ← effect.readParams fun document => do
    let [resource, amount, percent, rounding] ←
      document.slots? [["resourceId"], ["amount"], ["percent"], ["rounding"]] | none
    return (← Document.required Document.text? resource,
      ← Document.optional Document.amount? amount,
      ← Document.optional Document.amount? percent,
      ← Document.optional (Document.oneOf? Rounding.names) rounding)
  match amount, percent with
  | some amount, none =>
    return .changeAmount resource direction (.flat amount) rounding effect.reconciliation
  | none, some percent =>
    return .changeAmount resource direction (.percent percent) rounding effect.reconciliation
  | _, _ => throw (.invalidParams effect.key .notOneSize)

/-- A raise of an upper bound: a resource and an amount that is a number and not negative. The
    effect has to say that it clamps. -/
def readBoundIncrease (effect : Effect α) : Except (EffectError α) (Leaf α) := do
  let (resource, amount, key) ← effect.readParams fun document => do
    let [resource, amount, key] ←
      document.slots? [["resourceId"], ["amount"], ["key"]] | none
    return (← Document.required Document.text? resource,
      ← Document.optional some amount, ← Document.optional some key)
  if effect.reconciliation ≠ .clamp then
    throw (.invalidBoundIncrease resource .notClamped)
  if key.isSome then
    throw (.invalidBoundIncrease resource .keyGiven)
  match amount.bind Document.amount? with
  | none => throw (.invalidBoundIncrease resource .amountNotNumber)
  | some amount =>
    if !Amount.isFinite amount || decide (amount < 0) then
      throw (.invalidBoundIncrease resource .amountNegative)
    return .raiseUpperBound resource amount

/-- A number of lands, one if none is given, and their slots. -/
def readLands (effect : Effect α) : Except (EffectError α) (Leaf α) := do
  let (count, slots) ← effect.readParams fun document => do
    let [count, slots] ← document.slots? [["count"], ["slots"]] | none
    return (← Document.optional Document.count? count, ← Document.optional Document.count? slots)
  return .addLands (count.getD 1) slots

/-- The land to till. -/
def readTill (effect : Effect α) : Except (EffectError α) (Leaf α) := do
  let land ← effect.readParams fun document => do
    let [land] ← document.slots? [["landId"]] | none
    Document.optional Document.text? land
  match land with
  | none | some "" => throw .missingLandId
  | some land => return .tillLand land

/-- A phase, maybe a step of it, and a source that is not blank. -/
def readSkip (effect : Effect α) (direction : Direction) : Except (EffectError α) (Leaf α) := do
  let (phase, step, source) ← effect.readParams fun document => do
    let [phase, step, source] ← document.slots? [["phaseId"], ["stepId"], ["source"]] | none
    return (← Document.required Document.text? phase, ← Document.optional Document.text? step,
      ← Document.optional Document.text? source)
  match source.map Text.trim with
  | none | some "" => throw (.missingSource effect.key)
  | some source => return .changeSkip direction phase step source

/-- The id of a building or a passive. -/
def readId (effect : Effect α) : Except (EffectError α) String :=
  effect.readParams fun document => do
    let [id] ← document.slots? [["id"]] | none
    Document.required Document.text? id

/-- A development, and maybe the land that is meant. -/
def readDevelopment (effect : Effect α) : Except (EffectError α) (String × Option String) :=
  effect.readParams fun document => do
    let [id, land] ← document.slots? [["id"], ["landId"]] | none
    return (← Document.required Document.text? id, ← Document.optional Document.text? land)

end Effect

variable {α : Type} [Amount α]

/-- Reads the parameters of an effect for an operation that takes something back. -/
def Undoing.read (operation : Undoing) (effect : Effect α) :
    Except (EffectError α) (Leaf α ⊕ Removal) := do
  match operation with
  | .resource direction => return .inl (← effect.readChange direction)
  | .skip direction => return .inl (← effect.readSkip direction)
  | .removeBuilding => return .inr (.building (← effect.readId))
  | .removePassive => return .inr (.passive (← effect.readId))
  | .removeDevelopment =>
    let (id, land) ← effect.readDevelopment
    return .inr (.development id land)

/-- Reads the parameters of an effect for an operation. -/
def Operation.read (operation : Operation) (effect : Effect α) :
    Except (EffectError α) (Instruction α) := do
  match operation with
  | .undoing operation =>
    match ← operation.read effect with
    | .inl leaf => return .leaf leaf
    | .inr removal => return .removal removal
  | .raiseUpperBound => return .leaf (← effect.readBoundIncrease)
  | .addLand => return .leaf (← effect.readLands)
  | .tillLand => return .leaf (← effect.readTill)
  | .addBuilding => return .addition (.building (← effect.readId))
  | .addDevelopment =>
    let (id, land) ← effect.readDevelopment
    return .addition (.development id land)
  | .addPassive => return .addition (.passive (← effect.readParams Passive.ofDocument?) effect.source)

end Realm
