import Realm.Amount

/-!
# JSON values

The dynamic values of the realm: parameters that an effect carries unread until it is applied, and
records on their way out. Whole numbers and amounts are kept apart, so that what was written as `2`
is written back as `2` and what was written as `2.0` as `2.0`.

The fields of a record are a list of pairs. Values that come from a document have them in key order
and each key once (`Document.toJson`).
-/

set_option autoImplicit false

namespace Realm

/-- A JSON value whose fractional numbers are amounts. -/
inductive Json (α : Type) where
  | null
  | bool (value : Bool)
  | integer (value : Int)
  | number (value : α)
  | text (value : String)
  | list (items : List (Json α))
  | record (fields : List (String × Json α))

namespace Json

variable {α : Type}

instance : Inhabited (Json α) := ⟨.null⟩

/-- A record without fields. -/
def empty : Json α := .record []

/-- A count as a value. -/
def count (n : Nat) : Json α := .integer n

/-- A list of texts. -/
def texts (items : List String) : Json α := .list (items.map .text)

/-- A list of values of one kind. -/
def listOf {β : Type} (write : β → Json α) (items : List β) : Json α := .list (items.map write)

/-- A table as a record. -/
def ofEntries {β : Type} (write : β → Json α) (entries : List (String × β)) : Json α :=
  .record (entries.map fun entry => (entry.1, write entry.2))

/-- A field that is left out when it has no value. -/
def optional {β : Type} (name : String) (write : β → Json α) : Option β → List (String × Json α)
  | none => []
  | some value => [(name, write value)]

/-- An amount as a value. There is no JSON number for an infinite or undefined amount. -/
def amount [Amount α] (value : α) : Json α :=
  if Amount.isFinite value then .number value else .null

end Json

end Realm
