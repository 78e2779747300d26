import Realm.Json
import Realm.Table
import Realm.Document.Plain

/-!
# Documents

What a data file says before anything is wanted of it. Content and saved states are JSON texts,
configuration files are written in YAML; both are read into a `Document`, and every record of the
realm is read off a `Document`, so each record has one reader whatever it was written in.

A document keeps what a reader may have to object to: keys written twice, and plain scalars, whose
meaning is settled by what is wanted (`Realm.Plain`). `Document.toJson` is the reading that wants
nothing in particular.
-/

set_option autoImplicit false

namespace Realm

/-- The tree of a data file. -/
inductive Document (α : Type) where
  | null
  | bool (value : Bool)
  | integer (value : Int)
  | number (value : α)
  | text (value : String)
  /-- A scalar written without quotes. -/
  | plain (value : String)
  /-- A list; `positional` says whether it may stand for the fields of a record, in order. -/
  | list (positional : Bool) (items : List (Document α))
  | record (fields : List (String × Document α))

namespace Document

variable {α : Type} [Amount α]

instance : Inhabited (Document α) := ⟨.null⟩

/-- What a plain scalar is when nothing in particular is wanted. -/
def resolve (text : String) : Json α :=
  if Plain.isNull text then .null
  else
    match Plain.bool? text with
    | some value => .bool value
    | none =>
      match Plain.integer? text with
      | some value =>
        if -9223372036854775808 ≤ value ∧ value ≤ 18446744073709551615 then .integer value
        else .number (Amount.ofInt value)
      | none =>
        if Plain.zeroLed text.toList then .text text
        else
          match Plain.amount? text with
          | some value => .amount value
          | none => .text text

mutual

/-- The document as a value: plain scalars resolved, fields in key order, of a key written twice
    the last. -/
def toJson : Document α → Json α
  | .null => .null
  | .bool value => .bool value
  | .integer value => .integer value
  | .number value => .number value
  | .text value => .text value
  | .plain value => resolve value
  | .list _ items => .list (toJsonItems items)
  | .record fields => .record (Table.ofList (toJsonFields fields)).toList

def toJsonItems : List (Document α) → List (Json α)
  | [] => []
  | item :: rest => toJson item :: toJsonItems rest

def toJsonFields : List (String × Document α) → List (String × Json α)
  | [] => []
  | (name, value) :: rest => (name, toJson value) :: toJsonFields rest

end

mutual

/-- A value as a document. -/
def ofJson : Json α → Document α
  | .null => .null
  | .bool value => .bool value
  | .integer value => .integer value
  | .number value => .number value
  | .text value => .text value
  | .list items => .list true (ofJsonItems items)
  | .record fields => .record (ofJsonFields fields)

def ofJsonItems : List (Json α) → List (Document α)
  | [] => []
  | item :: rest => ofJson item :: ofJsonItems rest

def ofJsonFields : List (String × Json α) → List (String × Document α)
  | [] => []
  | (name, value) :: rest => (name, ofJson value) :: ofJsonFields rest

end

/-! ## Scalars -/

def isNull : Document α → Bool
  | .null => true
  | .plain value => Plain.isNull value
  | _ => false

def text? : Document α → Option String
  | .text value | .plain value => some value
  | _ => none

def bool? : Document α → Option Bool
  | .bool value => some value
  | .plain value => Plain.bool? value
  | _ => none

/-- A whole number between two bounds. A number with a point is none. -/
def integerBetween? (least greatest : Int) : Document α → Option Int
  | .integer value => if least ≤ value ∧ value ≤ greatest then some value else none
  | .plain value => do
    let value ← Plain.integer? value
    if least ≤ value ∧ value ≤ greatest then some value else none
  | _ => none

/-- The greatest count that a record may hold. -/
def countLimit : Nat := 4294967295

def count? (document : Document α) : Option Nat :=
  (document.integerBetween? 0 countLimit).map Int.toNat

/-- A sort key. -/
def order? (document : Document α) : Option Int :=
  document.integerBetween? (-2147483648) 2147483647

def amount? : Document α → Option α
  | .integer value => some (Amount.ofInt value)
  | .number value => some value
  | .plain value => Plain.amount? value
  | _ => none

/-- One of a list of names, for the value it stands for. A name may also be written as a record
    with the name as its one key and no value. -/
def oneOf? {β : Type} (names : List (String × β)) (document : Document α) : Option β :=
  match document with
  | .text name | .plain name => Entries.find? name names
  | .record [(name, value)] => if value.isNull then Entries.find? name names else none
  | _ => none

/-! ## Lists, tables and records -/

def list? {β : Type} (read : Document α → Option β) : Document α → Option (List β)
  | .list _ items => items.mapM read
  | .plain "" => some []
  | _ => none

/-- A record as a table; of a key written twice the last counts, though each must be readable. -/
def table? {β : Type} (read : Document α → Option β) : Document α → Option (Table β)
  | .record fields => do
    let entries ← fields.mapM fun field => do return (field.1, ← read field.2)
    return Table.ofList entries
  | .plain "" => some .empty
  | _ => none

/-- The one value among `fields` whose key is one of `names`. Two are refused. -/
def slot? (fields : List (String × Document α)) (names : List String) :
    Option (Option (Document α)) :=
  match fields.filter (fun field => names.contains field.1) with
  | [] => some none
  | [field] => some (some field.2)
  | _ => none

/-- The values of a record's fields in the order of `names`, each with its spellings. A field that
    is not named is passed over; a field written twice is refused. A positional list gives the
    fields in order and may stop early. -/
def slots? (names : List (List String)) : Document α → Option (List (Option (Document α)))
  | .record fields => names.mapM (slot? fields)
  | .list true items =>
    if items.length ≤ names.length then
      some (items.map some ++ List.replicate (names.length - items.length) none)
    else none
  | .plain "" => some (names.map fun _ => none)
  | _ => none

/-- A field that must be there. -/
def required {β : Type} (read : Document α → Option β) : Option (Document α) → Option β
  | none => none
  | some document => read document

/-- A field that has a value when it is left out. -/
def defaulted {β : Type} (fallback : β) (read : Document α → Option β) :
    Option (Document α) → Option β
  | none => some fallback
  | some document => read document

/-- A field that may be left out or null. -/
def optional {β : Type} (read : Document α → Option β) : Option (Document α) → Option (Option β)
  | none => some none
  | some document => if document.isNull then some none else (read document).map some

end Document

end Realm
