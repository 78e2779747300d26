import Realm.Proofs.Document.Returning

/-!
# Places in a value

A value is a tree: one comes to a text in it by going into a list at an index or into a record at a
key, so many times. The way is the place of the text (`Json.TextAt`); the keys themselves are no
texts of the value. Places are in the order in which a reader comes by them, that of the items of a
list and that of the keys of a record (`Json.Place.Before`).

`Json.mapTexts` puts something in the place of every text and leaves the rest of the tree as it is.
Which texts there are afterwards is said by `TextAt.of_mapTexts`: those of what was put there.

Statements about values are proved by induction on the tree (`Json.induct`), in which the parts of a
list or a record are all there at once.
-/

set_option autoImplicit false

namespace Realm
namespace Json

variable {α : Type}

/-- What holds of a list or a record if it holds of the parts, and of all other values, holds of
    every value. -/
@[elab_as_elim]
theorem induct {motive : Json α → Prop} (null : motive .null)
    (bool : ∀ value, motive (.bool value)) (integer : ∀ value, motive (.integer value))
    (number : ∀ value, motive (.number value)) (text : ∀ value, motive (.text value))
    (list : ∀ items, (∀ item ∈ items, motive item) → motive (.list items))
    (record : ∀ fields, (∀ field ∈ fields, motive field.2) → motive (.record fields))
    (value : Json α) : motive value :=
  @Json.rec α motive (fun items => ∀ item ∈ items, motive item)
    (fun fields => ∀ field ∈ fields, motive field.2) (fun field => motive field.2)
    null bool integer number text list record
    (fun _ hitem => (List.not_mem_nil hitem).elim)
    (fun _ _ hfirst hrest => List.forall_mem_cons.2 ⟨hfirst, hrest⟩)
    (fun _ hfield => (List.not_mem_nil hfield).elim)
    (fun _ _ hfirst hrest => List.forall_mem_cons.2 ⟨hfirst, hrest⟩)
    (fun _ _ hvalue => hvalue) value

/-! ## Places -/

/-- One step into a value. -/
inductive Step where
  | item (index : Nat)
  | field (key : String)

/-- The steps that lead from a value to something in it. -/
abbrev Place := List Step

/-- Items are in the order of their indices, fields in that of their keys. -/
inductive Step.Before : Step → Step → Prop
  | item {index other : Nat} (h : index < other) : Before (.item index) (.item other)
  | field {key other : String} (h : key < other) : Before (.field key) (.field other)

/-- One place comes before another if it does at the first step at which they part. -/
def Place.Before : Place → Place → Prop := List.Lex Step.Before

theorem Step.Before.asymm {step other : Step} (h : step.Before other) : ¬ other.Before step := by
  intro h'
  cases h with
  | item h =>
    cases h' with
    | item h' => exact Nat.lt_asymm h h'
  | field h =>
    cases h' with
    | field h' => exact String.lt_irrefl _ (String.lt_trans h h')

theorem Place.Before.asymm {place other : Place} (h : place.Before other) :
    ¬ other.Before place := by
  intro h'
  induction h with
  | nil => cases h'
  | rel h =>
    cases h' with
    | rel h' => exact h.asymm h'
    | cons h' => exact h.asymm h
  | cons h ih =>
    cases h' with
    | rel h' => exact h'.asymm h'
    | cons h' => exact ih h'

/-- A text stands at a place of a value. -/
inductive TextAt (text : String) : Place → Json α → Prop
  | here : TextAt text [] (.text text)
  | item {items : List (Json α)} {index : Nat} {value : Json α} {place : Place}
      (hitem : items[index]? = some value) (h : TextAt text place value) :
      TextAt text (.item index :: place) (.list items)
  | field {fields : List (String × Json α)} {key : String} {value : Json α} {place : Place}
      (hfield : (key, value) ∈ fields) (h : TextAt text place value) :
      TextAt text (.field key :: place) (.record fields)

theorem textAt_text_iff {text value : String} {place : Place} :
    (Json.text value : Json α).TextAt text place ↔ text = value ∧ place = [] := by
  constructor
  · intro h
    cases h
    exact ⟨rfl, rfl⟩
  · rintro ⟨rfl, rfl⟩
    exact .here

theorem orderedItems_iff {items : List (Json α)} :
    OrderedItems items ↔ ∀ item ∈ items, item.Ordered := by
  induction items with
  | nil => exact iff_of_true trivial fun item hitem => (List.not_mem_nil hitem).elim
  | cons item rest ih => rw [List.forall_mem_cons, ← ih, OrderedItems]

theorem orderedFields_iff {fields : List (String × Json α)} :
    OrderedFields fields ↔ ∀ field ∈ fields, field.2.Ordered := by
  induction fields with
  | nil => exact iff_of_true trivial fun field hfield => (List.not_mem_nil hfield).elim
  | cons field rest ih => rw [List.forall_mem_cons, ← ih, OrderedFields]

/-- Where the keys of every record are different, there is one text at a place. -/
theorem TextAt.unique {text other : String} {place : Place} {value : Json α}
    (h : value.TextAt text place) (h' : value.TextAt other place) (hordered : value.Ordered) :
    text = other := by
  induction h with
  | here =>
    cases h' with
    | here => rfl
  | item hitem h ih =>
    cases h' with
    | item hitem' h' =>
      rw [hitem] at hitem'
      cases hitem'
      rw [Ordered, orderedItems_iff] at hordered
      exact ih h' (hordered _ (List.mem_of_getElem? hitem))
  | field hfield h ih =>
    cases h' with
    | field hfield' h' =>
      rw [Ordered, orderedFields_iff] at hordered
      have hfind := (Entries.find?_eq_some_iff hordered.1).2 hfield
      rw [(Entries.find?_eq_some_iff hordered.1).2 hfield'] at hfind
      cases hfind
      exact ih h' (hordered.2 _ hfield)

/-! ## Other texts -/

mutual

/-- The value with something else in the place of each text. -/
def mapTexts (f : String → Json α) : Json α → Json α
  | .text value => f value
  | .list items => .list (mapTextsItems f items)
  | .record fields => .record (mapTextsFields f fields)
  | value => value

def mapTextsItems (f : String → Json α) : List (Json α) → List (Json α)
  | [] => []
  | item :: rest => mapTexts f item :: mapTextsItems f rest

def mapTextsFields (f : String → Json α) : List (String × Json α) → List (String × Json α)
  | [] => []
  | (key, value) :: rest => (key, mapTexts f value) :: mapTextsFields f rest

end

variable {f : String → Json α}

theorem mapTexts_list (items : List (Json α)) :
    (Json.list items).mapTexts f = .list (items.map (mapTexts f)) := by
  have hitems : ∀ items : List (Json α), mapTextsItems f items = items.map (mapTexts f) := by
    intro items
    induction items with
    | nil => rfl
    | cons item rest ih => rw [mapTextsItems, ih, List.map_cons]
  rw [mapTexts, hitems]

theorem mapTexts_record (fields : List (String × Json α)) :
    (Json.record fields).mapTexts f
      = .record (fields.map fun field => (field.1, field.2.mapTexts f)) := by
  have hfields : ∀ fields : List (String × Json α),
      mapTextsFields f fields = fields.map fun field => (field.1, field.2.mapTexts f) := by
    intro fields
    induction fields with
    | nil => rfl
    | cons field rest ih => rw [mapTextsFields, ih, List.map_cons]
  rw [mapTexts, hfields]

/-- Texts that are put back leave the value as it is. -/
theorem mapTexts_eq_self {value : Json α}
    (h : ∀ text place, value.TextAt text place → f text = .text text) : value.mapTexts f = value := by
  induction value using induct with
  | null | bool value | integer value | number value => rfl
  | text value => exact h value [] .here
  | list items ih =>
    have hitems : items.map (mapTexts f) = items.map id :=
      List.map_congr_left fun item hitem => ih item hitem fun text place htext => by
        obtain ⟨index, hindex⟩ := List.getElem?_of_mem hitem
        exact h text _ (.item hindex htext)
    rw [mapTexts_list, hitems, List.map_id]
  | record fields ih =>
    have hfields : (fields.map fun field => (field.1, field.2.mapTexts f)) = fields.map id :=
      List.map_congr_left fun field hfield => Prod.ext rfl <|
        ih field hfield fun text place htext => h text _ (.field hfield htext)
    rw [mapTexts_record, hfields, List.map_id]

/-- The texts of the new value are texts of what was put there, each below the place of the text
    that was there before. -/
theorem TextAt.of_mapTexts {text : String} {value : Json α} {place : Place}
    (h : (value.mapTexts f).TextAt text place) :
    ∃ original front rest, value.TextAt original front ∧ (f original).TextAt text rest ∧
      place = front ++ rest := by
  induction value using induct generalizing place with
  | null | bool value | integer value | number value => cases h
  | text value => exact ⟨value, [], place, .here, h, rfl⟩
  | list items ih =>
    rw [mapTexts_list] at h
    cases h with
    | item hmapped h =>
      rw [List.getElem?_map] at hmapped
      obtain ⟨item, hitem, rfl⟩ := Option.map_eq_some_iff.1 hmapped
      obtain ⟨original, front, rest, hfront, hrest, rfl⟩ := ih item (List.mem_of_getElem? hitem) h
      exact ⟨original, _, rest, .item hitem hfront, hrest, rfl⟩
  | record fields ih =>
    rw [mapTexts_record] at h
    cases h with
    | field hmapped h =>
      obtain ⟨field, hfield, heq⟩ := List.mem_map.1 hmapped
      cases heq
      obtain ⟨original, front, rest, hfront, hrest, rfl⟩ := ih field hfield h
      exact ⟨original, _, rest, .field hfield hfront, hrest, rfl⟩

end Json
end Realm
