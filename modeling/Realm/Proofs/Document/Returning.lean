import Realm.Document
import Realm.Proofs.Table

/-!
# What is written is read back

A record is written as a value and read off a document, and the two are separate functions: nothing
in a reader mentions the writer. So that a value comes back is a property of the pair of them, and
of the value as well (`Document.Returns`), for there are values that cannot be written: an amount
that is not finite, a count that is too great, a record with its fields out of order.

Every writer is put together from a few parts — lists, tables, records with fields that may be left
out — and every reader from the parts that answer to them. The statements here are about these
parts, and each says exactly when a value comes back. What is said of a record of the realm is then
what is said of its fields.

Values that nobody reads, such as the parameters of an effect, come back as they were exactly if
the fields of their records are in order (`toJson_ofJson_iff`).
-/

set_option autoImplicit false

namespace Realm

variable {α β : Type}

/-! ## Sorted entries -/

theorem Entries.sorted_iff_keys {entries : List (String × β)} :
    Entries.Sorted entries ↔ (entries.map (·.1)).Pairwise (· < ·) :=
  List.pairwise_map.symm

theorem Table.toList_ofList {entries : List (String × β)} (h : Entries.Sorted entries) :
    (Table.ofList entries).toList = entries :=
  congrArg Table.toList (Table.ofList_toList ⟨entries, h⟩)

/-- Entries come out of a table as other entries with the same keys if they are those, and in
    order. -/
theorem Table.toList_ofList_eq_iff {entries others : List (String × β)}
    (hkeys : entries.map (·.1) = others.map (·.1)) :
    (Table.ofList entries).toList = others ↔ Entries.Sorted others ∧ entries = others := by
  constructor
  · intro h
    have hothers : Entries.Sorted others := h ▸ (Table.ofList entries).sorted
    have hentries : Entries.Sorted entries := by
      rw [Entries.sorted_iff_keys, hkeys, ← Entries.sorted_iff_keys]
      exact hothers
    rw [Table.toList_ofList hentries] at h
    exact ⟨hothers, h⟩
  · intro h
    obtain ⟨hothers, heq⟩ := h
    subst heq
    exact Table.toList_ofList hothers

/-! ## Values that nobody reads -/

namespace Json

mutual

/-- The fields of every record are in key order, each key once. -/
def Ordered : Json α → Prop
  | .list items => OrderedItems items
  | .record fields => Entries.Sorted fields ∧ OrderedFields fields
  | .null | .bool _ | .integer _ | .number _ | .text _ => True

def OrderedItems : List (Json α) → Prop
  | [] => True
  | item :: rest => Ordered item ∧ OrderedItems rest

def OrderedFields : List (String × Json α) → Prop
  | [] => True
  | (_, value) :: rest => Ordered value ∧ OrderedFields rest

end

end Json

namespace Document

theorem ofJsonItems_eq_map (items : List (Json α)) : ofJsonItems items = items.map ofJson := by
  induction items with
  | nil => rfl
  | cons item rest ih => simp [ofJsonItems, ih]

theorem ofJsonFields_eq_map (fields : List (String × Json α)) :
    ofJsonFields fields = fields.map fun field => (field.1, ofJson field.2) := by
  induction fields with
  | nil => rfl
  | cons field rest ih => simp [ofJsonFields, ih]

section

variable [Amount α]

theorem keys_toJsonFields (fields : List (String × Json α)) :
    (toJsonFields (ofJsonFields fields)).map (·.1) = fields.map (·.1) := by
  induction fields with
  | nil => rfl
  | cons field rest ih => simp [ofJsonFields, toJsonFields, ih]

mutual

/-- A value comes back exactly if its records are in order. -/
theorem toJson_ofJson_iff : (value : Json α) → ((ofJson value).toJson = value ↔ value.Ordered)
  | .null | .bool _ | .integer _ | .number _ | .text _ => iff_of_true rfl trivial
  | .list items => by
    simp only [ofJson, toJson, Json.Ordered, Json.list.injEq]
    exact toJsonItems_ofJsonItems_iff items
  | .record fields => by
    simp only [ofJson, toJson, Json.Ordered, Json.record.injEq]
    rw [Table.toList_ofList_eq_iff (keys_toJsonFields fields)]
    exact and_congr_right fun _ => toJsonFields_ofJsonFields_iff fields

theorem toJsonItems_ofJsonItems_iff : (items : List (Json α)) →
    (toJsonItems (ofJsonItems items) = items ↔ Json.OrderedItems items)
  | [] => iff_of_true rfl trivial
  | item :: rest => by
    simp only [ofJsonItems, toJsonItems, Json.OrderedItems, List.cons.injEq]
    exact and_congr (toJson_ofJson_iff item) (toJsonItems_ofJsonItems_iff rest)

theorem toJsonFields_ofJsonFields_iff : (fields : List (String × Json α)) →
    (toJsonFields (ofJsonFields fields) = fields ↔ Json.OrderedFields fields)
  | [] => iff_of_true rfl trivial
  | (name, value) :: rest => by
    simp only [ofJsonFields, toJsonFields, Json.OrderedFields, List.cons.injEq, Prod.mk.injEq,
      true_and]
    exact and_congr (toJson_ofJson_iff value) (toJsonFields_ofJsonFields_iff rest)

end

end

/-! ## Reading back -/

/-- The value is read back as it was written. -/
def Returns (read : Document α → Option β) (write : β → Json α) (value : β) : Prop :=
  read (.ofJson (write value)) = some value

theorem returns_text (text : String) : Returns (α := α) text? .text text := rfl

/-- A count comes back if it is not too great for a record. -/
theorem returns_count_iff {n : Nat} : Returns (α := α) count? .count n ↔ n ≤ countLimit := by
  have hread : count? (.ofJson (.count n) : Document α)
      = if n ≤ countLimit then some n else none := by
    simp only [count?, Json.count, ofJson, integerBetween?]
    by_cases h : n ≤ countLimit
    · rw [if_pos ⟨Int.natCast_nonneg n, Int.ofNat_le.2 h⟩, if_pos h]
      rfl
    · rw [if_neg fun hbetween => h (Int.ofNat_le.1 hbetween.2), if_neg h]
      rfl
  unfold Returns
  rw [hread]
  by_cases h : n ≤ countLimit <;> simp [h]

/-- An amount comes back if it is finite. -/
theorem returns_amount_iff [Amount α] {value : α} :
    Returns amount? .amount value ↔ Amount.isFinite value = true := by
  unfold Returns Json.amount
  by_cases h : Amount.isFinite value = true
  · rw [if_pos h]
    exact iff_of_true rfl h
  · rw [if_neg h]
    simp [ofJson, amount?, h]

/-! ## Lists and tables -/

variable {read : Document α → Option β} {write : β → Json α}

theorem mapM_map_eq_some_iff {γ δ : Type} {write : γ → δ} {read : δ → Option γ} {items : List γ} :
    (items.map write).mapM read = some items ↔ ∀ item ∈ items, read (write item) = some item := by
  induction items with
  | nil => simp
  | cons item rest ih =>
    rw [List.map_cons, List.mapM_cons, List.forall_mem_cons, ← ih]
    constructor
    · intro h
      obtain ⟨first, hfirst, h⟩ := Option.bind_eq_some_iff.1 h
      obtain ⟨others, hothers, h⟩ := Option.bind_eq_some_iff.1 h
      cases h
      exact ⟨hfirst, hothers⟩
    · intro h
      rw [h.1, h.2]
      rfl

theorem returns_listOf_iff {items : List β} :
    Returns (list? read) (Json.listOf write) items ↔ ∀ item ∈ items, Returns read write item := by
  unfold Returns Json.listOf
  simp only [ofJson, list?]
  rw [ofJsonItems_eq_map, List.map_map, mapM_map_eq_some_iff]
  rfl

theorem returns_texts (items : List String) : Returns (α := α) (list? text?) Json.texts items :=
  returns_listOf_iff.2 fun item _ => returns_text item

/-- Reads the value of a field, and keeps its key. -/
def readEntry (read : Document α → Option β) (field : String × Document α) :
    Option (String × β) := do
  return (field.1, ← read field.2)

theorem readEntry_eq_some_iff {field : String × Document α} {entry : String × β} :
    readEntry read field = some entry ↔ field.1 = entry.1 ∧ read field.2 = some entry.2 := by
  unfold readEntry
  cases hread : read field.2 with
  | none => simp
  | some value => simp [Prod.ext_iff]

theorem table?_record (fields : List (String × Document α)) :
    table? read (.record fields) = (fields.mapM (readEntry read)).map Table.ofList := by
  show (fields.mapM (readEntry read) >>= fun entries => some (Table.ofList entries)) = _
  cases fields.mapM (readEntry read) <;> rfl

theorem keys_of_mapM {fields : List (String × Document α)} {entries : List (String × β)}
    (h : fields.mapM (readEntry read) = some entries) :
    entries.map (·.1) = fields.map (·.1) := by
  induction fields generalizing entries with
  | nil =>
    cases h
    rfl
  | cons field rest ih =>
    rw [List.mapM_cons] at h
    obtain ⟨first, hfirst, h⟩ := Option.bind_eq_some_iff.1 h
    obtain ⟨others, hothers, h⟩ := Option.bind_eq_some_iff.1 h
    cases h
    rw [List.map_cons, List.map_cons, ih hothers, (readEntry_eq_some_iff.1 hfirst).1]

/-- A table comes back if its values do. -/
theorem returns_ofEntries_iff {table : Table β} :
    Returns (table? read) (fun table => Json.ofEntries write table.toList) table ↔
      ∀ key value, table.find? key = some value → Returns read write value := by
  have hread : table? read (ofJson (Json.ofEntries write table.toList))
      = ((table.toList.map fun entry => (entry.1, ofJson (write entry.2))).mapM
          (readEntry read)).map Table.ofList := by
    simp only [Json.ofEntries, ofJson]
    rw [table?_record, ofJsonFields_eq_map, List.map_map]
    rfl
  -- The entries that are read have the keys of the table, so the table can be told from them.
  have hentries : Returns (table? read) (fun table => Json.ofEntries write table.toList) table ↔
      (table.toList.map fun entry => (entry.1, ofJson (write entry.2))).mapM (readEntry read)
        = some table.toList := by
    unfold Returns
    rw [hread]
    constructor
    · intro h
      obtain ⟨entries, hentries, hlist⟩ := Option.map_eq_some_iff.1 h
      have hkeys : entries.map (·.1) = table.toList.map (·.1) := by
        rw [keys_of_mapM hentries, List.map_map]
        rfl
      have heq := ((Table.toList_ofList_eq_iff hkeys).1 (congrArg Table.toList hlist)).2
      rw [hentries, heq]
    · intro h
      rw [h, Option.map_some, Table.ofList_toList]
  rw [hentries, mapM_map_eq_some_iff]
  constructor
  · intro h key value hfind
    exact (readEntry_eq_some_iff.1 (h (key, value) (Table.mem_toList_iff.2 hfind))).2
  · intro h entry hmem
    exact readEntry_eq_some_iff.2 ⟨rfl, h entry.1 entry.2 (Table.mem_toList_iff.1 hmem)⟩

/-! ## Records -/

/-- A record whose fields may be left out. -/
def recordOf (slots : List (String × Option (Json α))) : Json α :=
  .record (slots.flatMap fun slot => (slot.2.map fun value => (slot.1, value)).toList)

theorem optional_eq (name : String) (value : Option β) :
    Json.optional name write value
      = ((value.map write).map fun value => (name, value)).toList := by
  cases value <;> rfl

/-- The fields of a name are those that are written for it. -/
theorem filter_recordOf {slots : List (String × Option (Json α))} (h : (slots.map (·.1)).Nodup)
    {slot : String × Option (Json α)} (hslot : slot ∈ slots) :
    (slots.flatMap fun slot => (slot.2.map fun value => (slot.1, value)).toList).filter
        (fun field => [slot.1].contains field.1)
      = (slot.2.map fun value => (slot.1, value)).toList := by
  induction slots with
  | nil => cases hslot
  | cons first rest ih =>
    obtain ⟨hfirst, hrest⟩ := List.nodup_cons.1 h
    have hother : ∀ slot : String × Option (Json α), slot ∈ rest → slot.1 ≠ first.1 := by
      intro slot hmem heq
      exact hfirst (List.mem_map.2 ⟨slot, hmem, heq⟩)
    rw [List.flatMap_cons, List.filter_append]
    rcases List.mem_cons.1 hslot with rfl | hmem
    · have hnone : (rest.flatMap fun slot => (slot.2.map fun value => (slot.1, value)).toList).filter
          (fun field => [slot.1].contains field.1) = [] := by
        rw [List.filter_eq_nil_iff]
        intro field hfield
        obtain ⟨other, hmem, hfield⟩ := List.mem_flatMap.1 hfield
        cases hvalue : other.2 with
        | none => simp [hvalue] at hfield
        | some value =>
          have hname : field = (other.1, value) := by simpa [hvalue] using hfield
          simp [hname, hother other hmem]
      rw [hnone, List.append_nil]
      cases slot.2 <;> simp
    · rw [ih hrest hmem]
      have hne := (hother slot hmem).symm
      cases first.2 <;> simp [hne]

/-- The slots of a record are its fields, in the order in which they are asked for. -/
theorem slots?_of_eq_recordOf {value : Json α} (slots : List (String × Option (Json α)))
    (hvalue : value = recordOf slots) (h : (slots.map (·.1)).Nodup) :
    slots? (slots.map fun slot => [slot.1]) (ofJson value)
      = some (slots.map fun slot => slot.2.map ofJson) := by
  have hslot : ∀ slot ∈ slots,
      slot? (ofJsonFields (slots.flatMap fun slot =>
        (slot.2.map fun value => (slot.1, value)).toList)) [slot.1] = some (slot.2.map ofJson) := by
    intro slot hmem
    have hfilter := filter_recordOf h hmem
    unfold slot?
    rw [ofJsonFields_eq_map, List.filter_map]
    simp only [Function.comp_def, hfilter]
    cases slot.2 <;> rfl
  subst hvalue
  simp only [recordOf, ofJson, slots?]
  generalize ofJsonFields (slots.flatMap _) = fields at hslot
  clear h
  induction slots with
  | nil => rfl
  | cons first rest ih =>
    obtain ⟨hfirst, hrest⟩ := List.forall_mem_cons.1 hslot
    rw [List.map_cons, List.mapM_cons, hfirst, ih hrest]
    rfl

/-- A field that may be left out comes back if its value does. A value that is written as null
    cannot: null is read as no value. -/
theorem optional_eq_some_iff {value : Option β}
    (hnull : ∀ value, (ofJson (write value)).isNull = true → ¬ Returns read write value) :
    optional read ((value.map write).map ofJson) = some value ↔
      ∀ given, value = some given → Returns read write given := by
  cases value with
  | none => simp [optional]
  | some given =>
    simp only [Option.map_some, optional, Option.some.injEq, forall_eq']
    by_cases h : (ofJson (write given)).isNull = true
    · rw [if_pos h]
      simpa using hnull given h
    · rw [if_neg h]
      simp [Returns]

/-- A text is never written as null. -/
theorem optional_text (value : Option String) :
    optional (α := α) text? ((value.map Json.text).map ofJson) = some value := by
  refine (optional_eq_some_iff fun given hnull => ?_).2 fun given _ => returns_text given
  cases hnull

end Document

end Realm
