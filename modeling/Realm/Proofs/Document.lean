import Mathlib.Data.List.Basic
import Realm.Effect.Instruction
import Realm.Proofs.Table

/-!
# What stands inside a document

The parameters of an effect are read as a document, and a passive written there has effects with
parameters of their own. Reading goes inwards: what a reader of records takes out of a document is
lighter than the document (`Document.lt_of_slots?`), so the effects of a passive that is written in
an effect's parameters have lighter parameters than the effect (`Effect.weight_lt_of_inline`).
-/

set_option autoImplicit false

namespace Realm

variable {α : Type}

/-! ## Weights -/

namespace Json

mutual

/-- How many values a value is made of. -/
def weight : Json α → Nat
  | .list items => weightItems items + 1
  | .record fields => weightFields fields + 1
  | .null | .bool _ | .integer _ | .number _ | .text _ => 1

def weightItems : List (Json α) → Nat
  | [] => 0
  | item :: rest => weight item + weightItems rest

def weightFields : List (String × Json α) → Nat
  | [] => 0
  | (_, value) :: rest => weight value + weightFields rest

end

end Json

namespace Document

mutual

/-- How many documents a document is made of. -/
def weight : Document α → Nat
  | .list _ items => weightItems items + 1
  | .record fields => weightFields fields + 1
  | .null | .bool _ | .integer _ | .number _ | .text _ | .plain _ => 1

def weightItems : List (Document α) → Nat
  | [] => 0
  | item :: rest => weight item + weightItems rest

def weightFields : List (String × Document α) → Nat
  | [] => 0
  | (_, value) :: rest => weight value + weightFields rest

end

mutual

theorem weight_ofJson : (value : Json α) → (ofJson value).weight = value.weight
  | .null => rfl
  | .bool _ => rfl
  | .integer _ => rfl
  | .number _ => rfl
  | .text _ => rfl
  | .list items => congrArg (· + 1) (weightItems_ofJson items)
  | .record fields => congrArg (· + 1) (weightFields_ofJson fields)

theorem weightItems_ofJson :
    (items : List (Json α)) → weightItems (ofJsonItems items) = Json.weightItems items
  | [] => rfl
  | item :: rest => congrArg₂ (· + ·) (weight_ofJson item) (weightItems_ofJson rest)

theorem weightFields_ofJson :
    (fields : List (String × Json α)) →
      weightFields (ofJsonFields fields) = Json.weightFields fields
  | [] => rfl
  | (_, value) :: rest => congrArg₂ (· + ·) (weight_ofJson value) (weightFields_ofJson rest)

end

theorem weight_le_of_mem {item : Document α} {items : List (Document α)} (h : item ∈ items) :
    item.weight ≤ weightItems items := by
  induction items with
  | nil => cases h
  | cons first rest ih =>
    unfold weightItems
    rcases List.mem_cons.1 h with rfl | h
    · omega
    · have hrest := ih h
      omega

theorem weight_le_of_mem_fields {field : String × Document α}
    {fields : List (String × Document α)} (h : field ∈ fields) :
    field.2.weight ≤ weightFields fields := by
  induction fields with
  | nil => cases h
  | cons first rest ih =>
    unfold weightFields
    rcases List.mem_cons.1 h with rfl | h
    · omega
    · have hrest := ih h
      omega

end Document

theorem Json.weightFields_insert_le (key : String) (value : Json α)
    (fields : List (String × Json α)) :
    weightFields (Entries.insert key value fields) ≤ value.weight + weightFields fields := by
  induction fields with
  | nil => exact Nat.le_refl _
  | cons first rest ih =>
    unfold Entries.insert
    split
    · exact Nat.le_refl _
    · split
      · simp only [weightFields]
        omega
      · simp only [weightFields]
        omega

theorem Json.weightFields_ofList_le (fields : List (String × Json α)) :
    weightFields (Table.ofList fields).toList ≤ weightFields fields := by
  -- The fold starts from a table that may hold fields already.
  have hfold : ∀ table : Table (Json α),
      weightFields (fields.foldl (fun table entry => table.insert entry.1 entry.2) table).toList
        ≤ weightFields table.toList + weightFields fields := by
    induction fields with
    | nil => exact fun table => Nat.le_refl _
    | cons first rest ih =>
      intro table
      have hrest := ih (table.insert first.1 first.2)
      have hinsert : weightFields (table.insert first.1 first.2).toList
          ≤ first.2.weight + weightFields table.toList := weightFields_insert_le _ _ _
      rw [List.foldl_cons]
      simp only [weightFields]
      omega
  exact Nat.le_trans (hfold .empty) (Nat.le_of_eq (Nat.zero_add _))

namespace Document

variable [Amount α]

theorem weight_resolve (text : String) : (resolve text : Json α).weight = 1 := by
  unfold resolve
  repeat' split
  all_goals try rfl
  unfold Json.amount
  split <;> rfl

mutual

/-- Resolving scalars and sorting fields makes nothing heavier. -/
theorem weight_toJson_le : (document : Document α) → document.toJson.weight ≤ document.weight
  | .null => Nat.le_refl _
  | .bool _ => Nat.le_refl _
  | .integer _ => Nat.le_refl _
  | .number _ => Nat.le_refl _
  | .text _ => Nat.le_refl _
  | .plain value => Nat.le_of_eq (weight_resolve value)
  | .list _ items => Nat.succ_le_succ (weightItems_toJson_le items)
  | .record fields =>
    Nat.succ_le_succ
      (Nat.le_trans (Json.weightFields_ofList_le _) (weightFields_toJson_le fields))

theorem weightItems_toJson_le : (items : List (Document α)) →
    Json.weightItems (toJsonItems items) ≤ weightItems items
  | [] => Nat.le_refl _
  | item :: rest => Nat.add_le_add (weight_toJson_le item) (weightItems_toJson_le rest)

theorem weightFields_toJson_le : (fields : List (String × Document α)) →
    Json.weightFields (toJsonFields fields) ≤ weightFields fields
  | [] => Nat.le_refl _
  | (_, value) :: rest => Nat.add_le_add (weight_toJson_le value) (weightFields_toJson_le rest)

end

omit [Amount α] in
theorem weight_pos (document : Document α) : 0 < document.weight := by
  cases document <;> simp [weight]

/-! ## Reading inwards -/

omit [Amount α] in
theorem mem_of_mapM {β γ : Type} {read : β → Option γ} {items : List β} {values : List γ}
    (h : items.mapM read = some values) {value : γ} (hvalue : value ∈ values) :
    ∃ item ∈ items, read item = some value := by
  induction items generalizing values with
  | nil =>
    rw [List.mapM_nil] at h
    cases h
    cases hvalue
  | cons first rest ih =>
    rw [List.mapM_cons] at h
    obtain ⟨head, hhead, h⟩ := Option.bind_eq_some_iff.1 h
    obtain ⟨others, hothers, h⟩ := Option.bind_eq_some_iff.1 h
    cases h
    rcases List.mem_cons.1 hvalue with rfl | hvalue
    · exact ⟨first, List.mem_cons_self, hhead⟩
    · obtain ⟨item, hitem, hread⟩ := ih hothers hvalue
      exact ⟨item, List.mem_cons_of_mem _ hitem, hread⟩

omit [Amount α] in
theorem lt_of_list? {β : Type} {read : Document α → Option β} {document : Document α}
    {values : List β} (h : document.list? read = some values) {value : β}
    (hvalue : value ∈ values) :
    ∃ item, item.weight < document.weight ∧ read item = some value := by
  unfold list? at h
  split at h
  · obtain ⟨item, hitem, hread⟩ := mem_of_mapM h hvalue
    exact ⟨item, Nat.lt_succ_of_le (weight_le_of_mem hitem), hread⟩
  · cases h
    cases hvalue
  · cases h

omit [Amount α] in
theorem lt_of_slots? {names : List (List String)} {document : Document α}
    {slots : List (Option (Document α))} (h : document.slots? names = some slots)
    {slot : Document α} (hslot : some slot ∈ slots) : slot.weight < document.weight := by
  unfold slots? at h
  split at h
  · -- A record has one field, or none, for the spellings of a name.
    obtain ⟨spellings, -, hread⟩ := mem_of_mapM h hslot
    unfold slot? at hread
    split at hread
    · cases hread
    · rename_i field hfield
      cases hread
      have hmem := List.mem_of_mem_filter (hfield ▸ List.mem_singleton.2 rfl)
      exact Nat.lt_succ_of_le (weight_le_of_mem_fields hmem)
    · cases hread
  · -- A list gives its items in order, and leaves the slots after them empty.
    split at h
    · cases h
      rcases List.mem_append.1 hslot with hmem | hmem
      · obtain ⟨item, hitem, heq⟩ := List.mem_map.1 hmem
        cases heq
        exact Nat.lt_succ_of_le (weight_le_of_mem hitem)
      · cases List.eq_of_mem_replicate hmem
    · cases h
  · cases h
    obtain ⟨name, -, heq⟩ := List.mem_map.1 hslot
    cases heq
  · cases h

end Document

/-! ## Passives inside parameters -/

variable [Amount α]

theorem Effect.weight_le_of_ofDocument? {document : Document α} {effect : Effect α}
    (h : Effect.ofDocument? document = some effect) : effect.params.weight ≤ document.weight := by
  unfold Effect.ofDocument? at h
  obtain ⟨slots, hslots, h⟩ := Option.bind_eq_some_iff.1 h
  split at h
  · rename_i family method params note times
    obtain ⟨_, -, h⟩ := Option.bind_eq_some_iff.1 h
    obtain ⟨_, -, h⟩ := Option.bind_eq_some_iff.1 h
    obtain ⟨value, hvalue, h⟩ := Option.bind_eq_some_iff.1 h
    obtain ⟨_, -, h⟩ := Option.bind_eq_some_iff.1 h
    obtain ⟨_, -, h⟩ := Option.bind_eq_some_iff.1 h
    cases h
    cases params with
    | none =>
      cases hvalue
      exact document.weight_pos
    | some params =>
      cases hvalue
      have hjson := Document.weight_toJson_le params
      have hmem : some params ∈ [family, method, some params, note, times] := by simp
      exact Nat.le_trans hjson (Nat.le_of_lt (Document.lt_of_slots? hslots hmem))
  · cases h

theorem Passive.weight_lt_of_ofDocument? {document : Document α} {passive : Passive α}
    (h : Passive.ofDocument? document = some passive) {effect : Effect α}
    (heffect : effect ∈ passive.effects) : effect.params.weight < document.weight := by
  unfold Passive.ofDocument? at h
  obtain ⟨slots, hslots, h⟩ := Option.bind_eq_some_iff.1 h
  split at h
  · rename_i id name icon detail effects onPhase removeOnPhase
    obtain ⟨_, -, h⟩ := Option.bind_eq_some_iff.1 h
    obtain ⟨_, -, h⟩ := Option.bind_eq_some_iff.1 h
    obtain ⟨_, -, h⟩ := Option.bind_eq_some_iff.1 h
    obtain ⟨_, -, h⟩ := Option.bind_eq_some_iff.1 h
    obtain ⟨written, hwritten, h⟩ := Option.bind_eq_some_iff.1 h
    obtain ⟨_, -, h⟩ := Option.bind_eq_some_iff.1 h
    obtain ⟨_, -, h⟩ := Option.bind_eq_some_iff.1 h
    cases h
    cases effects with
    | none =>
      cases hwritten
      cases heffect
    | some effects =>
      obtain ⟨item, hitem, hread⟩ := Document.lt_of_list? hwritten heffect
      have hweight := Effect.weight_le_of_ofDocument? hread
      have hmem : some effects ∈
          [id, name, icon, detail, some effects, onPhase, removeOnPhase] := by simp
      have houter := Document.lt_of_slots? hslots hmem
      omega
  · cases h

theorem Effect.weight_lt_of_inline {effect inner : Effect α} {passive : Passive α}
    (h : effect.readParams Passive.ofDocument? = .ok passive) (hinner : inner ∈ passive.effects) :
    inner.params.weight < effect.params.weight := by
  unfold Effect.readParams at h
  split at h
  · rename_i value hread
    cases h
    rw [← Document.weight_ofJson effect.params]
    exact Passive.weight_lt_of_ofDocument? hread hinner
  · cases h

end Realm
