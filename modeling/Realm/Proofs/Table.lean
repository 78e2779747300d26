import Mathlib.Data.List.Nodup
import Mathlib.Data.List.Perm.Subperm
import Realm.Proofs.Attempt
import Realm.Table

/-!
# What tables answer

`Realm.Table` says what a look-up answers after an insertion and after an erasure, and that tables
which answer alike are equal. Here is the rest of what the proofs ask of tables: a look-up answers
exactly the entries (`find?_eq_some_iff`), so what is said of the values of a table can be said of
its look-ups, and two tables with the same keys list them alike (`keys_eq`), whatever they hold.
-/

set_option autoImplicit false

namespace Realm

namespace Entries

variable {β γ : Type}

/-- A look-up in sorted entries finds what is there, and nothing else. -/
theorem find?_eq_some_iff {key : String} {value : β} {entries : List (String × β)}
    (h : Sorted entries) : find? key entries = some value ↔ (key, value) ∈ entries := by
  induction entries with
  | nil => simp [find?]
  | cons head rest ih =>
    obtain ⟨hhead, hrest⟩ := List.pairwise_cons.1 h
    by_cases hkey : head.1 = key
    · have hne : (key, value) ∉ rest := by
        intro hmem
        have hlt : head.1 < key := hhead (key, value) hmem
        exact String.lt_irrefl key (hkey ▸ hlt)
      constructor
      · intro hfind
        simp only [find?, hkey, if_true, Option.some.injEq] at hfind
        exact List.mem_cons.2 (.inl (Prod.ext hkey.symm hfind.symm))
      · intro hmem
        rcases List.mem_cons.1 hmem with heq | hmem
        · simp [find?, ← heq]
        · exact absurd hmem hne
    · have hfind : find? key (head :: rest) = find? key rest := by simp [find?, hkey]
      rw [hfind, ih hrest]
      constructor
      · exact List.mem_cons_of_mem _
      · intro hmem
        rcases List.mem_cons.1 hmem with heq | hmem
        · exact absurd (congrArg Prod.fst heq).symm hkey
        · exact hmem

theorem key_lt_key {entries : List (String × β)} (h : Sorted entries) {index other : Nat}
    {entry later : String × β} (hentry : entries[index]? = some entry)
    (hlater : entries[other]? = some later) (hlt : index < other) : entry.1 < later.1 := by
  obtain ⟨hindex, rfl⟩ := List.getElem?_eq_some_iff.1 hentry
  obtain ⟨hother, rfl⟩ := List.getElem?_eq_some_iff.1 hlater
  exact List.pairwise_iff_getElem.1 h index other hindex hother hlt

theorem find?_map (f : String → β → γ) (key : String) (entries : List (String × β)) :
    find? key (entries.map fun entry => (entry.1, f entry.1 entry.2))
      = (find? key entries).map (f key) := by
  induction entries with
  | nil => rfl
  | cons head rest ih =>
    by_cases h : head.1 = key
    · subst h; simp [find?]
    · simpa [find?, h] using ih

end Entries

namespace Table

variable {β γ : Type}

/-! ## Look-ups and entries -/

theorem mem_toList_iff {table : Table β} {key : String} {value : β} :
    (key, value) ∈ table.toList ↔ table.find? key = some value :=
  (Entries.find?_eq_some_iff table.sorted).symm

theorem mem_values_iff {table : Table β} {value : β} :
    value ∈ table.values ↔ ∃ key, table.find? key = some value := by
  unfold values
  constructor
  · intro h
    obtain ⟨entry, hentry, rfl⟩ := List.mem_map.1 h
    exact ⟨entry.1, mem_toList_iff.1 hentry⟩
  · rintro ⟨key, h⟩
    exact List.mem_map.2 ⟨(key, value), mem_toList_iff.2 h, rfl⟩

theorem contains_iff {table : Table β} {key : String} :
    table.contains key = true ↔ ∃ value, table.find? key = some value := by
  unfold contains
  rw [Option.isSome_iff_exists]

theorem contains_eq_false_iff {table : Table β} {key : String} :
    table.contains key = false ↔ table.find? key = none := by
  unfold contains
  simp

theorem contains_of_find? {table : Table β} {key : String} {value : β}
    (h : table.find? key = some value) : table.contains key = true :=
  contains_iff.2 ⟨value, h⟩

@[simp] theorem contains_empty (key : String) : (empty : Table β).contains key = false := rfl

@[simp] theorem contains_insert (table : Table β) (key other : String) (value : β) :
    (table.insert key value).contains other = (decide (key = other) || table.contains other) := by
  unfold contains
  rw [find?_insert]
  by_cases h : key = other <;> simp [h]

@[simp] theorem contains_erase (table : Table β) (key other : String) :
    (table.erase key).contains other = (!decide (key = other) && table.contains other) := by
  unfold contains
  rw [find?_erase]
  by_cases h : key = other <;> simp [h]

theorem contains_of_contains_erase {table : Table β} {key other : String}
    (h : (table.erase key).contains other = true) : table.contains other = true := by
  rw [contains_erase, Bool.and_eq_true] at h
  exact h.2

theorem findD_congr {a b : Table β} {key : String} (fallback : β) (h : a.find? key = b.find? key) :
    a.findD key fallback = b.findD key fallback := by
  unfold findD
  rw [h]

theorem findD_insert (table : Table β) (key other : String) (value fallback : β) :
    (table.insert key value).findD other fallback
      = if key = other then value else table.findD other fallback := by
  unfold findD
  rw [find?_insert]
  by_cases h : key = other <;> simp [h]

theorem find?_map (f : String → β → γ) (table : Table β) (key : String) :
    (table.map f).find? key = (table.find? key).map (f key) :=
  Entries.find?_map f key table.entries

theorem values_map (f : β → γ) (table : Table β) :
    (table.map fun _ => f).values = table.values.map f := by
  unfold map values
  rw [List.map_map, List.map_map]
  rfl

/-! ## Keys -/

theorem keys_map (f : String → β → γ) (table : Table β) : (table.map f).keys = table.keys := by
  unfold map keys
  simp

/-- Tables with the same keys list them in the same order. -/
theorem keys_eq {a : Table β} {b : Table γ} (h : ∀ key, a.contains key = b.contains key) :
    a.keys = b.keys := by
  -- Without their values the two tables answer every look-up alike.
  have hbare : (a.map fun _ _ => ()) = b.map fun _ _ => () := by
    refine ext_find? fun key => ?_
    have hkey := h key
    unfold contains at hkey
    rw [find?_map, find?_map]
    cases ha : a.find? key <;> cases hb : b.find? key <;> simp [ha, hb] at hkey ⊢
  rw [← keys_map (fun _ _ => ()) a, hbare, keys_map]

theorem mem_keys_iff {table : Table β} {key : String} :
    key ∈ table.keys ↔ table.contains key = true := by
  unfold keys
  rw [contains_iff]
  constructor
  · intro h
    obtain ⟨entry, hentry, rfl⟩ := List.mem_map.1 h
    exact ⟨entry.2, mem_toList_iff.1 hentry⟩
  · rintro ⟨value, h⟩
    exact List.mem_map.2 ⟨(key, value), mem_toList_iff.2 h, rfl⟩

theorem keys_eq_iff {a : Table β} {b : Table γ} :
    a.keys = b.keys ↔ ∀ key, a.contains key = b.contains key := by
  refine ⟨fun h key => ?_, keys_eq⟩
  rw [Bool.eq_iff_iff, ← mem_keys_iff, ← mem_keys_iff, h]

/-- Where every value is kept under a name of its own, the keys are the names of the values. -/
theorem keys_eq_map_values {table : Table β} {name : β → String}
    (h : ∀ key value, table.find? key = some value → name value = key) :
    table.keys = table.values.map name := by
  unfold keys values
  rw [List.map_map]
  refine List.map_congr_left fun entry hentry => ?_
  exact (h entry.1 entry.2 (mem_toList_iff.1 hentry)).symm

/-! ## Items under names of their own -/

/-- The table holds the items, each under its name. -/
def Lists (table : Table β) (name : β → String) (items : List β) : Prop :=
  ∀ key item, table.find? key = some item ↔ item ∈ items ∧ name item = key

theorem lists_empty (name : β → String) : (empty : Table β).Lists name [] := by
  intro key item
  simp

section

variable {table : Table β} {name : β → String} {items : List β}

theorem Lists.contains_iff (h : table.Lists name items) {key : String} :
    table.contains key = true ↔ ∃ item ∈ items, name item = key := by
  rw [Table.contains_iff]
  exact exists_congr fun item => h key item

theorem Lists.mem_values_iff (h : table.Lists name items) {item : β} :
    item ∈ table.values ↔ item ∈ items := by
  rw [Table.mem_values_iff]
  constructor
  · rintro ⟨key, hkey⟩
    exact ((h key item).1 hkey).1
  · exact fun hitem => ⟨name item, (h _ item).2 ⟨hitem, rfl⟩⟩

/-- Only the items matter, not their order. -/
theorem Lists.congr (h : table.Lists name items) {others : List β}
    (hitems : ∀ item, item ∈ items ↔ item ∈ others) : table.Lists name others := by
  intro key item
  rw [h key item, hitems item]

/-- One table only holds the items under their names. -/
theorem Lists.unique (h : table.Lists name items) {other : Table β} (hother : other.Lists name items) :
    table = other := by
  refine ext_find? fun key => Option.ext fun item => ?_
  rw [h key item, hother key item]

/-- Items that are changed keep their places if they keep their names. -/
theorem Lists.map (h : table.Lists name items) {change : β → γ} {name' : γ → String}
    (hname : ∀ item, name' (change item) = name item) :
    (table.map fun _ => change).Lists name' (items.map change) := by
  intro key changed
  rw [find?_map, Option.map_eq_some_iff, List.mem_map]
  constructor
  · rintro ⟨item, hfind, rfl⟩
    obtain ⟨hitem, hkey⟩ := (h key item).1 hfind
    exact ⟨⟨item, hitem, rfl⟩, (hname item).trans hkey⟩
  · rintro ⟨⟨item, hitem, rfl⟩, hkey⟩
    exact ⟨item, (h key item).2 ⟨hitem, (hname item).symm.trans hkey⟩, rfl⟩

/-- An item is added under its name, unless the name is that of another one. -/
theorem Lists.insert (h : table.Lists name items) {item : β}
    (hname : ∀ other ∈ items, name other = name item → other = item) :
    (table.insert (name item) item).Lists name (items ++ [item]) := by
  intro key other
  rw [find?_insert, List.mem_append, List.mem_singleton]
  by_cases hkey : name item = key
  · rw [if_pos hkey, Option.some.injEq]
    constructor
    · rintro rfl
      exact ⟨.inr rfl, hkey⟩
    · rintro ⟨hother | rfl, hotherKey⟩
      · exact (hname other hother (hotherKey.trans hkey.symm)).symm
      · rfl
  · rw [if_neg hkey, h key other]
    constructor
    · exact fun hother => ⟨.inl hother.1, hother.2⟩
    · rintro ⟨hother | rfl, hotherKey⟩
      · exact ⟨hother, hotherKey⟩
      · exact absurd hotherKey hkey

theorem Lists.foldl_insert (h : table.Lists name items) (more : List β)
    (hname : ∀ item ∈ items ++ more, ∀ other ∈ items ++ more, name item = name other →
      item = other) :
    (more.foldl (fun all item => all.insert (name item) item) table).Lists name
      (items ++ more) := by
  induction more generalizing table items with
  | nil => simpa using h
  | cons item rest ih =>
    have hmem : item ∈ items ++ item :: rest := by simp
    have hnext := h.insert fun other hother heq =>
      hname other (List.mem_append_left _ hother) item hmem heq
    rw [List.foldl_cons, List.append_cons items item rest]
    exact ih hnext (by simpa using hname)

/-- Of items with names of their own, one more is taken in exactly if its name is new. -/
theorem Lists.decides_insert {ε : Type} (h : table.Lists name items)
    (hitems : (items.map name).Nodup) (item : β) (error : ε) :
    Outcome.Decides ((items ++ [item]).map name).Nodup (Table.Lists · name (items ++ [item]))
      (if table.contains (name item) then .error error
        else .ok (table.insert (name item) item)) := by
  have hnodup : ((items ++ [item]).map name).Nodup ↔ table.contains (name item) = false := by
    rw [List.map_append, List.map_singleton, List.nodup_append_comm, List.singleton_append,
      List.nodup_cons, and_iff_left hitems, ← Bool.not_eq_true, h.contains_iff, List.mem_map]
  by_cases hold : table.contains (name item) = true
  · rw [if_pos hold]
    refine Outcome.decides_error fun hfits => ?_
    rw [hnodup.1 hfits] at hold
    cases hold
  · rw [if_neg hold]
    refine Outcome.decides_ok (hnodup.2 (by simpa using hold)) ?_
    exact h.insert fun other hother heq => absurd (h.contains_iff.2 ⟨other, hother, heq⟩) hold

/-- So it is where the table has something of each item, under a name of its own. -/
theorem find?_insert_iff_exists {noted : Table γ} {value : β → γ}
    (h : ∀ key found, noted.find? key = some found ↔
      ∃ item ∈ items, name item = key ∧ value item = found)
    {item : β} (hname : ∀ other ∈ items, name other ≠ name item) (key : String) (found : γ) :
    (noted.insert (name item) (value item)).find? key = some found ↔
      ∃ other ∈ items ++ [item], name other = key ∧ value other = found := by
  rw [find?_insert]
  by_cases hkey : name item = key
  · rw [if_pos hkey, Option.some.injEq]
    constructor
    · exact fun hfound => ⟨item, by simp, hkey, hfound⟩
    · rintro ⟨other, hother, hotherKey, hfound⟩
      rcases List.mem_append.1 hother with hold | hlast
      · exact absurd (hotherKey.trans hkey.symm) (hname other hold)
      · rw [← List.mem_singleton.1 hlast]
        exact hfound
  · rw [if_neg hkey, h key found]
    constructor
    · exact fun ⟨other, hother, hfound⟩ => ⟨other, List.mem_append_left _ hother, hfound⟩
    · rintro ⟨other, hother, hotherKey, hfound⟩
      rcases List.mem_append.1 hother with hold | hlast
      · exact ⟨other, hold, hotherKey, hfound⟩
      · rw [List.mem_singleton.1 hlast] at hotherKey
        exact absurd hotherKey hkey

/-- Items are indexed by their names exactly if no name occurs twice. -/
theorem decides_index {ε : Type} (name : β → String) (error : β → ε) (items : List β) :
    Outcome.Decides (items.map name).Nodup (Table.Lists · name items)
      (items.foldlM (fun table item => if table.contains (name item) then .error (error item)
        else .ok (table.insert (name item) item)) .empty) := by
  refine Outcome.decides_foldlM (fun done => (done.map name).Nodup)
    (fun done table => Table.Lists table name done) List.nodup_nil (lists_empty name)
    (fun done item hdone => ?_)
    (fun done item before hdone h => h.decides_insert hdone item (error item)) items
  rw [List.map_append] at hdone
  exact hdone.of_append_left

end

/-! ## Sizes -/

theorem nodup_keys (table : Table β) : table.keys.Nodup := by
  have hsorted : table.keys.Pairwise (· < ·) := List.pairwise_map.2 table.sorted
  refine hsorted.imp fun {key other} hlt heq => ?_
  exact String.lt_irrefl key (heq ▸ hlt)

theorem nodup_values {table : Table β} {name : β → String}
    (h : ∀ key value, table.find? key = some value → name value = key) : table.values.Nodup := by
  have hkeys := nodup_keys table
  rw [keys_eq_map_values h] at hkeys
  exact List.Nodup.of_map _ hkeys

theorem length_keys (table : Table β) : table.keys.length = table.size := List.length_map _

/-- A table with fewer keys is smaller. -/
theorem size_le {a : Table β} {b : Table γ}
    (h : ∀ key, a.contains key = true → b.contains key = true) : a.size ≤ b.size := by
  rw [← length_keys, ← length_keys]
  refine (List.subperm_of_subset a.nodup_keys fun key hkey => ?_).length_le
  exact mem_keys_iff.2 (h key (mem_keys_iff.1 hkey))

theorem size_erase_lt {table : Table β} {key : String} (h : table.contains key = true) :
    (table.erase key).size < table.size := by
  have hgone : key ∉ (table.erase key).keys := by
    intro hmem
    have hfind := mem_keys_iff.1 hmem
    unfold contains at hfind
    rw [find?_erase, if_pos rfl] at hfind
    cases hfind
  have hsub : key :: (table.erase key).keys ⊆ table.keys := by
    intro other hother
    rcases List.mem_cons.1 hother with rfl | hother
    · exact mem_keys_iff.2 h
    · exact mem_keys_iff.2 (contains_of_contains_erase (mem_keys_iff.1 hother))
  have hlength :=
    (List.subperm_of_subset (List.nodup_cons.2 ⟨hgone, nodup_keys _⟩) hsub).length_le
  rw [List.length_cons, length_keys, length_keys] at hlength
  exact hlength

end Table

end Realm
