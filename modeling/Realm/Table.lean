/-!
# Tables: finite maps keyed by text

Everything the rules look up by name — resources, bounds, tiers, buildings, skips — sits in a
`Table`: a list of entries in strictly increasing order of their keys. The order is the order of
code points, which is also the order of the encoded bytes, and it is part of the meaning of a
table: costs are paid, tier tracks visited and records written in it.

The order is carried by the type. A table therefore has one representation per meaning, two tables
that answer every look-up alike are equal (`Table.ext_find?`), and a table written out and read
back is the same table (`Table.ofList_toList`).

Sets of names are tables without values (`Names`).
-/

set_option autoImplicit false

namespace Realm

/-! ## Entries in key order -/

namespace Entries

variable {β γ : Type}

/-- The order of entries: strictly by key. -/
abbrev Sorted (entries : List (String × β)) : Prop :=
  entries.Pairwise (fun a b => a.1 < b.1)

/-- Puts an entry in its place and replaces the one that had the key. -/
def insert (key : String) (value : β) : List (String × β) → List (String × β)
  | [] => [(key, value)]
  | entry :: rest =>
    if key < entry.1 then (key, value) :: entry :: rest
    else if key = entry.1 then (key, value) :: rest
    else entry :: insert key value rest

/-- Drops the entry with the key. -/
def erase (key : String) (entries : List (String × β)) : List (String × β) :=
  entries.filter (fun entry => entry.1 != key)

/-- The value at the key. -/
def find? (key : String) : List (String × β) → Option β
  | [] => none
  | entry :: rest => if entry.1 = key then some entry.2 else find? key rest

theorem key_of_mem_insert {key : String} {value : β} {entries : List (String × β)}
    {entry : String × β} (h : entry ∈ insert key value entries) :
    entry.1 = key ∨ entry ∈ entries := by
  induction entries with
  | nil => simp_all [insert]
  | cons head rest ih =>
    simp only [insert] at h
    split at h
    · simp_all only [List.mem_cons]
      rcases h with rfl | h
      · exact .inl rfl
      · exact .inr h
    · split at h
      · rcases List.mem_cons.1 h with rfl | h
        · exact .inl rfl
        · exact .inr (List.mem_cons_of_mem _ h)
      · simp only [List.mem_cons] at h ⊢
        rcases h with rfl | h
        · exact .inr (.inl rfl)
        · exact (ih h).imp id .inr

theorem sorted_insert (key : String) (value : β) {entries : List (String × β)}
    (h : Sorted entries) : Sorted (insert key value entries) := by
  induction entries with
  | nil => simp [insert, Sorted]
  | cons head rest ih =>
    obtain ⟨hHead, hRest⟩ := List.pairwise_cons.1 h
    simp only [insert]
    split
    · rename_i hlt
      refine List.pairwise_cons.2 ⟨fun a ha => ?_, h⟩
      rcases List.mem_cons.1 ha with rfl | ha
      · exact hlt
      · exact String.lt_trans hlt (hHead a ha)
    · rename_i hnlt
      split
      · rename_i heq
        exact List.pairwise_cons.2 ⟨fun a ha => heq ▸ hHead a ha, hRest⟩
      · rename_i hne
        refine List.pairwise_cons.2 ⟨fun a ha => ?_, ih hRest⟩
        rcases key_of_mem_insert ha with heq | ha
        · have hle : head.1 ≤ key := String.not_lt.1 hnlt
          rw [heq]
          refine String.not_le.1 fun hge => hne (String.le_antisymm hge hle)
        · exact hHead a ha

theorem sorted_erase (key : String) {entries : List (String × β)} (h : Sorted entries) :
    Sorted (erase key entries) :=
  List.Pairwise.filter _ h

theorem find?_insert (key other : String) (value : β) (entries : List (String × β)) :
    find? other (insert key value entries)
      = if key = other then some value else find? other entries := by
  induction entries with
  | nil => simp [insert, find?]
  | cons head rest ih =>
    simp only [insert]
    split
    · simp [find?]
    · split
      · rename_i heq
        by_cases hko : key = other <;> simp_all [find?]
      · rename_i hne
        by_cases hho : head.1 = other
        · have : key ≠ other := fun h => hne (h.trans hho.symm)
          simp [find?, hho, this]
        · simp [find?, hho, ih]

theorem find?_erase (key other : String) (entries : List (String × β)) :
    find? other (erase key entries) = if key = other then none else find? other entries := by
  induction entries with
  | nil => simp [erase, find?]
  | cons head rest ih =>
    by_cases hk : head.1 = key
    · have hdrop : erase key (head :: rest) = erase key rest := by simp [erase, hk]
      rw [hdrop, ih]
      by_cases hko : key = other
      · simp [hko]
      · have : head.1 ≠ other := fun h => hko (hk.symm.trans h)
        simp [find?, hko, this]
    · have hkeep : erase key (head :: rest) = head :: erase key rest := by simp [erase, hk]
      rw [hkeep]
      by_cases hho : head.1 = other
      · have : key ≠ other := fun h => hk (hho.trans h.symm)
        simp [find?, hho, this]
      · simp [find?, hho, ih]

/-- Above the least key nothing is found at smaller keys. -/
theorem find?_eq_none_of_lt {key : String} {entries : List (String × β)}
    (h : ∀ entry ∈ entries, key < entry.1) : find? key entries = none := by
  induction entries with
  | nil => rfl
  | cons head rest ih =>
    have hne : head.1 ≠ key := fun heq =>
      String.lt_irrefl key (heq ▸ h head (List.mem_cons_self ..))
    simp [find?, hne, ih fun e he => h e (List.mem_cons_of_mem _ he)]

/-- Sorted entries are determined by what they answer. -/
theorem ext_find? {xs ys : List (String × β)} (hx : Sorted xs) (hy : Sorted ys)
    (h : ∀ key, find? key xs = find? key ys) : xs = ys := by
  induction xs generalizing ys with
  | nil =>
    cases ys with
    | nil => rfl
    | cons y ys => simpa [find?] using h y.1
  | cons x xs ih =>
    cases ys with
    | nil => simpa [find?] using h x.1
    | cons y ys =>
      obtain ⟨hxHead, hxRest⟩ := List.pairwise_cons.1 hx
      obtain ⟨hyHead, hyRest⟩ := List.pairwise_cons.1 hy
      have hkey : x.1 = y.1 := by
        apply Classical.byContradiction
        intro hne
        rcases Classical.em (x.1 < y.1) with hlt | hnlt
        · have hleft := h x.1
          have hnone : find? x.1 (y :: ys) = none := find?_eq_none_of_lt fun e he => by
            rcases List.mem_cons.1 he with rfl | he
            · exact hlt
            · exact String.lt_trans hlt (hyHead e he)
          rw [hnone] at hleft
          simp [find?] at hleft
        · have hgt : y.1 < x.1 :=
            String.not_le.1 fun hle => hne (String.le_antisymm hle (String.not_lt.1 hnlt))
          have hright := h y.1
          have hnone : find? y.1 (x :: xs) = none := find?_eq_none_of_lt fun e he => by
            rcases List.mem_cons.1 he with rfl | he
            · exact hgt
            · exact String.lt_trans hgt (hxHead e he)
          rw [hnone] at hright
          simp [find?] at hright
      have hvalue : x.2 = y.2 := by
        have := h x.1
        simpa [find?, hkey] using this
      have hrest : xs = ys := by
        refine ih hxRest hyRest fun key => ?_
        by_cases hk : x.1 = key
        · subst hk
          rw [find?_eq_none_of_lt hxHead, find?_eq_none_of_lt (hkey ▸ hyHead)]
        · have := h key
          have hk' : y.1 ≠ key := hkey ▸ hk
          simpa [find?, hk, hk'] using this
      rw [hrest, Prod.ext hkey hvalue]

theorem insert_eq_append {key : String} {value : β} {entries : List (String × β)}
    (h : ∀ entry ∈ entries, entry.1 < key) :
    insert key value entries = entries ++ [(key, value)] := by
  induction entries with
  | nil => rfl
  | cons head rest ih =>
    have hlt : head.1 < key := h head (List.mem_cons_self ..)
    have hnlt : ¬ key < head.1 := fun hgt => String.lt_irrefl key (String.lt_trans hgt hlt)
    have hne : key ≠ head.1 := fun heq => String.lt_irrefl head.1 (heq ▸ hlt)
    simp [insert, hnlt, hne, ih fun e he => h e (List.mem_cons_of_mem _ he)]

end Entries

/-! ## Tables -/

/-- A finite map from text to `β`, its entries in key order. -/
structure Table (β : Type) where
  entries : List (String × β)
  sorted : Entries.Sorted entries := by simp
  deriving DecidableEq

namespace Table

variable {β γ : Type}

/-- No entries. -/
def empty : Table β := { entries := [] }

instance : Inhabited (Table β) := ⟨empty⟩

def toList (table : Table β) : List (String × β) := table.entries

def keys (table : Table β) : List String := table.entries.map (·.1)

def values (table : Table β) : List β := table.entries.map (·.2)

def size (table : Table β) : Nat := table.entries.length

def isEmpty (table : Table β) : Bool := table.entries.isEmpty

/-- The value at a key. -/
def find? (table : Table β) (key : String) : Option β := Entries.find? key table.entries

def findD (table : Table β) (key : String) (fallback : β) : β := (table.find? key).getD fallback

def contains (table : Table β) (key : String) : Bool := (table.find? key).isSome

/-- Sets the value at a key; the last write wins. -/
def insert (table : Table β) (key : String) (value : β) : Table β :=
  ⟨Entries.insert key value table.entries, Entries.sorted_insert key value table.sorted⟩

/-- Forgets a key. -/
def erase (table : Table β) (key : String) : Table β :=
  ⟨Entries.erase key table.entries, Entries.sorted_erase key table.sorted⟩

/-- Reads a list of entries in any order; of several with one key the last wins. -/
def ofList (entries : List (String × β)) : Table β :=
  entries.foldl (fun table entry => table.insert entry.1 entry.2) empty

/-- Applies a function to every value, with its key. -/
def map (f : String → β → γ) (table : Table β) : Table γ :=
  ⟨table.entries.map (fun entry => (entry.1, f entry.1 entry.2)),
    List.pairwise_map.2 table.sorted⟩

/-- Keeps the entries that pass a test. -/
def filter (keep : String → β → Bool) (table : Table β) : Table β :=
  ⟨table.entries.filter (fun entry => keep entry.1 entry.2), List.Pairwise.filter _ table.sorted⟩

@[simp] theorem find?_empty (key : String) : (empty : Table β).find? key = none := rfl

@[simp] theorem find?_insert (table : Table β) (key other : String) (value : β) :
    (table.insert key value).find? other
      = if key = other then some value else table.find? other :=
  Entries.find?_insert key other value table.entries

@[simp] theorem find?_erase (table : Table β) (key other : String) :
    (table.erase key).find? other = if key = other then none else table.find? other :=
  Entries.find?_erase key other table.entries

/-- Tables that answer every look-up alike are equal. -/
theorem ext_find? {a b : Table β} (h : ∀ key, a.find? key = b.find? key) : a = b := by
  cases a with
  | mk xs hx =>
    cases b with
    | mk ys hy =>
      have : xs = ys := Entries.ext_find? hx hy h
      subst this
      rfl

/-- Writing a table out and reading it back changes nothing. -/
theorem ofList_toList (table : Table β) : ofList table.toList = table := by
  have key : ∀ (rest : List (String × β)) (done : Table β),
      Entries.Sorted (done.entries ++ rest) →
      (rest.foldl (fun t e => t.insert e.1 e.2) done).entries = done.entries ++ rest := by
    intro rest
    induction rest with
    | nil => simp
    | cons e rest ih =>
      intro done hsorted
      have hlast : Entries.insert e.1 e.2 done.entries = done.entries ++ [e] :=
        Entries.insert_eq_append fun d hd =>
          (List.pairwise_append.1 hsorted).2.2 d hd e (List.mem_cons_self ..)
      have hstep : (done.insert e.1 e.2).entries = done.entries ++ [e] := hlast
      rw [List.foldl_cons, ih (done.insert e.1 e.2) (by simpa [hstep] using hsorted), hstep]
      simp
  have h := key table.entries empty (by simpa [empty] using table.sorted)
  cases table with
  | mk entries sorted =>
    simp only [ofList, toList] at *
    generalize hfold : List.foldl _ _ _ = t at *
    cases t
    simp_all [empty]

end Table

/-! ## Sets of names -/

/-- A finite set of names, in key order. -/
abbrev Names := Table Unit

namespace Names

/-- Reads a list of names in any order, repetitions included. -/
def ofList (names : List String) : Names := Table.ofList (names.map (·, ()))

def toList (names : Names) : List String := names.keys

/-- The set with one more name. -/
def add (names : Names) (name : String) : Names := names.insert name ()

end Names

end Realm
