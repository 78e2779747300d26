import Mathlib.Data.List.Destutter
import Realm.Catalog
import Realm.Proofs.Table

/-!
# Order by place and id

What is shown is ordered by place first and by id among equals. Sorting by this order puts what has
the same id and place side by side, so dropping repetitions that stand side by side drops them all;
that is how the listed children of a group come into order, each once (`mem_inOrder_iff`,
`pairwise_inOrder`).
-/

set_option autoImplicit false

namespace Realm

variable {α : Type}

/-- Where a resource is shown. -/
def Resource.place (resource : Resource α) : Int × String := (resource.order, resource.id)

/-- Where a group is shown. -/
def Group.place (group : Group) : Int × String := (group.order, group.id)

namespace Catalog

/-! ## The order -/

/-- Strictly by place, then by id. -/
def Before (a b : Int × String) : Prop := a.1 < b.1 ∨ a.1 = b.1 ∧ a.2 < b.2

theorem precedes_iff {a b : Int × String} :
    precedes a b = true ↔ a.1 < b.1 ∨ a.1 = b.1 ∧ a.2 ≤ b.2 := by
  unfold precedes
  simp only [Bool.or_eq_true, Bool.and_eq_true, decide_eq_true_eq, beq_iff_eq, Bool.not_eq_true',
    decide_eq_false_iff_not, String.not_lt]

theorem precedes_trans (a b c : Int × String) (hab : precedes a b = true)
    (hbc : precedes b c = true) : precedes a c = true := by
  rw [precedes_iff] at *
  rcases hab with hab | ⟨hab, hle⟩
  · rcases hbc with hbc | ⟨hbc, -⟩
    · exact .inl (by omega)
    · exact .inl (by omega)
  · rcases hbc with hbc | ⟨hbc, hle'⟩
    · exact .inl (by omega)
    · exact .inr ⟨hab.trans hbc, String.le_trans hle hle'⟩

theorem precedes_total (a b : Int × String) : (precedes a b || precedes b a) = true := by
  rw [Bool.or_eq_true, precedes_iff, precedes_iff]
  rcases Int.lt_trichotomy a.1 b.1 with hlt | heq | hgt
  · exact .inl (.inl hlt)
  · rcases String.le_total a.2 b.2 with hle | hle
    · exact .inl (.inr ⟨heq, hle⟩)
    · exact .inr (.inr ⟨heq.symm, hle⟩)
  · exact .inr (.inl hgt)

theorem precedes_antisymm {a b : Int × String} (hab : precedes a b = true)
    (hba : precedes b a = true) : a = b := by
  rw [precedes_iff] at hab hba
  rcases hab with hab | ⟨hab, hle⟩
  · rcases hba with hba | ⟨hba, -⟩
    · omega
    · omega
  · rcases hba with hba | ⟨-, hle'⟩
    · omega
    · exact Prod.ext hab (String.le_antisymm hle hle')

theorem before_of_precedes {a b : Int × String} (h : precedes a b = true) (hne : a ≠ b) :
    Before a b := by
  rcases precedes_iff.1 h with hlt | ⟨heq, hle⟩
  · exact .inl hlt
  · refine .inr ⟨heq, String.not_le.1 fun hge => hne ?_⟩
    exact Prod.ext heq (String.le_antisymm hle hge)

/-- Sorting does not compute in a proof, but two items are put in order by one comparison. -/
theorem mergeSort_pair {β : Type} (le : β → β → Bool) (a b : β) :
    [a, b].mergeSort le = if le a b then [a, b] else [b, a] := by
  rw [List.mergeSort]
  simp [List.MergeSort.Internal.splitInTwo, List.merge]

/-! ## Repetitions -/

section

variable {β : Type} [DecidableEq β]

theorem eraseReps_eq_destutter (items : List β) :
    items.eraseReps = items.destutter (· ≠ ·) := by
  -- The loop keeps the item that it may meet again, and what it has passed, the last first.
  have hloop : ∀ (rest : List β) (item : β) (passed : List β),
      List.eraseRepsBy.loop (fun x y => x == y) item rest passed
        = passed.reverse ++ rest.destutter' (· ≠ ·) item := by
    intro rest
    induction rest with
    | nil => simp [List.eraseRepsBy.loop]
    | cons next rest ih =>
      intro item passed
      unfold List.eraseRepsBy.loop
      by_cases heq : item = next
      · subst heq
        simp [ih, List.destutter']
      · have hne : (item == next) = false := by simpa using heq
        simp [heq, hne, ih, List.destutter']
  cases items with
  | nil => rfl
  | cons item rest => exact hloop rest item []

/-- In a list that is in order, equal items stand side by side. -/
theorem eraseReps_eq_dedup {ordered : β → β → Prop} [Std.Antisymm ordered] {items : List β}
    (h : items.Pairwise ordered) : items.eraseReps = items.dedup := by
  rw [eraseReps_eq_destutter, h.destutter_eq_dedup]

theorem eraseDups_of_nodup {items : List β} (h : items.Nodup) : items.eraseDups = items := by
  induction items with
  | nil => rfl
  | cons item rest ih =>
    obtain ⟨hnew, hrest⟩ := List.nodup_cons.1 h
    rw [List.eraseDups_cons, List.filter_eq_self.2, ih hrest]
    intro other hother
    have hne : other ≠ item := fun heq => hnew (heq ▸ hother)
    simpa using hne

end

/-! ## Children in order -/

/-- Resources are kept under their ids. -/
def Keyed (definitions : Table (Resource α)) : Prop :=
  ∀ id resource, definitions.find? id = some resource → resource.id = id

/-- The place of a resource, and its id. -/
def placeOf (definitions : Table (Resource α)) (id : String) : Int × String :=
  (((definitions.find? id).map (·.order)).getD 0, id)

/-- Whether a resource is shown before another, or is it. -/
def shownBefore (definitions : Table (Resource α)) (a b : String) : Bool :=
  precedes (placeOf definitions a) (placeOf definitions b)

instance (definitions : Table (Resource α)) :
    Std.Antisymm fun a b => shownBefore definitions a b = true where
  antisymm _ _ hab hba := congrArg Prod.snd (precedes_antisymm hab hba)

theorem pairwise_mergeSort_shownBefore (definitions : Table (Resource α)) (ids : List String) :
    (ids.mergeSort (shownBefore definitions)).Pairwise fun a b =>
      shownBefore definitions a b = true := by
  refine List.pairwise_mergeSort ?_ ?_ ids
  · exact fun _ _ _ => precedes_trans _ _ _
  · exact fun _ _ => precedes_total _ _

/-- The registered ones of the listed children. -/
theorem map_filterMap_find? {definitions : Table (Resource α)} (hkeyed : Keyed definitions)
    (childIds : List String) :
    (childIds.filterMap definitions.find?).map Resource.place
      = (childIds.filter definitions.contains).map (placeOf definitions) := by
  induction childIds with
  | nil => rfl
  | cons id rest ih =>
    cases hfind : definitions.find? id with
    | none => simp [hfind, ih, Table.contains]
    | some resource =>
      simp [hfind, ih, Table.contains, placeOf, Resource.place, hkeyed id resource hfind]

theorem inOrder_eq {definitions : Table (Resource α)} (hkeyed : Keyed definitions)
    (childIds : List String) : inOrder definitions childIds =
      ((childIds.filter definitions.contains).mergeSort (shownBefore definitions)).dedup := by
  have hsort : ((childIds.filter definitions.contains).map (placeOf definitions)).mergeSort precedes
      = ((childIds.filter definitions.contains).mergeSort (shownBefore definitions)).map
        (placeOf definitions) := by
    rw [List.map_mergeSort (s := precedes)]
    exact fun _ _ _ _ => rfl
  have hids : ((·.2) ∘ placeOf definitions : String → String) = id := rfl
  calc inOrder definitions childIds
      = ((((childIds.filterMap definitions.find?).map Resource.place).mergeSort precedes).map
          (·.2)).eraseReps := rfl
    _ = ((childIds.filter definitions.contains).mergeSort (shownBefore definitions)).eraseReps := by
        rw [map_filterMap_find? hkeyed, hsort, List.map_map, hids, List.map_id]
    _ = _ := eraseReps_eq_dedup (pairwise_mergeSort_shownBefore definitions _)

theorem mem_inOrder_iff {definitions : Table (Resource α)} (hkeyed : Keyed definitions)
    {childIds : List String} {id : String} :
    id ∈ inOrder definitions childIds ↔ id ∈ childIds ∧ definitions.contains id = true := by
  rw [inOrder_eq hkeyed, List.mem_dedup, List.mem_mergeSort, List.mem_filter]

theorem nodup_inOrder {definitions : Table (Resource α)} (hkeyed : Keyed definitions)
    (childIds : List String) : (inOrder definitions childIds).Nodup := by
  rw [inOrder_eq hkeyed]
  exact List.nodup_dedup _

/-- The children in order are resources strictly by place and id. -/
theorem inOrder_members {definitions : Table (Resource α)} (hkeyed : Keyed definitions)
    (childIds : List String) : ∃ members : List (Resource α),
      inOrder definitions childIds = members.map (·.id) ∧
      (∀ resource, resource ∈ members ↔
        resource.id ∈ childIds ∧ definitions.find? resource.id = some resource) ∧
      members.Pairwise fun a b => Before a.place b.place := by
  have hknown : (inOrder definitions childIds).filter definitions.contains
      = inOrder definitions childIds := by
    refine List.filter_eq_self.2 fun id hid => ?_
    exact ((mem_inOrder_iff hkeyed).1 hid).2
  have hplaces := map_filterMap_find? hkeyed (inOrder definitions childIds)
  rw [hknown] at hplaces
  refine ⟨(inOrder definitions childIds).filterMap definitions.find?, ?_, fun resource => ?_, ?_⟩
  · have hids := congrArg (List.map (·.2)) hplaces
    rw [List.map_map, List.map_map] at hids
    exact (hids.trans (List.map_id _)).symm
  · rw [List.mem_filterMap]
    constructor
    · rintro ⟨id, hid, hfind⟩
      rw [hkeyed id resource hfind]
      exact ⟨((mem_inOrder_iff hkeyed).1 hid).1, hfind⟩
    · rintro ⟨hid, hfind⟩
      exact ⟨resource.id, (mem_inOrder_iff hkeyed).2 ⟨hid, Table.contains_of_find? hfind⟩, hfind⟩
  · rw [← List.pairwise_map, hplaces, List.pairwise_map, inOrder_eq hkeyed]
    have hsorted := (pairwise_mergeSort_shownBefore definitions
      (childIds.filter definitions.contains)).sublist (List.dedup_sublist _)
    refine hsorted.imp₂ (fun a b hbefore hne => ?_) (List.nodup_dedup _)
    exact before_of_precedes hbefore fun heq => hne (congrArg Prod.snd heq)

end Catalog
end Realm
