import Realm.Skips
import Realm.Proofs.Table

/-!
# Skips are a set

The skips of a player are kept in tables of tables, and what they mean is a set: who wants which
phase, or which step of it, skipped (`Skips.has`). As long as nothing is kept that is empty
(`Skips.Pruned`) there is one such table for a set (`Pruned.ext`). Adding and withdrawing a skip add
to the set and take away from it (`has_put`) and leave nothing empty behind, also when the last
source of a step was the last of its phase (`Pruned.put`). Either of them done twice is done once,
whatever is kept (`put_put`).

So skips that were not there before leave no trace when they are withdrawn, however often and in
whatever order they were added (`withdrawAll_addAll`).
-/

set_option autoImplicit false

namespace Realm

/-! ## Tables without empty entries -/

namespace Table

variable {β : Type}

theorem isEmpty_iff {table : Table β} : table.isEmpty = true ↔ ∀ key, table.find? key = none := by
  constructor
  · intro h key
    have hentries : table.entries = [] := List.isEmpty_iff.1 h
    unfold find?
    rw [hentries]
    rfl
  · intro h
    have hempty : table = empty := ext_find? h
    rw [hempty]
    rfl

theorem isEmpty_insert (table : Table β) (key : String) (value : β) :
    (table.insert key value).isEmpty = false := by
  rw [← Bool.not_eq_true, isEmpty_iff]
  intro h
  have hkey := h key
  rw [find?_insert, if_pos rfl] at hkey
  cases hkey

theorem erase_empty (key : String) : (empty : Table β).erase key = empty := rfl

theorem find?_filter (keep : String → β → Bool) (table : Table β) (key : String) :
    (table.filter keep).find? key = (table.find? key).filter (keep key) := by
  refine Option.ext fun value => ?_
  rw [← mem_toList_iff, Option.filter_eq_some_iff, ← mem_toList_iff]
  exact List.mem_filter

/-- No key is kept for nothing. -/
def Pruned (table : Table (Table β)) : Prop :=
  ∀ key inner, table.find? key = some inner → inner.isEmpty = false

theorem pruned_empty : (empty : Table (Table β)).Pruned := by
  intro key inner h
  cases h

theorem pruned_filter (table : Table (Table β)) :
    (table.filter fun _ inner => !inner.isEmpty).Pruned := by
  intro key inner h
  rw [find?_filter, Option.filter_eq_some_iff] at h
  simpa using h.2

theorem Pruned.find?_eq {table : Table (Table β)} (h : table.Pruned) (key : String) :
    table.find? key
      = if (table.findD key .empty).isEmpty then none else some (table.findD key .empty) := by
  unfold findD
  cases hfind : table.find? key with
  | none => rfl
  | some inner =>
    rw [Option.getD_some, h key inner hfind]
    rfl

/-- Without empty entries, a key that is missing and a key with nothing are one thing. -/
theorem Pruned.ext {a b : Table (Table β)} (ha : a.Pruned) (hb : b.Pruned)
    (h : ∀ key, a.findD key .empty = b.findD key .empty) : a = b := by
  refine ext_find? fun key => ?_
  rw [ha.find?_eq, hb.find?_eq, h key]

/-- Replaces what a key has, and drops the key if it has nothing any more. -/
def replace (table : Table (Table β)) (key : String) (inner : Table β) : Table (Table β) :=
  if inner.isEmpty then table.erase key else table.insert key inner

theorem findD_replace (table : Table (Table β)) (key other : String) (inner : Table β) :
    (table.replace key inner).findD other .empty
      = if key = other then inner else table.findD other .empty := by
  unfold replace
  by_cases hempty : inner.isEmpty = true
  · have hinner : inner = .empty := ext_find? (isEmpty_iff.1 hempty)
    rw [if_pos hempty]
    unfold findD
    rw [find?_erase]
    by_cases h : key = other <;> simp [h, hinner]
  · rw [if_neg hempty, findD_insert]

theorem Pruned.insert {table : Table (Table β)} (h : table.Pruned) (key : String)
    {inner : Table β} (hinner : inner.isEmpty = false) : (table.insert key inner).Pruned := by
  intro other found hfind
  rw [find?_insert] at hfind
  split at hfind
  · cases hfind
    exact hinner
  · exact h other found hfind

theorem Pruned.replace {table : Table (Table β)} (h : table.Pruned) (key : String)
    (inner : Table β) : (table.replace key inner).Pruned := by
  unfold Table.replace
  by_cases hempty : inner.isEmpty = true
  · rw [if_pos hempty]
    intro other found hfind
    rw [find?_erase] at hfind
    split at hfind
    · cases hfind
    · exact h other found hfind
  · rw [if_neg hempty]
    exact h.insert key (by simpa using hempty)

end Table

/-- Sets with the same names are equal. -/
theorem Names.ext_contains {a b : Names} (h : ∀ name, a.contains name = b.contains name) :
    a = b := by
  refine Table.ext_find? fun name => ?_
  have hname := h name
  unfold Table.contains at hname
  cases ha : a.find? name <;> cases hb : b.find? name <;> simp_all

namespace Skips

/-! ## Relations -/

theorem link_eq (table : Table Names) (key source : String) :
    (link table key source).2 = table.insert key ((table.findD key .empty).add source) := rfl

theorem unlink_eq (table : Table Names) (key source : String) :
    (unlink table key source).2
      = if table.contains key = true then table.replace key ((table.findD key .empty).erase source)
        else table := by
  unfold unlink Table.contains Table.findD
  cases hfind : table.find? key with
  | none => rfl
  | some sources => rfl

theorem findD_unlink (table : Table Names) (key other source : String) :
    (unlink table key source).2.findD other .empty
      = if key = other then (table.findD key .empty).erase source
        else table.findD other .empty := by
  rw [unlink_eq]
  by_cases hkey : table.contains key = true
  · rw [if_pos hkey, Table.findD_replace]
  · rw [if_neg hkey]
    have hnone : table.findD key .empty = .empty := by
      unfold Table.findD
      rw [Table.contains_eq_false_iff.1 (by simpa using hkey)]
      rfl
    by_cases h : key = other
    · rw [if_pos h, ← h, hnone, Table.erase_empty]
    · rw [if_neg h]

theorem pruned_link {table : Table Names} (h : table.Pruned) (key source : String) :
    (link table key source).2.Pruned :=
  h.insert key (Table.isEmpty_insert _ source ())

theorem pruned_unlink {table : Table Names} (h : table.Pruned) (key source : String) :
    (unlink table key source).2.Pruned := by
  rw [unlink_eq]
  split
  · exact h.replace key _
  · exact h

/-! ## The set of skips -/

end Skips

/-- A phase, or a step of it, that somebody wants skipped. -/
structure Skip where
  phase : String
  step : Option String := none
  source : String
  deriving DecidableEq

namespace Skips

/-- The steps of a phase that are skipped, with their sources. -/
def stepsOf (skips : Skips) (phase : String) : Table Names := skips.steps.findD phase .empty

/-- Whether a skip is among the skips. -/
def has (skips : Skips) (skip : Skip) : Bool :=
  match skip.step with
  | none => (skips.phases.findD skip.phase .empty).contains skip.source
  | some step => ((skips.stepsOf skip.phase).findD step .empty).contains skip.source

/-- Adds or withdraws a skip. -/
def put (skips : Skips) (add : Bool) (skip : Skip) : Skips :=
  (skips.change add skip.phase skip.step skip.source).2

/-- No phase and no step is kept without a source. -/
structure Pruned (skips : Skips) : Prop where
  phases : skips.phases.Pruned
  steps : skips.steps.Pruned
  stepsOf : ∀ phase, (skips.stepsOf phase).Pruned

theorem pruned_empty : Pruned {} := by
  refine ⟨Table.pruned_empty, Table.pruned_empty, fun phase => ?_⟩
  exact Table.pruned_empty

/-- What is read from a record is brought into that form. -/
theorem pruned_of_ofDocument? {α : Type} {document : Document α} {skips : Skips}
    (h : ofDocument? document = some skips) : skips.Pruned := by
  unfold ofDocument? at h
  obtain ⟨slots, -, h⟩ := Option.bind_eq_some_iff.1 h
  split at h
  · obtain ⟨phases, -, h⟩ := Option.bind_eq_some_iff.1 h
    obtain ⟨steps, -, h⟩ := Option.bind_eq_some_iff.1 h
    cases h
    refine ⟨Table.pruned_filter phases, Table.pruned_filter _, fun phase => ?_⟩
    unfold stepsOf Table.findD
    rw [Table.find?_filter, Table.find?_map]
    cases steps.find? phase with
    | none => exact Table.pruned_empty
    | some found =>
      rw [Option.map_some, Option.filter_some]
      split
      · exact Table.pruned_filter found
      · exact Table.pruned_empty
  · cases h

/-- Skips that say the same are the same. -/
theorem Pruned.ext {a b : Skips} (ha : a.Pruned) (hb : b.Pruned)
    (h : ∀ skip, a.has skip = b.has skip) : a = b := by
  have hphases : a.phases = b.phases := by
    refine ha.phases.ext hb.phases fun phase => Names.ext_contains fun source => ?_
    exact h { phase, source }
  have hsteps : a.steps = b.steps := by
    refine ha.steps.ext hb.steps fun phase => ?_
    refine (ha.stepsOf phase).ext (hb.stepsOf phase) fun step => ?_
    exact Names.ext_contains fun source => h { phase, step := some step, source }
  obtain ⟨phases, steps⟩ := a
  obtain ⟨phases', steps'⟩ := b
  exact congrArg₂ Skips.mk hphases hsteps

/-! ## Adding and withdrawing -/

theorem removeStep_eq (skips : Skips) (phase step source : String) :
    (skips.removeStep phase step source).2
      = if skips.steps.contains phase = true then
          { skips with
            steps := skips.steps.replace phase (unlink (skips.stepsOf phase) step source).2 }
        else skips := by
  unfold removeStep stepsOf Table.contains Table.findD
  cases hfind : skips.steps.find? phase with
  | none => rfl
  | some steps => rfl

theorem unlink_empty (key source : String) : (unlink .empty key source).2 = .empty := rfl

theorem stepsOf_removeStep (skips : Skips) (phase step source other : String) :
    (skips.removeStep phase step source).2.stepsOf other
      = if phase = other then (unlink (skips.stepsOf phase) step source).2
        else skips.stepsOf other := by
  rw [removeStep_eq]
  by_cases hphase : skips.steps.contains phase = true
  · rw [if_pos hphase]
    exact Table.findD_replace _ _ _ _
  · rw [if_neg hphase]
    have hnone : skips.stepsOf phase = .empty := by
      unfold stepsOf Table.findD
      rw [Table.contains_eq_false_iff.1 (by simpa using hphase)]
      rfl
    by_cases h : phase = other
    · rw [if_pos h, ← h, hnone, unlink_empty]
    · rw [if_neg h]

theorem stepsOf_addStep (skips : Skips) (phase step source other : String) :
    (skips.addStep phase step source).2.stepsOf other
      = if phase = other then (link (skips.stepsOf phase) step source).2
        else skips.stepsOf other :=
  Table.findD_insert _ _ _ _ _

theorem phases_removeStep (skips : Skips) (phase step source : String) :
    (skips.removeStep phase step source).2.phases = skips.phases := by
  rw [removeStep_eq]
  split <;> rfl

theorem Pruned.put {skips : Skips} (h : skips.Pruned) (add : Bool) (skip : Skip) :
    (skips.put add skip).Pruned := by
  obtain ⟨phase, step, source⟩ := skip
  cases step with
  | none =>
    cases add with
    | true => exact ⟨pruned_link h.phases phase source, h.steps, h.stepsOf⟩
    | false => exact ⟨pruned_unlink h.phases phase source, h.steps, h.stepsOf⟩
  | some step =>
    cases add with
    | true =>
      refine ⟨h.phases, h.steps.insert phase (Table.isEmpty_insert _ step _), fun other => ?_⟩
      show ((skips.addStep phase step source).2.stepsOf other).Pruned
      rw [stepsOf_addStep]
      split
      · exact pruned_link (h.stepsOf phase) step source
      · exact h.stepsOf other
    | false =>
      refine ⟨?_, ?_, fun other => ?_⟩
      · show (skips.removeStep phase step source).2.phases.Pruned
        rw [phases_removeStep]
        exact h.phases
      · show (skips.removeStep phase step source).2.steps.Pruned
        rw [removeStep_eq]
        split
        · exact h.steps.replace phase _
        · exact h.steps
      · show ((skips.removeStep phase step source).2.stepsOf other).Pruned
        rw [stepsOf_removeStep]
        split
        · exact pruned_unlink (h.stepsOf phase) step source
        · exact h.stepsOf other

/-- A pair that is added to a relation or deleted from it. -/
theorem contains_link (table : Table Names) (key source key' source' : String) :
    ((link table key source).2.findD key' .empty).contains source'
      = if key = key' ∧ source = source' then true
        else (table.findD key' .empty).contains source' := by
  rw [link_eq, Table.findD_insert]
  by_cases hkey : key = key'
  · rw [if_pos hkey, ← hkey]
    unfold Names.add
    rw [Table.contains_insert]
    by_cases hsource : source = source' <;> simp [hsource]
  · rw [if_neg hkey, if_neg fun h => hkey h.1]

theorem contains_unlink (table : Table Names) (key source key' source' : String) :
    ((unlink table key source).2.findD key' .empty).contains source'
      = if key = key' ∧ source = source' then false
        else (table.findD key' .empty).contains source' := by
  rw [findD_unlink]
  by_cases hkey : key = key'
  · rw [if_pos hkey, ← hkey, Table.contains_erase]
    by_cases hsource : source = source' <;> simp [hsource]
  · rw [if_neg hkey, if_neg fun h => hkey h.1]

/-- The skip is there or gone, and nothing is said of any other. -/
theorem has_put (skips : Skips) (add : Bool) (skip other : Skip) :
    (skips.put add skip).has other = if skip = other then add else skips.has other := by
  obtain ⟨phase, step, source⟩ := skip
  obtain ⟨phase', step', source'⟩ := other
  cases step with
  | none =>
    cases step' with
    | none =>
      have heq : Skip.mk phase none source = ⟨phase', none, source'⟩
          ↔ phase = phase' ∧ source = source' := by simp
      refine Eq.trans ?_ (if_congr heq rfl rfl).symm
      cases add with
      | true => exact contains_link skips.phases phase source phase' source'
      | false => exact contains_unlink skips.phases phase source phase' source'
    | some step' =>
      rw [if_neg (by simp)]
      cases add <;> rfl
  | some step =>
    cases step' with
    | none =>
      have hphases : (skips.put add ⟨phase, some step, source⟩).phases = skips.phases := by
        cases add with
        | true => rfl
        | false => exact phases_removeStep skips phase step source
      rw [if_neg (by simp)]
      unfold has
      rw [hphases]
    | some step' =>
      have hstepsOf : (skips.put add ⟨phase, some step, source⟩).stepsOf phase'
          = if phase = phase' then (if add = true then (link (skips.stepsOf phase) step source).2
              else (unlink (skips.stepsOf phase) step source).2)
            else skips.stepsOf phase' := by
        cases add with
        | true => exact stepsOf_addStep skips phase step source phase'
        | false => exact stepsOf_removeStep skips phase step source phase'
      unfold has
      dsimp only
      rw [hstepsOf]
      by_cases hphase : phase = phase'
      · subst hphase
        have heq : Skip.mk phase (some step) source = ⟨phase, some step', source'⟩
            ↔ step = step' ∧ source = source' := by simp
        rw [if_pos rfl]
        refine Eq.trans ?_ (if_congr heq rfl rfl).symm
        cases add with
        | true => exact contains_link (skips.stepsOf phase) step source step' source'
        | false => exact contains_unlink (skips.stepsOf phase) step source step' source'
      · rw [if_neg hphase, if_neg (by simp [hphase])]

/-! ## Skips that come and go -/

def addAll (skips : Skips) (added : List Skip) : Skips :=
  added.foldl (fun skips skip => skips.put true skip) skips

/-- Withdraws skips, the last first. -/
def withdrawAll (skips : Skips) (added : List Skip) : Skips :=
  added.foldr (fun skip skips => skips.put false skip) skips

theorem Pruned.addAll {skips : Skips} (h : skips.Pruned) (added : List Skip) :
    (skips.addAll added).Pruned :=
  List.foldlRecOn added _ h fun _ hskips skip _ => hskips.put true skip

theorem Pruned.withdrawAll {skips : Skips} (h : skips.Pruned) (added : List Skip) :
    (skips.withdrawAll added).Pruned :=
  List.foldrRecOn added _ h fun _ hskips skip _ => hskips.put false skip

theorem has_addAll (skips : Skips) (added : List Skip) (skip : Skip) :
    (skips.addAll added).has skip = (decide (skip ∈ added) || skips.has skip) := by
  unfold addAll
  induction added generalizing skips with
  | nil => simp
  | cons head rest ih =>
    rw [List.foldl_cons, ih, has_put]
    by_cases h : head = skip
    · subst h
      simp
    · simp [h, Ne.symm h]

theorem has_withdrawAll (skips : Skips) (added : List Skip) (skip : Skip) :
    (skips.withdrawAll added).has skip = (!decide (skip ∈ added) && skips.has skip) := by
  unfold withdrawAll
  induction added with
  | nil => simp
  | cons head rest ih =>
    rw [List.foldr_cons, has_put, ih]
    by_cases h : head = skip
    · subst h
      simp
    · simp [h, Ne.symm h]

/-- Skips that were not there before leave no trace. -/
theorem withdrawAll_addAll {skips : Skips} (h : skips.Pruned) {added : List Skip}
    (hnew : ∀ skip ∈ added, skips.has skip = false) :
    (skips.addAll added).withdrawAll added = skips := by
  refine ((h.addAll added).withdrawAll added).ext h fun skip => ?_
  rw [has_withdrawAll, has_addAll]
  by_cases hskip : skip ∈ added
  · simp [hskip, hnew skip hskip]
  · simp [hskip]

/-! ## Doing it twice

Nothing is asked of the tables here: what is kept for nothing is dropped the first time. -/

end Skips

theorem Table.insert_insert {β : Type} (table : Table β) (key : String) (value : β) :
    (table.insert key value).insert key value = table.insert key value := by
  refine Table.ext_find? fun other => ?_
  rw [Table.find?_insert, Table.find?_insert]
  split <;> rfl

theorem Table.erase_erase {β : Type} (table : Table β) (key : String) :
    (table.erase key).erase key = table.erase key := by
  refine Table.ext_find? fun other => ?_
  rw [Table.find?_erase, Table.find?_erase]
  split <;> rfl

theorem Table.replace_replace {β : Type} (table : Table (Table β)) (key : String)
    (inner : Table β) : (table.replace key inner).replace key inner = table.replace key inner := by
  unfold Table.replace
  by_cases hempty : inner.isEmpty = true
  · rw [if_pos hempty, if_pos hempty, Table.erase_erase]
  · rw [if_neg hempty, if_neg hempty, Table.insert_insert]

namespace Skips

theorem link_link (table : Table Names) (key source : String) :
    (link (link table key source).2 key source).2 = (link table key source).2 := by
  rw [link_eq, link_eq, Table.findD_insert, if_pos rfl]
  unfold Names.add
  rw [Table.insert_insert, Table.insert_insert]

theorem unlink_unlink (table : Table Names) (key source : String) :
    (unlink (unlink table key source).2 key source).2 = (unlink table key source).2 := by
  rw [unlink_eq (unlink table key source).2, findD_unlink, if_pos rfl, Table.erase_erase, unlink_eq]
  by_cases hkey : table.contains key = true
  · rw [if_pos hkey, Table.replace_replace, ite_self]
  · rw [if_neg hkey, if_neg hkey]

/-- A skip that is added or withdrawn again changes nothing. -/
theorem put_put (skips : Skips) (add : Bool) (skip : Skip) :
    (skips.put add skip).put add skip = skips.put add skip := by
  obtain ⟨phase, step, source⟩ := skip
  cases step with
  | none =>
    cases add with
    | true => exact congrArg (Skips.mk · skips.steps) (link_link skips.phases phase source)
    | false => exact congrArg (Skips.mk · skips.steps) (unlink_unlink skips.phases phase source)
  | some step =>
    cases add with
    | true =>
      have hsteps : ∀ steps : Table (Table Names), steps = skips.steps.insert phase
          (link (skips.stepsOf phase) step source).2 →
          steps.insert phase (link (steps.findD phase .empty) step source).2 = steps := by
        rintro _ rfl
        rw [Table.findD_insert, if_pos rfl, link_link, Table.insert_insert]
      exact congrArg (Skips.mk skips.phases) (hsteps _ rfl)
    | false =>
      change ((skips.removeStep phase step source).2.removeStep phase step source).2
        = (skips.removeStep phase step source).2
      rw [removeStep_eq (skips.removeStep phase step source).2, stepsOf_removeStep, if_pos rfl,
        unlink_unlink, removeStep_eq]
      by_cases hphase : skips.steps.contains phase = true
      · rw [if_pos hphase, Table.replace_replace, ite_self]
      · rw [if_neg hphase, if_neg hphase]

end Skips
end Realm
