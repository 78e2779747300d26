import Realm.Proofs.Document.Returning
import Realm.Proofs.Skips

/-!
# Skips are read, changed and written as relations

The skips of a player are two relations, one between phases and sources and one between phases,
steps and sources, and they are kept in tables of tables. The tables can say more than the relations
do: that there is an entry for a phase which nobody wants skipped. A record may well hold such an
entry, and since "is it skipped" is answered by asking whether there is an entry, that phase would
be skipped for ever.

So a record is read in two steps: as it stands (`wire?`), and without what is empty (`prune`), which
keeps every pair and every triple (`has_prune`). From then on nothing empty comes into being, and all
that the tables answer is what the relations say: `Relational` lists the questions, and
`relational_afterAll` says that it holds whatever has been read and whatever has been added and
withdrawn since.
-/

set_option autoImplicit false

namespace Realm

/-! ## Empty entries -/

namespace Table

variable {β γ : Type}

/-- Dropping what is empty changes nothing that is asked with nothing for an answer. -/
theorem findD_filter_isEmpty (table : Table (Table β)) (key : String) :
    (table.filter fun _ inner => !inner.isEmpty).findD key .empty = table.findD key .empty := by
  unfold findD
  rw [find?_filter]
  cases table.find? key with
  | none => rfl
  | some inner =>
    rw [Option.filter_some]
    by_cases hempty : inner.isEmpty = true
    · have hinner : inner = .empty := ext_find? (isEmpty_iff.1 hempty)
      subst hinner
      rfl
    · simp [hempty]

theorem findD_map (f : β → γ) (table : Table β) (key : String) (fallback : β) :
    (table.map fun _ => f).findD key (f fallback) = f (table.findD key fallback) := by
  unfold findD
  rw [find?_map]
  cases table.find? key <;> rfl

theorem isEmpty_eq_false_iff {table : Table β} :
    table.isEmpty = false ↔ ∃ key, table.contains key = true := by
  rw [← Bool.not_eq_true, isEmpty_iff, not_forall]
  refine exists_congr fun key => ?_
  rw [← contains_eq_false_iff, Bool.not_eq_false]

/-- Where nothing empty is kept, there is an entry if there is something in it, -/
theorem Pruned.contains_iff {table : Table (Table β)} (h : table.Pruned) {key : String} :
    table.contains key = true ↔ ∃ other, (table.findD key .empty).contains other = true := by
  constructor
  · intro hcontains
    obtain ⟨inner, hinner⟩ := Table.contains_iff.1 hcontains
    unfold findD
    rw [hinner, Option.getD_some]
    exact isEmpty_eq_false_iff.1 (h key inner hinner)
  · intro hother
    obtain ⟨other, hother⟩ := hother
    cases hfind : table.find? key with
    | none => simp [findD, hfind] at hother
    | some inner => exact contains_of_find? hfind

/-- and the table is empty if there is nothing in any entry. -/
theorem Pruned.isEmpty_iff {table : Table (Table β)} (h : table.Pruned) :
    table.isEmpty = true ↔
      ∀ key other, (table.findD key .empty).contains other = false := by
  rw [Table.isEmpty_iff]
  refine forall_congr' fun key => ?_
  rw [← contains_eq_false_iff, ← Bool.not_eq_true, h.contains_iff, not_exists]
  simp

end Table

/-! ## Sets of names in records -/

theorem Names.ofList_toList (names : Names) : Names.ofList names.toList = names := by
  have hentries : names.toList.map (·, ()) = Table.toList names := by
    unfold Names.toList Table.keys
    rw [List.map_map]
    exact List.map_id _
  unfold Names.ofList
  rw [hentries, Table.ofList_toList]

namespace Skips

variable {α : Type}

theorem returns_names (names : Names) :
    Document.Returns (α := α) namesOfDocument? (fun names : Names => .texts names.toList) names := by
  unfold Document.Returns namesOfDocument?
  rw [show Document.list? Document.text? (.ofJson (.texts names.toList) : Document α)
    = some names.toList from Document.returns_texts _, Option.map_some, Names.ofList_toList]

theorem returns_sources (table : Table Names) :
    Document.Returns (α := α) (Document.table? namesOfDocument?) sourcesToJson table :=
  Document.returns_ofEntries_iff.2 fun _ names _ => returns_names names

theorem returns_steps (table : Table (Table Names)) :
    Document.Returns (α := α) (Document.table? (Document.table? namesOfDocument?))
      (fun table => Json.ofEntries sourcesToJson table.toList) table :=
  Document.returns_ofEntries_iff.2 fun _ sources _ => returns_sources sources

/-! ## Reading -/

/-- The record as it stands, empty entries and all. -/
def wire? (document : Document α) : Option Skips := do
  let [phases, steps] ← document.slots? [["skipPhases"], ["skipSteps"]] | none
  let phases ← Document.defaulted .empty (Document.table? namesOfDocument?) phases
  let steps ←
    Document.defaulted .empty (Document.table? (Document.table? namesOfDocument?)) steps
  return { phases, steps }

/-- The skips without empty entries. -/
def prune (skips : Skips) : Skips where
  phases := skips.phases.filter fun _ sources => !sources.isEmpty
  steps := (skips.steps.map fun _ steps => steps.filter fun _ sources => !sources.isEmpty).filter
    fun _ steps => !steps.isEmpty

theorem ofDocument?_eq (document : Document α) :
    ofDocument? document = (wire? document).map prune := by
  unfold ofDocument? wire?
  cases document.slots? [["skipPhases"], ["skipSteps"]] with
  | none => rfl
  | some slots =>
    rcases slots with _ | ⟨phases, _ | ⟨steps, _ | ⟨third, rest⟩⟩⟩
    · rfl
    · rfl
    · simp only [Option.bind_eq_bind, Option.bind_some]
      cases Document.defaulted .empty (Document.table? namesOfDocument?) phases with
      | none => rfl
      | some phases =>
        cases Document.defaulted .empty
          (Document.table? (Document.table? namesOfDocument?)) steps <;> rfl
    · rfl

/-- Whatever tables are written, empty entries included, they are what is read. -/
theorem returns_wire (wire : Skips) : Document.Returns (α := α) wire? toJson wire := by
  have hslots : Document.slots? [["skipPhases"], ["skipSteps"]] (.ofJson (toJson wire))
      = some [some (.ofJson (sourcesToJson wire.phases : Json α)),
          some (.ofJson (Json.ofEntries sourcesToJson wire.steps.toList))] := rfl
  have hphases := returns_sources (α := α) wire.phases
  have hsteps := returns_steps (α := α) wire.steps
  unfold Document.Returns at hphases hsteps ⊢
  unfold wire?
  rw [hslots]
  simp [Document.defaulted, hphases, hsteps]

theorem stepsOf_prune (skips : Skips) (phase : String) :
    skips.prune.stepsOf phase
      = (skips.stepsOf phase).filter fun _ sources => !sources.isEmpty := by
  unfold stepsOf prune
  dsimp only
  rw [Table.findD_filter_isEmpty]
  exact Table.findD_map (fun steps => steps.filter fun _ sources => !sources.isEmpty)
    skips.steps phase .empty

/-- Every pair and every triple is kept. -/
theorem has_prune (skips : Skips) (skip : Skip) : skips.prune.has skip = skips.has skip := by
  obtain ⟨phase, step, source⟩ := skip
  cases step with
  | none =>
    unfold has prune
    dsimp only
    rw [Table.findD_filter_isEmpty]
  | some step =>
    unfold has
    dsimp only
    rw [stepsOf_prune, Table.findD_filter_isEmpty]

theorem pruned_prune (skips : Skips) : skips.prune.Pruned := by
  refine ⟨Table.pruned_filter _, Table.pruned_filter _, fun phase => ?_⟩
  rw [stepsOf_prune]
  exact Table.pruned_filter _

theorem Pruned.prune_eq {skips : Skips} (h : skips.Pruned) : skips.prune = skips :=
  (pruned_prune skips).ext h skips.has_prune

/-- Skips come back exactly if nothing empty is among them. -/
theorem returns_iff_pruned {skips : Skips} :
    Document.Returns (α := α) ofDocument? toJson skips ↔ skips.Pruned := by
  have hwire : wire? (.ofJson (toJson skips : Json α)) = some skips := returns_wire skips
  unfold Document.Returns
  rw [ofDocument?_eq, hwire, Option.map_some, Option.some.injEq]
  constructor
  · intro h
    rw [← h]
    exact pruned_prune skips
  · exact fun h => h.prune_eq

/-! ## Asking -/

theorem link_fst (table : Table Names) (key source : String) :
    (link table key source).1 = !(table.findD key .empty).contains source := rfl

theorem unlink_fst (table : Table Names) (key source : String) :
    (unlink table key source).1 = (table.findD key .empty).contains source := by
  unfold unlink Table.findD
  cases table.find? key <;> rfl

/-- A call says whether the skip was not yet as it is to be. -/
theorem change_fst (skips : Skips) (add : Bool) (skip : Skip) :
    (skips.change add skip.phase skip.step skip.source).1 = (skips.has skip != add) := by
  obtain ⟨phase, step, source⟩ := skip
  cases step with
  | none =>
    cases add with
    | true => exact (link_fst skips.phases phase source).trans (Bool.bne_true _).symm
    | false => exact (unlink_fst skips.phases phase source).trans (Bool.bne_false _).symm
  | some step =>
    cases add with
    | true => exact (link_fst (skips.stepsOf phase) step source).trans (Bool.bne_true _).symm
    | false =>
      refine Eq.trans ?_ ((unlink_fst (skips.stepsOf phase) step source).trans
        (Bool.bne_false _).symm)
      unfold change removeStep stepsOf Table.findD
      cases skips.steps.find? phase <;> rfl

/-- So it says whether anything has changed. -/
theorem change_fst_iff (skips : Skips) (add : Bool) (skip : Skip) :
    (skips.change add skip.phase skip.step skip.source).1 = true ↔
      (skips.put add skip).has skip ≠ skips.has skip := by
  rw [change_fst, has_put, if_pos rfl, bne_iff_ne]
  exact ne_comm

section

variable {skips : Skips} (h : skips.Pruned)
include h

theorem Pruned.isPhaseSkipped_iff (phase : String) :
    skips.isPhaseSkipped phase = true ↔ ∃ source, skips.has { phase, source } = true :=
  h.phases.contains_iff

theorem Pruned.isStepSkipped_iff (phase step : String) :
    skips.isStepSkipped phase step = true ↔
      ∃ source, skips.has { phase, step := some step, source } = true := by
  have hstep : skips.isStepSkipped phase step = (skips.stepsOf phase).contains step := by
    unfold isStepSkipped Skips.stepsOf Table.findD
    cases skips.steps.find? phase <;> rfl
  rw [hstep]
  exact (h.stepsOf phase).contains_iff

theorem Pruned.isEmpty_iff : skips.isEmpty = true ↔ ∀ skip, skips.has skip = false := by
  unfold isEmpty
  rw [Bool.and_eq_true, h.phases.isEmpty_iff, Table.isEmpty_iff]
  constructor
  · intro hempty skip
    obtain ⟨hphases, hsteps⟩ := hempty
    obtain ⟨phase, step, source⟩ := skip
    cases step with
    | none => exact hphases phase source
    | some step =>
      have hnone : skips.stepsOf phase = .empty := by
        unfold Skips.stepsOf Table.findD
        rw [hsteps phase]
        rfl
      unfold has
      dsimp only
      rw [hnone]
      rfl
  · intro hnone
    refine ⟨fun phase source => hnone { phase, source }, fun phase => ?_⟩
    -- A phase with steps would have a step with a source.
    rw [← Table.contains_eq_false_iff, ← Bool.not_eq_true, h.steps.contains_iff]
    intro hstep
    obtain ⟨step, hstep⟩ := hstep
    obtain ⟨source, hsource⟩ := (h.stepsOf phase).contains_iff.1 hstep
    have hskip := hnone { phase, step := some step, source }
    rw [show skips.has { phase, step := some step, source } = true from hsource] at hskip
    cases hskip

end

/-! ## Relations -/

/-- The tables say what the two relations say, and every call is one on the relations. -/
structure Relational (α : Type) (skips : Skips) : Prop where
  /-- No phase and no step is kept for nothing. -/
  pruned : skips.Pruned
  /-- A call puts its own element in or takes it out, and leaves every other as it is. -/
  put : ∀ add skip other,
    (skips.put add skip).has other = if skip = other then add else skips.has other
  /-- It says whether that has changed anything. -/
  told : ∀ add skip, (skips.change add skip.phase skip.step skip.source).1 = true ↔
    (skips.put add skip).has skip ≠ skips.has skip
  phase_iff : ∀ phase,
    skips.isPhaseSkipped phase = true ↔ ∃ source, skips.has { phase, source } = true
  step_iff : ∀ phase step, skips.isStepSkipped phase step = true ↔
    ∃ source, skips.has { phase, step := some step, source } = true
  empty_iff : skips.isEmpty = true ↔ ∀ skip, skips.has skip = false
  /-- What is written is read back. -/
  returns : Document.Returns (α := α) ofDocument? toJson skips

theorem Pruned.relational {skips : Skips} (h : skips.Pruned) : skips.Relational α where
  pruned := h
  put := has_put skips
  told := skips.change_fst_iff
  phase_iff := h.isPhaseSkipped_iff
  step_iff := h.isStepSkipped_iff
  empty_iff := h.isEmpty_iff
  returns := returns_iff_pruned.2 h

/-- The skips after a sequence of calls, each of which adds or withdraws one. -/
def afterAll (skips : Skips) (calls : List (Bool × Skip)) : Skips :=
  calls.foldl (fun skips call => skips.put call.1 call.2) skips

theorem Pruned.afterAll {skips : Skips} (h : skips.Pruned) (calls : List (Bool × Skip)) :
    (skips.afterAll calls).Pruned :=
  List.foldlRecOn calls _ h fun _ hskips call _ => hskips.put call.1 call.2

/-- **Skips are a pair of relations.** Every record is read as it stands and freed of what is empty,
    which keeps exactly its pairs and triples; and after any sequence of calls, on skips that were
    read or on none, the tables say what the relations say. -/
theorem relational_afterAll :
    (∀ document : Document α, ofDocument? document = (wire? document).map prune) ∧
    (∀ wire : Skips, Document.Returns (α := α) wire? toJson wire ∧
      ∀ skip, wire.prune.has skip = wire.has skip) ∧
    ∀ calls : List (Bool × Skip), Relational α (afterAll {} calls) ∧
      ∀ wire : Skips, Relational α (wire.prune.afterAll calls) := by
  refine ⟨ofDocument?_eq, fun wire => ⟨returns_wire wire, wire.has_prune⟩, fun calls => ?_⟩
  refine ⟨(pruned_empty.afterAll calls).relational, fun wire => ?_⟩
  exact ((pruned_prune wire).afterAll calls).relational

/-- A record with an entry for a phase that nobody wants skipped is read as having none. -/
example : ofDocument? (.ofJson (.record [("skipPhases", .record [("upkeep", .texts [])])])
    : Document α) = some {} := rfl

end Skips

end Realm
