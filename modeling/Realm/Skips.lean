import Realm.Document

/-!
# Skips

Which phases, and which steps of phases, a player skips, and on whose behalf. A phase is skipped as
long as somebody wants it skipped, so the table keeps the sources: it is a relation between phases
and sources, and one between phases, steps and sources. Adding and removing insert a pair into a
relation and delete it.

No phase and no step is kept without a source, and so "is there an entry" and "is it skipped" are
one question. What is read from a file is brought into that form.
-/

set_option autoImplicit false

namespace Realm

/-- The phases and steps that a player skips, each with its sources. -/
structure Skips where
  phases : Table Names := .empty
  steps : Table (Table Names) := .empty
  deriving DecidableEq

namespace Skips

def isEmpty (skips : Skips) : Bool := skips.phases.isEmpty && skips.steps.isEmpty

/-- The sources that want a phase skipped. -/
def phaseSources (skips : Skips) (phase : String) : List String :=
  ((skips.phases.find? phase).map Names.toList).getD []

def isPhaseSkipped (skips : Skips) (phase : String) : Bool := skips.phases.contains phase

def isStepSkipped (skips : Skips) (phase step : String) : Bool :=
  ((skips.steps.find? phase).map (·.contains step)).getD false

/-! ## Relations as tables -/

/-- Adds a pair. Says whether it is new. -/
def link (table : Table Names) (key source : String) : Bool × Table Names :=
  let sources := table.findD key .empty
  (!sources.contains source, table.insert key (sources.add source))

/-- Deletes a pair, and the key with its last pair. Says whether it was there. -/
def unlink (table : Table Names) (key source : String) : Bool × Table Names :=
  match table.find? key with
  | none => (false, table)
  | some sources =>
    let rest := sources.erase source
    (sources.contains source, if rest.isEmpty then table.erase key else table.insert key rest)

/-! ## Operations -/

/-- Skips a phase on behalf of a source. Says whether that is new. -/
def addPhase (skips : Skips) (phase source : String) : Bool × Skips :=
  let (new, phases) := link skips.phases phase source
  (new, { skips with phases })

/-- Withdraws a source's skip of a phase. Says whether there was one. -/
def removePhase (skips : Skips) (phase source : String) : Bool × Skips :=
  let (old, phases) := unlink skips.phases phase source
  (old, { skips with phases })

/-- Skips a step on behalf of a source. Says whether that is new. -/
def addStep (skips : Skips) (phase step source : String) : Bool × Skips :=
  let (new, steps) := link (skips.steps.findD phase .empty) step source
  (new, { skips with steps := skips.steps.insert phase steps })

/-- Withdraws a source's skip of a step. Says whether there was one. -/
def removeStep (skips : Skips) (phase step source : String) : Bool × Skips :=
  match skips.steps.find? phase with
  | none => (false, skips)
  | some steps =>
    let (old, steps) := unlink steps step source
    (old, { skips with
      steps := if steps.isEmpty then skips.steps.erase phase else skips.steps.insert phase steps })

/-- Adds or withdraws a skip of a phase, or of one of its steps. -/
def change (skips : Skips) (add : Bool) (phase : String) (step : Option String)
    (source : String) : Bool × Skips :=
  match add, step with
  | true, none => skips.addPhase phase source
  | true, some step => skips.addStep phase step source
  | false, none => skips.removePhase phase source
  | false, some step => skips.removeStep phase step source

/-! ## Records -/

variable {α : Type} [Amount α]

/-- A set of names is written as a list, in any order and with repetitions. -/
def namesOfDocument? (document : Document α) : Option Names :=
  (document.list? Document.text?).map Names.ofList

/-- Reads the table; keys without a source are dropped. -/
def ofDocument? (document : Document α) : Option Skips := do
  let [phases, steps] ← document.slots? [["skipPhases"], ["skipSteps"]] | none
  let phases ← Document.defaulted .empty (Document.table? namesOfDocument?) phases
  let steps ←
    Document.defaulted .empty (Document.table? (Document.table? namesOfDocument?)) steps
  return {
    phases := phases.filter fun _ sources => !sources.isEmpty
    steps := (steps.map fun _ steps => steps.filter fun _ sources => !sources.isEmpty).filter
      fun _ steps => !steps.isEmpty }

/-- A table of sets of names as a record of lists. -/
def sourcesToJson (table : Table Names) : Json α :=
  Json.ofEntries (fun sources : Names => .texts sources.toList) table.toList

def toJson (skips : Skips) : Json α :=
  .record [("skipPhases", sourcesToJson skips.phases),
    ("skipSteps", Json.ofEntries sourcesToJson skips.steps.toList)]

end Skips

end Realm
