import Realm.Phase
import Realm.Rules
import Realm.Yaml.Reader

/-!
# Configuration

How a game is set up: the rules, the phases, the players and what they start with. Everything has a
standard, so the empty configuration is a game for two. A configuration is read from a YAML or a
JSON text and then checked; a content file named by the environment wins over the one in the text.
-/

set_option autoImplicit false

namespace Realm

/-- A player's place in the game. -/
structure Seat where
  id : String
  name : String
  deriving DecidableEq

/-- What every player starts with. -/
structure Start (α : Type) where
  resources : Table α := .empty
  lands : Nat := 0
  buildings : List String := []
  effects : List (Effect α) := []

/-- How the engine reports on its work. -/
structure Logging where
  level : String := "info"
  json : Bool := false
  deriving DecidableEq

/-- The set-up of a game. -/
structure Config (α : Type) where
  rules : Rules := {}
  phases : List (Phase α) :=
    [.named "growth", .named "upkeep", { Phase.named "main" with action := true }]
  seats : List Seat := [{ id := "A", name := "Player A" }, { id := "B", name := "Player B" }]
  start : Start α := {}
  /-- How many of the latest gains are kept. -/
  recentGainLimit : Nat := 50
  logging : Logging := {}
  contentPath : String := "content/kingdom.json"

/-- What a configuration that can be read may still have wrong. -/
inductive ConfigFault where
  | noPlayers
  | noPhases
  | duplicatePlayer (id : String)
  | duplicatePhase (id : String)
  | noSteps (phase : String)
  | duplicateStep (step phase : String)
  | tooManyBaseSlots
  deriving DecidableEq

/-- What can go wrong with a configuration. -/
inductive ConfigError where
  | unreadable
  | malformed
  | invalid (fault : ConfigFault)
  deriving DecidableEq

def ConfigFault.message : ConfigFault → String
  | .noPlayers => "at least one player must be configured"
  | .noPhases => "at least one phase must be configured"
  | .duplicatePlayer id => "duplicate player id `" ++ id ++ "`"
  | .duplicatePhase id => "duplicate phase id `" ++ id ++ "`"
  | .noSteps phase => "phase `" ++ phase ++ "` has no steps"
  | .duplicateStep step phase => "duplicate step id `" ++ step ++ "` in phase `" ++ phase ++ "`"
  | .tooManyBaseSlots => "rules.base_land_slots exceeds rules.max_slots_per_land"

def ConfigError.message : ConfigError → String
  | .unreadable => "failed to read config file"
  | .malformed => "failed to parse config YAML"
  | .invalid fault => "invalid configuration: " ++ fault.message

namespace Config

variable {α : Type}

/-! ## Checking -/

/-- The first text that has occurred before in a list. -/
def firstRepeated? (seen : List String) : List String → Option String
  | [] => none
  | id :: rest => if seen.contains id then some id else firstRepeated? (id :: seen) rest

/-- Checks the phases in order: new id, steps, and no step twice. -/
def checkPhases (seen : List String) : List (Phase α) → Except ConfigFault Unit
  | [] => .ok ()
  | phase :: rest => do
    if seen.contains phase.id then
      throw (.duplicatePhase phase.id)
    if phase.steps.isEmpty then
      throw (.noSteps phase.id)
    match firstRepeated? [] (phase.steps.map (·.id)) with
    | some step => throw (.duplicateStep step phase.id)
    | none => checkPhases (phase.id :: seen) rest

/-- Checks a configuration: players and phases there are, with different ids, steps in every phase,
    and no more slots on a new land than a land may have. -/
def check (config : Config α) : Except ConfigFault Unit := do
  if config.seats.isEmpty then
    throw .noPlayers
  if config.phases.isEmpty then
    throw .noPhases
  match firstRepeated? [] (config.seats.map (·.id)) with
  | some id => throw (.duplicatePlayer id)
  | none => pure ()
  checkPhases [] config.phases
  if config.rules.maxSlotsPerLand < config.rules.baseLandSlots then
    throw .tooManyBaseSlots

def validate (config : Config α) : Except ConfigError Unit := config.check.mapError .invalid

def phase? (config : Config α) (id : String) : Option (Phase α) :=
  config.phases.find? fun phase => phase.id == id

/-- The configuration with the content file that the environment names, if it names one. -/
def withContentPath (config : Config α) (named : Option String) : Config α :=
  match named with
  | none | some "" => config
  | some path => { config with contentPath := path }

end Config

/-! ## Records -/

variable {α : Type} [Amount α]

def Seat.ofDocument? (document : Document α) : Option Seat := do
  let [id, name] ← document.slots? [["id"], ["name"]] | none
  return {
    id := ← Document.required Document.text? id
    name := ← Document.required Document.text? name }

def Start.ofDocument? (document : Document α) : Option (Start α) := do
  let [resources, lands, buildings, effects] ←
    document.slots? [["resources"], ["lands"], ["buildings"], ["effects"]] | none
  return {
    resources := ← Document.defaulted .empty (Document.table? Document.amount?) resources
    lands := ← Document.defaulted 0 Document.count? lands
    buildings := ← Document.defaulted [] (Document.list? Document.text?) buildings
    effects := ← Document.defaulted [] (Document.list? Effect.ofDocument?) effects }

def Logging.ofDocument? (document : Document α) : Option Logging := do
  let standard : Logging := {}
  let [level, json] ← document.slots? [["level"], ["json"]] | none
  return {
    level := ← Document.defaulted standard.level Document.text? level
    json := ← Document.defaulted standard.json Document.bool? json }

namespace Config

/-- A number of gains to keep. -/
private def limit? (document : Document α) : Option Nat :=
  (document.integerBetween? 0 18446744073709551615).map Int.toNat

/-- A record with one field that has a standard. -/
private def single? {β : Type} (name : String) (standard : β) (read : Document α → Option β)
    (document : Document α) : Option β := do
  let [slot] ← document.slots? [[name]] | none
  Document.defaulted standard read slot

def ofDocument? (document : Document α) : Option (Config α) := do
  let standard : Config α := {}
  let [rules, phases, seats, start, session, logging, content] ←
    document.slots? [["rules"], ["phases"], ["players"], ["start"], ["session"], ["logging"],
      ["content"]] | none
  return {
    rules := ← Document.defaulted standard.rules Rules.ofDocument? rules
    phases := ← Document.defaulted standard.phases (Document.list? Phase.ofDocument?) phases
    seats := ← Document.defaulted standard.seats (Document.list? Seat.ofDocument?) seats
    start := ← Document.defaulted standard.start Start.ofDocument? start
    recentGainLimit := ← Document.defaulted standard.recentGainLimit
      (single? "recent_gain_limit" standard.recentGainLimit limit?) session
    logging := ← Document.defaulted standard.logging Logging.ofDocument? logging
    contentPath := ← Document.defaulted standard.contentPath
      (single? "path" standard.contentPath Document.text?) content }

/-- A configuration from a YAML text: read, given the content file of the environment, checked. -/
def ofText (text : String) (contentPath : Option String) : Except ConfigError (Config α) := do
  match (Document.ofYamlText? text).bind ofDocument? with
  | none => throw .malformed
  | some config =>
    let config := config.withContentPath contentPath
    config.validate
    return config

end Config

end Realm
