import Realm.Phase
import Realm.Snapshot

/-!
# The clock

Where a game stands: in which turn, with which player, in which phase and step of the player's
turn. A position is read like a number in mixed radix — steps within a phase, phases within a
player's turn, players within a turn — and `advance` adds one to it, while `nextPhase` carries at
once.

The clock knows nothing of skips and effects. It is made for a layout with players and phases in
which every phase has steps; in such a layout it always stands somewhere.
-/

set_option autoImplicit false

namespace Realm

/-- What is wrong with a layout. -/
inductive LayoutFault where
  | noPlayers
  | noPhases
  | noSteps (phase : String)
  deriving DecidableEq

/-- What can go wrong with a clock. -/
inductive ClockError where
  | turnOverflow
  | invalidLayout (fault : LayoutFault)
  deriving DecidableEq

def LayoutFault.message : LayoutFault → String
  | .noPlayers => "at least one player is required"
  | .noPhases => "at least one phase is required"
  | .noSteps phase => "phase `" ++ phase ++ "` has no steps"

def ClockError.message : ClockError → String
  | .turnOverflow => "turn counter overflow: cannot advance beyond u32::MAX"
  | .invalidLayout fault => "invalid turn layout: " ++ fault.message

/-- The widest line that a move crosses. -/
inductive Boundary where
  | step
  | phase
  | player
  | turn
  deriving DecidableEq

namespace Boundary

/-- Whether a phase is entered. -/
def entersPhase : Boundary → Bool
  | .step => false
  | .phase | .player | .turn => true

def name : Boundary → String
  | .step => "Step"
  | .phase => "Phase"
  | .player => "Player"
  | .turn => "Turn"

end Boundary

/-- The position of a game in its cycle of turns. -/
structure Clock (α : Type) where
  /-- The number of the turn, from one. -/
  turn : Nat := 1
  /-- The index of the player. -/
  player : Nat := 0
  /-- The index of the phase. -/
  phase : Nat := 0
  /-- The index of the step in the phase. -/
  step : Nat := 0
  players : List String
  phases : List (Phase α)

namespace Clock

variable {α : Type}

/-- The last turn there is. -/
def lastTurn : Nat := 4294967295

/-- A clock at the first step of the first phase of the first player of turn one. -/
def start (players : List String) (phases : List (Phase α)) : Except ClockError (Clock α) :=
  if players.isEmpty then .error (.invalidLayout .noPlayers)
  else if phases.isEmpty then .error (.invalidLayout .noPhases)
  else
    match phases.find? fun phase => phase.steps.isEmpty with
    | some phase => .error (.invalidLayout (.noSteps phase.id))
    | none => .ok { players, phases }

def activePlayer? (clock : Clock α) : Option String := clock.players[clock.player]?

def phase? (clock : Clock α) : Option (Phase α) := clock.phases[clock.phase]?

def step? (clock : Clock α) : Option (Step α) :=
  clock.phase?.bind fun phase => phase.steps[clock.step]?

/-- How many times a phase is entered in one turn. -/
def phaseSlots (clock : Clock α) : Nat := clock.players.length * clock.phases.length

/-- Enters the next phase, and says which line that crosses. -/
def nextPhase (clock : Clock α) : Except ClockError (Boundary × Clock α) :=
  if clock.phase + 1 < clock.phases.length then
    .ok (.phase, { clock with step := 0, phase := clock.phase + 1 })
  else if clock.player + 1 < clock.players.length then
    .ok (.player, { clock with step := 0, phase := 0, player := clock.player + 1 })
  else if clock.turn < lastTurn then
    .ok (.turn, { clock with step := 0, phase := 0, player := 0, turn := clock.turn + 1 })
  else .error .turnOverflow

/-- Goes to the next step, and says which line that crosses. -/
def advance (clock : Clock α) : Except ClockError (Boundary × Clock α) :=
  let steps := (clock.phase?.map (·.steps.length)).getD 0
  if clock.step + 1 < steps then .ok (.step, { clock with step := clock.step + 1 })
  else clock.nextPhase

/-- The position as it is shown. -/
def progress (clock : Clock α) : Progress :=
  { turn := clock.turn
    activePlayer := clock.activePlayer?.getD ""
    phase := (clock.phase?.map (·.id)).getD ""
    step := (clock.step?.map (·.id)).getD ""
    actionPhase := (clock.phase?.map (·.action)).getD false }

end Clock

end Realm
