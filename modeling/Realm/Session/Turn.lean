import Realm.Session

/-!
# Turns

How a session begins and goes on from step to step. When the clock enters a phase that the active
player skips, the session passes it over, with all that would have happened in it, and goes on to
the next, at most once around the table (`enterPhase`). When it enters a phase for good, the
passives that end with the phase's beginning leave first, and what the others run in the phase
comes next.
-/

set_option autoImplicit false

namespace Realm

variable {α : Type} [Amount α]

/-- What a player goes through at the start of a phase. The passives that stay are asked only after
    the others have left. -/
def phaseStart (setting : Setting α) (phase : String) : DraftAttempt α Unit := do
  (Player.expiringOn (← Draft.current) phase).forM fun id => do
    let _ ← removePassive setting id
  (Player.triggersFor (← Draft.current) phase).forM fun trigger => applyAll setting trigger.2

namespace Session

/-- Runs the step at which the clock stands, unless the active player skips it. -/
def runStep : SessionAttempt α Unit := do
  let phase ← currentPhase
  let step ← .ofOption .outOfRange (← get).clock.step?
  let player ← currentPlayer
  if player.skips.isStepSkipped phase.id step.id || step.effects.isEmpty then
    return
  else
    let _ ← batch .effect fun setting => applyAll setting step.effects

/-- Enters a phase for good: what the phase starts with, then its step. -/
def enter (phase : Phase α) : SessionAttempt α Unit := do
  let _ ← batch .effect fun setting => phaseStart setting phase.id
  runStep

/-- Enters the phase at which the clock stands, or the first one after it that its player does not
    skip, passing over at most `slack` of them. -/
def enterPhase (slack : Nat) : SessionAttempt α Unit := do
  let phase ← currentPhase
  let player ← currentPlayer
  if player.skips.isPhaseSkipped phase.id then
    match slack with
    | 0 => Attempt.fail .allPhasesSkipped
    | slack + 1 =>
      let _ ← moveClock Clock.nextPhase
      enterPhase slack
  else enter phase

/-- Does what is to be done where the clock has moved to. -/
def settle (boundary : Boundary) : SessionAttempt α Unit := do
  if boundary.entersPhase then
    enterPhase (← get).clock.phaseSlots
  else
    runStep

/-- Puts the clock, the players and the gains back to where they were if an operation fails. -/
def restoring {β : Type} (operation : SessionAttempt α β) : SessionAttempt α β := fun session =>
  match operation.run session with
  | (.ok value, after) => (.ok value, after)
  | (.error error, after) =>
    (.error error, { after with
      clock := session.clock, players := session.players, recentGains := session.recentGains })

/-- Moves the clock, settles, and says where the game stands then. -/
def moveOn (move : Clock α → Except ClockError (Boundary × Clock α)) :
    SessionAttempt α Progress :=
  restoring do
    let boundary ← moveClock move
    settle boundary
    return (← get).progress

/-- Goes to the next step. -/
def advance : SessionAttempt α Progress := moveOn Clock.advance

/-- Leaves the rest of the phase out and goes to the next one. -/
def endPhase : SessionAttempt α Progress := moveOn Clock.nextPhase

/-! ## The beginning -/

/-- Gives a player what everyone starts with: amounts, lands, buildings, effects. -/
def equip (setting : Setting α) (start : Start α) : DraftAttempt α Unit := do
  start.resources.toList.forM fun entry =>
    Draft.record (Ledger.setAmount setting.content.catalog entry.1 entry.2 .reject)
  if 0 < start.lands then
    applyEffect setting
      { family := Operation.addLand.name.1, method := Operation.addLand.name.2
        params := .record [("count", .count start.lands)] } 1
  start.buildings.forM fun building => do
    let _ ← addBuilding setting building
  applyAll setting start.effects

/-- The player that takes a seat, equipped. -/
def seat (setting : Setting α) (start : Start α) (place : Seat) :
    Except (EffectError α) (Player α) := do
  let draft ← draftOf setting (equip setting start)
    (.initial setting.content.catalog place.id place.name)
  return draft.player

/-- Starts a game: the configuration and the content are checked, every player is equipped, and the
    first phase is entered. What the players start with is no gain. -/
def start (config : Config α) (content : Content α) (operations : List Operation)
    (nesting : Nat := nestingLimit) : Except (SessionError α) (Session α) := do
  let setting : Setting α := { operations, content, rules := config.rules, nesting }
  config.validate.mapError .config
  (Content.check setting).mapError .content
  let clock ← (Clock.start (config.seats.map (·.id)) config.phases).mapError .clock
  let players ← (config.seats.mapM (seat setting config.start)).mapError .effect
  let session : Session α := { config, operations, nesting, content, clock, players }
  match (settle .turn).run session with
  | (.ok _, session) => return session
  | (.error error, _) => throw error

end Session

end Realm
