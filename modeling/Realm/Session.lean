import Realm.Clock
import Realm.Config
import Realm.Content.Loading
import Realm.Effect.Application
import Realm.Placeholder

/-!
# Sessions

A game under way: its set-up, where it stands, its players, and the gains it can still tell of. The
operations on a session are attempts, and every one of them is atomic: it does all of its work or
leaves the session as it was.

Effects never work on a session's player. They work on a draft of the player (`Session.batch`),
which takes the player's place when everything has gone well. A batch ends with one pass over the
tiers; a tier whose passive moves an amount that the pass has left behind leaves the tier of that
amount for the next batch.
-/

set_option autoImplicit false

namespace Realm

/-- What can go wrong with a session. -/
inductive SessionError (α : Type) where
  | config (error : ConfigError)
  | content (error : ContentError α)
  | clock (error : ClockError)
  /-- An effect of the set-up, of a phase or of a step failed. -/
  | effect (error : EffectError α)
  /-- A requirement, a cost or an effect of an action failed. -/
  | actionFailed (action : String) (error : EffectError α)
  | unknownAction (action : String)
  | notActionPhase (action phase : String)
  | missingParam (action : String) (missing : MissingParam)
  | allPhasesSkipped
  /-- The clock stands at a player or a phase that is not there. -/
  | outOfRange

/-- The wording of an error. -/
def SessionError.message {α : Type} [Amount α] : SessionError α → String
  | .config error => "configuration error: " ++ error.message
  | .content error => "content error: " ++ error.message
  | .clock error => "clock error: " ++ error.message
  | .effect error => "effect failed: " ++ error.message
  | .actionFailed action error => "action `" ++ action ++ "` failed: " ++ error.message
  | .unknownAction action => "unknown action `" ++ action ++ "`"
  | .notActionPhase action phase =>
    "action `" ++ action ++ "` cannot be performed during phase `" ++ phase ++ "`"
  | .missingParam action missing => "action `" ++ action ++ "`: " ++ missing.message
  | .allPhasesSkipped => "every phase is skipped for every player"
  | .outOfRange => "session position out of range"

/-- A game under way. -/
structure Session (α : Type) where
  config : Config α
  operations : List Operation := Operation.all
  /-- How deep the game's effects may nest. -/
  nesting : Nat := nestingLimit
  content : Content α
  clock : Clock α
  /-- In the order of their turns. -/
  players : List (Player α)
  /-- The latest gains, the newest last. -/
  recentGains : List (Gain α) := []

/-- An operation on a session. -/
abbrev SessionAttempt (α β : Type) := Attempt (Session α) (SessionError α) β

/-- The last `limit` items of a list. -/
def latest {β : Type} (limit : Nat) (items : List β) : List β := items.drop (items.length - limit)

namespace Session

variable {α : Type}

/-! ## Looking at a session -/

/-- What effects read. -/
def setting (session : Session α) : Setting α :=
  { operations := session.operations, content := session.content, rules := session.config.rules
    nesting := session.nesting }

def progress (session : Session α) : Progress := session.clock.progress

def player? (session : Session α) (id : String) : Option (Player α) :=
  session.players.find? fun player => player.id == id

/-- The player whose turn it is. -/
def activePlayer? (session : Session α) : Option (Player α) :=
  session.players[session.clock.player]?

/-- What the session shows of itself. -/
def snapshot (session : Session α) : SessionSnapshot α :=
  { game := session.progress
    players := session.players.map fun player => player.snapshot session.content.catalog
    recentGains := session.recentGains }

/-! ## The parts of an operation -/

/-- The phase in which the game stands. -/
def currentPhase : SessionAttempt α (Phase α) := do
  .ofOption .outOfRange (← get).clock.phase?

/-- The player whose turn it is. -/
def currentPlayer : SessionAttempt α (Player α) := do
  .ofOption .outOfRange (← get).activePlayer?

/-- Moves the clock. -/
def moveClock (move : Clock α → Except ClockError (Boundary × Clock α)) :
    SessionAttempt α Boundary := do
  let session ← get
  let (boundary, clock) ← .ofExcept ((move session.clock).mapError .clock)
  set { session with clock }
  return boundary

/-- Puts a player in the place of the active one and keeps the latest gains. -/
def commit (session : Session α) (draft : Draft α) : Session α :=
  { session with
    players := session.players.set session.clock.player draft.player
    recentGains := latest session.config.recentGainLimit (session.recentGains ++ draft.gains) }

variable [Amount α]

/-- Works on a draft of a player and brings the tiers up to date. -/
def draftOf (setting : Setting α) (work : DraftAttempt α Unit) (player : Player α) :
    Except (EffectError α) (Draft α) :=
  let attempt : DraftAttempt α Unit := do
    work
    let _ ← syncTiers setting
  match attempt.run { player } with
  | (.ok _, draft) => .ok draft
  | (.error error, _) => .error error

/-- Lets work be done on the active player. It counts if all of it succeeds. -/
def batch (failure : EffectError α → SessionError α) (work : Setting α → DraftAttempt α Unit) :
    SessionAttempt α (List (Gain α)) := do
  let player ← currentPlayer
  let session ← get
  let draft ← .ofExcept ((draftOf session.setting (work session.setting) player).mapError failure)
  set (session.commit draft)
  return draft.gains

end Session

end Realm
