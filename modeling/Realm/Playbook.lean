import Realm.Broadcast

/-!
# The playbook

A fixed way to play, for games without players. Whoever is in an action phase tries the actions of
`plan` one after the other and ends the phase; that an action is rejected does not matter. `play`
goes on in this way until a number of turns is over.

Ending a phase moves the game on by one phase at least, so between two turns there are at most as
many action phases as a turn has phases for all players. That bounds the rounds of a game.
-/

set_option autoImplicit false

namespace Realm

namespace Playbook

variable {α : Type}

/-- What a player tries in an action phase: to build a farm where there is room for it, or else to
    win a land; to till the first land that is small; and two things more. -/
def plan (player : PlayerSnapshot α) : List (String × ActionParams α) :=
  let grow : String × ActionParams α :=
    match player.lands.find? fun land => decide (0 < land.freeSlots) with
    | some land => ("develop", .ofList [("id", .text "farm"), ("landId", .text land.id)])
    | none => ("expand", .empty)
  let till : Option (String × ActionParams α) :=
    (player.lands.find? fun land => decide (land.slots < 2)).map fun land =>
      ("till", .ofList [("landId", .text land.id)])
  grow :: till.toList ++ [("raise_council", .empty), ("tax", .empty)]

/-- How many times the game is looked at in search of an action phase. -/
def searchLimit : Nat := 256

variable [Amount α]

/-- Goes on step by step to an action phase, looking at most so many times. -/
def seekActionPhase : Nat → BroadcastAttempt α Unit
  | 0 => Attempt.fail .allPhasesSkipped
  | looks + 1 => do
    if (← get).latest.game.actionPhase then
      return
    else
      let _ ← Broadcast.enqueue Session.advance
      seekActionPhase looks

/-- Plays one action phase: tries what is planned and ends the phase. -/
def playPhase (player : PlayerSnapshot α) : BroadcastAttempt α Unit := do
  (plan player).forM fun step => do
    let _ ← Broadcast.enqueue (Session.perform step.1 step.2)
  let _ ← Broadcast.enqueue Session.endPhase

/-- Plays action phase after action phase until the last turn is reached. -/
def playUntil (lastTurn : Nat) : Nat → BroadcastAttempt α Unit
  | 0 => Attempt.fail .outOfRange
  | rounds + 1 => do
    seekActionPhase searchLimit
    let snapshot := (← get).latest
    if lastTurn ≤ snapshot.game.turn then
      return
    else
      let player ← .ofOption .outOfRange
        (snapshot.players.find? fun player => player.id == snapshot.game.activePlayer)
      playPhase player
      playUntil lastTurn rounds

/-- Plays a number of turns. -/
def play (turns : Nat) : BroadcastAttempt α Unit := do
  let broadcast ← get
  let turn := broadcast.latest.game.turn
  let lastTurn := min (turn + turns) Document.countLimit
  playUntil lastTurn ((lastTurn - turn) * broadcast.session.clock.phaseSlots + 1)

end Playbook

end Realm
