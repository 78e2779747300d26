import Realm.Proofs.Session.Search
import Realm.Session.Action

/-!
# Calls do all of their work or none

Three operations may be called on a session, and each may fail at many points: before anything has
happened, after the clock has moved and moved again over skipped phases, after the start of a phase
has been committed and its step has not. `call_all_or_nothing` says that none of this can be seen
afterwards, and that a call that succeeds has changed one player, the one whose turn it is then.

There are two ways of going back. An action works on a draft until nothing can fail any more
(`perform_ending`), so there is nothing to take back. A move works on the session itself, and puts
back the clock, the players and the gains; that this restores the session is a matter of settling
changing nothing else (`run_move`). And one player only has changed where it succeeds, because all
that settling commits is committed after its last move (`settle_commits`). `Call.ending` puts the
two together: it says once how a call may end.
-/

set_option autoImplicit false

namespace Realm
namespace Session

variable {α : Type} [Amount α]

/-! ## Moves -/

/-- A call that moves a game on. -/
inductive Move where
  | advance
  | endPhase
  deriving DecidableEq

/-- Where a move takes the clock. -/
def Move.onClock {α : Type} : Move → Clock α → Except ClockError (Boundary × Clock α)
  | .advance => Clock.advance
  | .endPhase => Clock.nextPhase

/-- Carries out a move. -/
def Move.attempt : Move → SessionAttempt α Progress
  | .advance => Session.advance
  | .endPhase => Session.endPhase

theorem settle_commits (boundary : Boundary) (session : Session α) :
    ∃ clock, Relation.ReflTransGen Clock.Enters session.clock clock ∧
      Relation.ReflTransGen Commits { session with clock } ((settle boundary).after session) := by
  rw [Attempt.after_def]
  unfold settle
  split
  · rw [Attempt.run_get_bind]
    obtain ⟨seen, hsearch⟩ := search_enterPhase session.clock.phaseSlots session
    exact hsearch.commits
  · exact ⟨session.clock, .refl, runStep_commits session⟩

/-- A turn that has settled has changed the player whose turn it is now. -/
theorem settle_touches {boundary : Boundary} {session after : Session α} {clock : Clock α}
    {outcome : Except (SessionError α) Unit}
    (h : (settle boundary).run { session with clock } = (outcome, after)) :
    session.Touches after.clock.player after := by
  obtain ⟨last, -, hcommits⟩ := settle_commits boundary { session with clock }
  rw [Attempt.after_def, h] at hcommits
  obtain ⟨hclock, htouches⟩ := touches_of_commits hcommits
  rw [hclock]
  exact ⟨htouches.config, htouches.operations, htouches.nesting, htouches.content, htouches.size,
    htouches.others⟩

/-- A session that has settled somewhere else is put back by putting back its clock, its players and
    its gains. -/
theorem restore_settled {boundary : Boundary} {session after : Session α} {clock : Clock α}
    {outcome : Except (SessionError α) Unit}
    (h : (settle boundary).run { session with clock } = (outcome, after)) :
    { after with
      clock := session.clock, players := session.players, recentGains := session.recentGains }
      = session := by
  obtain ⟨hconfig, hoperations, hnesting, hcontent, -, -⟩ := settle_touches h
  cases after
  dsimp only at hconfig hoperations hnesting hcontent
  subst hconfig hoperations hnesting hcontent
  rfl

omit [Amount α] in
theorem run_restoring {β : Type} (operation : SessionAttempt α β) (session : Session α) :
    (restoring operation).run session =
      match operation.run session with
      | (.ok value, after) => (.ok value, after)
      | (.error error, after) =>
        (.error error, { after with
          clock := session.clock, players := session.players,
          recentGains := session.recentGains }) := rfl

/-- How a move ends: as settling ends where the clock has moved to, and with the old session if
    that fails. -/
theorem run_move (move : Move) (session : Session α) :
    move.attempt.run session =
      match move.onClock session.clock with
      | .error error => (.error (.clock error), session)
      | .ok (boundary, clock) =>
        match (settle boundary).run { session with clock } with
        | (.error error, _) => (.error error, session)
        | (.ok _, after) => (.ok after.progress, after) := by
  have hmoveOn : (move.attempt : SessionAttempt α Progress) = moveOn move.onClock := by
    cases move with
    | advance => rfl
    | endPhase => rfl
  unfold moveOn at hmoveOn
  rw [hmoveOn, run_restoring, Attempt.run_bind, run_moveClock]
  cases move.onClock session.clock with
  | error error => rfl
  | ok moved =>
    obtain ⟨boundary, clock⟩ := moved
    dsimp only
    rw [Attempt.run_bind]
    cases hsettle : (settle boundary).run { session with clock } with
    | mk outcome after =>
      cases outcome with
      | ok done => rfl
      | error error =>
        show (Except.error error, { after with
          clock := session.clock, players := session.players, recentGains := session.recentGains })
            = (Except.error error, session)
        rw [restore_settled hsettle]

/-! ## Actions -/

/-- How an action may end. -/
inductive PerformEnding (session : Session α) :
    Except (SessionError α) (ActionOutcome α) × Session α → Prop
  | failed (error : SessionError α) : PerformEnding session (.error error, session)
  | rejected (action : String) (unmet : List (Unmet α)) :
      PerformEnding session (.ok (.rejected action unmet), session)
  | completed (action : String) (draft : Draft α) :
      PerformEnding session (.ok (.completed action draft.gains), session.commit draft)

theorem perform_ending (id : String) (params : ActionParams α) (session : Session α) :
    session.PerformEnding ((perform id params).run session) := by
  unfold perform
  refine holds_currentPhase_bind _ (.failed _) fun phase _ => ?_
  split
  · exact .failed _
  · rw [Attempt.run_get_bind]
    refine Attempt.holds_ofOption_bind _ (.failed _) fun action _ => ?_
    refine Attempt.holds_ofExcept_bind _ .failed fun effects _ => ?_
    refine Attempt.holds_ofExcept_bind _ .failed fun requirements _ => ?_
    refine holds_currentPlayer_bind _ (.failed _) fun player _ => ?_
    refine Attempt.holds_ofExcept_bind _ .failed fun unmet _ => ?_
    split
    · exact holds_batch_bind _ (.failed _) (fun _ => .failed _) (.completed action.id)
    · exact .rejected _ _

/-! ## Calls -/

/-- A call on a session. -/
inductive Call (α : Type) where
  | move (move : Move)
  | perform (action : String) (params : ActionParams α)

/-- What a call answers. -/
inductive Answer (α : Type) where
  | progress (progress : Progress)
  | outcome (outcome : ActionOutcome α)

/-- Carries out a call. -/
def Call.attempt : Call α → SessionAttempt α (Answer α)
  | .move kind => do return .progress (← kind.attempt)
  | .perform action params => do return .outcome (← Session.perform action params)

/-- How a call may end. -/
inductive Call.Ending (session : Session α) :
    Call α → Except (SessionError α) (Answer α) × Session α → Prop
  | failed (call : Call α) (error : SessionError α) :
      Ending session call (.error error, session)
  | moved (move : Move) (boundary : Boundary) (clock : Clock α) (after : Session α)
      (hmove : move.onClock session.clock = .ok (boundary, clock))
      (hsettle : (settle boundary).run { session with clock } = (.ok (), after)) :
      Ending session (.move move) (.ok (.progress after.progress), after)
  | rejected (id : String) (params : ActionParams α) (action : String) (unmet : List (Unmet α)) :
      Ending session (.perform id params) (.ok (.outcome (.rejected action unmet)), session)
  | completed (id : String) (params : ActionParams α) (action : String) (draft : Draft α) :
      Ending session (.perform id params)
        (.ok (.outcome (.completed action draft.gains)), session.commit draft)

theorem Call.ending (call : Call α) (session : Session α) :
    call.Ending session (call.attempt.run session) := by
  unfold Call.attempt
  cases call with
  | move kind =>
    dsimp only
    rw [Attempt.run_bind, run_move]
    cases hmove : kind.onClock session.clock with
    | error error => exact .failed _ _
    | ok moved =>
      obtain ⟨boundary, clock⟩ := moved
      dsimp only
      cases hsettle : (settle boundary).run { session with clock } with
      | mk outcome after =>
        cases outcome with
        | error error => exact .failed _ error
        | ok done => exact .moved kind boundary clock after hmove hsettle
  | perform action params =>
    have hending := perform_ending action params session
    dsimp only
    rw [Attempt.run_bind]
    generalize (Session.perform action params).run session = result at hending ⊢
    cases hending with
    | failed error => exact .failed _ error
    | rejected action unmet => exact .rejected _ _ action unmet
    | completed action draft => exact .completed _ _ action draft

/-- **Calls do all of their work or none, and concern one player.** A call that fails or is rejected
    leaves the session as it was. One that succeeds leaves every player alone but the one whose turn
    it is afterwards, and an action does not move the clock. -/
theorem call_all_or_nothing (call : Call α) (session : Session α) :
    match call.attempt.run session with
    | (.error _, after) => after = session
    | (.ok (.outcome (.rejected _ _)), after) => after = session
    | (.ok (.outcome (.completed _ _)), after) =>
      session.Touches after.clock.player after ∧ after.clock = session.clock
    | (.ok (.progress _), after) => session.Touches after.clock.player after := by
  have hending := call.ending session
  generalize call.attempt.run session = result at hending ⊢
  cases hending with
  | failed call error => rfl
  | moved move boundary clock after hmove hsettle => exact settle_touches hsettle
  | rejected id params action unmet => rfl
  | completed id params action draft =>
    exact ⟨(Touches.refl _ session).commit rfl draft, rfl⟩

end Session

end Realm
