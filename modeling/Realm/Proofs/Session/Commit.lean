import Realm.Proofs.Attempt
import Realm.Session.Turn

/-!
# Commits

A session is written in two ways only, by moving the clock and by committing a draft. This module
is about the second. Whatever a session does to its players goes through `batch`, which commits one
draft or leaves everything alone (`batch_ending`), so steps and the starts of phases are walks of
commits (`enter_commits`); and a commit changes the player at whom the clock stands and nobody else
(`touches_of_commits`).
-/

set_option autoImplicit false

namespace Realm
namespace Session

variable {α : Type}

/-! ## Commits -/

/-- A draft takes the place of the player whose turn it is. -/
inductive Commits (before : Session α) : Session α → Prop
  | draft (draft : Draft α) : Commits before (before.commit draft)

/-- At most the player at one place has changed. -/
structure Touches (place : Nat) (before after : Session α) : Prop where
  config : after.config = before.config
  operations : after.operations = before.operations
  nesting : after.nesting = before.nesting
  content : after.content = before.content
  size : after.players.length = before.players.length
  others : ∀ i, i ≠ place → after.players[i]? = before.players[i]?

theorem Touches.refl (place : Nat) (session : Session α) : session.Touches place session :=
  ⟨rfl, rfl, rfl, rfl, rfl, fun _ _ => rfl⟩

theorem Touches.commit {place : Nat} {before after : Session α} (h : before.Touches place after)
    (hplace : after.clock.player = place) (draft : Draft α) :
    before.Touches place (after.commit draft) := by
  refine ⟨h.config, h.operations, h.nesting, h.content, ?_, fun i hi => ?_⟩
  · unfold Session.commit
    rw [List.length_set, h.size]
  · unfold Session.commit
    rw [List.getElem?_set_ne, h.others i hi]
    rw [hplace]
    exact hi.symm

/-- Commits leave the clock where it is, and change the player at whom it stands. -/
theorem touches_of_commits {before after : Session α}
    (h : Relation.ReflTransGen Commits before after) :
    after.clock = before.clock ∧ before.Touches before.clock.player after := by
  induction h with
  | refl => exact ⟨rfl, .refl _ _⟩
  | tail _ hlast ih =>
    obtain ⟨hclock, htouches⟩ := ih
    cases hlast with
    | draft draft => exact ⟨hclock, htouches.commit (by rw [hclock]) draft⟩

/-! ## Where a session stands -/

section

variable {β : Type} {session : Session α}

theorem run_currentPhase_bind {next : Phase α → SessionAttempt α β} {phase : Phase α}
    (h : session.clock.phase? = some phase) :
    (currentPhase >>= next).run session = (next phase).run session := by
  unfold currentPhase
  rw [Attempt.run_bind, Attempt.run_get_bind, h, Attempt.run_ofOption_some]

theorem run_currentPhase_bind_none {next : Phase α → SessionAttempt α β}
    (h : session.clock.phase? = none) :
    (currentPhase >>= next).run session = (.error .outOfRange, session) := by
  unfold currentPhase
  rw [Attempt.run_bind, Attempt.run_get_bind, h, Attempt.run_ofOption_none]

theorem run_currentPlayer_bind {next : Player α → SessionAttempt α β} {player : Player α}
    (h : session.activePlayer? = some player) :
    (currentPlayer >>= next).run session = (next player).run session := by
  unfold currentPlayer
  rw [Attempt.run_bind, Attempt.run_get_bind, h, Attempt.run_ofOption_some]

theorem run_currentPlayer_bind_none {next : Player α → SessionAttempt α β}
    (h : session.activePlayer? = none) :
    (currentPlayer >>= next).run session = (.error .outOfRange, session) := by
  unfold currentPlayer
  rw [Attempt.run_bind, Attempt.run_get_bind, h, Attempt.run_ofOption_none]

theorem holds_currentPhase_bind (holds : Except (SessionError α) β × Session α → Prop)
    {next : Phase α → SessionAttempt α β} (hastray : holds (.error .outOfRange, session))
    (hnext : ∀ phase, session.clock.phase? = some phase → holds ((next phase).run session)) :
    holds ((currentPhase >>= next).run session) := by
  cases hphase : session.clock.phase? with
  | none =>
    rw [run_currentPhase_bind_none hphase]
    exact hastray
  | some phase =>
    rw [run_currentPhase_bind hphase]
    exact hnext phase hphase

theorem holds_currentPlayer_bind (holds : Except (SessionError α) β × Session α → Prop)
    {next : Player α → SessionAttempt α β} (hastray : holds (.error .outOfRange, session))
    (hnext : ∀ player, session.activePlayer? = some player → holds ((next player).run session)) :
    holds ((currentPlayer >>= next).run session) := by
  cases hplayer : session.activePlayer? with
  | none =>
    rw [run_currentPlayer_bind_none hplayer]
    exact hastray
  | some player =>
    rw [run_currentPlayer_bind hplayer]
    exact hnext player hplayer

theorem run_moveClock (move : Clock α → Except ClockError (Boundary × Clock α))
    (session : Session α) :
    (moveClock move).run session =
      match move session.clock with
      | .ok (boundary, clock) => (.ok boundary, { session with clock })
      | .error error => (.error (.clock error), session) := by
  unfold moveClock
  rw [Attempt.run_get_bind, Attempt.run_ofExcept_bind]
  cases move session.clock with
  | error error => rfl
  | ok moved => rfl

end

variable [Amount α]

/-! ## What operations commit -/

/-- A draft that is finished is what the work and a pass over the tiers have left. -/
theorem run_of_draftOf {setting : Setting α} {work : DraftAttempt α Unit} {player : Player α}
    {draft : Draft α} (h : draftOf setting work player = .ok draft) :
    ∃ worked count, work.run { player } = (.ok (), worked) ∧
      (syncTiers setting).run worked = (.ok count, draft) := by
  unfold draftOf at h
  dsimp only at h
  split at h
  · rename_i hrun
    cases h
    obtain ⟨_, worked, hwork, hrun⟩ := Attempt.run_bind_eq_ok.1 hrun
    obtain ⟨count, last, hsync, hrun⟩ := Attempt.run_bind_eq_ok.1 hrun
    cases hrun
    exact ⟨worked, count, hwork, hsync⟩
  · cases h

/-- A batch that fails leaves the session alone, and one that succeeds commits a draft. -/
inductive BatchEnding (failure : EffectError α → SessionError α) (session : Session α) :
    Except (SessionError α) (List (Gain α)) × Session α → Prop
  | astray : BatchEnding failure session (.error .outOfRange, session)
  | failed (error : EffectError α) : BatchEnding failure session (.error (failure error), session)
  | committed (draft : Draft α) :
      BatchEnding failure session (.ok draft.gains, session.commit draft)

theorem run_batch {session : Session α} {player : Player α}
    (hplayer : session.activePlayer? = some player) (failure : EffectError α → SessionError α)
    (work : Setting α → DraftAttempt α Unit) :
    (batch failure work).run session =
      match draftOf session.setting (work session.setting) player with
      | .error error => (.error (failure error), session)
      | .ok draft => (.ok draft.gains, session.commit draft) := by
  unfold batch
  rw [run_currentPlayer_bind hplayer, Attempt.run_get_bind, Attempt.run_ofExcept_bind]
  cases draftOf session.setting (work session.setting) player with
  | error error => rfl
  | ok draft => rfl

theorem batch_ending (failure : EffectError α → SessionError α)
    (work : Setting α → DraftAttempt α Unit) (session : Session α) :
    session.BatchEnding failure ((batch failure work).run session) := by
  cases hplayer : session.activePlayer? with
  | none =>
    unfold batch
    rw [run_currentPlayer_bind_none hplayer]
    exact .astray
  | some player =>
    rw [run_batch hplayer]
    cases draftOf session.setting (work session.setting) player with
    | error error => exact .failed error
    | ok draft => exact .committed draft

/-- What holds of a failure and of going on with a commit, holds of a sequence that begins with a
    batch. -/
theorem holds_batch_bind {β : Type} (holds : Except (SessionError α) β × Session α → Prop)
    {failure : EffectError α → SessionError α} {work : Setting α → DraftAttempt α Unit}
    {next : List (Gain α) → SessionAttempt α β} {session : Session α}
    (hastray : holds (.error .outOfRange, session))
    (hfailed : ∀ error, holds (.error (failure error), session))
    (hcommitted : ∀ draft : Draft α, holds ((next draft.gains).run (session.commit draft))) :
    holds ((batch failure work >>= next).run session) := by
  have hending := batch_ending failure work session
  rw [Attempt.run_bind]
  generalize (batch failure work).run session = result at hending ⊢
  cases hending with
  | astray => exact hastray
  | failed error => exact hfailed error
  | committed draft => exact hcommitted draft

theorem batch_commits (failure : EffectError α → SessionError α)
    (work : Setting α → DraftAttempt α Unit) (session : Session α) :
    (batch failure work).Walks Commits session := by
  have hending := batch_ending failure work session
  unfold Attempt.Walks
  rw [Attempt.after_def]
  generalize (batch failure work).run session = result at hending ⊢
  cases hending with
  | astray => exact .refl
  | failed error => exact .refl
  | committed draft => exact .single (.draft draft)

/-- How running a step may end: there is no step, it has nothing to do, or a batch is run. -/
inductive RunStepEnding (session : Session α) :
    Except (SessionError α) Unit × Session α → Prop
  | astray : RunStepEnding session (.error .outOfRange, session)
  | quiet : RunStepEnding session (.ok (), session)
  | failed (error : EffectError α) : RunStepEnding session (.error (.effect error), session)
  | committed (draft : Draft α) : RunStepEnding session (.ok (), session.commit draft)

theorem runStep_ending (session : Session α) : session.RunStepEnding (runStep.run session) := by
  unfold runStep
  refine holds_currentPhase_bind _ .astray fun phase _ => ?_
  rw [Attempt.run_get_bind]
  refine Attempt.holds_ofOption_bind _ .astray fun step _ => ?_
  refine holds_currentPlayer_bind _ .astray fun player _ => ?_
  split
  · exact .quiet
  · exact holds_batch_bind _ .astray .failed .committed

theorem runStep_commits (session : Session α) : runStep.Walks Commits session := by
  have hending := runStep_ending session
  unfold Attempt.Walks
  rw [Attempt.after_def]
  generalize runStep.run session = result at hending ⊢
  cases hending with
  | astray => exact .refl
  | quiet => exact .refl
  | failed error => exact .refl
  | committed draft => exact .single (.draft draft)

theorem enter_commits (phase : Phase α) (session : Session α) :
    (enter phase).Walks Commits session :=
  (batch_commits _ _ session).bind fun _ between _ => runStep_commits between

end Session

end Realm
