import Realm.Proofs.Effect.Run
import Realm.Proofs.Session.Reach

/-!
# Players that come about

A session has one way to a player: a draft of the one whose turn it is, on which the interpreter
works, takes the player's place. So every operation on a session is made of two kinds of steps
(`Session.Step`), moving the clock and committing a draft that has been worked on, and what such
work keeps when it goes well, sessions keep (`Reachable.players`). In particular every player of a
session that comes about has been made of a new one by steps of the interpreter
(`Reachable.comesAbout`), and what these keep, sessions keep as well (`Reachable.holds`).
-/

set_option autoImplicit false

namespace Realm

variable {α : Type} [Amount α] {setting : Setting α}

/-! ## Drafts -/

/-- To have been reached by steps of the interpreter is kept by further ones. -/
theorem syncs_reached (setting : Setting α) (draft : Draft α) :
    Syncs setting (fun _ => False) (fun _ => True)
      (Relation.ReflTransGen (Draft.Step setting) draft) :=
  syncs_of_step fun _ _ hstep hreach => hreach.tail hstep

theorem applyEffect_steps (effect : Effect α) (multiplier : Nat) (draft : Draft α) :
    (applyEffect setting effect multiplier).Walks (Draft.Step setting) draft :=
  (applyEffect_safe (syncs_reached setting draft).applies trivial multiplier .refl).1

theorem applyAll_steps (effects : List (Effect α)) (draft : Draft α) :
    (applyAll setting effects).Walks (Draft.Step setting) draft :=
  Attempt.walks_forM (fun effect => applyEffect_steps effect 1) draft

theorem addBuilding_steps (id : String) (draft : Draft α) :
    (addBuilding setting id).Walks (Draft.Step setting) draft := by
  refine (addBuilding_safe (syncs_reached setting draft).applies (fun passive _ => ?_) .refl).1
  exact attachable_of_step (fun _ _ hstep hreach => hreach.tail hstep) _ passive

theorem removePassive_steps (id : String) (draft : Draft α) :
    (removePassive setting id).Walks (Draft.Step setting) draft :=
  (removePassive_safe (syncs_reached setting draft).removes id .refl).1

theorem syncTiers_steps (draft : Draft α) :
    (syncTiers setting).Walks (Draft.Step setting) draft :=
  (syncTiers_safe (syncs_reached setting draft) .refl).1

/-- A write that moves no lower bound is a step. -/
theorem record_steps (call : Ledger.Write α) {draft : Draft α}
    (hlower : call.KeepsLower draft.player.resources) :
    (Draft.record (call.attempt setting.content.catalog)).Walks (Draft.Step setting) draft :=
  Attempt.walks_of_step (.taking _ (.write call hlower))

theorem phaseStart_steps (phase : String) (draft : Draft α) :
    (phaseStart setting phase).Walks (Draft.Step setting) draft := by
  refine Draft.walks_current (Attempt.Walks.bind ?_ fun _ between _ => ?_)
  · refine Attempt.walks_forM (fun id state => ?_) draft
    exact (removePassive_steps id state).bind fun _ _ _ => Attempt.walks_pure _ _
  · exact Draft.walks_current (Attempt.walks_forM (fun _ => applyAll_steps _) between)

theorem equip_steps (start : Start α) (draft : Draft α) :
    (Session.equip setting start).Walks (Draft.Step setting) draft := by
  rw [Session.equip_eq]
  refine Attempt.Walks.bind ?_ fun _ rich _ => (applyAll_steps _ rich).bind fun _ landed _ => ?_
  · refine Attempt.walks_forM (fun entry state => ?_) draft
    exact record_steps (.setAmount entry.1 entry.2 .reject) trivial
  · refine Attempt.Walks.bind ?_ fun _ between _ => applyAll_steps start.effects between
    refine Attempt.walks_forM (fun building state => ?_) landed
    exact (addBuilding_steps building state).bind fun _ _ _ => Attempt.walks_pure _ _

theorem payCost_steps (entry : String × α) (draft : Draft α) :
    (payCost setting entry).Walks (Draft.Step setting) draft :=
  record_steps (.apply { resource := entry.1, direction := .remove, magnitude := entry.2 }) trivial

namespace Session

/-- A draft that is finished has been made of the player by steps of the interpreter. -/
theorem draftOf_steps {work : DraftAttempt α Unit} {player : Player α} {draft : Draft α}
    (hwork : work.Walks (Draft.Step setting) { player })
    (h : draftOf setting work player = .ok draft) :
    Relation.ReflTransGen (Draft.Step setting) { player } draft := by
  obtain ⟨worked, count, hrun, hsync⟩ := run_of_draftOf h
  have hworked := hwork.reaches
  have hsynced : Relation.ReflTransGen (Draft.Step setting) worked
      ((syncTiers setting).run worked).2 := (syncTiers_steps worked).reaches
  rw [hrun] at hworked
  rw [hsync] at hsynced
  exact hworked.trans hsynced

/-! ## Sessions -/

/-- The work that a session has done on a player in one batch. -/
inductive Work (setting : Setting α) : DraftAttempt α Unit → Prop
  | phaseStart (phase : String) : Work setting (phaseStart setting phase)
  | effects (effects : List (Effect α)) : Work setting (applyAll setting effects)
  | action (costs : List (String × α)) (effects : List (Effect α)) : Work setting (do
      costs.forM (payCost setting)
      applyAll setting effects)

theorem Work.steps {work : DraftAttempt α Unit} (h : Work setting work) (draft : Draft α) :
    work.Walks (Draft.Step setting) draft := by
  cases h with
  | phaseStart phase => exact phaseStart_steps phase draft
  | effects effects => exact applyAll_steps effects draft
  | action costs effects =>
    exact (Attempt.walks_forM payCost_steps draft).bind
      fun _ between _ => applyAll_steps effects between

/-- A step of a session: the clock moves, or the player whose turn it is gives place to a draft that
    has been worked on. -/
inductive Step (before : Session α) : Session α → Prop
  | move (clock : Clock α) : Step before { before with clock }
  | commit (player : Player α) (work : DraftAttempt α Unit) (draft : Draft α)
      (hactive : before.activePlayer? = some player) (hwork : Work before.setting work)
      (hdraft : draftOf before.setting work player = .ok draft) :
      Step before (before.commit draft)

section

variable {β : Type} {session : Session α}

theorem walks_currentPhase_bind {next : Phase α → SessionAttempt α β}
    (h : ∀ phase, session.clock.phase? = some phase → (next phase).Walks Step session) :
    (currentPhase >>= next).Walks Step session :=
  holds_currentPhase_bind (fun result => Relation.ReflTransGen Step session result.2) .refl h

theorem walks_currentPlayer_bind {next : Player α → SessionAttempt α β}
    (h : ∀ player, session.activePlayer? = some player → (next player).Walks Step session) :
    (currentPlayer >>= next).Walks Step session :=
  holds_currentPlayer_bind (fun result => Relation.ReflTransGen Step session result.2) .refl h

theorem batch_steps {failure : EffectError α → SessionError α}
    {work : Setting α → DraftAttempt α Unit}
    (hwork : Work session.setting (work session.setting)) :
    (batch failure work).Walks Step session := by
  refine walks_currentPlayer_bind fun player hplayer => ?_
  have hcommit : ∀ draft, (draftOf session.setting (work session.setting) player).mapError failure
      = .ok draft → Step session (session.commit draft) := fun draft hdraft =>
    .commit player _ draft hplayer hwork (Outcome.mapError_eq_ok.1 hdraft)
  exact Attempt.walks_ofExcept_bind fun draft hdraft => Attempt.walks_of_step (hcommit draft hdraft)

end

theorem runStep_steps (session : Session α) : runStep.Walks Step session := by
  refine walks_currentPhase_bind fun phase _ => Attempt.walks_ofOption_bind fun step _ => ?_
  refine walks_currentPlayer_bind fun player _ => ?_
  split
  · exact Attempt.walks_pure _ _
  · exact (batch_steps (.effects step.effects)).bind fun _ _ _ => Attempt.walks_pure _ _

theorem enter_steps (phase : Phase α) (session : Session α) :
    (enter phase).Walks Step session :=
  (batch_steps (.phaseStart phase.id)).bind fun _ between _ => runStep_steps between

theorem moveClock_steps (move : Clock α → Except ClockError (Boundary × Clock α))
    (session : Session α) : (moveClock move).Walks Step session := by
  unfold Attempt.Walks
  rw [Attempt.after_def, run_moveClock]
  cases move session.clock with
  | error error => exact .refl
  | ok moved => exact .single (.move moved.2)

theorem enterPhase_steps (slack : Nat) (session : Session α) :
    (enterPhase slack).Walks Step session := by
  induction slack generalizing session with
  | zero =>
    refine walks_currentPhase_bind fun phase _ => walks_currentPlayer_bind fun player _ => ?_
    split
    · exact Attempt.walks_fail _ _
    · exact enter_steps phase session
  | succ slack ih =>
    refine walks_currentPhase_bind fun phase _ => walks_currentPlayer_bind fun player _ => ?_
    split
    · exact (moveClock_steps _ session).bind fun _ between _ => ih between
    · exact enter_steps phase session

theorem settle_steps (boundary : Boundary) (session : Session α) :
    (settle boundary).Walks Step session := by
  unfold settle
  split
  · exact enterPhase_steps session.clock.phaseSlots session
  · exact runStep_steps session

theorem Move.steps (move : Move) (session : Session α) :
    (move.attempt : SessionAttempt α Progress).Walks Step session := by
  unfold Attempt.Walks
  rw [Attempt.after_def, run_move]
  cases move.onClock session.clock with
  | error error => exact .refl
  | ok moved =>
    obtain ⟨boundary, clock⟩ := moved
    have hsettle := (settle_steps boundary { session with clock }).reaches
    dsimp only
    generalize (settle boundary).run { session with clock } = result at hsettle ⊢
    obtain ⟨outcome, after⟩ := result
    cases outcome with
    | error error =>
      -- The session is put back as it was, whatever had been committed.
      exact .refl
    | ok done => exact hsettle.head (.move clock)

theorem perform_steps (id : String) (params : ActionParams α) (session : Session α) :
    (perform id params).Walks Step session := by
  refine walks_currentPhase_bind fun phase _ => ?_
  split
  · exact Attempt.walks_fail _ _
  refine Attempt.walks_ofOption_bind fun action _ => ?_
  refine Attempt.walks_ofExcept_bind fun effects _ => ?_
  refine Attempt.walks_ofExcept_bind fun requirements _ => ?_
  refine walks_currentPlayer_bind fun player _ => ?_
  refine Attempt.walks_ofExcept_bind fun unmet _ => ?_
  split
  · exact (batch_steps (.action _ effects)).bind fun _ _ _ => Attempt.walks_pure _ _
  · exact Attempt.walks_pure _ _

theorem Call.steps (call : Call α) (session : Session α) : call.attempt.Walks Step session := by
  cases call with
  | move kind => exact (kind.steps session).bind fun _ _ _ => Attempt.walks_pure _ _
  | perform action params =>
    exact (perform_steps action params session).bind fun _ _ _ => Attempt.walks_pure _ _

end Session

/-! ## Players -/

/-- What a step of the interpreter makes of a player. -/
inductive Player.Step (setting : Setting α) (before after : Player α) : Prop
  | draft (earlier later : List (Gain α))
      (h : Draft.Step setting { player := before, gains := earlier }
        { player := after, gains := later })

/-- Steps of the interpreter have made the player of a new one. -/
def Player.ComesAbout (setting : Setting α) (player : Player α) : Prop :=
  ∃ id name, Relation.ReflTransGen (Player.Step setting)
    (.initial setting.content.catalog id name) player

theorem Player.steps_of_draft {before after : Draft α}
    (h : Relation.ReflTransGen (Draft.Step setting) before after) :
    Relation.ReflTransGen (Player.Step setting) before.player after.player :=
  h.lift (·.player) fun _ _ hstep => .draft _ _ hstep

theorem Player.ComesAbout.steps {before after : Draft α}
    (h : before.player.ComesAbout setting)
    (hsteps : Relation.ReflTransGen (Draft.Step setting) before after) :
    after.player.ComesAbout setting := by
  obtain ⟨id, name, hborn⟩ := h
  exact ⟨id, name, hborn.trans (Player.steps_of_draft hsteps)⟩

namespace Session

theorem Step.setting_eq {before after : Session α} (h : Step before after) :
    after.setting = before.setting := by
  cases h with
  | move clock => rfl
  | commit player work draft hactive hwork hdraft => rfl

theorem setting_of_steps {before after : Session α} (h : Relation.ReflTransGen Step before after) :
    after.setting = before.setting := by
  induction h with
  | refl => rfl
  | tail _ hstep ih => rw [hstep.setting_eq, ih]

/-- What work keeps that has gone well, a session keeps of its players. -/
theorem players_of_steps {before after : Session α} (h : Relation.ReflTransGen Step before after)
    {holds : Player α → Prop}
    (hwork : ∀ work player draft, Work before.setting work → holds player →
      draftOf before.setting work player = .ok draft → holds draft.player)
    (hbefore : ∀ player ∈ before.players, holds player) :
    ∀ player ∈ after.players, holds player := by
  induction h with
  | refl => exact hbefore
  | tail hsteps hstep ih =>
    cases hstep with
    | move clock => exact ih
    | commit active work draft hactive hdone hdraft =>
      rw [setting_of_steps hsteps] at hdone hdraft
      intro player hplayer
      rcases List.mem_or_eq_of_mem_set hplayer with hold | rfl
      · exact ih player hold
      · exact hwork work active draft hdone (ih active (List.mem_of_getElem? hactive)) hdraft

theorem seat_steps {start : Start α} {place : Seat} {player : Player α}
    (h : seat setting start place = .ok player) :
    Relation.ReflTransGen (Player.Step setting)
      (.initial setting.content.catalog place.id place.name) player := by
  obtain ⟨draft, hdraft, h⟩ := Outcome.bind_eq_ok.1 h
  cases h
  exact Player.steps_of_draft (draftOf_steps (equip_steps start _) hdraft)

/-- What holds of everyone who takes a seat, and what work keeps that has gone well, holds of the
    players of every session that comes about. -/
theorem Reachable.players {session : Session α} (h : session.Reachable) {holds : Player α → Prop}
    (hseat : ∀ start place player, seat session.setting start place = .ok player → holds player)
    (hwork : ∀ work player draft, Work session.setting work → holds player →
      draftOf session.setting work player = .ok draft → holds draft.player) :
    ∀ player ∈ session.players, holds player := by
  induction h with
  | start config content operations nesting session h =>
    obtain ⟨clock, players, -, hseats, hsettle⟩ := start_eq_ok h
    have hsettled := (settle_steps .turn
      ({ config, operations, nesting, content, clock, players } : Session α)).reaches
    rw [hsettle] at hsettled
    rw [setting_of_steps hsettled] at hseat hwork
    refine players_of_steps hsettled hwork fun player hplayer => ?_
    obtain ⟨place, -, hplace⟩ := Outcome.mem_of_mapM hseats hplayer
    exact hseat config.start place player hplace
  | call session _ call ih =>
    have hsteps : Relation.ReflTransGen Step session (call.attempt.after session) :=
      call.steps session
    rw [setting_of_steps hsteps] at hseat hwork
    exact players_of_steps hsteps hwork (ih hseat hwork)

/-- Every player of a session that comes about has been made of a new one by steps of the
    interpreter. -/
theorem Reachable.comesAbout {session : Session α} (h : session.Reachable) :
    ∀ player ∈ session.players, player.ComesAbout session.setting := by
  refine h.players (fun start place player hseat => ⟨place.id, place.name, seat_steps hseat⟩) ?_
  intro work player draft hwork hplayer hdraft
  exact hplayer.steps (draftOf_steps (hwork.steps _) hdraft)

/-- What holds of new players and what every step of the interpreter keeps, holds of the players of
    every session that comes about. -/
theorem Reachable.holds {session : Session α} (h : session.Reachable) (holds : Player α → Prop)
    (hinitial : ∀ id name, holds (.initial session.content.catalog id name))
    (hstep : ∀ before after, Draft.Step session.setting before after →
      holds before.player → holds after.player) :
    ∀ player ∈ session.players, holds player := by
  intro player hplayer
  obtain ⟨id, name, hsteps⟩ := h.comesAbout player hplayer
  clear hplayer
  induction hsteps with
  | refl => exact hinitial id name
  | tail _ hlast ih =>
    obtain ⟨earlier, later, hlast⟩ := hlast
    exact hstep _ _ hlast ih

end Session

end Realm
