import Realm.Proofs.Clock.Order
import Realm.Proofs.Session.Feed

/-!
# Sessions keep their place

A session holds its players, its clock counts them, and the two lists are made apart. Nothing in a
session compares them again: what looks up a player, a phase or a step and does not find it reports
that the session is out of range. In a session whose configuration has been checked this never
comes up, because the clock never leaves its layout, a commit replaces a player by another, and no
effect touches the id of a player.

There are two invariants. `Standing` is all that is needed for nothing to be out of range, and every
commit keeps it, whatever the draft; so errors are looked for with it alone (`Call.stands`). That the
position is one of the configuration and that the player is the one who has the seat (`Anchored`)
needs drafts that effects have made, and is kept by calls as wholes (`Anchored.call`).
-/

set_option autoImplicit false

namespace Realm

variable {α : Type}

/-! ## Configurations -/

theorem Config.steps_of_checkPhases {seen : List String} {phases : List (Phase α)}
    (h : Config.checkPhases seen phases = .ok ()) :
    ∀ phase ∈ phases, phase.steps.isEmpty = false := by
  induction phases generalizing seen with
  | nil => exact fun phase hphase => (List.not_mem_nil hphase).elim
  | cons phase rest ih =>
    unfold Config.checkPhases at h
    dsimp only at h
    split at h
    · cases h
    · split at h
      · cases h
      · rename_i hsteps
        split at h
        · cases h
        · exact List.forall_mem_cons.2 ⟨Bool.eq_false_iff.2 hsteps, ih h⟩

/-- A configuration that passes the check has a layout that a clock accepts. -/
theorem Config.clock_starts {config : Config α} (h : config.validate = .ok ()) :
    ∃ clock, Clock.start (config.seats.map (·.id)) config.phases = .ok clock := by
  have hcheck : config.check = .ok () := Outcome.mapError_eq_ok.1 h
  unfold Config.check at hcheck
  dsimp only at hcheck
  split at hcheck
  · cases hcheck
  · rename_i hseats
    split at hcheck
    · cases hcheck
    · rename_i hphases
      split at hcheck
      · cases hcheck
      · obtain ⟨hchecked, -⟩ := Outcome.then_eq_ok.1 hcheck
        have hsteps := Config.steps_of_checkPhases hchecked
        have hnone : config.phases.find? (fun phase => phase.steps.isEmpty) = none := by
          refine List.find?_eq_none.2 fun phase hphase => ?_
          rw [hsteps phase hphase]
          exact Bool.false_ne_true
        unfold Clock.start
        rw [List.isEmpty_map, if_neg hseats, if_neg hphases, hnone]
        exact ⟨_, rfl⟩

/-! ## Standing somewhere -/

namespace Session

/-- The clock stands somewhere and counts the players of the session. -/
structure Standing (session : Session α) : Prop where
  clock : session.clock.Placed
  players : session.players.length = session.clock.players.length

namespace Standing

variable {session : Session α}

theorem moved (h : session.Standing) {clock : Clock α} (honward : session.clock.Onward clock) :
    { session with clock }.Standing :=
  ⟨honward.placed, h.players.trans (by rw [honward.layout.1])⟩

theorem commit (h : session.Standing) (draft : Draft α) : (session.commit draft).Standing := by
  refine ⟨h.clock, ?_⟩
  unfold Session.commit
  rw [List.length_set]
  exact h.players

theorem exists_player (h : session.Standing) : ∃ player, session.activePlayer? = some player := by
  have hplace : session.clock.player < session.players.length := by
    rw [h.players]
    exact h.clock.inRange.player
  exact ⟨_, List.getElem?_eq_getElem hplace⟩

theorem exists_step (h : session.Standing) :
    ∃ phase step, session.clock.phase? = some phase ∧ session.clock.step? = some step := by
  obtain ⟨phase, hphase, hstep⟩ := h.clock.step
  refine ⟨phase, phase.steps[session.clock.step], hphase, ?_⟩
  unfold Clock.step?
  rw [hphase]
  exact List.getElem?_eq_getElem hstep

end Standing

/-- The session goes on standing somewhere, and nothing is out of range. -/
abbrev Stands {β : Type} (attempt : SessionAttempt α β) (session : Session α) : Prop :=
  attempt.SafeAt Standing (· = .outOfRange) session

section

variable {β : Type} {session : Session α}

theorem stands_currentPhase {next : Phase α → SessionAttempt α β} (h : session.Standing)
    (hnext : ∀ phase, session.clock.phase? = some phase → Stands (next phase) session) :
    Stands (currentPhase >>= next) session := by
  obtain ⟨phase, -, hphase, -⟩ := h.exists_step
  unfold Stands Attempt.SafeAt
  rw [Attempt.after_def, Attempt.outcome_def, run_currentPhase_bind hphase]
  exact hnext phase hphase

theorem stands_currentPlayer {next : Player α → SessionAttempt α β} (h : session.Standing)
    (hnext : ∀ player, session.activePlayer? = some player → Stands (next player) session) :
    Stands (currentPlayer >>= next) session := by
  obtain ⟨player, hplayer⟩ := h.exists_player
  unfold Stands Attempt.SafeAt
  rw [Attempt.after_def, Attempt.outcome_def, run_currentPlayer_bind hplayer]
  exact hnext player hplayer

theorem stands_fail (h : session.Standing) {error : SessionError α} (herror : error ≠ .outOfRange) :
    Stands (Attempt.fail error : SessionAttempt α β) session :=
  Attempt.safeAt_fail h herror

/-- What fails with an error that has been given another form does not fail by being out of
    range. -/
theorem stands_ofExcept_bind {ε γ : Type} (h : session.Standing) {outcome : Except ε γ}
    {failure : ε → SessionError α} (hfailure : ∀ error, failure error ≠ .outOfRange)
    {next : γ → SessionAttempt α β}
    (hnext : ∀ value, outcome = .ok value → Stands (next value) session) :
    Stands (.ofExcept (outcome.mapError failure) >>= next) session := by
  refine Attempt.safeAt_ofExcept_bind h (fun error herror => ?_) fun value hvalue =>
    hnext value (Outcome.mapError_eq_ok.1 hvalue)
  obtain ⟨cause, -, rfl⟩ := Outcome.mapError_eq_error.1 herror
  exact hfailure cause

end

variable [Amount α] {session : Session α}

theorem batch_stands (h : session.Standing) {failure : EffectError α → SessionError α}
    (hfailure : ∀ error, failure error ≠ .outOfRange) (work : Setting α → DraftAttempt α Unit) :
    Stands (batch failure work) session := by
  refine stands_currentPlayer h fun player _ => Attempt.safeAt_get_bind ?_
  refine stands_ofExcept_bind h hfailure fun draft _ => ?_
  exact Attempt.safeAt_set_bind (Attempt.safeAt_pure (h.commit draft))

theorem runStep_stands (h : session.Standing) : Stands runStep session := by
  refine stands_currentPhase h fun phase _ => Attempt.safeAt_get_bind ?_
  obtain ⟨-, step, -, hstep⟩ := h.exists_step
  rw [hstep]
  refine stands_currentPlayer h fun player _ => ?_
  split
  · exact Attempt.safeAt_pure h
  · exact (batch_stands h (by rintro _ ⟨⟩) _).bind_pure _

theorem enter_stands (phase : Phase α) (h : session.Standing) : Stands (enter phase) session :=
  (batch_stands h (by rintro _ ⟨⟩) _).bind fun _ _ _ hbetween => runStep_stands hbetween

/-- A search never goes astray. -/
theorem Search.stands {slack : Nat} {seen : List (Clock α)}
    {result : Except (SessionError α) Unit × Session α} (hsearch : Search slack session seen result)
    (h : session.Standing) :
    result.2.Standing ∧ ∀ error, result.1 = .error error → error ≠ .outOfRange := by
  induction hsearch with
  | astray slack session hlost =>
    obtain ⟨player, hplayer⟩ := h.exists_player
    obtain ⟨phase, -, hphase, -⟩ := h.exists_step
    rw [slot?_eq_some.2 ⟨hphase, hplayer⟩] at hlost
    cases hlost
  | entered slack session phase hphase hskips => exact enter_stands phase h
  | exhausted session hskips => exact ⟨h, by rintro _ ⟨⟩ ⟨⟩⟩
  | stopped slack session hskips error hnext => exact ⟨h, by rintro _ ⟨⟩ ⟨⟩⟩
  | passed slack session hskips boundary clock hnext seen result hrest ih =>
    exact ih (h.moved (h.clock.onward_nextPhase hnext))

theorem settle_stands (boundary : Boundary) (h : session.Standing) :
    Stands (settle boundary) session := by
  unfold settle
  split
  · obtain ⟨seen, hsearch⟩ := search_enterPhase session.clock.phaseSlots session
    exact Attempt.safeAt_get_bind (hsearch.stands h)
  · exact runStep_stands h

omit [Amount α] in
/-- A move takes the clock on. -/
theorem Move.onward {move : Move} {clock next : Clock α} {boundary : Boundary} (h : clock.Placed)
    (hnext : move.onClock clock = .ok (boundary, next)) : clock.Onward next := by
  cases move with
  | advance => exact h.onward_advance hnext
  | endPhase => exact h.onward_nextPhase hnext

theorem Move.stands (move : Move) (h : session.Standing) :
    Stands (move.attempt : SessionAttempt α Progress) session := by
  unfold Stands Attempt.SafeAt
  rw [Attempt.after_def, Attempt.outcome_def, run_move]
  cases hmove : move.onClock session.clock with
  | error error => exact ⟨h, by rintro _ ⟨⟩ ⟨⟩⟩
  | ok moved =>
    obtain ⟨boundary, clock⟩ := moved
    have hsettled := settle_stands boundary (h.moved (Move.onward h.clock hmove))
    dsimp only
    cases hsettle : (settle boundary).run { session with clock } with
    | mk outcome after =>
    cases outcome with
    | error error =>
      -- The session is put back, and the error is that of settling.
      refine ⟨h, fun other hother => ?_⟩
      cases hother
      exact (hsettled.of_run_error hsettle).2
    | ok done => exact ⟨hsettled.of_run_ok hsettle, by rintro _ ⟨⟩⟩

theorem perform_stands (id : String) (params : ActionParams α) (h : session.Standing) :
    Stands (perform id params) session := by
  refine stands_currentPhase h fun phase _ => ?_
  split
  · exact stands_fail h (by rintro ⟨⟩)
  refine Attempt.safeAt_get_bind ?_
  refine Attempt.safeAt_ofOption_bind h (by rintro - ⟨⟩) fun action _ => ?_
  have hmissing : ∀ missing,
      SessionError.missingParam (α := α) action.id missing ≠ .outOfRange := by
    rintro missing ⟨⟩
  refine stands_ofExcept_bind h hmissing fun effects _ => ?_
  refine stands_ofExcept_bind h hmissing fun requirements _ => ?_
  refine stands_currentPlayer h fun player _ => ?_
  refine stands_ofExcept_bind h (by rintro _ ⟨⟩) fun unmet _ => ?_
  split
  · exact (batch_stands h (by rintro _ ⟨⟩) _).bind_pure _
  · exact Attempt.safeAt_pure h

theorem Call.stands (call : Call α) (h : session.Standing) : Stands call.attempt session := by
  cases call with
  | move kind => exact (kind.stands h).bind_pure _
  | perform action params => exact (perform_stands action params h).bind_pure _

/-! ## Going on -/

theorem settle_onward (boundary : Boundary) (session : Session α) (h : session.clock.Placed) :
    session.clock.Onward ((settle boundary).after session).clock := by
  obtain ⟨clock, henters, hcommits⟩ := settle_commits boundary session
  rw [(touches_of_commits hcommits).1]
  exact h.onward_enters henters

/-- A call takes the clock on, or leaves it where it is. -/
theorem Call.onward (call : Call α) (h : session.clock.Placed) :
    session.clock.Onward (call.attempt.after session).clock := by
  have hending := call.ending session
  rw [Attempt.after_def]
  generalize call.attempt.run session = result at hending ⊢
  cases hending with
  | failed call error => exact .refl h
  | moved move boundary clock after hmove hsettle =>
    have hmoved := Move.onward h hmove
    have hsettled := settle_onward boundary { session with clock } hmoved.placed
    rw [Attempt.after_def, hsettle] at hsettled
    exact hmoved.trans hsettled
  | rejected id params action unmet => exact .refl h
  | completed id params action draft => exact .refl h

/-- A move that succeeds has moved the clock and has settled. -/
theorem of_run_move (move : Move) {progress : Progress} {after : Session α}
    (h : move.attempt.run session = (.ok progress, after)) :
    ∃ boundary clock, move.onClock session.clock = .ok (boundary, clock) ∧
      (settle boundary).run { session with clock } = (.ok (), after) := by
  rw [run_move] at h
  cases hmove : move.onClock session.clock with
  | error error =>
    rw [hmove] at h
    cases h
  | ok moved =>
    obtain ⟨boundary, clock⟩ := moved
    rw [hmove] at h
    dsimp only at h
    cases hsettle : (settle boundary).run { session with clock } with
    | mk outcome settled =>
    rw [hsettle] at h
    cases outcome with
    | error error => cases h
    | ok done =>
      cases h
      exact ⟨boundary, clock, rfl, hsettle⟩

/-- A phase that is ended is left behind. -/
theorem endPhase_lt (h : session.clock.Placed) {progress : Progress} {after : Session α}
    (hrun : endPhase.run session = (.ok progress, after)) :
    session.clock.number < after.clock.number := by
  obtain ⟨boundary, clock, hnext, hsettle⟩ := of_run_move .endPhase hrun
  have hnumber := (h.inRange.nextPhase_follows hnext).1.number
  have honward := settle_onward boundary { session with clock } (h.of_nextPhase hnext).1
  rw [Attempt.after_def, hsettle] at honward
  have hlater : clock.number ≤ after.clock.number := honward.number
  omega

/-! ## Keeping the place -/

/-- The session stands at a position of a configuration, and its players have the seats of the
    configuration. -/
structure Anchored (config : Config α) (session : Session α) : Prop where
  clock : session.clock.Placed
  seats : session.clock.players = config.seats.map (·.id)
  phases : session.clock.phases = config.phases
  players : session.players.map (·.id) = config.seats.map (·.id)

/-- Where a session can be found: with a player of its own that has a configured seat, in a
    configured phase and at a step of it. This is also what it shows. -/
def Located (config : Config α) (session : Session α) : Prop :=
  ∃ player seat phase step,
    session.activePlayer? = some player ∧ seat ∈ config.seats ∧ player.id = seat.id ∧
    session.clock.phase? = some phase ∧ phase ∈ config.phases ∧
    session.clock.step? = some step ∧ step ∈ phase.steps ∧
    session.progress = {
      turn := session.clock.turn, activePlayer := seat.id, phase := phase.id, step := step.id
      actionPhase := phase.action }

theorem id_of_steps {setting : Setting α} {before after : Draft α}
    (h : Relation.ReflTransGen (Draft.Step setting) before after) :
    after.player.id = before.player.id := by
  obtain ⟨recorded, hrecorded⟩ := Draft.recorded_of_steps h
  exact hrecorded.player

theorem Step.ids {before after : Session α} (h : Step before after) :
    after.players.map (·.id) = before.players.map (·.id) := by
  cases h with
  | move clock => rfl
  | commit player work draft hactive hwork hdraft =>
    have hid : draft.player.id = player.id := id_of_steps (draftOf_steps (hwork.steps _) hdraft)
    obtain ⟨hplace, hplayer⟩ := List.getElem?_eq_some_iff.1 hactive
    unfold Session.commit
    rw [List.map_set, hid, ← List.map_set, ← hplayer, List.set_getElem_self]

theorem ids_of_steps {before after : Session α} (h : Relation.ReflTransGen Step before after) :
    after.players.map (·.id) = before.players.map (·.id) := by
  induction h with
  | refl => rfl
  | tail _ hstep ih => rw [hstep.ids, ih]

namespace Anchored

variable {config : Config α}

omit [Amount α] in
theorem standing (h : Anchored config session) : session.Standing := by
  have hlength := congrArg List.length (h.players.trans h.seats.symm)
  rw [List.length_map] at hlength
  exact ⟨h.clock, hlength⟩

theorem call (h : Anchored config session) (call : Call α) :
    Anchored config (call.attempt.after session) := by
  have honward := call.onward h.clock
  exact ⟨honward.placed, honward.layout.1.trans h.seats, honward.layout.2.trans h.phases,
    (ids_of_steps (call.steps session).reaches).trans h.players⟩

theorem callAll (h : Anchored config session) (calls : List (Call α)) :
    Anchored config (session.callAll calls) := by
  induction calls generalizing session with
  | nil => exact h
  | cons call rest ih => exact ih (h.call call)

omit [Amount α] in
theorem located (h : Anchored config session) : session.Located config := by
  obtain ⟨player, hplayer⟩ := h.standing.exists_player
  obtain ⟨phase, step, hphase, hstep⟩ := h.standing.exists_step
  have hid : (config.seats.map (·.id))[session.clock.player]? = some player.id := by
    rw [← h.players, List.getElem?_map,
      show session.players[session.clock.player]? = some player from hplayer, Option.map_some]
  obtain ⟨seat, hseat, hsame⟩ := List.mem_map.1 (List.mem_of_getElem? hid)
  have hactive : session.clock.activePlayer? = some seat.id := by
    unfold Clock.activePlayer?
    rw [h.seats, hid, hsame]
  refine ⟨player, seat, phase, step, hplayer, hseat, hsame.symm, hphase, ?_, hstep, ?_, ?_⟩
  · rw [← h.phases]
    exact List.mem_of_getElem? hphase
  · unfold Clock.step? at hstep
    rw [hphase] at hstep
    exact List.mem_of_getElem? hstep
  · unfold progress Clock.progress
    rw [hactive, hphase, hstep]
    rfl

end Anchored

/-! ## The beginning -/

/-- Everyone who takes a seat has the id of the seat. -/
theorem ids_of_seats {setting : Setting α} {start : Start α} {seats : List Seat}
    {players : List (Player α)} (h : seats.mapM (seat setting start) = .ok players) :
    players.map (·.id) = seats.map (·.id) := by
  refine Outcome.map_eq_of_mapM h fun place player hplayer => ?_
  obtain ⟨draft, hdraft, hplayer⟩ := Outcome.bind_eq_ok.1 hplayer
  cases hplayer
  exact id_of_steps (draftOf_steps (equip_steps start _) hdraft)

theorem anchored_seated {config : Config α} (content : Content α) (operations : List Operation)
    {nesting : Nat} {clock : Clock α} {players : List (Player α)}
    (hclock : Clock.start (config.seats.map (·.id)) config.phases = .ok clock)
    (hplayers : config.seats.mapM
      (seat { operations, content, rules := config.rules, nesting } config.start) = .ok players) :
    Anchored config ({ config, operations, nesting, content, clock, players } : Session α) := by
  obtain ⟨hplaced, hseats, hphases, -⟩ := Clock.placed_start hclock
  exact ⟨hplaced, hseats, hphases, ids_of_seats hplayers⟩

theorem anchored_start {config : Config α} {content : Content α} {operations : List Operation}
    {nesting : Nat} (h : start config content operations nesting = .ok session) :
    Anchored config session := by
  obtain ⟨clock, players, hclock, hplayers, hsettle⟩ := start_eq_ok h
  have hseated := anchored_seated content operations hclock hplayers
  have honward := settle_onward .turn _ hseated.clock
  have hsteps := (settle_steps .turn ({ config, operations, nesting, content, clock, players } :
    Session α)).reaches
  rw [Attempt.after_def, hsettle] at honward
  rw [hsettle] at hsteps
  exact ⟨honward.placed, honward.layout.1.trans hseated.seats,
    honward.layout.2.trans hseated.phases, (ids_of_steps hsteps).trans hseated.players⟩

/-- A game that does not begin has another reason than being out of range. -/
theorem start_ne (config : Config α) (content : Content α) (operations : List Operation)
    (nesting : Nat) : start config content operations nesting ≠ .error .outOfRange := by
  intro h
  unfold start at h
  rcases Outcome.bind_eq_error.1 h with h | ⟨-, -, h⟩
  · obtain ⟨_, -, ⟨⟩⟩ := Outcome.mapError_eq_error.1 h
  rcases Outcome.bind_eq_error.1 h with h | ⟨-, -, h⟩
  · obtain ⟨_, -, ⟨⟩⟩ := Outcome.mapError_eq_error.1 h
  rcases Outcome.bind_eq_error.1 h with h | ⟨clock, hclock, h⟩
  · obtain ⟨_, -, ⟨⟩⟩ := Outcome.mapError_eq_error.1 h
  rcases Outcome.bind_eq_error.1 h with h | ⟨players, hplayers, h⟩
  · obtain ⟨_, -, ⟨⟩⟩ := Outcome.mapError_eq_error.1 h
  have hseated := anchored_seated content operations
    (Outcome.mapError_eq_ok.1 hclock) (Outcome.mapError_eq_ok.1 hplayers)
  dsimp only at h
  split at h
  · cases h
  · rename_i error after hsettle
    cases h
    exact ((settle_stands .turn hseated.standing).of_run_error hsettle).2 rfl

theorem Reachable.anchored (h : session.Reachable) : ∃ config, Anchored config session := by
  induction h with
  | start config content operations nesting session h => exact ⟨config, anchored_start h⟩
  | call session h call ih =>
    obtain ⟨config, hanchored⟩ := ih
    exact ⟨config, hanchored.call call⟩

end Session

end Realm
