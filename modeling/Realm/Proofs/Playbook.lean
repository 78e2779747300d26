import Realm.Playbook
import Realm.Proofs.Effect.Gains
import Realm.Proofs.Session.Position

/-!
# Games that are played to the end

`Playbook.play` gives itself a number of rounds and fails when they are used up. A game without such
a number goes on from action phase to action phase until its last turn has come, and stops for no
other reason than that or an error: this is `Game`, a relation that lists how often the game has
been advanced in each round. `play` is such a game (`exists_game_of_play`), so the rounds are never
used up. One of the errors is that effects nest too deeply: this is about the rounds of a game, and
not about whether what is done in them ends.

What bounds it is the number of the phase. A round that is not the last one begins before the last
turn, and ends a phase, which takes the game to a phase with a greater number whatever is skipped on
the way (`Session.endPhase_lt`). There are no more numbers than that before the last turn.

Everything that is looked up is looked up in the latest issue of the snapshot, which shows the
session as it is (`Attended`); there the player whose turn it is can always be found, and so a game
that fails has another reason than being out of range (`position_never_lost`).
-/

set_option autoImplicit false

namespace Realm

variable {α : Type}

/-! ## Sessions that are watched -/

namespace Broadcast

open Session (Anchored)

/-- The session keeps its place in a configuration, and the latest issue shows it as it is. -/
structure Attended (config : Config α) (broadcast : Broadcast α) : Prop where
  anchored : Anchored config broadcast.session
  current : broadcast.latest = broadcast.session.snapshot

/-- One broadcast has gone on from another. -/
structure GoneOn (config : Config α) (before after : Broadcast α) : Prop where
  attended : after.Attended config
  onward : before.session.clock.Onward after.session.clock

variable {config : Config α} {first broadcast : Broadcast α}

theorem GoneOn.refl (h : broadcast.Attended config) : GoneOn config broadcast broadcast :=
  ⟨h, .refl h.anchored.clock⟩

theorem Attended.game (h : broadcast.Attended config) :
    broadcast.latest.game = broadcast.session.progress := by
  rw [h.current]
  rfl

theorem Attended.turn (h : broadcast.Attended config) :
    broadcast.latest.game.turn = broadcast.session.clock.turn := by
  rw [h.game]
  rfl

/-- Whoever looks for the player whose turn it is finds one. -/
theorem Attended.exists_active (h : broadcast.Attended config) :
    ∃ player, broadcast.latest.players.find?
      (fun player => player.id == broadcast.latest.game.activePlayer) = some player := by
  obtain ⟨player, seat, phase, step, hplayer, -, hid, -, -, -, -, hprogress⟩ := h.anchored.located
  have hactive : broadcast.latest.game.activePlayer = player.id := by
    rw [h.game, hprogress, hid]
  refine Option.isSome_iff_exists.1 (List.find?_isSome.2 ?_)
  refine ⟨player.snapshot broadcast.session.content.catalog, ?_, ?_⟩
  · rw [h.current]
    exact List.mem_map_of_mem (List.mem_of_getElem? hplayer)
  · rw [hactive]
    exact beq_self_eq_true player.id

/-- What is shown of the phase is so. -/
theorem Attended.exists_phase (h : broadcast.Attended config) :
    ∃ phase, broadcast.session.clock.phase? = some phase ∧
      phase.action = broadcast.latest.game.actionPhase := by
  obtain ⟨_, _, phase, _, -, -, -, hphase, -, -, -, hprogress⟩ := h.anchored.located
  exact ⟨phase, hphase, by rw [h.game, hprogress]⟩

/-- The game goes on from where it was first, and nothing is out of range. -/
abbrev GoesOn {β : Type} (config : Config α) (first : Broadcast α) (attempt : BroadcastAttempt α β)
    (broadcast : Broadcast α) : Prop :=
  attempt.SafeAt (GoneOn config first) (· = .outOfRange) broadcast

/-- An operation leaves the session as it would if nobody watched, and the issue shows it so. -/
theorem run_enqueue {β : Type} (operation : SessionAttempt α β) (broadcast : Broadcast α) :
    (enqueue operation).run broadcast = ((operation.run broadcast.session).1, {
      session := (operation.run broadcast.session).2
      latest := (operation.run broadcast.session).2.snapshot
      issue := broadcast.issue + 1 }) := rfl

variable [Amount α]

/-- What leaves the session as a call leaves it goes on. -/
theorem enqueue_goesOn {β : Type} {operation : SessionAttempt α β}
    (h : GoneOn config first broadcast) (call : Session.Call α)
    (hcall : call.attempt.after broadcast.session = operation.after broadcast.session)
    (hstands : Session.Stands operation broadcast.session) :
    GoesOn config first (enqueue operation) broadcast := by
  have hanchored := h.attended.anchored.call call
  have honward := call.onward h.attended.anchored.clock
  rw [hcall] at hanchored honward
  exact ⟨⟨⟨hanchored, rfl⟩, h.onward.trans honward⟩, hstands.2⟩

theorem enqueue_move_goesOn (move : Session.Move) (h : GoneOn config first broadcast) :
    GoesOn config first (enqueue (move.attempt : SessionAttempt α Progress)) broadcast :=
  enqueue_goesOn h (.move move) (Attempt.after_bind_pure _ _ _)
    (move.stands h.attended.anchored.standing)

theorem enqueue_perform_goesOn (id : String) (params : ActionParams α)
    (h : GoneOn config first broadcast) :
    GoesOn config first (enqueue (Session.perform id params)) broadcast :=
  enqueue_goesOn h (.perform id params) (Attempt.after_bind_pure _ _ _)
    (Session.perform_stands id params h.attended.anchored.standing)

end Broadcast

/-! ## Rounds -/

namespace Playbook

open Broadcast (Attended GoneOn GoesOn enqueue enqueue_move_goesOn enqueue_perform_goesOn)

variable [Amount α] {config : Config α} {first broadcast : Broadcast α}

/-- A search for an action phase that may look so many times: how often it advances the game, and
    how it ends. -/
inductive Seek : Nat → Broadcast α → Nat → Except (SessionError α) Unit × Broadcast α → Prop
  | gaveUp (broadcast : Broadcast α) : Seek 0 broadcast 0 (.error .allPhasesSkipped, broadcast)
  | found (looks : Nat) (broadcast : Broadcast α) (h : broadcast.latest.game.actionPhase = true) :
      Seek (looks + 1) broadcast 0 (.ok (), broadcast)
  | stopped (looks : Nat) (broadcast after : Broadcast α)
      (h : broadcast.latest.game.actionPhase = false) (error : SessionError α)
      (hadvance : (enqueue Session.advance).run broadcast = (.error error, after)) :
      Seek (looks + 1) broadcast 1 (.error error, after)
  | advanced (looks : Nat) (broadcast between : Broadcast α)
      (h : broadcast.latest.game.actionPhase = false) (progress : Progress)
      (hadvance : (enqueue Session.advance).run broadcast = (.ok progress, between))
      (advances : Nat) (result : Except (SessionError α) Unit × Broadcast α)
      (hrest : Seek looks between advances result) :
      Seek (looks + 1) broadcast (advances + 1) result

/-- A game that goes on until its last turn comes or something fails: how often it is advanced in
    each round, and how it ends. -/
inductive Game (lastTurn : Nat) :
    Broadcast α → List Nat → Except (SessionError α) Unit × Broadcast α → Prop
  | lost (broadcast after : Broadcast α) (advances : Nat) (error : SessionError α)
      (hseek : Seek searchLimit broadcast advances (.error error, after)) :
      Game lastTurn broadcast [advances] (.error error, after)
  | ended (broadcast after : Broadcast α) (advances : Nat)
      (hseek : Seek searchLimit broadcast advances (.ok (), after))
      (hturn : lastTurn ≤ after.latest.game.turn) :
      Game lastTurn broadcast [advances] (.ok (), after)
  | absent (broadcast after : Broadcast α) (advances : Nat)
      (hseek : Seek searchLimit broadcast advances (.ok (), after))
      (hturn : after.latest.game.turn < lastTurn)
      (hnobody : after.latest.players.find?
        (fun player => player.id == after.latest.game.activePlayer) = none) :
      Game lastTurn broadcast [advances] (.error .outOfRange, after)
  | failed (broadcast between after : Broadcast α) (advances : Nat)
      (hseek : Seek searchLimit broadcast advances (.ok (), between))
      (hturn : between.latest.game.turn < lastTurn) (player : PlayerSnapshot α)
      (hplayer : between.latest.players.find?
        (fun player => player.id == between.latest.game.activePlayer) = some player)
      (error : SessionError α) (hphase : (playPhase player).run between = (.error error, after)) :
      Game lastTurn broadcast [advances] (.error error, after)
  | round (broadcast between after : Broadcast α) (advances : Nat)
      (hseek : Seek searchLimit broadcast advances (.ok (), between))
      (hturn : between.latest.game.turn < lastTurn) (player : PlayerSnapshot α)
      (hplayer : between.latest.players.find?
        (fun player => player.id == between.latest.game.activePlayer) = some player)
      (hphase : (playPhase player).run between = (.ok (), after))
      (rounds : List Nat) (result : Except (SessionError α) Unit × Broadcast α)
      (hrest : Game lastTurn after rounds result) :
      Game lastTurn broadcast (advances :: rounds) result

variable {looks advances lastTurn : Nat} {rounds : List Nat}
  {result : Except (SessionError α) Unit × Broadcast α}

/-! ### Looking for an action phase -/

theorem exists_seek (looks : Nat) (broadcast : Broadcast α) :
    ∃ advances, Seek looks broadcast advances ((seekActionPhase looks).run broadcast) := by
  induction looks generalizing broadcast with
  | zero => exact ⟨0, .gaveUp broadcast⟩
  | succ looks ih =>
    unfold seekActionPhase
    rw [Attempt.run_get_bind]
    cases haction : broadcast.latest.game.actionPhase with
    | true => exact ⟨0, .found looks broadcast haction⟩
    | false =>
      rw [if_neg Bool.false_ne_true]
      cases hadvance : (enqueue Session.advance).run broadcast with
      | mk outcome between =>
        cases outcome with
        | error error =>
          rw [Attempt.run_bind_of_error hadvance]
          exact ⟨1, .stopped looks broadcast between haction error hadvance⟩
        | ok progress =>
          rw [Attempt.run_bind_of_ok hadvance]
          obtain ⟨advances, hrest⟩ := ih between
          exact ⟨advances + 1,
            .advanced looks broadcast between haction progress hadvance advances _ hrest⟩

omit [Amount α] in
theorem Seek.le [Amount α] (h : Seek looks broadcast advances result) : advances ≤ looks := by
  induction h with
  | gaveUp => exact Nat.le_refl 0
  | found looks => exact Nat.zero_le _
  | stopped looks => exact Nat.succ_le_succ (Nat.zero_le looks)
  | advanced looks broadcast between haction progress hadvance advances result hrest ih =>
    exact Nat.succ_le_succ ih

/-- What is found is an action phase. -/
theorem Seek.actionPhase (h : Seek looks broadcast advances result) (hok : result.1 = .ok ()) :
    result.2.latest.game.actionPhase = true := by
  induction h with
  | gaveUp => cases hok
  | found looks broadcast haction => exact haction
  | stopped => cases hok
  | advanced looks broadcast between haction progress hadvance advances result hrest ih =>
    exact ih hok

/-- A search has one course. -/
theorem Seek.unique (h : Seek looks broadcast advances result) {others : Nat}
    {other : Except (SessionError α) Unit × Broadcast α}
    (h' : Seek looks broadcast others other) : others = advances ∧ other = result := by
  induction h generalizing others other with
  | gaveUp =>
    cases h'
    exact ⟨rfl, rfl⟩
  | found looks broadcast haction =>
    cases h' with
    | found => exact ⟨rfl, rfl⟩
    | stopped _ _ _ hother => cases haction.symm.trans hother
    | advanced _ _ _ hother => cases haction.symm.trans hother
  | stopped looks broadcast after haction error hadvance =>
    cases h' with
    | found _ _ hother => cases haction.symm.trans hother
    | stopped _ _ _ _ _ hother =>
      cases hadvance.symm.trans hother
      exact ⟨rfl, rfl⟩
    | advanced _ _ _ _ _ hother => cases hadvance.symm.trans hother
  | advanced looks broadcast between haction progress hadvance advances result hrest ih =>
    cases h' with
    | found _ _ hother => cases haction.symm.trans hother
    | stopped _ _ _ _ _ hother => cases hadvance.symm.trans hother
    | advanced _ _ _ _ _ hother _ _ hothers =>
      cases hadvance.symm.trans hother
      obtain ⟨rfl, rfl⟩ := ih hothers
      exact ⟨rfl, rfl⟩

theorem Seek.goesOn (h : Seek looks broadcast advances result)
    (hgone : GoneOn config first broadcast) :
    GoneOn config first result.2 ∧ ∀ error, result.1 = .error error → error ≠ .outOfRange := by
  induction h with
  | gaveUp => exact ⟨hgone, by rintro _ ⟨⟩ ⟨⟩⟩
  | found => exact ⟨hgone, by rintro _ ⟨⟩⟩
  | stopped looks broadcast after haction error hadvance =>
    obtain ⟨hafter, herror⟩ := (enqueue_move_goesOn .advance hgone).of_run_error hadvance
    refine ⟨hafter, fun other hother => ?_⟩
    cases hother
    exact herror
  | advanced looks broadcast between haction progress hadvance advances result hrest ih =>
    exact ih ((enqueue_move_goesOn .advance hgone).of_run_ok hadvance)

/-! ### An action phase -/

theorem plan_goesOn (steps : List (String × ActionParams α)) (h : GoneOn config first broadcast) :
    GoesOn config first (steps.forM fun step => do
      let _ ← enqueue (Session.perform step.1 step.2)) broadcast :=
  Attempt.safeAt_forM (fun step _ _ hgone =>
    (enqueue_perform_goesOn step.1 step.2 hgone).bind_pure _) h

theorem playPhase_goesOn (player : PlayerSnapshot α) (h : GoneOn config first broadcast) :
    GoesOn config first (playPhase player) broadcast :=
  (plan_goesOn (plan player) h).bind fun _ _ _ hbetween =>
    (enqueue_move_goesOn .endPhase hbetween).bind_pure _

/-- A phase that is played is left behind. -/
theorem playPhase_lt {player : PlayerSnapshot α} {after : Broadcast α}
    (h : broadcast.Attended config)
    (hphase : (playPhase player).run broadcast = (.ok (), after)) :
    broadcast.session.clock.number < after.session.clock.number := by
  obtain ⟨_, between, hplan, hrest⟩ := Attempt.run_bind_eq_ok.1 hphase
  obtain ⟨progress, ended, hended, hlast⟩ := Attempt.run_bind_eq_ok.1 hrest
  cases hlast
  have hbetween := (plan_goesOn (plan player) (.refl h)).of_run_ok hplan
  have hoperation : Session.endPhase.run between.session = (.ok progress, after.session) := by
    rw [Broadcast.run_enqueue] at hended
    obtain ⟨houtcome, hafter⟩ := Prod.mk.inj hended
    exact Prod.ext houtcome (congrArg (·.session) hafter)
  calc broadcast.session.clock.number
      ≤ between.session.clock.number := hbetween.onward.number
    _ < after.session.clock.number :=
        Session.endPhase_lt hbetween.attended.anchored.clock hoperation

/-! ### A game -/

theorem Game.le (h : Game lastTurn broadcast rounds result) :
    ∀ advances ∈ rounds, advances ≤ searchLimit := by
  induction h with
  | lost broadcast after advances error hseek => exact List.forall_mem_singleton.2 hseek.le
  | ended broadcast after advances hseek => exact List.forall_mem_singleton.2 hseek.le
  | absent broadcast after advances hseek => exact List.forall_mem_singleton.2 hseek.le
  | failed broadcast between after advances hseek => exact List.forall_mem_singleton.2 hseek.le
  | round broadcast between after advances hseek hturn player hplayer hphase rounds result _ ih =>
    exact List.forall_mem_cons.2 ⟨hseek.le, ih⟩

/-- A game that is over stands in an action phase of its last turn, or of a later one. -/
theorem Game.ended_of_ok (h : Game lastTurn broadcast rounds result) (hok : result.1 = .ok ()) :
    result.2.latest.game.actionPhase = true ∧ lastTurn ≤ result.2.latest.game.turn := by
  induction h with
  | lost => cases hok
  | ended broadcast after advances hseek hturn => exact ⟨hseek.actionPhase rfl, hturn⟩
  | absent => cases hok
  | failed => cases hok
  | round broadcast between after advances hseek hturn player hplayer hphase rounds result _ ih =>
    exact ih hok

theorem Game.goesOn (h : Game lastTurn broadcast rounds result)
    (hgone : GoneOn config first broadcast) :
    GoneOn config first result.2 ∧ ∀ error, result.1 = .error error → error ≠ .outOfRange := by
  induction h with
  | lost broadcast after advances error hseek => exact hseek.goesOn hgone
  | ended broadcast after advances hseek => exact hseek.goesOn hgone
  | absent broadcast after advances hseek hturn hnobody =>
    obtain ⟨player, hplayer⟩ := (hseek.goesOn hgone).1.attended.exists_active
    rw [hnobody] at hplayer
    cases hplayer
  | failed broadcast between after advances hseek hturn player hplayer error hphase =>
    have hbetween := (hseek.goesOn hgone).1
    obtain ⟨hafter, herror⟩ := (playPhase_goesOn player hbetween).of_run_error hphase
    refine ⟨hafter, fun other hother => ?_⟩
    cases hother
    exact herror
  | round broadcast between after advances hseek hturn player hplayer hphase rounds result _ ih =>
    have hbetween := (hseek.goesOn hgone).1
    exact ih ((playPhase_goesOn player hbetween).of_run_ok hphase)

/-- A game has one course: the searches of its rounds are the same, and so is all that follows. -/
theorem Game.unique (h : Game lastTurn broadcast rounds result) {others : List Nat}
    {other : Except (SessionError α) Unit × Broadcast α}
    (h' : Game lastTurn broadcast others other) : others = rounds ∧ other = result := by
  induction h generalizing others other with
  | lost broadcast after advances error hseek => cases h' <;> grind [Seek.unique]
  | ended broadcast after advances hseek hturn => cases h' <;> grind [Seek.unique]
  | absent broadcast after advances hseek hturn hnobody => cases h' <;> grind [Seek.unique]
  | failed broadcast between after advances hseek hturn player hplayer error hphase =>
    cases h' <;> grind [Seek.unique]
  | round broadcast between after advances hseek hturn player hplayer hphase rounds result _ ih =>
    cases h' <;> grind [Seek.unique]

/-- Enough rounds are as good as any number of them: as many as there are phases before the last
    turn, and one more. -/
theorem exists_game (lastTurn rounds : Nat) (h : broadcast.Attended config)
    (hrounds : lastTurn * broadcast.session.clock.phaseSlots
      < broadcast.session.clock.number + rounds)
    (hpos : 0 < rounds) :
    ∃ advances, Game lastTurn broadcast advances ((playUntil lastTurn rounds).run broadcast) ∧
      advances.length ≤ rounds := by
  induction rounds generalizing broadcast with
  | zero => exact (Nat.lt_irrefl 0 hpos).elim
  | succ rounds ih =>
    obtain ⟨advances, hseek⟩ := exists_seek searchLimit broadcast
    unfold playUntil
    cases hrun : (seekActionPhase searchLimit).run broadcast with
    | mk outcome between =>
    rw [hrun] at hseek
    cases outcome with
    | error error =>
      rw [Attempt.run_bind_of_error hrun]
      exact ⟨[advances], .lost broadcast between advances error hseek, Nat.le_add_left 1 rounds⟩
    | ok done =>
    have hgone : GoneOn config broadcast between := (hseek.goesOn (.refl h)).1
    rw [Attempt.run_bind_of_ok hrun, Attempt.run_get_bind]
    dsimp only
    split
    · rename_i hturn
      exact ⟨[advances], .ended broadcast between advances hseek hturn, Nat.le_add_left 1 rounds⟩
    · rename_i hturn
      obtain ⟨player, hplayer⟩ := hgone.attended.exists_active
      have hbefore : between.latest.game.turn < lastTurn := Nat.lt_of_not_le hturn
      rw [hplayer]
      change ∃ advances, Game lastTurn broadcast advances
        ((playPhase player >>= fun _ => playUntil lastTurn rounds).run between) ∧ _
      cases hphase : (playPhase player).run between with
      | mk outcome after =>
      cases outcome with
      | error error =>
        rw [Attempt.run_bind_of_error hphase]
        exact ⟨[advances], .failed broadcast between after advances hseek hbefore player hplayer
          error hphase, Nat.le_add_left 1 rounds⟩
      | ok done =>
        rw [Attempt.run_bind_of_ok hphase]
        have hlater := playPhase_lt hgone.attended hphase
        have hafter := (playPhase_goesOn player hgone).of_run_ok hphase
        -- The round has ended a phase before the last turn, so there was another number left.
        have hturn' : between.session.clock.turn < lastTurn :=
          lt_of_eq_of_lt hgone.attended.turn.symm hbefore
        have hnumber : between.session.clock.number
            < lastTurn * broadcast.session.clock.phaseSlots := by
          rw [← hgone.onward.phaseSlots]
          exact hgone.attended.anchored.clock.inRange.number_lt_of_turn_lt hturn'
        have hfirst := hgone.onward.number
        have hrest : lastTurn * after.session.clock.phaseSlots
            < after.session.clock.number + rounds := by
          rw [hafter.onward.phaseSlots]
          omega
        obtain ⟨others, hgame, hlength⟩ := ih hafter.attended hrest (by omega)
        exact ⟨advances :: others, .round broadcast between after advances hseek hbefore player
          hplayer hphase others _ hgame, Nat.succ_le_succ hlength⟩

/-! ### Playing -/

/-- The rounds that a game gives itself are enough for it. -/
theorem exists_game_of_play (turns : Nat) (h : broadcast.Attended config) :
    ∃ rounds, Game (min (broadcast.session.clock.turn + turns) Clock.lastTurn) broadcast rounds
        ((play turns).run broadcast) ∧
      rounds.length ≤ turns * broadcast.session.clock.phaseSlots + 1 := by
  have hrun : (play turns).run broadcast
      = (playUntil (min (broadcast.session.clock.turn + turns) Clock.lastTurn)
          ((min (broadcast.session.clock.turn + turns) Clock.lastTurn
            - broadcast.session.clock.turn) * broadcast.session.clock.phaseSlots + 1)).run
          broadcast := by
    unfold play
    rw [Attempt.run_get_bind, h.turn]
    rfl
  rw [hrun]
  generalize hlast : min (broadcast.session.clock.turn + turns) Clock.lastTurn = lastTurn
  have hturns : lastTurn - broadcast.session.clock.turn ≤ turns := by omega
  have hnumber := broadcast.session.clock.turn_mul_phaseSlots_le
  have henough : lastTurn * broadcast.session.clock.phaseSlots
      ≤ (lastTurn - broadcast.session.clock.turn) * broadcast.session.clock.phaseSlots
        + broadcast.session.clock.turn * broadcast.session.clock.phaseSlots := by
    rw [← Nat.add_mul]
    exact Nat.mul_le_mul_right _ (by omega)
  obtain ⟨rounds, hgame, hlength⟩ := exists_game lastTurn
    ((lastTurn - broadcast.session.clock.turn) * broadcast.session.clock.phaseSlots + 1) h
    (by omega) (Nat.succ_pos _)
  exact ⟨rounds, hgame, Nat.le_trans hlength
    (Nat.succ_le_succ (Nat.mul_le_mul_right _ hturns))⟩

/-- A game that is played for a number of turns has exactly one course, and the run is this course.
    There are no more rounds in it than there are phases in so many turns, and one more, and no
    round looks further for an action phase than it may. If nothing fails, the game stands in an
    action phase then, and the turns are over, or the last turn there is has come. -/
theorem play_course {broadcast : Broadcast α} (h : broadcast.Attended config) (turns : Nat) :
    ∃ rounds,
      (∀ others result,
        Game (min (broadcast.session.clock.turn + turns) Clock.lastTurn) broadcast others result ↔
          others = rounds ∧ result = (play turns).run broadcast) ∧
      rounds.length ≤ turns * broadcast.session.clock.phaseSlots + 1 ∧
      (∀ advances ∈ rounds, advances ≤ searchLimit) ∧
      ((play turns).outcome broadcast = .ok () →
        ∃ phase, ((play turns).after broadcast).session.clock.phase? = some phase ∧
          phase.action = true ∧
          min (broadcast.session.clock.turn + turns) Clock.lastTurn
            ≤ ((play turns).after broadcast).session.clock.turn) := by
  obtain ⟨rounds, hgame, hlength⟩ := exists_game_of_play turns h
  refine ⟨rounds, fun others result => ⟨hgame.unique, ?_⟩, hlength, hgame.le, fun hok => ?_⟩
  · rintro ⟨rfl, rfl⟩
    exact hgame
  · obtain ⟨haction, hturn⟩ := hgame.ended_of_ok hok
    have hafter := (hgame.goesOn (.refl h)).1.attended
    obtain ⟨phase, hphase, hshown⟩ := hafter.exists_phase
    rw [hafter.turn] at hturn
    exact ⟨phase, hphase, hshown.trans haction, hturn⟩

/-- In a game that begins from a checked configuration the position is never lost: a clock accepts
    the layout, the game stands at the seat of one of its players, in a phase and at a step of the
    configuration after any calls, whether they succeeded or not, and nothing that is called or
    played from there is ever out of range. -/
theorem position_never_lost {config : Config α} (hvalid : config.validate = .ok ()) :
    (∃ clock, Clock.start (config.seats.map (·.id)) config.phases = .ok clock) ∧
    ∀ (content : Content α) (operations : List Operation) (nesting : Nat),
      Session.start config content operations nesting ≠ .error .outOfRange ∧
      ∀ session, Session.start config content operations nesting = .ok session →
        ∀ calls : List (Session.Call α),
          (session.callAll calls).Located config ∧
          (∀ call : Session.Call α,
            call.attempt.outcome (session.callAll calls) ≠ .error .outOfRange) ∧
          ∀ broadcast : Broadcast α, broadcast.session = session.callAll calls →
            broadcast.latest = broadcast.session.snapshot →
            ∀ turns, (play turns).outcome broadcast ≠ .error .outOfRange := by
  refine ⟨Config.clock_starts hvalid, fun content operations nesting =>
    ⟨Session.start_ne config content operations nesting, fun session hstart calls => ?_⟩⟩
  have hanchored := (Session.anchored_start hstart).callAll calls
  refine ⟨hanchored.located, fun call herror => ?_,
    fun broadcast hsession hcurrent turns herror => ?_⟩
  · exact (call.stands hanchored.standing).2 .outOfRange herror rfl
  · have hattended : broadcast.Attended config := ⟨hsession ▸ hanchored, hcurrent⟩
    obtain ⟨rounds, hgame, -⟩ := exists_game_of_play turns hattended
    exact (hgame.goesOn (.refl hattended)).2 .outOfRange herror rfl

end Playbook

namespace Sample

/-- Actions of which the first costs more than anyone has at first, the second has the next upkeep
    left out, and the third brings cattle. -/
def town : Content Whole :=
  { catalog := ranch.content.catalog
    actions := .ofList [
      ("expand", { id := "expand", name := "Expand", costs := .ofList [("cattle", ⟨3⟩)] }),
      ("raise_council", {
        id := "raise_council"
        name := "Raise council"
        effects := [{
          family := "phase_skip"
          method := "add"
          params := .record [("phaseId", .text "upkeep"), ("source", .text "council")] }] }),
      ("tax", {
        id := "tax"
        name := "Tax"
        effects := [{
          family := "resource"
          method := "add"
          params := .record [("resourceId", .text "cattle"), ("amount", .integer 2)] }] })] }

def parish : Config Whole :=
  { phases := [.named "upkeep", { Phase.named "main" with action := true }] }

/-- The upkeep of the first player ends, there is a tax, and what is asked for next there is not. -/
def morning : List (Session.Call Whole) :=
  [.move .endPhase, .perform "tax" .empty, .perform "till" .empty]

end Sample

namespace Playbook

open Sample

theorem position_never_lost_parish :
    parish.validate = .ok () ∧
    ∃ session, Session.start parish town Operation.all = .ok session ∧
      (session.callAll morning).Located parish ∧
      (Session.Call.move .endPhase).attempt.outcome (session.callAll morning)
        ≠ .error .outOfRange ∧
      (play 5).outcome (.ofSession (session.callAll morning)) ≠ .error .outOfRange := by
  have hvalid : parish.validate = .ok () := rfl
  obtain ⟨session, hstart⟩ : ∃ session, Session.start parish town Operation.all = .ok session :=
    ⟨_, rfl⟩
  obtain ⟨-, hgame⟩ := position_never_lost hvalid
  obtain ⟨hlocated, hcall, hplay⟩ := (hgame town Operation.all _).2 session hstart morning
  refine ⟨hvalid, session, hstart, hlocated, hcall (.move .endPhase), ?_⟩
  generalize session.callAll morning = later at hplay ⊢
  exact hplay (.ofSession later) rfl rfl 5

end Playbook

end Realm
