import Realm.Amount.Binary64
import Realm.Proofs.Effect.Known
import Realm.Proofs.Placeholder
import Realm.Proofs.Session.Reach

/-!
# Games in which nothing is unknown

Content is checked when a game starts, so that a mistake in it is found there and not in the middle
of the game. `played_known` says when that is so: if the check passes, what the configuration writes
is known as well, whatever can be applied can be taken back, and the effects that stand in the
parameters of others are known, then no call fails for want of an effect or a requirement.

The last condition is not met by the check. `inline_unknown` is a game that starts and whose one
action always fails, because the passive that it attaches is written inside the action's effect.

The invariant of a game is `Informed`: its operations are enough for all that can come up, and its
phases and its players have nothing else.
-/

set_option autoImplicit false

namespace Realm

open Outcome

variable {α : Type} [Amount α]

/-! ## Requirements -/

namespace Requirement

theorem read_mild_of_ok {requirement : Requirement α}
    (h : ∃ comparison, requirement.read = .ok comparison) : Mild requirement.read := by
  obtain ⟨comparison, hread⟩ := h
  rw [hread]
  exact .ok _

theorem compare_read_mild (comparison : Comparison α) : Mild (compare comparison).read := by
  have hnames : (compare comparison).family = "evaluator" ∧
      (compare comparison).method = "compare" := ⟨rfl, rfl⟩
  unfold read comparison?
  rw [if_pos hnames]
  split
  · exact .ok _
  · exact .error rfl

theorem value_mild (content : Content α) (rules : Rules) (player : Player α)
    (operand : Operand α) : Mild (operand.value content rules player) := by
  cases operand with
  | literal value => exact .ok _
  | source origin =>
    cases origin with
    | resource key | stat key | population role => exact Outcome.Mild.ledger _
    | building id | land | development id => exact .ok _

theorem check_mild (content : Content α) (rules : Rules) (player : Player α)
    {requirement : Requirement α} (h : Mild requirement.read) :
    Mild (check content rules player requirement) := by
  refine h.bind fun comparison => ?_
  refine (value_mild content rules player comparison.left).bind fun left => ?_
  refine (value_mild content rules player comparison.right).bind fun right => ?_
  split
  · exact .ok _
  · exact .ok _

theorem evaluate_mild (content : Content α) (rules : Rules) (player : Player α)
    (mode : EvaluationMode) {requirements : List (Requirement α)}
    (h : ∀ requirement ∈ requirements, Mild requirement.read) :
    Mild (evaluate content rules player mode requirements) := by
  induction requirements with
  | nil => exact .ok _
  | cons requirement rest ih =>
    have hrest := ih fun other hother => h other (List.mem_cons_of_mem _ hother)
    refine (check_mild content rules player (h requirement List.mem_cons_self)).bind fun unmet => ?_
    split
    · exact .ok _
    · exact hrest.bind fun _ => .ok _
    · exact hrest

end Requirement

/-! ## Drafts -/

variable {written : List (Effect α)} {setting : Setting α}

/-- Safe as far as unknown effects go. -/
abbrev Draft.Knows (written : List (Effect α)) {β : Type} (attempt : DraftAttempt α β)
    (draft : Draft α) : Prop :=
  attempt.SafeAt (fun draft => draft.player.Carries written) (fun error => error.isUnknown = true)
    draft

theorem record_known (operation : LedgerAttempt α (Change α)) {draft : Draft α}
    (h : draft.player.Carries written) : Draft.Knows written (Draft.record operation) draft := by
  refine ⟨?_, (Draft.record_mild operation draft).isUnknown⟩
  show ((Draft.record operation).after draft).player.Carries written
  rw [Draft.record_player]
  exact h

theorem phaseStart_known (h : setting.Knows written) (phase : String) {draft : Draft α}
    (hdraft : draft.player.Carries written) :
    Draft.Knows written (phaseStart setting phase) draft := by
  refine Draft.safeAt_current (Attempt.SafeAt.bind ?_ fun _ between _ hbetween => ?_)
  · refine Attempt.safeAt_forM (fun id _ state hstate => ?_) hdraft
    exact (removePassive_safe h.removes id hstate).bind_pure _
  · refine Draft.safeAt_current (Attempt.safeAt_forM (fun trigger htrigger state hstate => ?_)
      hbetween)
    refine applyAll_safe h.applies (fun effect heffect => ?_) hstate
    obtain ⟨active, hactive, hrun⟩ := List.mem_filterMap.1 htrigger
    refine hbetween active hactive effect (List.mem_append_right _ (List.mem_flatten.2 ?_))
    split at hrun
    · rename_i first rest hfind
      cases hrun
      exact ⟨first :: rest, Table.mem_values_iff.2 ⟨phase, hfind⟩, heffect⟩
    · cases hrun

/-- The effects that a configuration writes or implies. -/
def Config.script (config : Config α) : List (Effect α) :=
  (if 0 < config.start.lands then [config.start.landGrant] else [])
    ++ (config.start.effects ++ config.phases.flatMap fun phase => phase.steps.flatMap (·.effects))

theorem equip_known (h : setting.Knows written) {config : Config α}
    (hconfig : ∀ effect ∈ config.script, effect ∈ written) {draft : Draft α}
    (hdraft : draft.player.Carries written) :
    Draft.Knows written (Session.equip setting config.start) draft := by
  unfold Config.script at hconfig
  rw [Session.equip_eq]
  refine (Attempt.safeAt_forM (fun entry _ state hstate => record_known _ hstate) hdraft).bind
    fun _ rich _ hrich => ?_
  refine (applyAll_safe h.applies (fun effect heffect => ?_) hrich).bind
    fun _ landed _ hlanded => ?_
  · exact .written effect (hconfig effect (List.mem_append_left _ heffect))
  refine Attempt.SafeAt.bind (Attempt.safeAt_forM (fun building _ state hstate => ?_) hlanded) ?_
  · exact (addBuilding_safe h.applies (fun _ => h.attachable_building) hstate).bind_pure _
  · refine fun _ between _ hbetween => applyAll_safe h.applies (fun effect heffect => ?_) hbetween
    exact .written effect
      (hconfig effect (List.mem_append_right _ (List.mem_append_left _ heffect)))

namespace Session

theorem draftOf_known (h : setting.Knows written) {work : DraftAttempt α Unit} {player : Player α}
    (hwork : Draft.Knows written work { player }) :
    (∀ error, draftOf setting work player = .error error → ¬ error.isUnknown = true) ∧
      ∀ draft, draftOf setting work player = .ok draft → draft.player.Carries written := by
  have hall : Draft.Knows written (do
      work
      let _ ← syncTiers setting) { player } := by
    refine hwork.bind fun _ between _ hbetween => ?_
    exact (syncTiers_safe h.syncs hbetween).bind_pure _
  obtain ⟨hlast, hfailed⟩ := hall
  rw [Attempt.outcome_def] at hfailed
  rw [Attempt.after_def] at hlast
  unfold draftOf
  dsimp only
  split
  · rename_i draft hrun
    rw [hrun] at hlast
    refine ⟨fun error herror => (by cases herror), fun other hother => ?_⟩
    cases hother
    exact hlast
  · rename_i error draft hrun
    rw [hrun] at hfailed
    refine ⟨fun other hother => ?_, fun draft hdraft => (by cases hdraft)⟩
    cases hother
    exact hfailed error rfl

end Session

/-! ## Sessions -/

/-- Whether an error says that something is not known, in the content or in the game. -/
def SessionError.isUnknown : SessionError α → Bool
  | .effect error | .actionFailed _ error | .content (.invalidRecord _ error) => error.isUnknown
  | _ => false

namespace Session

/-- The operations of the session are enough for whatever can come up, and what its phases and its
    players have comes up. -/
structure Informed (written : List (Effect α)) (session : Session α) : Prop where
  knows : session.setting.Knows written
  requirements : ∀ action ∈ session.content.actions.values,
    ∀ requirement ∈ action.requirements, ∃ comparison, requirement.read = .ok comparison
  steps : ∀ phase ∈ session.clock.phases, ∀ step ∈ phase.steps, ∀ effect ∈ step.effects,
    Effect.Occurs written effect
  players : ∀ player ∈ session.players, player.Carries written

theorem Informed.moved {session : Session α} (h : session.Informed written) {clock : Clock α}
    (hphases : clock.phases = session.clock.phases) : { session with clock }.Informed written where
  knows := h.knows
  requirements := h.requirements
  steps := by
    rw [hphases]
    exact h.steps
  players := h.players

theorem Informed.commit {session : Session α} (h : session.Informed written) {draft : Draft α}
    (hdraft : draft.player.Carries written) : (session.commit draft).Informed written where
  knows := h.knows
  requirements := h.requirements
  steps := h.steps
  players := by
    intro player hplayer
    rcases List.mem_or_eq_of_mem_set hplayer with hold | rfl
    · exact h.players player hold
    · exact hdraft

/-- The session stays informed, and nothing unknown is met. -/
abbrev Keeps (written : List (Effect α)) {β : Type} (attempt : SessionAttempt α β)
    (session : Session α) : Prop :=
  attempt.SafeAt (Informed written) (fun error => error.isUnknown = true) session

section

variable {β : Type} {session : Session α}

theorem keeps_fail (h : session.Informed written) {error : SessionError α}
    (herror : error.isUnknown = false) :
    Keeps written (Attempt.fail error : SessionAttempt α β) session := by
  refine Attempt.safeAt_fail h fun hunknown => ?_
  rw [herror] at hunknown
  cases hunknown

theorem keeps_currentPhase {next : Phase α → SessionAttempt α β} (h : session.Informed written)
    (hnext : ∀ phase, session.clock.phase? = some phase → Keeps written (next phase) session) :
    Keeps written (currentPhase >>= next) session :=
  holds_currentPhase_bind (fun result => result.2.Informed written ∧
    ∀ error, result.1 = .error error → ¬ error.isUnknown = true) (keeps_fail h rfl) hnext

theorem keeps_currentPlayer {next : Player α → SessionAttempt α β} (h : session.Informed written)
    (hnext : ∀ player, session.activePlayer? = some player → Keeps written (next player) session) :
    Keeps written (currentPlayer >>= next) session :=
  holds_currentPlayer_bind (fun result => result.2.Informed written ∧
    ∀ error, result.1 = .error error → ¬ error.isUnknown = true) (keeps_fail h rfl) hnext

/-- A batch keeps the session informed if its work does so for every player. -/
theorem batch_keeps (h : session.Informed written) {failure : EffectError α → SessionError α}
    (hfailure : ∀ error, (failure error).isUnknown = error.isUnknown)
    {work : Setting α → DraftAttempt α Unit}
    (hwork : ∀ draft : Draft α, draft.player.Carries written →
      Draft.Knows written (work session.setting) draft) :
    Keeps written (batch failure work) session := by
  refine keeps_currentPlayer h fun player hplayer => Attempt.safeAt_get_bind ?_
  have hcarries : player.Carries written := h.players player (List.mem_of_getElem? hplayer)
  obtain ⟨hfailed, hdrafted⟩ := draftOf_known h.knows (hwork { player } hcarries)
  refine Attempt.safeAt_ofExcept_bind h ?_ fun draft hdraft => ?_
  · intro error herror
    obtain ⟨cause, hcause, rfl⟩ := Outcome.mapError_eq_error.1 herror
    rw [hfailure cause]
    exact hfailed cause hcause
  · refine Attempt.safeAt_set_bind (Attempt.safeAt_pure ?_)
    exact h.commit (hdrafted draft (Outcome.mapError_eq_ok.1 hdraft))

end

/-! ## Turns -/

theorem runStep_keeps {session : Session α} (h : session.Informed written) :
    Keeps written runStep session := by
  refine keeps_currentPhase h fun phase hphase => Attempt.safeAt_get_bind ?_
  refine Attempt.safeAt_ofOption_bind h (fun _ => Bool.false_ne_true) fun step hstep => ?_
  refine keeps_currentPlayer h fun player _ => ?_
  split
  · exact Attempt.safeAt_pure h
  · refine (batch_keeps h (fun _ => rfl) fun draft hdraft => ?_).bind_pure _
    refine applyAll_safe h.knows.applies (fun effect heffect => ?_) hdraft
    have hmem : step ∈ phase.steps := by
      unfold Clock.step? at hstep
      rw [hphase] at hstep
      exact List.mem_of_getElem? hstep
    exact h.steps phase (List.mem_of_getElem? hphase) step hmem effect heffect

theorem enter_keeps (phase : Phase α) {session : Session α} (h : session.Informed written) :
    Keeps written (enter phase) session := by
  refine (batch_keeps h (fun _ => rfl) fun draft hdraft => ?_).bind
    fun _ _ _ hbetween => runStep_keeps hbetween
  exact phaseStart_known h.knows phase.id hdraft

omit [Amount α] in
theorem phases_of_nextPhase {clock next : Clock α} {boundary : Boundary}
    (h : clock.nextPhase = .ok (boundary, next)) : next.phases = clock.phases := by
  unfold Clock.nextPhase at h
  split at h
  · cases h
    rfl
  · split at h
    · cases h
      rfl
    · split at h
      · cases h
        rfl
      · cases h

theorem enterPhase_keeps (slack : Nat) {session : Session α} (h : session.Informed written) :
    Keeps written (enterPhase slack) session := by
  induction slack generalizing session with
  | zero =>
    refine keeps_currentPhase h fun phase _ => keeps_currentPlayer h fun player _ => ?_
    split
    · exact keeps_fail h rfl
    · exact enter_keeps phase h
  | succ slack ih =>
    refine keeps_currentPhase h fun phase _ => keeps_currentPlayer h fun player _ => ?_
    split
    · refine Attempt.SafeAt.bind (Attempt.safeAt_get_bind (Attempt.safeAt_ofExcept_bind h ?_ ?_))
        fun _ _ _ hbetween => ih hbetween
      · intro error herror
        obtain ⟨cause, -, rfl⟩ := Outcome.mapError_eq_error.1 herror
        exact Bool.false_ne_true
      · rintro ⟨boundary, clock⟩ hmoved
        have hphases := phases_of_nextPhase (Outcome.mapError_eq_ok.1 hmoved)
        exact Attempt.safeAt_set_bind (Attempt.safeAt_pure (h.moved hphases))
    · exact enter_keeps phase h

theorem settle_keeps (boundary : Boundary) {session : Session α} (h : session.Informed written) :
    Keeps written (settle boundary) session := by
  unfold settle
  split
  · exact Attempt.safeAt_get_bind (enterPhase_keeps _ h)
  · exact runStep_keeps h

omit [Amount α] in
theorem Move.phases_onClock {move : Move} {clock next : Clock α} {boundary : Boundary}
    (h : move.onClock clock = .ok (boundary, next)) : next.phases = clock.phases := by
  rcases move.onClock_cases clock with ⟨-, hstep⟩ | hnext
  · rw [hstep] at h
    cases h
    rfl
  · exact phases_of_nextPhase (hnext.symm.trans h)

theorem Move.keeps (move : Move) {session : Session α} (h : session.Informed written) :
    Keeps written move.attempt session := by
  unfold Keeps Attempt.SafeAt
  rw [Attempt.after_def, Attempt.outcome_def, run_move]
  cases hmove : move.onClock session.clock with
  | error error =>
    refine ⟨h, fun other hother => ?_⟩
    cases hother
    exact Bool.false_ne_true
  | ok moved =>
    obtain ⟨boundary, clock⟩ := moved
    have hsettled := settle_keeps boundary (h.moved (Move.phases_onClock hmove))
    unfold Keeps Attempt.SafeAt at hsettled
    rw [Attempt.after_def, Attempt.outcome_def] at hsettled
    dsimp only
    cases hsettle : (settle boundary).run { session with clock } with
    | mk outcome after =>
      rw [hsettle] at hsettled
      cases outcome with
      | error error =>
        refine ⟨h, fun other hother => ?_⟩
        cases hother
        exact hsettled.2 error rfl
      | ok done => exact ⟨hsettled.1, fun error herror => by cases herror⟩

/-! ## Actions -/

omit [Amount α] in
/-- Without values, whatever can be filled in is as it was. -/
theorem eq_of_mapM_substitute {β : Type} {substitute : β → Except MissingParam β}
    (hsame : ∀ {item result}, substitute item = .ok result → result = item) {items results : List β}
    (h : items.mapM substitute = .ok results) : ∀ result ∈ results, result ∈ items := by
  intro result hresult
  obtain ⟨item, hitem, hread⟩ := Outcome.mem_of_mapM h hresult
  rw [hsame hread]
  exact hitem

theorem perform_keeps (id : String) {session : Session α} (h : session.Informed written) :
    Keeps written (perform id .empty) session := by
  refine keeps_currentPhase h fun phase _ => ?_
  split
  · exact keeps_fail h rfl
  refine Attempt.safeAt_get_bind ?_
  refine Attempt.safeAt_ofOption_bind h (fun _ => Bool.false_ne_true) fun action haction => ?_
  have hmem : action ∈ session.content.actions.values := Table.mem_values_iff.2 ⟨id, haction⟩
  have hmissing : ∀ {β : Type} (outcome : Except MissingParam β) (error : SessionError α),
      outcome.mapError (SessionError.missingParam action.id) = .error error →
      ¬ error.isUnknown = true := by
    intro β outcome error herror
    obtain ⟨cause, -, rfl⟩ := Outcome.mapError_eq_error.1 herror
    exact Bool.false_ne_true
  refine Attempt.safeAt_ofExcept_bind h (hmissing _) fun effects heffects => ?_
  refine Attempt.safeAt_ofExcept_bind h (hmissing _) fun requirements hrequirements => ?_
  -- With no values given, what is applied and asked for is what was written.
  have heffects := eq_of_mapM_substitute Effect.substitute_empty (Outcome.mapError_eq_ok.1 heffects)
  have hrequirements := eq_of_mapM_substitute Requirement.substitute_empty
    (Outcome.mapError_eq_ok.1 hrequirements)
  refine keeps_currentPlayer h fun player _ => ?_
  refine Attempt.safeAt_ofExcept_bind h ?_ fun unmet _ => ?_
  · intro error herror
    obtain ⟨cause, hcause, rfl⟩ := Outcome.mapError_eq_error.1 herror
    refine Outcome.Mild.isUnknown (Requirement.evaluate_mild _ _ _ _ ?_) cause hcause
    intro requirement hrequirement
    rcases List.mem_append.1 hrequirement with hown | hcost
    · have hread := h.requirements action hmem requirement (hrequirements requirement hown)
      exact Requirement.read_mild_of_ok hread
    · obtain ⟨entry, -, rfl⟩ := List.mem_map.1 hcost
      exact Requirement.compare_read_mild _
  · split
    · refine (batch_keeps h (fun _ => rfl) fun draft hdraft => ?_).bind_pure _
      refine Attempt.SafeAt.bind (Attempt.safeAt_forM (fun entry _ state hstate => ?_) hdraft) ?_
      · exact record_known _ hstate
      · refine fun _ between _ hbetween =>
          applyAll_safe h.knows.applies (fun effect heffect => ?_) hbetween
        refine h.knows.occurs (Content.mem_script.2 (.inr (.inr (.inr (.inr ⟨action, hmem, ?_⟩)))))
        exact heffects effect heffect
    · exact Attempt.safeAt_pure h

/-! ## Games -/

/-- Calls that move the game on, and actions for which no values are given. -/
def Call.Plain : Call α → Prop
  | .move _ => True
  | .perform _ params => params = .empty

theorem Call.keeps {call : Call α} (hplain : call.Plain) {session : Session α}
    (h : session.Informed written) : Keeps written call.attempt session := by
  cases call with
  | move kind => exact (kind.keeps h).bind_pure _
  | perform action params =>
    cases hplain
    exact (perform_keeps action h).bind_pure _

/-- The sessions that a game comes to by plain calls. -/
inductive Played (config : Config α) (content : Content α) (operations : List Operation)
    (nesting : Nat) : Session α → Prop
  | start (session : Session α) (h : start config content operations nesting = .ok session) :
      Played config content operations nesting session
  | call (session : Session α) (h : Played config content operations nesting session)
      (call : Call α) (hplain : call.Plain) :
      Played config content operations nesting (call.attempt.after session)

theorem seat_known (h : setting.Knows written) {config : Config α}
    (hconfig : ∀ effect ∈ config.script, effect ∈ written) (place : Seat) :
    (∀ error, seat setting config.start place = .error error → ¬ error.isUnknown = true) ∧
      ∀ player, seat setting config.start place = .ok player → player.Carries written := by
  have hnew : (Player.initial setting.content.catalog place.id place.name).Carries written :=
    fun active hactive => (List.not_mem_nil hactive).elim
  have hequip : Draft.Knows written (equip setting config.start)
      { player := .initial setting.content.catalog place.id place.name } :=
    equip_known h hconfig hnew
  obtain ⟨hfailed, hdrafted⟩ := draftOf_known h hequip
  constructor
  · intro error herror
    rcases Outcome.bind_eq_error.1 herror with hdraft | ⟨draft, -, herror⟩
    · exact hfailed error hdraft
    · cases herror
  · intro player hplayer
    obtain ⟨draft, hdraft, hplayer⟩ := Outcome.bind_eq_ok.1 hplayer
    cases hplayer
    exact hdrafted draft hdraft

/-- The outcome is an informed session, or an error that is not about something unknown. -/
def Opens (written : List (Effect α)) (outcome : Except (SessionError α) (Session α)) : Prop :=
  (∀ error, outcome = .error error → ¬ error.isUnknown = true) ∧
    ∀ session, outcome = .ok session → session.Informed written

theorem opens_error {error : SessionError α} (h : ¬ error.isUnknown = true) :
    Opens written (.error error) := by
  refine ⟨fun other hother => ?_, fun session hsession => (by cases hsession)⟩
  cases hother
  exact h

theorem opens_ok {session : Session α} (h : session.Informed written) :
    Opens written (.ok session) := by
  refine ⟨fun error herror => (by cases herror), fun other hother => ?_⟩
  cases hother
  exact h

theorem start_opens {config : Config α} {content : Content α} {operations : List Operation}
    {nesting : Nat}
    (hcheck : Content.check { operations, content, rules := config.rules, nesting } = .ok ())
    (hknows : ({ operations, content, rules := config.rules, nesting } : Setting α).Knows written)
    (hconfig : ∀ effect ∈ config.script, effect ∈ written) :
    Opens written (start config content operations nesting) := by
  unfold start
  refine Outcome.holds_bind (Opens written) (fun error herror => ?_) fun _ _ => ?_
  · obtain ⟨cause, -, rfl⟩ := Outcome.mapError_eq_error.1 herror
    exact opens_error Bool.false_ne_true
  refine Outcome.holds_bind (Opens written) (fun error herror => ?_) fun _ _ => ?_
  · obtain ⟨cause, hcause, -⟩ := Outcome.mapError_eq_error.1 herror
    cases hcheck.symm.trans hcause
  refine Outcome.holds_bind (Opens written) (fun error herror => ?_) fun clock hclock => ?_
  · obtain ⟨cause, -, rfl⟩ := Outcome.mapError_eq_error.1 herror
    exact opens_error Bool.false_ne_true
  refine Outcome.holds_bind (Opens written) (fun error herror => ?_) fun players hplayers => ?_
  · obtain ⟨cause, hcause, rfl⟩ := Outcome.mapError_eq_error.1 herror
    obtain ⟨place, -, hseat⟩ := Outcome.exists_of_mapM_error hcause
    exact opens_error ((seat_known hknows hconfig place).1 cause hseat)
  -- What the session opens with is written: the check covers the content, and the configuration
  -- gives the phases and what the players start with.
  have hopening : Informed written { config, operations, nesting, content, clock, players } := by
    refine ⟨hknows, ?_, ?_, ?_⟩
    · exact fun action haction => ((Content.check_eq_ok_iff.1 hcheck).2 action haction).1
    · rw [(Clock.inRange_start (Outcome.mapError_eq_ok.1 hclock)).2.2]
      intro phase hphase step hstep effect heffect
      refine .written effect (hconfig effect (List.mem_append_right _ (List.mem_append_right _ ?_)))
      exact List.mem_flatMap.2 ⟨phase, hphase, List.mem_flatMap.2 ⟨step, hstep, heffect⟩⟩
    · intro player hplayer
      obtain ⟨place, -, hseat⟩ := Outcome.mem_of_mapM (Outcome.mapError_eq_ok.1 hplayers) hplayer
      exact (seat_known hknows hconfig place).2 player hseat
  obtain ⟨hlast, hfailed⟩ := settle_keeps .turn hopening
  rw [Attempt.outcome_def] at hfailed
  rw [Attempt.after_def] at hlast
  dsimp only
  split
  · rename_i session hrun
    rw [hrun] at hlast
    exact opens_ok hlast
  · rename_i error after hrun
    rw [hrun] at hfailed
    exact opens_error (hfailed error rfl)

theorem Played.informed {config : Config α} {content : Content α} {operations : List Operation}
    {nesting : Nat}
    (hcheck : Content.check { operations, content, rules := config.rules, nesting } = .ok ())
    (hknows : ({ operations, content, rules := config.rules, nesting } : Setting α).Knows written)
    (hconfig : ∀ effect ∈ config.script, effect ∈ written) {session : Session α}
    (h : Played config content operations nesting session) : session.Informed written := by
  induction h with
  | start session h => exact (start_opens hcheck hknows hconfig).2 session h
  | call session h call hplain ih => exact (Call.keeps hplain ih).1

/-- **Checking is enough where it looks.** If the check passes and what the configuration writes is
    in force, operations can be undone in force, and the passives that are written in the parameters
    of occurring effects have none but effects in force, then neither starting a game nor any plain
    call ever fails with an unknown effect or requirement. -/
theorem played_known {config : Config α} {content : Content α} {operations : List Operation}
    {nesting : Nat}
    (hcheck : Content.check { operations, content, rules := config.rules, nesting } = .ok ())
    (hconfig : ∀ effect ∈ config.script, effect.InForce operations)
    (hundo : ∀ operation ∈ operations, ∀ undoing, operation.undo = some undoing →
      .undoing undoing ∈ operations)
    (hinline : ∀ outer passive, Effect.Occurs (config.script ++ content.script) outer →
      outer.operation? = some .addPassive → outer.readParams Passive.ofDocument? = .ok passive →
      ∀ effect ∈ passive.script, effect.InForce operations) :
    (∀ error, start config content operations nesting = .error error → error.isUnknown = false) ∧
    ∀ session, Played config content operations nesting session → ∀ call : Call α, call.Plain →
      ∀ error, call.attempt.outcome session = .error error → error.isUnknown = false := by
  have hknows : ({ operations, content, rules := config.rules, nesting } : Setting α).Knows
      (config.script ++ content.script) := by
    refine ⟨fun effect heffect => List.mem_append_right _ heffect, fun effect heffect => ?_, hundo⟩
    cases heffect with
    | written effect hmem =>
      rcases List.mem_append.1 hmem with hwritten | hwritten
      · exact hconfig effect hwritten
      · exact (Content.check_eq_ok_iff.1 hcheck).1 effect hwritten
    | inline outer inner passive houter hoperation hread hinner =>
      exact hinline outer passive houter hoperation hread effect hinner
  have hscript : ∀ effect ∈ config.script, effect ∈ config.script ++ content.script :=
    fun effect heffect => List.mem_append_left _ heffect
  constructor
  · intro error herror
    exact Bool.eq_false_iff.2 ((start_opens hcheck hknows hscript).1 error herror)
  · intro session hplayed call hplain error herror
    have hinformed := hplayed.informed hcheck hknows hscript
    exact Bool.eq_false_iff.2 ((Call.keeps hplain hinformed).2 error herror)

end Session

/-! ## A feast

The action of the feast attaches a passive that is written in the parameters of its effect. If the
passive adds lands, the feast can be held once, and a second one fails because the passive is there
already. If what it calls for does not exist, the game starts all the same. -/

namespace Sample

def cheer (family method : String) : Passive Binary64 :=
  { id := "cheer", effects := [{ family, method }] }

def cheering (family method : String) : Effect Binary64 :=
  { family := "passive", method := "add"
    params := .record [("id", .text "cheer"),
      ("effects", .list [.record [("type", .text family), ("method", .text method)]])] }

def festive (family method : String) : Content Binary64 :=
  { catalog := .empty
    actions := Table.empty.insert "feast"
      { id := "feast", name := "Feast", effects := [cheering family method] } }

def holidays : Config Binary64 :=
  { phases := [{ Phase.named "main" with action := true }] }

def feast : Session.Call Binary64 := .perform "feast" .empty

/-- Nothing comes up but the effect of the action and that of the passive in it. -/
theorem occurs_festive {effect : Effect Binary64}
    (h : Effect.Occurs (holidays.script ++ (festive "land" "add").script) effect) :
    effect = cheering "land" "add" ∨ effect = { family := "land", method := "add" } := by
  have hread : (cheering "land" "add").readParams Passive.ofDocument? = .ok (cheer "land" "add") :=
    rfl
  induction h with
  | written effect hmem => exact .inl (List.mem_singleton.1 hmem)
  | inline outer inner passive _ hoperation houter hinner ih =>
    rcases ih with rfl | rfl
    · cases hread.symm.trans houter
      exact .inr (List.mem_singleton.1 hinner)
    · cases hoperation

end Sample

namespace Session

theorem played_known_feast :
    Content.check ({ content := Sample.festive "land" "add" } : Setting Binary64) = .ok () ∧
    ∃ session, Played Sample.holidays (Sample.festive "land" "add") Operation.all nestingLimit session ∧
      ∃ error, Sample.feast.attempt.outcome session = .error error ∧ error.isUnknown = false := by
  have hcheck : Content.check ({ content := Sample.festive "land" "add" } : Setting Binary64)
      = .ok () := by decide +kernel
  have hinline : ∀ outer passive,
      Effect.Occurs (Sample.holidays.script ++ (Sample.festive "land" "add").script) outer →
      outer.operation? = some .addPassive → outer.readParams Passive.ofDocument? = .ok passive →
      ∀ effect ∈ passive.script, effect.InForce Operation.all := by
    intro outer passive hoccurs hoperation hread effect heffect
    have hinner := Sample.occurs_festive
      (.inline outer effect passive hoccurs hoperation hread heffect)
    rcases hinner with rfl | rfl
    · exact ⟨.addPassive, by decide, rfl⟩
    · exact ⟨.addLand, by decide, rfl⟩
  obtain ⟨session, hstart, herror⟩ : ∃ session,
      start Sample.holidays (Sample.festive "land" "add") Operation.all = .ok session ∧
      Sample.feast.attempt.outcome (Sample.feast.attempt.after session)
        = .error (.actionFailed "feast" (.duplicatePassive "cheer")) := ⟨_, rfl, rfl⟩
  have hplayed := Played.call session (.start session hstart) Sample.feast rfl
  refine ⟨hcheck, _, hplayed, _, herror, ?_⟩
  exact (played_known hcheck (fun effect heffect => (List.not_mem_nil heffect).elim)
    (by decide) hinline).2 _ hplayed Sample.feast rfl _ herror

/-- The check passes, the game starts, and the action fails for want of an effect. -/
theorem inline_unknown :
    Content.check ({ content := Sample.festive "resource" "transmute" } : Setting Binary64)
      = .ok () ∧
    Sample.holidays.script = [] ∧
    ∃ session, start Sample.holidays (Sample.festive "resource" "transmute") Operation.all
        = .ok session ∧
      Sample.feast.attempt.outcome session
        = .error (.actionFailed "feast" (.unknownEffect "resource" "transmute")) :=
  ⟨by decide +kernel, rfl, _, rfl, rfl⟩

end Session

end Realm
