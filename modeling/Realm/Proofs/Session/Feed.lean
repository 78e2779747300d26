import Realm.Proofs.Effect.Gains
import Realm.Proofs.Session.Landing
import Realm.Proofs.Session.Players

/-!
# The feed of gains

A session keeps the latest gains and forgets the others, a few at every commit. What it has forgotten
cannot be read off it any more, so the history that it shows the end of is put together here from
what its operations report: an action has the gains of its answer (`Call.gains`), and a move has
those of entering the phase in which it ends and of the step that it runs there (`arrivalGains`). An
operation that fails or is rejected has none, and neither has taking a seat.

Every operation takes the end of a history to the end of the history with its own gains
(`Earned`, `earned_call`), so after any number of them the feed is the end of what all of them have
reported (`feed_is_end_of_history`). It does not matter that a move commits twice and that what is
forgotten is forgotten each time: forgetting early and forgetting late leave the same
(`latest_latest_append`).
-/

set_option autoImplicit false

namespace Realm

/-! ## The end of a list -/

section

variable {β : Type}

theorem latest_suffix (limit : Nat) (items : List β) : latest limit items <:+ items :=
  List.drop_suffix _ _

theorem length_latest (limit : Nat) (items : List β) :
    (latest limit items).length = min limit items.length := by
  unfold latest
  rw [List.length_drop]
  omega

/-- What is forgotten before more comes would have been forgotten then. -/
theorem latest_latest_append (limit : Nat) (items others : List β) :
    latest limit (latest limit items ++ others) = latest limit (items ++ others) := by
  have hlength := length_latest limit items
  unfold latest at hlength ⊢
  rw [List.drop_append, List.drop_append, List.drop_drop, List.length_append, List.length_append,
    hlength]
  congr 2 <;> omega

end

namespace Session

variable {α : Type}

/-! ## Earning -/

/-- The id of the player whose turn it is. -/
def activeId? (session : Session α) : Option String := session.activePlayer?.map (·.id)

/-- What the session tells of is the end of a history. -/
def Shows (session : Session α) (history : List (Gain α)) : Prop :=
  session.recentGains = latest session.config.recentGainLimit history

/-- The session has earned gains: it shows the end of its history with these, and they are gains of
    the player whose turn it was and is. -/
structure Earned (before : Session α) (gains : List (Gain α)) (after : Session α) : Prop where
  config : after.config = before.config
  shows : ∀ history, before.Shows history → after.Shows (history ++ gains)
  active : after.activeId? = before.activeId?
  named : ∀ gain ∈ gains, ∃ id, before.activeId? = some id ∧ gain.playerId = some id

namespace Earned

theorem nothing (session : Session α) : Earned session [] session where
  config := rfl
  shows history h := by rw [List.append_nil]; exact h
  active := rfl
  named _ h := (List.not_mem_nil h).elim

theorem trans {before between after : Session α} {gains further : List (Gain α)}
    (h : Earned before gains between) (hnext : Earned between further after) :
    Earned before (gains ++ further) after where
  config := hnext.config.trans h.config
  shows history hbefore := by
    rw [← List.append_assoc]
    exact hnext.shows _ (h.shows history hbefore)
  active := hnext.active.trans h.active
  named gain hgain := by
    rcases List.mem_append.1 hgain with hold | hnew
    · exact h.named gain hold
    · rw [← h.active]
      exact hnext.named gain hnew

/-- A commit earns what the draft has recorded. -/
theorem commit {session : Session α} {player : Player α} {draft : Draft α}
    (hplayer : session.activePlayer? = some player)
    (hdraft : Draft.Recorded { player } draft.gains draft) :
    Earned session draft.gains (session.commit draft) where
  config := rfl
  shows history h := by
    unfold Shows Session.commit at *
    rw [h, latest_latest_append]
  active := by
    have hplace : session.clock.player < session.players.length :=
      (List.getElem?_eq_some_iff.1 hplayer).1
    unfold activeId? activePlayer? Session.commit
    dsimp only
    rw [List.getElem?_set_self hplace, show session.players[session.clock.player]? = some player
      from hplayer, Option.map_some, Option.map_some, hdraft.player]
  named gain hgain := by
    refine ⟨player.id, ?_, hdraft.named gain hgain⟩
    unfold activeId?
    rw [hplayer]
    rfl

end Earned

/-! ## Reports -/

/-- What an operation reports: the player whose turn it is afterwards, and what was gained. -/
structure Report (α : Type) where
  player : Option String
  gains : List (Gain α)

/-- Everything that has been reported since a game began, in order. -/
def history (reports : List (Report α)) : List (Gain α) := reports.flatMap (·.gains)

/-- Every gain in a report carries the id of the player whose report it is. -/
def Report.Named (report : Report α) : Prop :=
  ∀ gain ∈ report.gains, ∃ id, report.player = some id ∧ gain.playerId = some id

theorem Earned.report {before after : Session α} {gains : List (Gain α)}
    (h : Earned before gains after) : Report.Named { player := after.activeId?, gains } := by
  intro gain hgain
  dsimp only
  rw [h.active]
  exact h.named gain hgain

/-- The gains that an attempt answers with, none if it fails. -/
def gainsOf (attempt : SessionAttempt α (List (Gain α))) (session : Session α) : List (Gain α) :=
  (attempt.outcome session).toOption.getD []

theorem gainsOf_of_run {attempt : SessionAttempt α (List (Gain α))} {session after : Session α}
    {gains : List (Gain α)} (h : attempt.run session = (.ok gains, after)) :
    gainsOf attempt session = gains := by
  unfold gainsOf
  rw [Attempt.outcome_def, h]
  rfl

variable [Amount α]

/-- The gains of the step at which the clock stands. -/
def stepGains (session : Session α) : List (Gain α) :=
  match session.clock.phase?, session.clock.step?, session.activePlayer? with
  | some phase, some step, some player =>
    if player.skips.isStepSkipped phase.id step.id || step.effects.isEmpty then []
    else gainsOf (batch .effect fun setting => applyAll setting step.effects) session
  | _, _, _ => []

/-- The gains of entering a phase, and then of its first step. -/
def entryGains (session : Session α) (phase : Phase α) : List (Gain α) :=
  let entry := batch .effect fun setting => phaseStart setting phase.id
  gainsOf entry session ++ (entry.after session).stepGains

/-- The gains of what is done where the clock has come to: the phase is entered if a phase has begun,
    and the step is run. -/
def arrivalGains (session : Session α) (boundary : Boundary) : List (Gain α) :=
  if boundary.entersPhase then
    match session.clock.phase? with
    | some phase => session.entryGains phase
    | none => []
  else session.stepGains

/-- The gains of a call. A move has those of what is done where the game stands when it is over, an
    action those of its answer; a call that fails or is rejected has none. -/
def Call.gains (session : Session α) (call : Call α) : List (Gain α) :=
  match call, call.attempt.run session with
  | .move kind, (.ok _, after) =>
    match kind.onClock session.clock with
    | .ok (boundary, _) => arrivalGains { session with clock := after.clock } boundary
    | .error _ => []
  | .perform .., (.ok (.outcome (.completed _ gains)), _) => gains
  | _, _ => []

/-! ## What operations earn -/

/-- A batch that succeeds earns its answer. -/
theorem earned_batch {failure : EffectError α → SessionError α}
    {work : Setting α → DraftAttempt α Unit} {session after : Session α} {gains : List (Gain α)}
    (hwork : Work session.setting (work session.setting))
    (h : (batch failure work).run session = (.ok gains, after)) : Earned session gains after := by
  cases hplayer : session.activePlayer? with
  | none =>
    unfold batch at h
    rw [run_currentPlayer_bind_none hplayer] at h
    cases h
  | some player =>
    rw [run_batch hplayer] at h
    cases hdraft : draftOf session.setting (work session.setting) player with
    | error error =>
      rw [hdraft] at h
      cases h
    | ok draft =>
      rw [hdraft] at h
      cases h
      obtain ⟨recorded, hrecorded⟩ :=
        Draft.recorded_of_steps (draftOf_steps (hwork.steps _) hdraft)
      have hgains : draft.gains = recorded := hrecorded.gains
      rw [← hgains] at hrecorded
      exact .commit hplayer hrecorded

theorem earned_runStep {session after : Session α} (h : runStep.run session = (.ok (), after)) :
    Earned session session.stepGains after := by
  unfold runStep at h
  unfold stepGains
  cases hphase : session.clock.phase? with
  | none =>
    rw [run_currentPhase_bind_none hphase] at h
    cases h
  | some phase =>
    rw [run_currentPhase_bind hphase, Attempt.run_get_bind] at h
    cases hstep : session.clock.step? with
    | none =>
      rw [hstep] at h
      cases h
    | some step =>
      rw [hstep, Attempt.run_bind, Attempt.run_ofOption_some] at h
      cases hplayer : session.activePlayer? with
      | none =>
        dsimp only at h
        rw [run_currentPlayer_bind_none hplayer] at h
        cases h
      | some player =>
        dsimp only at h ⊢
        rw [run_currentPlayer_bind hplayer] at h
        split at h <;> rename_i hquiet
        · cases h
          rw [if_pos hquiet]
          exact .nothing session
        · rw [if_neg hquiet]
          obtain ⟨gains, between, hbatch, h⟩ := Attempt.run_bind_eq_ok.1 h
          cases h
          rw [gainsOf_of_run hbatch]
          exact earned_batch (.effects step.effects) hbatch

theorem earned_enter {phase : Phase α} {session after : Session α}
    (h : (enter phase).run session = (.ok (), after)) :
    Earned session (session.entryGains phase) after := by
  obtain ⟨gains, between, hbatch, hstep⟩ := Attempt.run_bind_eq_ok.1 h
  unfold entryGains
  dsimp only
  rw [gainsOf_of_run hbatch, Attempt.after_def, hbatch]
  exact (earned_batch (.phaseStart phase.id) hbatch).trans (earned_runStep hstep)

/-- A search that succeeds has entered the phase at which the game then stands. -/
theorem Search.entered_of_ok {slack : Nat} {session : Session α} {seen : List (Clock α)}
    {result : Except (SessionError α) Unit × Session α} (h : Search slack session seen result)
    (hok : result.1 = .ok ()) : ∃ phase, result.2.clock.phase? = some phase ∧
      (enter phase).run { session with clock := result.2.clock } = result := by
  induction h with
  | astray slack session h => cases hok
  | entered slack session phase hphase h =>
    have hclock := (touches_of_commits (enter_commits phase session).reaches).1
    refine ⟨phase, ?_, ?_⟩
    · rw [hclock]
      exact hphase
    · rw [hclock]
  | exhausted session h => cases hok
  | stopped slack session h error hnext => cases hok
  | passed slack session h boundary clock hnext seen result hrest ih => exact ih hok

theorem earned_settle {boundary : Boundary} {session after : Session α}
    (h : (settle boundary).run session = (.ok (), after)) :
    Earned { session with clock := after.clock }
      (arrivalGains { session with clock := after.clock } boundary) after := by
  unfold arrivalGains
  by_cases henters : boundary.entersPhase = true
  · rw [run_settle_enters henters] at h
    obtain ⟨seen, hsearch⟩ := search_enterPhase session.clock.phaseSlots session
    rw [h] at hsearch
    obtain ⟨phase, hphase, hentered⟩ := hsearch.entered_of_ok rfl
    dsimp only at hphase hentered ⊢
    rw [if_pos henters, hphase]
    exact earned_enter hentered
  · unfold settle at h
    rw [if_neg henters] at h
    have hclock : after.clock = session.clock := by
      have hcommits := (runStep_commits session).reaches
      rw [h] at hcommits
      exact (touches_of_commits hcommits).1
    rw [if_neg henters, hclock]
    exact earned_runStep h

/-! ## Calls -/

/-- An action that is completed earns what it answers. -/
theorem earned_perform {id : String} {params : ActionParams α} {session after : Session α}
    {action : String} {gains : List (Gain α)}
    (h : (perform id params).run session = (.ok (.completed action gains), after)) :
    Earned session gains after := by
  let Earns (result : Except (SessionError α) (ActionOutcome α) × Session α) : Prop :=
    result = (.ok (.completed action gains), after) → Earned session gains after
  have hfailed : ∀ error state, Earns (.error error, state) := by
    intro error state h
    cases h
  refine (show Earns ((perform id params).run session) from ?_) h
  unfold perform
  refine holds_currentPhase_bind Earns (hfailed _ _) fun phase _ => ?_
  split
  · exact hfailed _ _
  · rw [Attempt.run_get_bind]
    refine Attempt.holds_ofOption_bind Earns (hfailed _ _) fun found _ => ?_
    refine Attempt.holds_ofExcept_bind Earns (fun _ => hfailed _ _) fun effects _ => ?_
    refine Attempt.holds_ofExcept_bind Earns (fun _ => hfailed _ _) fun requirements _ => ?_
    refine holds_currentPlayer_bind Earns (hfailed _ _) fun player _ => ?_
    refine Attempt.holds_ofExcept_bind Earns (fun _ => hfailed _ _) fun unmet _ => ?_
    split
    · intro h
      obtain ⟨answer, between, hbatch, h⟩ := Attempt.run_bind_eq_ok.1 h
      cases h
      exact earned_batch (.action _ effects) hbatch
    · intro h
      cases h

theorem earned_call (call : Call α) (session : Session α) :
    Earned { session with clock := (call.attempt.after session).clock } (call.gains session)
      (call.attempt.after session) := by
  have hending := call.ending session
  unfold Call.gains
  rw [Attempt.after_def]
  generalize hrun : call.attempt.run session = result at hending ⊢
  cases hending with
  | failed call error => cases call <;> exact .nothing session
  | moved kind boundary clock after hmove hsettle =>
    have hearned := earned_settle hsettle
    dsimp only
    rw [hmove]
    exact hearned
  | rejected id params action unmet => exact .nothing session
  | completed id params action draft =>
    obtain ⟨outcome, between, hperform, hanswer⟩ := Attempt.run_bind_eq_ok.1 hrun
    cases hanswer
    exact earned_perform hperform

/-! ## Histories -/

/-- The session after a sequence of calls, whether they succeed or not. -/
def callAll (session : Session α) (calls : List (Call α)) : Session α :=
  calls.foldl (fun session call => call.attempt.after session) session

/-- What the calls of a sequence report. -/
def reports : Session α → List (Call α) → List (Report α)
  | _, [] => []
  | session, call :: rest =>
    let after := call.attempt.after session
    { player := after.activeId?, gains := call.gains session } :: reports after rest

/-- The session in which everyone has taken a seat and nothing has happened yet. -/
def seated? (config : Config α) (content : Content α) (operations : List Operation)
    (nesting : Nat := nestingLimit) : Option (Session α) := do
  let clock ← (Clock.start (config.seats.map (·.id)) config.phases).toOption
  let players ← (config.seats.mapM
    (seat { operations, content, rules := config.rules, nesting } config.start)).toOption
  return { config, operations, nesting, content, clock, players }

/-- What the beginning of a game reports, of entering the first phase and running its step. -/
def openingReport (config : Config α) (content : Content α) (operations : List Operation)
    (session : Session α) : Report α where
  player := session.activeId?
  gains := match seated? config content operations session.nesting with
    | some seated => arrivalGains { seated with clock := session.clock } .turn
    | none => []

/-- Calls take a session that shows the end of a history to one that shows the end of the history
    with what they report. -/
theorem shows_callAll {session : Session α} {told : List (Gain α)} (h : session.Shows told)
    (calls : List (Call α)) :
    (session.callAll calls).config = session.config ∧
    (session.callAll calls).Shows (told ++ history (session.reports calls)) ∧
    ∀ report ∈ session.reports calls, report.Named := by
  induction calls generalizing session told with
  | nil =>
    refine ⟨rfl, ?_, ?_⟩
    · unfold history reports
      rw [List.flatMap_nil, List.append_nil]
      exact h
    · intro report hreport
      cases hreport
  | cons call rest ih =>
    have hearned := earned_call call session
    obtain ⟨hconfig, hshows, hnamed⟩ := ih (hearned.shows told h)
    refine ⟨hconfig.trans hearned.config, ?_, ?_⟩
    · unfold reports history
      rw [List.flatMap_cons, ← List.append_assoc]
      exact hshows
    · unfold reports
      rw [List.forall_mem_cons]
      exact ⟨hearned.report, hnamed⟩

theorem seated?_eq_some {config : Config α} {content : Content α} {operations : List Operation}
    {nesting : Nat} {clock : Clock α} {players : List (Player α)}
    (hclock : Clock.start (config.seats.map (·.id)) config.phases = .ok clock)
    (hplayers : config.seats.mapM
      (seat { operations, content, rules := config.rules, nesting } config.start) = .ok players) :
    seated? config content operations nesting
      = some { config, operations, nesting, content, clock, players } := by
  unfold seated?
  rw [hclock, hplayers]
  rfl

/-- **The feed is the end of the history.** Whatever has been called for since a game began, and
    whatever of it has failed or been rejected, the gains that the session tells of are the last of
    all that have been reported, as many as it may keep if there are that many; and each of them
    carries the id of the player whose operation reported it. -/
theorem feed_is_end_of_history {config : Config α} {content : Content α}
    {operations : List Operation} {nesting : Nat} {session : Session α}
    (h : start config content operations nesting = .ok session) (calls : List (Call α)) :
    let reports := openingReport config content operations session :: session.reports calls
    (session.callAll calls).recentGains <:+ history reports ∧
    (session.callAll calls).recentGains.length
      = min config.recentGainLimit (history reports).length ∧
    ∀ report ∈ reports, ∀ gain ∈ report.gains,
      ∃ id, report.player = some id ∧ gain.playerId = some id := by
  intro reports
  obtain ⟨clock, players, hclock, hplayers, hsettle⟩ := start_eq_ok h
  have hearned := earned_settle hsettle
  have hopening : openingReport config content operations session
      = { player := session.activeId?
          gains := arrivalGains
            { config, operations, nesting, content, clock := session.clock, players } .turn } := by
    have htouches : Touches session.clock.player
        { config, operations, nesting, content, clock, players } session := settle_touches hsettle
    unfold openingReport
    rw [htouches.nesting]
    dsimp only
    rw [seated?_eq_some hclock hplayers]
  have hstart : session.Shows (openingReport config content operations session).gains := by
    rw [hopening]
    exact hearned.shows [] List.drop_nil.symm
  obtain ⟨hconfig, hshows, hnamed⟩ := shows_callAll hstart calls
  have hlimit : (session.callAll calls).config.recentGainLimit = config.recentGainLimit := by
    rw [hconfig, hearned.config]
  have hfeed : (session.callAll calls).recentGains
      = latest config.recentGainLimit (history reports) := by
    rw [← hlimit]
    exact hshows
  refine ⟨?_, ?_, ?_⟩
  · rw [hfeed]
    exact latest_suffix _ _
  · rw [hfeed]
    exact length_latest _ _
  · refine List.forall_mem_cons.2 ⟨?_, hnamed⟩
    rw [hopening]
    exact hearned.report

end Session

namespace Sample

/-- A game in which every turn brings one more head of cattle, and which tells of three gains. -/
def pasture : Config Whole :=
  { phases := [{
      id := "spring"
      steps := [{
        id := "calving"
        effects := [{
          family := "resource"
          method := "add"
          params := .record [("resourceId", .text "cattle"), ("amount", .integer 1)] }] }] }]
    recentGainLimit := 3 }

/-- The turn of the first player ends, an action is asked for that there is not, and the turn of the
    second player ends. -/
def season : List (Session.Call Whole) :=
  [.move .endPhase, .perform "rest" .empty, .move .advance]

end Sample

namespace Session

open Sample in
/-- Three steps are run, each for a gain of cattle and one of stock, and three gains are left of the
    six. -/
theorem feed_is_end_of_history_pasture :
    ∃ session, start pasture ranch.content Operation.all = .ok session ∧
      let reports :=
        openingReport pasture ranch.content Operation.all session :: session.reports season
      (history reports).length = 6 ∧
      (session.callAll season).recentGains <:+ history reports ∧
      (session.callAll season).recentGains.length = 3 := by
  obtain ⟨session, hstart, hlength⟩ : ∃ session,
      start pasture ranch.content Operation.all = .ok session ∧
      (history (openingReport pasture ranch.content Operation.all session
        :: session.reports season)).length = 6 :=
    ⟨_, rfl, by decide +kernel⟩
  obtain ⟨hend, hcount, -⟩ := feed_is_end_of_history hstart season
  refine ⟨session, hstart, hlength, hend, ?_⟩
  rw [hcount, hlength]
  rfl

end Session

end Realm
