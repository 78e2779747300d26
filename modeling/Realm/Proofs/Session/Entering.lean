import Realm.Amount.Binary64
import Realm.Proofs.Effect.Expiry
import Realm.Proofs.Session.Housing
import Realm.Proofs.Session.Landing
import Realm.Proofs.Session.Perform

/-!
# Phases begin with nothing left that ends with them

A phase is entered when a game starts and when a move of the clock has come to its beginning, and
in both cases perhaps only after other phases have been passed over. These are the sessions that
*arrive* (`Session.Arrives`). Their players have come about in the game, so the ids of their
passives are different and the tags in order, which is what `expire_clears` asks for.

`Session.Begins` says what entering a phase does: it fails while the passives that are due leave,
and the session stays as it was; or none of these is left, the others run what they have to run in
the phase, and the session goes on from there. Whatever arrives fails before anything is done or
begins a phase (`arrivals_begin`).
-/

set_option autoImplicit false

namespace Realm

variable {α : Type} [Amount α] {setting : Setting α}

/-! ## What the interpreter keeps, sessions keep -/

section

variable {holds : Player α → Prop}
  (hsyncs : Syncs setting (fun _ => False) (fun _ => True) fun draft => holds draft.player)
include hsyncs

theorem record_safe (call : Ledger.Write α) {draft : Draft α}
    (hlower : call.KeepsLower draft.player.resources) (hdraft : holds draft.player) :
    (Draft.record (call.attempt setting.content.catalog)).SafeAt (fun draft => holds draft.player)
      (fun _ => False) draft :=
  ⟨hsyncs.removes.keeps draft _ (.write call hlower) hdraft, fun _ _ hbad => hbad⟩

theorem phaseStart_safe (phase : String) {draft : Draft α} (hdraft : holds draft.player) :
    (phaseStart setting phase).SafeAt (fun draft => holds draft.player) (fun _ => False) draft := by
  refine Draft.safeAt_current (Attempt.SafeAt.bind ?_ fun _ between _ hbetween => ?_)
  · refine Attempt.safeAt_forM (fun id _ state hstate => ?_) hdraft
    exact (removePassive_safe hsyncs.removes id hstate).bind_pure _
  · refine Draft.safeAt_current (Attempt.safeAt_forM (fun trigger _ state hstate => ?_) hbetween)
    exact applyAll_safe hsyncs.applies (fun _ _ => trivial) hstate

theorem work_safe {work : DraftAttempt α Unit} (hwork : Session.Work setting work)
    {draft : Draft α} (hdraft : holds draft.player) :
    work.SafeAt (fun draft => holds draft.player) (fun _ => False) draft := by
  cases hwork with
  | phaseStart phase => exact phaseStart_safe hsyncs phase hdraft
  | effects effects => exact applyAll_safe hsyncs.applies (fun _ _ => trivial) hdraft
  | action costs effects =>
    have hpaid : Attempt.SafeAt (fun draft => holds draft.player) (fun _ => False)
        (costs.forM (payCost setting)) draft := by
      refine Attempt.safeAt_forM (fun entry _ state hstate => ?_) hdraft
      exact record_safe hsyncs
        (.apply { resource := entry.1, direction := .remove, magnitude := entry.2 }) trivial hstate
    exact hpaid.bind fun _ between _ => applyAll_safe hsyncs.applies fun _ _ => trivial

theorem equip_safe
    (hattach : ∀ owner (passive : Passive α),
      passive.Attachable (fun _ => True) (fun draft : Draft α => holds draft.player) owner)
    (start : Start α) {draft : Draft α} (hdraft : holds draft.player) :
    (Session.equip setting start).SafeAt (fun draft => holds draft.player) (fun _ => False)
      draft := by
  rw [Session.equip_eq]
  refine Attempt.SafeAt.bind (Attempt.safeAt_forM (fun entry _ state hstate => ?_) hdraft)
    fun _ rich _ hrich => ?_
  · exact record_safe hsyncs (.setAmount entry.1 entry.2 .reject) trivial hstate
  refine (applyAll_safe hsyncs.applies (fun _ _ => trivial) hrich).bind
    fun _ landed _ hlanded => ?_
  refine Attempt.SafeAt.bind (Attempt.safeAt_forM (fun building _ state hstate => ?_) hlanded)
    fun _ between _ hbetween => applyAll_safe hsyncs.applies (fun _ _ => trivial) hbetween
  exact (addBuilding_safe hsyncs.applies (fun passive _ => hattach _ passive) hstate).bind_pure _

theorem holds_of_draftOf {work : DraftAttempt α Unit} {player : Player α} {draft : Draft α}
    (hwork : work.SafeAt (fun draft => holds draft.player) (fun _ => False) { player })
    (h : Session.draftOf setting work player = .ok draft) : holds draft.player := by
  obtain ⟨worked, count, hrun, hsync⟩ := Session.run_of_draftOf h
  exact (syncTiers_safe hsyncs (hwork.of_run_ok hrun)).of_run_ok hsync

end

namespace Session

/-! ## Tags -/

theorem inherits_of_seat {start : Start α} {place : Seat} {player : Player α}
    (h : seat setting start place = .ok player) : player.Inherits := by
  obtain ⟨draft, hdraft, h⟩ := Outcome.bind_eq_ok.1 h
  cases h
  have hsyncs := syncs_inherits setting
  refine holds_of_draftOf hsyncs (equip_safe hsyncs attachable_of_inherits start ?_) hdraft
  intro active hactive
  cases hactive

theorem Reachable.inherits {session : Session α} (h : session.Reachable) :
    ∀ player ∈ session.players, player.Inherits := by
  refine h.players (fun start place player => inherits_of_seat) ?_
  intro work player draft hwork hplayer hdraft
  have hsyncs := syncs_inherits session.setting
  exact holds_of_draftOf hsyncs (work_safe hsyncs hwork hplayer) hdraft

/-! ## Coming to the beginning of a phase -/

/-- A session whose clock has just come to the beginning of a phase, and in which nothing has been
    done there. -/
inductive Arrives : Session α → Prop
  | start (config : Config α) (content : Content α) (operations : List Operation) (nesting : Nat)
      (clock : Clock α) (players : List (Player α))
      (hclock : Clock.start (config.seats.map (·.id)) config.phases = .ok clock)
      (hplayers : config.seats.mapM (seat { operations, content, rules := config.rules, nesting }
        config.start) = .ok players) :
      Arrives { config, operations, nesting, content, clock, players }
  | move (session : Session α) (h : session.Reachable) (move : Move) (boundary : Boundary)
      (clock : Clock α) (hmove : move.onClock session.clock = .ok (boundary, clock))
      (hboundary : boundary.entersPhase = true) :
      Arrives { session with clock }
  | pass (session : Session α) (h : session.Arrives) (hskips : session.Skips) (boundary : Boundary)
      (clock : Clock α) (hnext : session.clock.nextPhase = .ok (boundary, clock)) :
      Arrives { session with clock }

theorem Arrives.seated {session : Session α} (h : session.Arrives) : session.Seated := by
  induction h with
  | start config content operations nesting clock players hclock hplayers =>
    obtain ⟨hrange, hseats, -⟩ := Clock.inRange_start hclock
    exact ⟨hrange, by rw [hseats, List.length_map, Outcome.length_mapM hplayers]⟩
  | move session h move boundary clock hmove hboundary => exact h.seated.onClock hmove
  | pass session h hskips boundary clock hnext ih => exact ih.enters (.single ⟨boundary, hnext⟩)

/-- Whoever may enter a phase has passives with different ids and tags in order. -/
theorem Arrives.players {session : Session α} (h : session.Arrives) :
    ∀ player ∈ session.players, player.Distinct ∧ player.Inherits := by
  induction h with
  | start config content operations nesting clock players hclock hplayers =>
    intro player hplayer
    obtain ⟨place, -, hseat⟩ := Outcome.mem_of_mapM hplayers hplayer
    have hcomes : player.ComesAbout { operations, content, rules := config.rules, nesting } :=
      ⟨place.id, place.name, seat_steps hseat⟩
    exact ⟨hcomes.distinct, inherits_of_seat hseat⟩
  | move session h move boundary clock hmove hboundary =>
    intro player hplayer
    exact ⟨(h.comesAbout player hplayer).distinct, h.inherits player hplayer⟩
  | pass session h hskips boundary clock hnext ih => exact ih

/-! ## Beginning a phase -/

theorem carryOut_current {draft : Draft α} (next : Player α → DraftAttempt α Unit) :
    carryOut setting (Draft.current >>= next) draft = carryOut setting (next draft.player) draft :=
  rfl

/-- How a session goes on from a draft of the active player: passives trigger, the tiers are brought
    up to date, the draft takes the player's place, and the step is run. -/
def trigger (session : Session α) (draft : Draft α) (triggers : List (String × List (Effect α))) :
    Except (SessionError α) Unit × Session α :=
  match carryOut session.setting (runTriggers session.setting triggers) draft with
  | .error error => (.error (.effect error), session)
  | .ok after => runStep.run (session.commit after)

/-- What comes of entering a phase: the passives that are due cannot leave, or they are gone and the
    others have triggered. -/
inductive Begins (session : Session α) (phase : Phase α) (player : Player α) :
    Except (SessionError α) Unit × Session α → Prop
  | stuck (error : EffectError α) (draft : Draft α)
      (hexpire : (expire session.setting phase.id).run { player } = (.error error, draft)) :
      Begins session phase player (.error (.effect error), session)
  | triggered (draft : Draft α) (triggers : List (String × List (Effect α)))
      (hexpire : (expire session.setting phase.id).run { player } = (.ok (), draft))
      (hcleared : player.Cleared phase.id draft.player)
      (htriggers : draft.player.Triggers phase.id triggers) :
      Begins session phase player (session.trigger draft triggers)

theorem run_enter {session : Session α} {phase : Phase α} {player : Player α}
    (hplayer : session.activePlayer? = some player) :
    (enter phase).run session =
      match draftOf session.setting (phaseStart session.setting phase.id) player with
      | .error error => (.error (.effect error), session)
      | .ok draft => runStep.run (session.commit draft) := by
  unfold enter
  rw [Attempt.run_bind, run_batch hplayer]
  cases draftOf session.setting (phaseStart session.setting phase.id) player with
  | error error => rfl
  | ok draft => rfl

/-- Entering a phase begins it, for whoever has passives with different ids and tags in order. -/
theorem begins_of_enter {session : Session α} {phase : Phase α} {player : Player α}
    (hplayer : session.activePlayer? = some player) (hdistinct : player.Distinct)
    (hinherits : player.Inherits) : session.Begins phase player ((enter phase).run session) := by
  rw [run_enter hplayer, draftOf_eq, phaseStart_eq]
  cases hexpire : (expire session.setting phase.id).run { player } with
  | mk outcome draft =>
    cases outcome with
    | error error =>
      have hfailed : (expire session.setting phase.id).outcome { player } = .error error := by
        rw [Attempt.outcome_def, hexpire]
      rw [carryOut_of_error hfailed]
      exact .stuck error draft hexpire
    | ok done =>
      obtain ⟨hcleared, hleft⟩ := expire_clears phase.id hdistinct hinherits () draft hexpire
      rw [carryOut_of_ok hexpire, carryOut_current]
      exact .triggered draft _ hexpire hcleared (hleft.triggersFor phase.id)

/-! ## Looking for the phase to begin -/

/-- A session that arrives fails before anything is done or arrives at a phase that is entered. -/
theorem Search.arrives {slack : Nat} {session : Session α} {seen : List (Clock α)}
    {result : Except (SessionError α) Unit × Session α} (h : Search slack session seen result)
    (harrives : session.Arrives) :
    (∃ error clock, result = (.error error, { session with clock })) ∨
      ∃ clock phase, Arrives { session with clock } ∧ clock.phase? = some phase ∧
        ¬ Skips { session with clock } ∧
        result = (enter phase).run { session with clock } := by
  induction h with
  | astray slack session h => exact .inl ⟨_, session.clock, rfl⟩
  | entered slack session phase hphase h =>
    exact .inr ⟨session.clock, phase, harrives, hphase, h, rfl⟩
  | exhausted session h => exact .inl ⟨_, session.clock, rfl⟩
  | stopped slack session h error hnext => exact .inl ⟨_, session.clock, rfl⟩
  | passed slack session h boundary clock hnext seen result hrest ih =>
    exact ih (.pass session harrives h boundary clock hnext)

/-- **Phases begin with nothing left that ends with them.** What is done in a session that arrives
    fails before it has done anything, or it begins the phase at which the clock stands when those
    that are skipped have been passed over. The passives that are bound to the phase leave first. If
    they can, none of those that are left is bound to it, by its tag or by its definition, they
    stand in the order in which they stood before, and what is run then are the lists that they have
    for the phase, each once, in that order. -/
theorem arrivals_begin {session : Session α} (h : session.Arrives) {boundary : Boundary}
    (hboundary : boundary.entersPhase = true) :
    (∃ error clock, (settle boundary).run session = (.error error, { session with clock })) ∨
      ∃ clock phase player, Arrives { session with clock } ∧
        slot? { session with clock } = some (phase, player) ∧
        player.skips.isPhaseSkipped phase.id = false ∧
        Begins { session with clock } phase player ((settle boundary).run session) := by
  rw [run_settle_enters hboundary]
  obtain ⟨seen, hsearch⟩ := search_enterPhase session.clock.phaseSlots session
  rcases hsearch.arrives h with hfailed | ⟨clock, phase, harrives, hphase, hskips, hrun⟩
  · exact .inl hfailed
  · obtain ⟨other, player, hslot⟩ := harrives.seated.slot
    obtain ⟨hother, hplayer⟩ := slot?_eq_some.1 hslot
    cases hphase.symm.trans hother
    obtain ⟨hdistinct, hinherits⟩ := harrives.players player (List.mem_of_getElem? hplayer)
    refine .inr ⟨clock, phase, player, harrives, hslot, ?_, ?_⟩
    · rw [← Bool.not_eq_true, ← skips_iff hslot]
      exact hskips
    · rw [hrun]
      exact begins_of_enter hplayer hdistinct hinherits

end Session

/-! ## A windfall -/

namespace Sample

def granting (passive : String) : Effect Binary64 :=
  { family := "passive", method := "add", params := .record [("id", .text passive)] }

/-- A windfall brings a charm, and both leave with the upkeep; toil stays and clears land in it. -/
def fortunes : Table (Passive Binary64) :=
  ((Table.empty.insert "windfall"
      { id := "windfall", effects := [granting "charm"], removeOnPhase := some "upkeep" }).insert
    "charm" { id := "charm", removeOnPhase := some "upkeep" }).insert
    "toil" { id := "toil", onPhase := Table.empty.insert "upkeep" [clearing] }

def fortunate : Content Binary64 := { catalog := .empty, passives := fortunes }

def lucky : Config Binary64 :=
  { phases := [.named "upkeep"]
    seats := [{ id := "A", name := "Alice" }]
    start := { effects := [granting "windfall", granting "toil"] } }

/-- The game when the players have taken their seats. -/
def dawn (clock : Clock Binary64) (players : List (Player Binary64)) : Session Binary64 :=
  { config := lucky, content := fortunate, clock, players }

end Sample

namespace Session

/-- The windfall takes the charm with it, though the charm was collected as well, and the toil is
    left to clear one land. -/
theorem arrivals_begin_lucky :
    ∃ session : Session Binary64, session.Arrives ∧ Boundary.turn.entersPhase = true ∧
      (session.players.map fun player => player.passives.map (·.id))
        = [["windfall", "charm", "toil"]] ∧
      (∃ clock phase player, Arrives { session with clock } ∧
        slot? { session with clock } = some (phase, player) ∧
        player.skips.isPhaseSkipped phase.id = false ∧
        Begins { session with clock } phase player ((settle .turn).run session)) ∧
      (((settle .turn).after session).players.map fun player =>
        (player.passives.map (·.id), player.lands.length)) = [(["toil"], 1)] := by
  obtain ⟨clock, players, hclock, hplayers, hbefore, hsettled, hafter⟩ : ∃ clock players,
      Clock.start (Sample.lucky.seats.map (·.id)) Sample.lucky.phases = .ok clock ∧
      Sample.lucky.seats.mapM (seat (Sample.dawn clock []).setting Sample.lucky.start)
        = .ok players ∧
      (players.map fun player => player.passives.map (·.id)) = [["windfall", "charm", "toil"]] ∧
      ((settle .turn).run (Sample.dawn clock players)).1 = .ok () ∧
      (((settle .turn).after (Sample.dawn clock players)).players.map fun player =>
        (player.passives.map (·.id), player.lands.length)) = [(["toil"], 1)] :=
    ⟨_, _, rfl, rfl, rfl, rfl, rfl⟩
  have harrives : (Sample.dawn clock players).Arrives := .start _ _ _ _ clock players hclock hplayers
  rcases arrivals_begin harrives (rfl : Boundary.turn.entersPhase = true) with hfailed | hbegins
  · obtain ⟨error, last, hrun⟩ := hfailed
    rw [hrun] at hsettled
    cases hsettled
  · exact ⟨_, harrives, rfl, hbefore, hbegins, hafter⟩

end Session

end Realm
