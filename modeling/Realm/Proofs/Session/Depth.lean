import Realm.Proofs.Effect.Depth
import Realm.Proofs.Requirement.Modes
import Realm.Proofs.Session.Known

/-!
# Games at any depth

How deep effects may nest is a number of the session that only applying effects looks at, and only
a batch applies effects. So an operation that ends at some depth without running out of it does the
same at every greater one, and some depth is enough if the effects that can come up are braked.

Which effects can come up is said of the session as it stands (`Session.ComesUp`): those of its
steps, of the actions that are asked for with their placeholders filled, of its tiers, those that
the passives of its players run in phases, and whatever these bring up in turn. The invariant is
that nothing else does (`Confined`), for a kind of effects that has all of them.
-/

set_option autoImplicit false

namespace Realm

variable {α : Type}

/-! ## Sessions at a depth -/

/-- Whether effects have nested too deeply, be it in an action or not. -/
def SessionError.isTooDeep : SessionError α → Bool
  | .effect .nestedTooDeeply | .actionFailed _ .nestedTooDeeply => true
  | _ => false

namespace Session

/-- The session with another depth. -/
def atDepth (session : Session α) (depth : Nat) : Session α := { session with nesting := depth }

theorem clock_atDepth (session : Session α) (depth : Nat) :
    (session.atDepth depth).clock = session.clock := rfl

theorem activePlayer?_atDepth (session : Session α) (depth : Nat) :
    (session.atDepth depth).activePlayer? = session.activePlayer? := rfl

variable [Amount α]

/-- The effect can come up in the game as it stands, when actions are asked for as told. -/
inductive ComesUp (asked : String → ActionParams α → Prop) (session : Session α) : Effect α → Prop
  | step (phase : Phase α) (step : Realm.Step α) (effect : Effect α)
      (hphase : phase ∈ session.clock.phases) (hstep : step ∈ phase.steps)
      (heffect : effect ∈ step.effects) : ComesUp asked session effect
  | action (id : String) (params : ActionParams α) (action : Action α) (effects : List (Effect α))
      (effect : Effect α) (hasked : asked id params)
      (hfind : session.content.actions.find? id = some action)
      (hfilled : action.effects.mapM (Effect.substitute params) = .ok effects)
      (heffect : effect ∈ effects) : ComesUp asked session effect
  | tier (entry : String × TierTrack α) (tier : Tier α) (passive : Passive α) (effect : Effect α)
      (hentry : entry ∈ session.content.catalog.tierTracks) (htier : tier ∈ entry.2.tiers)
      (hpassive : tier.passive = some passive) (heffect : effect ∈ passive.script) :
      ComesUp asked session effect
  | timed (player : Player α) (active : ActivePassive α) (effect : Effect α)
      (hplayer : player ∈ session.players) (hactive : active ∈ player.passives)
      (heffect : effect ∈ active.definition.timed) : ComesUp asked session effect
  | brought (outer inner : Effect α) (houter : ComesUp asked session outer)
      (hbrings : session.setting.Brings outer inner) : ComesUp asked session inner
  | attached (outer : Effect α) (addition : Addition α) (passive : Passive α) (effect : Effect α)
      (houter : ComesUp asked session outer)
      (haddition : session.setting.instruction? outer = some (.addition addition))
      (hpassive : passive ∈ addition.passives session.content)
      (heffect : effect ∈ passive.timed) : ComesUp asked session effect

/-- Whatever an effect that comes up sets off comes up as well. -/
theorem ComesUp.reaches {asked : String → ActionParams α → Prop} {session : Session α}
    {outer inner : Effect α} (h : session.ComesUp asked outer)
    (hreached : Relation.ReflTransGen session.setting.Brings outer inner) :
    session.ComesUp asked inner := by
  induction hreached with
  | refl => exact h
  | tail _ hbrings ih => exact .brought _ _ ih hbrings

/-- Nothing comes up but effects of a closed kind. -/
structure Confined (asked : String → ActionParams α → Prop) (ends : Prop)
    (kind : Effect α → Prop) (session : Session α) : Prop where
  closed : session.setting.Closed ends kind
  steps : ∀ phase ∈ session.clock.phases, ∀ step ∈ phase.steps, ∀ effect ∈ step.effects, kind effect
  actions : ∀ id params action effects, asked id params →
    session.content.actions.find? id = some action →
    action.effects.mapM (Effect.substitute params) = .ok effects → ∀ effect ∈ effects, kind effect
  players : ∀ player ∈ session.players, player.RunsOnly kind

/-- Every session keeps to what can come up in it. -/
theorem confined_comesUp (asked : String → ActionParams α → Prop) (session : Session α) :
    session.Confined asked (∀ effect, session.ComesUp asked effect → session.setting.Braked effect)
      (session.ComesUp asked) where
  closed :=
    { brings := fun outer inner => .brought outer inner
      attaches := fun outer addition houter haddition passive hpassive effect =>
        .attached outer addition passive effect houter haddition hpassive
      tiers := fun entry hentry tier htier passive hpassive effect =>
        .tier entry tier passive effect hentry htier hpassive
      braked := fun hends => hends }
  steps := fun phase hphase step hstep effect => .step phase step effect hphase hstep
  actions := fun id params action effects hasked hfind hfilled effect =>
    .action id params action effects effect hasked hfind hfilled
  players := fun player hplayer active hactive effect => .timed player active effect hplayer hactive

section

variable {asked : String → ActionParams α → Prop} {ends : Prop} {kind : Effect α → Prop}
  {session : Session α}

theorem Confined.moved (h : session.Confined asked ends kind) {clock : Clock α}
    (hphases : clock.phases = session.clock.phases) :
    { session with clock }.Confined asked ends kind where
  closed := h.closed
  steps := by
    rw [hphases]
    exact h.steps
  actions := h.actions
  players := h.players

theorem Confined.commit (h : session.Confined asked ends kind) {draft : Draft α}
    (hdraft : draft.player.RunsOnly kind) : (session.commit draft).Confined asked ends kind where
  closed := h.closed
  steps := h.steps
  actions := h.actions
  players := by
    intro player hplayer
    rcases List.mem_or_eq_of_mem_set hplayer with hold | rfl
    · exact h.players player hold
    · exact hdraft

/-- The operation deepens, and the session stays confined. -/
abbrev Deepens {β : Type} (asked : String → ActionParams α → Prop) (ends : Prop)
    (kind : Effect α → Prop) (operation : SessionAttempt α β) (session : Session α) : Prop :=
  Attempt.Deepens atDepth (fun error => error.isTooDeep = true) ends (Confined asked ends kind)
    (fun _ => operation) session

/-! ## Batches -/

variable {β : Type}

theorem deepens_fail (h : session.Confined asked ends kind) {error : SessionError α}
    (herror : error.isTooDeep = false) :
    Deepens asked ends kind (Attempt.fail error : SessionAttempt α β) session :=
  Attempt.deepens_fail h (Bool.eq_false_iff.1 herror)

theorem deepens_currentPhase {next : Phase α → SessionAttempt α β}
    (h : session.Confined asked ends kind)
    (hnext : ∀ phase, session.clock.phase? = some phase →
      Deepens asked ends kind (next phase) session) :
    Deepens asked ends kind (currentPhase >>= next) session := by
  have hsame (depth : Nat) : (session.atDepth depth).clock.phase? = session.clock.phase? := by
    rw [clock_atDepth]
  cases hphase : session.clock.phase? with
  | none =>
    exact (deepens_fail h rfl).congr fun depth =>
      run_currentPhase_bind_none ((hsame depth).trans hphase)
  | some phase =>
    exact (hnext phase hphase).congr fun depth =>
      run_currentPhase_bind ((hsame depth).trans hphase)

theorem deepens_currentPlayer {next : Player α → SessionAttempt α β}
    (h : session.Confined asked ends kind)
    (hnext : ∀ player, session.activePlayer? = some player →
      Deepens asked ends kind (next player) session) :
    Deepens asked ends kind (currentPlayer >>= next) session := by
  cases hplayer : session.activePlayer? with
  | none =>
    exact (deepens_fail h rfl).congr fun depth =>
      run_currentPlayer_bind_none ((activePlayer?_atDepth session depth).trans hplayer)
  | some player =>
    exact (hnext player hplayer).congr fun depth =>
      run_currentPlayer_bind ((activePlayer?_atDepth session depth).trans hplayer)

/-- How a batch ends whose work has ended. -/
def finishBatch (failure : EffectError α → SessionError α) (session : Session α) :
    Except (EffectError α) Unit → Draft α → Except (SessionError α) (List (Gain α)) × Session α
  | .ok _, draft => (.ok draft.gains, session.commit draft)
  | .error error, _ => (.error (failure error), session)

omit [Amount α] in
theorem finishBatch_atDepth (failure : EffectError α → SessionError α) (session : Session α)
    (depth : Nat) (outcome : Except (EffectError α) Unit) (draft : Draft α) :
    finishBatch failure (session.atDepth depth) outcome draft
      = ((finishBatch failure session outcome draft).1,
        (finishBatch failure session outcome draft).2.atDepth depth) := by
  cases outcome <;> rfl

theorem run_batch_of_work {player : Player α} (hplayer : session.activePlayer? = some player)
    (failure : EffectError α → SessionError α) {work : Setting α → DraftAttempt α Unit}
    {outcome : Except (EffectError α) Unit} {draft : Draft α}
    (hrun : Attempt.run (do
        work session.setting
        let _ ← syncTiers session.setting) { player } = (outcome, draft)) :
    (batch failure work).run session = finishBatch failure session outcome draft := by
  have hdraft : draftOf session.setting (work session.setting) player
      = outcome.map fun _ => draft := by
    unfold draftOf
    dsimp only
    rw [hrun]
    cases outcome <;> rfl
  rw [run_batch hplayer, hdraft]
  cases outcome <;> rfl

/-- A batch deepens if its work does so for every player. -/
theorem batch_deepens (h : session.Confined asked ends kind)
    {failure : EffectError α → SessionError α}
    (hfailure : ∀ error, (failure error).isTooDeep = true ↔ error = .nestedTooDeeply)
    {work : Setting α → DraftAttempt α Unit}
    (hwork : ∀ draft : Draft α, draft.player.RunsOnly kind →
      Draft.Deepens ends kind (fun depth => work (session.setting.atDepth depth)) draft) :
    Deepens asked ends kind (batch failure work) session := by
  cases hplayer : session.activePlayer? with
  | none => exact deepens_currentPlayer h fun player hother => by cases hplayer.symm.trans hother
  | some player =>
  have hcarries := h.players player (List.mem_of_getElem? hplayer)
  have hwhole := (hwork { player } hcarries).bind
    fun _ between hbetween => (h.closed.syncTiers_deepens hbetween).bind_pure fun _ => ()
  have hactive (depth : Nat) : (session.atDepth depth).activePlayer? = some player :=
    (activePlayer?_atDepth session depth).trans hplayer
  refine hwhole.of_inner (finishBatch failure session) (fun depth outcome draft hrun => ?_)
    ?_ ?_ ?_
  · rw [run_batch_of_work (hactive depth) failure hrun, finishBatch_atDepth]
  · rintro depth error herror rfl hanswers
    have hrun := run_batch_of_work (hactive depth) failure (Attempt.run_eq_of_outcome herror)
    exact (Attempt.answers_iff_of_run hrun).1 hanswers _ rfl ((hfailure _).2 rfl)
  · intro outcome draft hfine error herror
    cases outcome with
    | ok done => cases herror
    | error cause =>
      cases herror
      exact fun hdeep => hfine cause rfl ((hfailure cause).1 hdeep)
  · intro outcome draft hdraft
    cases outcome with
    | ok done => exact h.commit hdraft
    | error cause => exact h

/-! ## Turns -/

omit [Amount α] in
theorem isTooDeep_effect (error : EffectError α) :
    (SessionError.effect error).isTooDeep = true ↔ error = .nestedTooDeeply := by
  cases error <;> simp [SessionError.isTooDeep]

omit [Amount α] in
theorem isTooDeep_actionFailed (action : String) (error : EffectError α) :
    (SessionError.actionFailed action error).isTooDeep = true ↔ error = .nestedTooDeeply := by
  cases error <;> simp [SessionError.isTooDeep]

theorem phaseStart_deepens {setting : Setting α} (h : setting.Closed ends kind) (phase : String)
    {draft : Draft α} (hdraft : draft.player.RunsOnly kind) :
    Draft.Deepens ends kind (fun depth => phaseStart (setting.atDepth depth) phase) draft := by
  refine Realm.deepens_current (Attempt.Deepens.bind ?_ fun _ between hbetween => ?_)
  · refine Attempt.deepens_forM (fun id _ state hstate => ?_) hdraft
    exact (Setting.Closed.removePassive_deepens id hstate).bind_pure _
  · refine Realm.deepens_current (Attempt.deepens_forM (fun trigger htrigger state hstate => ?_)
      hbetween)
    refine h.applyAll_deepens (fun effect heffect => ?_) hstate
    obtain ⟨active, hactive, hrun⟩ := List.mem_filterMap.1 htrigger
    refine hbetween active hactive effect (List.mem_flatten.2 ?_)
    split at hrun
    · rename_i first rest hfind
      cases hrun
      exact ⟨first :: rest, Table.mem_values_iff.2 ⟨phase, hfind⟩, heffect⟩
    · cases hrun

theorem runStep_deepens (h : session.Confined asked ends kind) :
    Deepens asked ends kind runStep session := by
  refine deepens_currentPhase h fun phase hphase => ?_
  have hstep : Deepens asked ends kind (do
      let step ← .ofOption .outOfRange session.clock.step?
      let player ← currentPlayer
      if player.skips.isStepSkipped phase.id step.id || step.effects.isEmpty then
        return
      else
        let _ ← batch .effect fun setting => applyAll setting step.effects) session := by
    refine Attempt.deepens_ofOption_bind h Bool.false_ne_true fun step hfind => ?_
    refine deepens_currentPlayer h fun player _ => ?_
    split
    · exact Attempt.deepens_pure h
    · refine (batch_deepens h isTooDeep_effect fun draft hdraft => ?_).bind_pure _
      refine h.closed.applyAll_deepens (fun effect heffect => ?_) hdraft
      have hmem : step ∈ phase.steps := by
        unfold Clock.step? at hfind
        rw [hphase] at hfind
        exact List.mem_of_getElem? hfind
      exact h.steps phase (List.mem_of_getElem? hphase) step hmem effect heffect
  exact hstep.congr fun _ => rfl

theorem enter_deepens (phase : Phase α) (h : session.Confined asked ends kind) :
    Deepens asked ends kind (enter phase) session := by
  refine (batch_deepens h isTooDeep_effect fun draft hdraft => ?_).bind
    fun _ _ hbetween => runStep_deepens hbetween
  exact phaseStart_deepens h.closed phase.id hdraft

theorem moveClock_deepens (h : session.Confined asked ends kind)
    {move : Clock α → Except ClockError (Boundary × Clock α)}
    (hmove : ∀ boundary clock, move session.clock = .ok (boundary, clock) →
      clock.phases = session.clock.phases) :
    Deepens asked ends kind (moveClock move) session := by
  cases hmoved : move session.clock with
  | error error =>
    refine (deepens_fail h (rfl : (SessionError.clock error).isTooDeep = false)).congr
      fun depth => ?_
    rw [run_moveClock, clock_atDepth, hmoved]
    rfl
  | ok moved =>
    obtain ⟨boundary, clock⟩ := moved
    have hrun : ∀ depth, (moveClock move).run (session.atDepth depth)
        = (.ok boundary, atDepth { session with clock } depth) := by
      intro depth
      rw [run_moveClock, clock_atDepth, hmoved]
      rfl
    exact Attempt.deepens_of_run_ok hrun (h.moved (hmove boundary clock hmoved))

theorem enterPhase_deepens (slack : Nat) {session : Session α}
    (h : session.Confined asked ends kind) :
    Deepens asked ends kind (enterPhase slack) session := by
  induction slack generalizing session with
  | zero =>
    refine deepens_currentPhase h fun phase _ => deepens_currentPlayer h fun player _ => ?_
    split
    · exact deepens_fail h rfl
    · exact enter_deepens phase h
  | succ slack ih =>
    refine deepens_currentPhase h fun phase _ => deepens_currentPlayer h fun player _ => ?_
    split
    · refine (moveClock_deepens h fun boundary clock hmoved => ?_).bind
        fun _ _ hbetween => ih hbetween
      exact phases_of_nextPhase hmoved
    · exact enter_deepens phase h

theorem settle_deepens (boundary : Boundary) (h : session.Confined asked ends kind) :
    Deepens asked ends kind (settle boundary) session := by
  unfold settle
  split
  · exact (enterPhase_deepens session.clock.phaseSlots h).congr fun _ => rfl
  · exact runStep_deepens h

/-- How a move ends that has settled. -/
def finishMove (session : Session α) :
    Except (SessionError α) Unit → Session α → Except (SessionError α) Progress × Session α
  | .ok _, after => (.ok after.progress, after)
  | .error error, _ => (.error error, session)

omit [Amount α] in
theorem finishMove_atDepth (session after : Session α) (depth : Nat)
    (outcome : Except (SessionError α) Unit) :
    (session.atDepth depth).finishMove outcome (after.atDepth depth)
      = ((session.finishMove outcome after).1,
        (session.finishMove outcome after).2.atDepth depth) := by
  cases outcome <;> rfl

theorem run_move_of_settle {move : Move} {boundary : Boundary} {clock : Clock α}
    (hmove : move.onClock session.clock = .ok (boundary, clock))
    {outcome : Except (SessionError α) Unit} {after : Session α}
    (hrun : (settle boundary).run { session with clock } = (outcome, after)) :
    move.attempt.run session = session.finishMove outcome after := by
  rw [run_move, hmove]
  dsimp only
  rw [hrun]
  cases outcome <;> rfl

theorem Move.deepens (move : Move) (h : session.Confined asked ends kind) :
    Deepens asked ends kind move.attempt session := by
  cases hmove : move.onClock session.clock with
  | error error =>
    refine (deepens_fail h (rfl : (SessionError.clock error).isTooDeep = false)).congr
      fun depth => ?_
    rw [run_move, clock_atDepth, hmove]
    rfl
  | ok moved =>
    obtain ⟨boundary, clock⟩ := moved
    have hmoves (depth : Nat) : move.onClock (session.atDepth depth).clock
        = .ok (boundary, clock) := by
      rw [clock_atDepth, hmove]
    have hsettle := settle_deepens boundary (h.moved (Move.phases_onClock hmove))
    refine hsettle.of_inner session.finishMove (fun depth outcome after hrun => ?_) ?_ ?_ ?_
    · rw [run_move_of_settle (hmoves depth) hrun, finishMove_atDepth]
    · intro depth error herror hdeep hanswers
      have hrun := run_move_of_settle (hmoves depth) (Attempt.run_eq_of_outcome herror)
      exact (Attempt.answers_iff_of_run hrun).1 hanswers error rfl hdeep
    · intro outcome after hfine error herror
      cases outcome with
      | ok done => cases herror
      | error cause =>
        cases herror
        exact hfine error rfl
    · intro outcome after hafter
      cases outcome with
      | ok done => exact hafter
      | error cause => exact h

/-! ## Actions -/

theorem record_deepens (operation : LedgerAttempt α (Change α)) {draft : Draft α}
    (hdraft : draft.player.RunsOnly kind) :
    Draft.Deepens ends kind (fun _ => Draft.record operation) draft := by
  refine Attempt.deepens_const ⟨?_, fun error herror hdeep => ?_⟩
  · show ((Draft.record operation).after draft).player.RunsOnly kind
    rw [Draft.record_player]
    exact hdraft
  · exact ne_of_isDispatch rfl (Draft.record_mild operation draft error herror) hdeep

theorem payment_deepens (setting : Setting α) (costs : List (String × α)) {draft : Draft α}
    (hdraft : draft.player.RunsOnly kind) :
    Draft.Deepens ends kind (fun depth => costs.forM (payCost (setting.atDepth depth))) draft := by
  have hcost : ∀ entry ∈ costs, ∀ state : Draft α, state.player.RunsOnly kind →
      Draft.Deepens ends kind (fun _ => payCost setting entry) state :=
    fun entry _ state hstate => record_deepens _ hstate
  exact Attempt.deepens_forM hcost hdraft

theorem perform_deepens (id : String) (params : ActionParams α) (hasked : asked id params)
    (h : session.Confined asked ends kind) :
    Deepens asked ends kind (perform id params) session := by
  refine deepens_currentPhase h fun phase _ => ?_
  split
  · exact deepens_fail h rfl
  refine Attempt.deepens_get_bind ?_
  dsimp only [atDepth]
  refine Attempt.deepens_ofOption_bind h Bool.false_ne_true fun action haction => ?_
  have hmissing : ∀ {β : Type} (outcome : Except MissingParam β) (error : SessionError α),
      outcome.mapError (SessionError.missingParam action.id) = .error error →
      ¬ error.isTooDeep = true := by
    intro β outcome error herror
    obtain ⟨cause, -, rfl⟩ := Outcome.mapError_eq_error.1 herror
    exact Bool.false_ne_true
  refine Attempt.deepens_ofExcept_bind h (hmissing _) fun effects hfilled => ?_
  refine Attempt.deepens_ofExcept_bind h (hmissing _) fun requirements _ => ?_
  refine deepens_currentPlayer h fun player _ => ?_
  refine Attempt.deepens_ofExcept_bind h ?_ fun unmet _ => ?_
  · intro error herror
    obtain ⟨cause, hcause, rfl⟩ := Outcome.mapError_eq_error.1 herror
    obtain ⟨_, _, _, -, -, hinvalid⟩ := Requirement.collectAll_eq_error.1 hcause
    cases hinvalid <;> exact Bool.false_ne_true
  · split
    · refine (batch_deepens h (isTooDeep_actionFailed _) fun draft hdraft => ?_).bind_pure _
      refine (payment_deepens session.setting _ hdraft).bind fun _ between hbetween => ?_
      refine h.closed.applyAll_deepens (fun effect heffect => ?_) hbetween
      exact h.actions id params action effects hasked haction
        (Outcome.mapError_eq_ok.1 hfilled) effect heffect
    · exact Attempt.deepens_pure h

end

end Session

end Realm
