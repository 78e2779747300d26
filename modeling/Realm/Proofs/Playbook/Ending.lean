import Realm.Proofs.Playbook
import Realm.Proofs.Session.Depth

/-!
# Games that come to an end

The rounds of a game are bounded (`play_course`), but what is done in a round need not end: an
effect may set itself off again, forever. In a session this shows as effects that nest too deeply,
and so the question is what a game does at every depth.

A game deepens (`play_deepens`), since every call does and so does what is watched of it. So if the
effects that can come up in it are braked, it ends the same way at every depth that is enough for it
(`play_ends`). Which these are is told by the session as it stands when the game begins
(`Session.ComesUp`), with the actions that the playbook may ask for (`Planned`).
-/

set_option autoImplicit false

namespace Realm

variable {α : Type}

namespace Broadcast

/-- The broadcast of the session with another depth. -/
def atDepth (broadcast : Broadcast α) (depth : Nat) : Broadcast α :=
  { broadcast with session := broadcast.session.atDepth depth }

theorem Attended.atDepth {config : Config α} {broadcast : Broadcast α}
    (h : broadcast.Attended config) (depth : Nat) : (broadcast.atDepth depth).Attended config :=
  ⟨⟨h.anchored.clock, h.anchored.seats, h.anchored.phases, h.anchored.players⟩, h.current⟩

variable [Amount α]

/-- The attempt deepens, and the session stays confined. -/
abbrev Deepens {β : Type} (asked : String → ActionParams α → Prop) (ends : Prop)
    (kind : Effect α → Prop) (attempt : BroadcastAttempt α β) (broadcast : Broadcast α) : Prop :=
  Attempt.Deepens atDepth (fun error => error.isTooDeep = true) ends
    (fun broadcast => broadcast.session.Confined asked ends kind) (fun _ => attempt) broadcast

variable {asked : String → ActionParams α → Prop} {ends : Prop} {kind : Effect α → Prop}
  {broadcast : Broadcast α}

theorem enqueue_deepens {β : Type} {operation : SessionAttempt α β}
    (h : Session.Deepens asked ends kind operation broadcast.session) :
    Deepens asked ends kind (enqueue operation) broadcast := by
  refine h.of_inner (fun outcome session => (outcome, {
    session, latest := session.snapshot, issue := broadcast.issue + 1 }))
    (fun depth outcome after hrun => ?_) (fun depth error herror hdeep hanswers => ?_)
    (fun outcome after hfine => hfine) (fun outcome after hafter => hafter)
  · rw [run_enqueue]
    change operation.run (broadcast.atDepth depth).session = _ at hrun
    rw [hrun]
    rfl
  · exact hanswers error herror hdeep

end Broadcast

namespace Playbook

open Broadcast (Deepens enqueue_deepens)

variable [Amount α] {ends : Prop} {kind : Effect α → Prop} {broadcast : Broadcast α}

/-- What the playbook may ask for. -/
def Planned (id : String) (params : ActionParams α) : Prop :=
  ∃ player : PlayerSnapshot α, (id, params) ∈ plan player

theorem seekActionPhase_deepens (looks : Nat) {broadcast : Broadcast α}
    (h : broadcast.session.Confined Planned ends kind) :
    Deepens Planned ends kind (seekActionPhase looks) broadcast := by
  induction looks generalizing broadcast with
  | zero => exact Attempt.deepens_fail h Bool.false_ne_true
  | succ looks ih =>
    have hlook : Deepens Planned ends kind (do
        if broadcast.latest.game.actionPhase then
          return
        else
          let _ ← Broadcast.enqueue Session.advance
          seekActionPhase looks) broadcast := by
      split
      · exact Attempt.deepens_pure h
      · exact (enqueue_deepens (Session.Move.deepens .advance h)).bind
          fun _ _ hbetween => ih hbetween
    exact hlook.congr fun _ => rfl

theorem playPhase_deepens (player : PlayerSnapshot α)
    (h : broadcast.session.Confined Planned ends kind) :
    Deepens Planned ends kind (playPhase player) broadcast := by
  refine Attempt.Deepens.bind (Attempt.deepens_forM (fun step hstep state hstate => ?_) h)
    fun _ _ hbetween => ?_
  · exact (enqueue_deepens (Session.perform_deepens step.1 step.2 ⟨player, hstep⟩ hstate)).bind_pure
      _
  · exact (enqueue_deepens (Session.Move.deepens .endPhase hbetween)).bind_pure _

theorem playUntil_deepens (lastTurn rounds : Nat) {broadcast : Broadcast α}
    (h : broadcast.session.Confined Planned ends kind) :
    Deepens Planned ends kind (playUntil lastTurn rounds) broadcast := by
  induction rounds generalizing broadcast with
  | zero => exact Attempt.deepens_fail h Bool.false_ne_true
  | succ rounds ih =>
    refine (seekActionPhase_deepens searchLimit h).bind fun _ between hbetween => ?_
    have hround : Deepens Planned ends kind (do
        if lastTurn ≤ between.latest.game.turn then
          return
        else
          let player ← .ofOption .outOfRange (between.latest.players.find?
            fun player => player.id == between.latest.game.activePlayer)
          playPhase player
          playUntil lastTurn rounds) between := by
      split
      · exact Attempt.deepens_pure hbetween
      · refine Attempt.deepens_ofOption_bind hbetween Bool.false_ne_true fun player _ => ?_
        exact (playPhase_deepens player hbetween).bind fun _ _ hafter => ih hafter
    exact hround.congr fun _ => rfl

theorem play_deepens (turns : Nat) (h : broadcast.session.Confined Planned ends kind) :
    Deepens Planned ends kind (play turns) broadcast := by
  refine Attempt.deepens_get_bind ?_
  dsimp only [Broadcast.atDepth, Session.atDepth]
  exact playUntil_deepens _ _ h

/-- **Games that come to an end.** At every depth, a game that is played for a number of turns has
    exactly one course. There are no more rounds in it than there are phases in so many turns, and
    one more, and no round looks further for an action phase than it may. If nothing fails, the game
    stands in an action phase then, and the turns are over, or the last turn there is has come.

    And where the effects that can come up are braked, the game has one end: some depth is enough
    for it, every greater one gives the same, and so does every smaller one at which effects do not
    nest too deeply. -/
theorem play_ends {broadcast : Broadcast α} (hreachable : broadcast.session.Reachable)
    (hcurrent : broadcast.latest = broadcast.session.snapshot) (turns : Nat) :
    (∀ depth, ∃ rounds,
      (∀ others result,
        Game (min (broadcast.session.clock.turn + turns) Clock.lastTurn)
            (broadcast.atDepth depth) others result ↔
          others = rounds ∧ result = (play turns).run (broadcast.atDepth depth)) ∧
      rounds.length ≤ turns * broadcast.session.clock.phaseSlots + 1 ∧
      (∀ advances ∈ rounds, advances ≤ searchLimit) ∧
      ((play turns).outcome (broadcast.atDepth depth) = .ok () →
        ∃ phase, ((play turns).after (broadcast.atDepth depth)).session.clock.phase? = some phase ∧
          phase.action = true ∧
          min (broadcast.session.clock.turn + turns) Clock.lastTurn
            ≤ ((play turns).after (broadcast.atDepth depth)).session.clock.turn)) ∧
    ((∀ effect, broadcast.session.ComesUp Planned effect →
        broadcast.session.setting.Braked effect) →
      ∃ (outcome : Except (SessionError α) Unit) (after : Broadcast α),
        (∀ error, outcome = .error error → error.isTooDeep = false) ∧
        (∃ depth, ∀ deeper, depth ≤ deeper →
          (play turns).run (broadcast.atDepth deeper) = (outcome, after.atDepth deeper)) ∧
        ∀ depth, (∀ error, (play turns).outcome (broadcast.atDepth depth) = .error error →
            error.isTooDeep = false) →
          (play turns).run (broadcast.atDepth depth) = (outcome, after.atDepth depth)) := by
  obtain ⟨config, hanchored⟩ := hreachable.anchored
  have hattended : broadcast.Attended config := ⟨hanchored, hcurrent⟩
  refine ⟨fun depth => play_course (hattended.atDepth depth) turns, fun hbraked => ?_⟩
  have hdeepens := play_deepens turns (Session.confined_comesUp Planned broadcast.session)
  obtain ⟨outcome, after, hfine, henough, hanswers⟩ := hdeepens.settled (fun _ _ _ => rfl) hbraked
  refine ⟨outcome, after, fun error herror => Bool.eq_false_iff.2 (hfine error herror), henough,
    fun depth hdepth => ?_⟩
  exact hanswers depth fun error herror => Bool.eq_false_iff.1 (hdepth error herror)

end Playbook

/-! ## A smithy

Whoever expands gets a forge, and what the forge brings about is a matter of its passive. With a
guild that has the upkeep left out the game comes to an end, though the forge sets the guild's
effect off. With a passive that takes the forge away and adds it again it does not, at any depth:
the action that adds the forge is never done. -/

namespace Sample

def leisure : Effect Binary64 :=
  { family := "phase_skip"
    method := "add"
    params := .record [("phaseId", .text "upkeep"), ("source", .text "guild")] }

def guild : Passive Binary64 := { id := "guild", effects := [leisure] }

def smithy (passive : Passive Binary64) : Content Binary64 :=
  { catalog := .empty
    buildings :=
      Table.empty.insert "forge" { id := "forge", name := "Forge", passives := [passive] }
    actions := .ofList [
      ("expand", { id := "expand", name := "Expand", effects := [raising] }),
      ("raise_council", { id := "raise_council", name := "Raise council" }),
      ("tax", { id := "tax", name := "Tax" })] }

def shire : Config Binary64 :=
  { phases := [{ Phase.named "main" with action := true }, .named "upkeep"] }

def smith : Player Binary64 := .initial .empty "A" "Player A"

/-- How a game in the shire begins. -/
def smiths (passive : Passive Binary64) : Session Binary64 :=
  { config := shire
    content := smithy passive
    clock := { players := ["A", "B"], phases := shire.phases }
    players := [smith, .initial .empty "B" "Player B"] }

end Sample

namespace Playbook

open Sample

theorem brings_raising {inner : Effect Binary64}
    (h : (smiths guild).setting.Brings raising inner) : inner = leisure := by
  obtain ⟨addition, haddition, hinner⟩ := h
  cases (rfl : (smiths guild).setting.instruction? raising
    = some (.addition (.building "forge"))).symm.trans haddition
  exact List.mem_singleton.1 hinner

theorem instruction_leisure (addition : Addition Binary64) :
    (smiths guild).setting.instruction? leisure ≠ some (.addition addition) := by
  intro haddition
  cases haddition

/-- What may come up with the guild: the forge is added, and that sets off what the guild does. -/
theorem comesUp_guild {effect : Effect Binary64} (h : (smiths guild).ComesUp Planned effect) :
    effect = raising ∨ effect = leisure := by
  induction h with
  | step phase step effect hphase hstep heffect =>
    have hsteps : ∀ phase ∈ shire.phases, ∀ step ∈ phase.steps, step.effects = [] := by decide
    rw [hsteps phase hphase step hstep] at heffect
    cases heffect
  | action id params action effects effect hasked hfind hfilled heffect =>
    obtain ⟨written, hwritten, hread⟩ := Outcome.mem_of_mapM hfilled heffect
    have hactions : (smithy guild).actions.values.flatMap (·.effects) = [raising] := rfl
    have hmem : written ∈ (smithy guild).actions.values.flatMap (·.effects) :=
      List.mem_flatMap.2 ⟨action, Table.mem_values_iff.2 ⟨id, hfind⟩, hwritten⟩
    rw [hactions] at hmem
    rw [List.mem_singleton.1 hmem] at hread
    cases (rfl : raising.substitute params = .ok raising).symm.trans hread
    exact .inl rfl
  | tier entry tier passive effect hentry => cases hentry
  | timed player active effect hplayer hactive =>
    have hnone : ∀ player ∈ (smiths guild).players, player.passives = [] := by decide
    rw [hnone player hplayer] at hactive
    cases hactive
  | brought outer inner houter hbrings ih =>
    rcases ih with rfl | rfl
    · exact .inr (brings_raising hbrings)
    · obtain ⟨addition, haddition, -⟩ := hbrings
      exact absurd haddition (instruction_leisure addition)
  | attached outer addition passive effect houter haddition hpassive heffect ih =>
    rcases ih with rfl | rfl
    · cases (rfl : (smiths guild).setting.instruction? raising
        = some (.addition (.building "forge"))).symm.trans haddition
      rw [List.mem_singleton.1 hpassive] at heffect
      cases heffect
    · exact absurd haddition (instruction_leisure addition)

theorem braked_guild {effect : Effect Binary64} (h : (smiths guild).ComesUp Planned effect) :
    (smiths guild).setting.Braked effect := by
  have hrests : ∀ inner, ¬ (smiths guild).setting.Brings leisure inner :=
    fun inner hbrings => instruction_leisure _ hbrings.choose_spec.1
  intro inner hreached hself
  obtain ⟨next, hfirst, hrest⟩ := Relation.TransGen.head'_iff.1 hself
  rcases comesUp_guild (h.reaches hreached) with rfl | rfl
  · rw [brings_raising hfirst] at hrest
    rcases hrest.cases_head with hsame | ⟨other, hbrings, -⟩
    · exact absurd (congrArg Effect.family hsame) (by decide)
    · exact absurd hbrings (hrests other)
  · exact absurd hfirst (hrests next)

theorem play_ends_guild :
    ∃ session, Session.start shire (smithy guild) Operation.all = .ok session ∧
      session.Reachable ∧
      (∀ effect, session.ComesUp Planned effect → session.setting.Braked effect) ∧
      let broadcast := Broadcast.ofSession session
      (∃ after : Broadcast Binary64, ∃ depth, ∀ deeper, depth ≤ deeper →
        (play 2).run (broadcast.atDepth deeper) = (.ok (), after.atDepth deeper)) ∧
      (∃ rounds, Game 3 broadcast rounds ((play 2).run broadcast) ∧ rounds.length ≤ 9) ∧
      ∃ phase, ((play 2).after broadcast).session.clock.phase? = some phase ∧
        phase.action = true ∧ 3 ≤ ((play 2).after broadcast).session.clock.turn := by
  obtain ⟨session, hstart, hbraked, hturn, hslots, hdepth, hfine⟩ : ∃ session,
      Session.start shire (smithy guild) Operation.all = .ok session ∧
      (∀ effect, session.ComesUp Planned effect → session.setting.Braked effect) ∧
      session.clock.turn = 1 ∧ session.clock.phaseSlots = 4 ∧
      session.atDepth nestingLimit = session ∧
      ((play 2).outcome (.ofSession session)).isOk = true :=
    ⟨smiths guild, rfl, fun _ => braked_guild, rfl, rfl, rfl, by decide +kernel⟩
  have hok : (play 2).outcome (.ofSession session) = .ok () := by
    generalize (play 2).outcome (.ofSession session) = outcome at hfine
    cases outcome with
    | error error => cases hfine
    | ok done => rfl
  have hreachable : (Broadcast.ofSession session).session.Reachable :=
    .start _ _ _ _ session hstart
  have hsame : (Broadcast.ofSession session).atDepth nestingLimit = .ofSession session :=
    congrArg (fun played => { Broadcast.ofSession session with session := played }) hdepth
  have hasked : min ((Broadcast.ofSession session).session.clock.turn + 2) Clock.lastTurn = 3 := by
    rw [show (Broadcast.ofSession session).session.clock.turn = 1 from hturn]
    rfl
  obtain ⟨hcourse, hends⟩ := play_ends hreachable rfl 2
  obtain ⟨rounds, hgame, hlength, -, hlast⟩ := hcourse nestingLimit
  obtain ⟨outcome, after, -, henough, hanswers⟩ := hends hbraked
  have hplayed := hanswers nestingLimit
  rw [hsame] at hgame hlast hplayed
  rw [hasked] at hgame hlast
  rw [show (Broadcast.ofSession session).session.clock.phaseSlots = 4 from hslots] at hlength
  -- The depth that the session has is one at which the game is played to its end.
  have hrun := hplayed fun error herror => by cases hok.symm.trans herror
  obtain rfl : outcome = .ok () := (congrArg Prod.fst hrun).symm.trans hok
  exact ⟨session, hstart, hreachable, hbraked, ⟨after, henough⟩,
    ⟨rounds, (hgame _ _).2 ⟨rfl, rfl⟩, hlength⟩, hlast hok⟩

/-- However deep the effects may nest, the forge that rebuilds itself is never done. -/
theorem run_expand (depth : Nat) :
    (Session.perform "expand" .empty).run ((smiths rebuild).atDepth depth)
      = (.error (.actionFailed "expand" .nestedTooDeeply), (smiths rebuild).atDepth depth) := by
  let work (setting : Setting Binary64) : DraftAttempt Binary64 Unit := do
    ([] : List (String × Binary64)).forM (payCost setting)
    applyAll setting [raising]
  obtain ⟨draft, hraising⟩ : ∃ draft, (applyAll (rebuildingAmong (smithy rebuild).actions depth)
      [raising]).run homeless = (.error .nestedTooDeeply, draft) :=
    ⟨_, Attempt.run_bind_of_error (Attempt.run_eq_of_outcome (raising_runs_out _ _ depth))⟩
  -- There is nothing to pay, and the forge is all that is added.
  have hwork : (work ((smiths rebuild).atDepth depth).setting).run { player := smith }
      = (.error .nestedTooDeeply, draft) := hraising
  have hbatch : (Session.batch (.actionFailed "expand") work).run ((smiths rebuild).atDepth depth)
      = (.error (.actionFailed "expand" .nestedTooDeeply), (smiths rebuild).atDepth depth) :=
    Session.run_batch_of_work rfl (.actionFailed "expand") (Attempt.run_bind_of_error hwork)
  exact (Attempt.run_bind_of_error hbatch :
    (Session.batch (.actionFailed "expand") work >>= fun gains =>
      pure (ActionOutcome.completed "expand" gains)).run _ = _)

theorem run_playPhase_smith (depth : Nat) : ∃ after,
    (playPhase (smith.snapshot .empty)).run (.ofSession ((smiths rebuild).atDepth depth))
      = (.error (.actionFailed "expand" .nestedTooDeeply), after) := by
  have hasked := Broadcast.run_enqueue (Session.perform "expand" .empty)
    (.ofSession ((smiths rebuild).atDepth depth))
  change _ = (((Session.perform "expand" .empty).run ((smiths rebuild).atDepth depth)).1, _)
    at hasked
  rw [run_expand] at hasked
  have hplan : plan (smith.snapshot .empty)
      = [("expand", .empty), ("raise_council", .empty), ("tax", .empty)] := rfl
  unfold playPhase
  rw [hplan]
  exact ⟨_, Attempt.run_bind_of_error (Attempt.run_bind_of_error
    (Attempt.run_bind_of_error hasked))⟩

/-- A game that never comes to an end, however deep effects may nest. -/
theorem play_never_ends : ∃ session : Session Binary64,
    (∀ depth, Session.start shire (smithy rebuild) Operation.all depth
      = .ok (session.atDepth depth)) ∧
    ∀ depth, (play 1).outcome (.ofSession (session.atDepth depth))
      = .error (.actionFailed "expand" .nestedTooDeeply) := by
  have hstart : ∀ depth, Session.start shire (smithy rebuild) Operation.all depth
      = .ok ((smiths rebuild).atDepth depth) := fun _ => rfl
  refine ⟨smiths rebuild, hstart, fun depth => ?_⟩
  obtain ⟨after, hphase⟩ := run_playPhase_smith depth
  have hattended : (Broadcast.ofSession ((smiths rebuild).atDepth depth)).Attended shire :=
    ⟨Session.anchored_start (hstart depth), rfl⟩
  obtain ⟨rounds, hcourse, -⟩ := play_course hattended 1
  have hgame : Game 2 (.ofSession ((smiths rebuild).atDepth depth)) [0]
      (.error (.actionFailed "expand" .nestedTooDeeply), after) :=
    .failed _ _ after 0 (.found 255 _ rfl) (Nat.lt_succ_self 1) _ rfl _ hphase
  exact congrArg Prod.fst ((hcourse _ _).1 hgame).2.symm

end Playbook

end Realm
