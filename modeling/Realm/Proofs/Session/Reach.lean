import Realm.Proofs.Session.Call

/-!
# Sessions that come about

A session comes about by being started and by calls on it, whether they succeed or not. In every
such session the clock stands at a player and a phase that are there, and there are as many players
as the clock counts: `Seated`. Nothing in a session checks this again, and a session that broke it
could only report that its position is out of range.
-/

set_option autoImplicit false

namespace Realm

/-- The effect that gives a player the lands to start with. -/
def Start.landGrant {α : Type} [Amount α] (start : Start α) : Effect α :=
  { family := Operation.addLand.name.1, method := Operation.addLand.name.2
    params := .record [("count", .count start.lands)] }

namespace Session

variable {α : Type}

/-- The clock stands at a player and a phase that are there. -/
structure Seated (session : Session α) : Prop where
  clock : session.clock.InRange
  players : session.players.length = session.clock.players.length

theorem Seated.slot {session : Session α} (h : session.Seated) :
    ∃ phase player, session.slot? = some (phase, player) := by
  have hplayer : session.clock.player < session.players.length := by
    rw [h.players]
    exact h.clock.player
  exact ⟨_, _, slot?_eq_some.2
    ⟨List.getElem?_eq_getElem h.clock.phase, List.getElem?_eq_getElem hplayer⟩⟩

/-- Entering phases keeps the clock within its range. -/
theorem Seated.enters {session : Session α} (h : session.Seated) {clock : Clock α}
    (henters : Relation.ReflTransGen Clock.Enters session.clock clock) :
    { session with clock }.Seated := by
  obtain ⟨hrange, hplayers, -⟩ := h.clock.of_enters henters
  exact ⟨hrange, by rw [h.players, hplayers]⟩

theorem Seated.commits {before after : Session α} (h : before.Seated)
    (hcommits : Relation.ReflTransGen Commits before after) : after.Seated := by
  obtain ⟨hclock, htouches⟩ := touches_of_commits hcommits
  refine ⟨?_, ?_⟩
  · rw [hclock]
    exact h.clock
  · rw [htouches.size, hclock]
    exact h.players

/-- A move goes to the next step or to the next phase. -/
theorem Move.onClock_cases (move : Move) (clock : Clock α) :
    (move = .advance ∧ move.onClock clock = .ok (.step, { clock with step := clock.step + 1 })) ∨
      move.onClock clock = clock.nextPhase := by
  cases move with
  | advance =>
    rcases clock.advance_cases with h | h
    · exact .inl ⟨rfl, h⟩
    · exact .inr h
  | endPhase => exact .inr rfl

theorem Seated.onClock {session : Session α} (h : session.Seated) {move : Move}
    {boundary : Boundary} {clock : Clock α}
    (hmove : move.onClock session.clock = .ok (boundary, clock)) :
    { session with clock }.Seated := by
  rcases move.onClock_cases session.clock with ⟨-, hstep⟩ | hnext
  · rw [hstep] at hmove
    cases hmove
    exact ⟨⟨h.clock.player, h.clock.phase⟩, h.players⟩
  · rw [hnext] at hmove
    exact h.enters (.single ⟨boundary, hmove⟩)

variable [Amount α]

theorem Seated.settle {session : Session α} (h : session.Seated) (boundary : Boundary) :
    ((settle boundary).after session).Seated := by
  obtain ⟨clock, henters, hcommits⟩ := settle_commits boundary session
  exact (h.enters henters).commits hcommits

theorem Seated.call {session : Session α} (h : session.Seated) (call : Call α) :
    (call.attempt.after session).Seated := by
  have hending := call.ending session
  rw [Attempt.after_def]
  generalize call.attempt.run session = result at hending ⊢
  cases hending with
  | failed call error => exact h
  | moved move boundary clock after hmove hsettle =>
    have hsettled := (h.onClock hmove).settle boundary
    rw [Attempt.after_def, hsettle] at hsettled
    exact hsettled
  | rejected id params action unmet => exact h
  | completed id params action draft => exact h.commits (.single (.draft draft))

/-- What everyone starts with is given one thing after the other, and lands if there are any. -/
theorem equip_eq (setting : Setting α) (start : Start α) : equip setting start = (do
    start.resources.toList.forM fun entry =>
      Draft.record (Ledger.setAmount setting.content.catalog entry.1 entry.2 .reject)
    applyAll setting (if 0 < start.lands then [start.landGrant] else [])
    start.buildings.forM fun building => do
      let _ ← addBuilding setting building
    applyAll setting start.effects) := by
  have hsingle : applyAll setting [start.landGrant] = applyEffect setting start.landGrant 1 :=
    bind_pure_unit
  unfold equip
  split
  · rw [hsingle]
    rfl
  · rfl

/-- A session that begins has seated its players and settled in its first phase. -/
theorem start_eq_ok {config : Config α} {content : Content α} {operations : List Operation}
    {nesting : Nat} {session : Session α}
    (h : start config content operations nesting = .ok session) :
    ∃ clock players, Clock.start (config.seats.map (·.id)) config.phases = .ok clock ∧
      config.seats.mapM (seat { operations, content, rules := config.rules, nesting } config.start)
        = .ok players ∧
      (settle .turn).run { config, operations, nesting, content, clock, players }
        = (.ok (), session) := by
  unfold start at h
  obtain ⟨-, -, h⟩ := Outcome.bind_eq_ok.1 h
  obtain ⟨-, -, h⟩ := Outcome.bind_eq_ok.1 h
  obtain ⟨clock, hclock, h⟩ := Outcome.bind_eq_ok.1 h
  obtain ⟨players, hplayers, h⟩ := Outcome.bind_eq_ok.1 h
  refine ⟨clock, players, Outcome.mapError_eq_ok.1 hclock, Outcome.mapError_eq_ok.1 hplayers, ?_⟩
  dsimp only at h
  split at h
  · rename_i settled heq
    cases h
    exact heq
  · cases h

theorem content_of_start {config : Config α} {content : Content α} {operations : List Operation}
    {nesting : Nat} {session : Session α}
    (h : start config content operations nesting = .ok session) :
    session.content = content := by
  obtain ⟨clock, players, -, -, hsettle⟩ := start_eq_ok h
  have htouches : Touches session.clock.player
      { config, operations, nesting, content, clock, players } session := settle_touches hsettle
  exact htouches.content

/-- The sessions that come about: started ones, and what calls leave of a session. -/
inductive Reachable : Session α → Prop
  | start (config : Config α) (content : Content α) (operations : List Operation) (nesting : Nat)
      (session : Session α) (h : start config content operations nesting = .ok session) :
      Reachable session
  | call (session : Session α) (h : Reachable session) (call : Call α) :
      Reachable (call.attempt.after session)

theorem Reachable.seated {session : Session α} (h : session.Reachable) : session.Seated := by
  induction h with
  | start config content operations nesting session h =>
    obtain ⟨clock, players, hclock, hseats, hsettle⟩ := start_eq_ok h
    obtain ⟨hrange, hplayers, -⟩ := Clock.inRange_start hclock
    have hseated : Seated { config, operations, nesting, content, clock, players : Session α } :=
      ⟨hrange, by rw [hplayers, List.length_map, Outcome.length_mapM hseats]⟩
    have hsettled := hseated.settle .turn
    rw [Attempt.after_def, hsettle] at hsettled
    exact hsettled
  | call session h call ih => exact ih.call call

end Session

end Realm
