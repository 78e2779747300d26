import Realm.Proofs.Clock
import Realm.Proofs.Session.Commit

/-!
# Looking for a phase to enter

When the clock has crossed the beginning of a phase, the session looks for the first phase that its
player does not skip. `Search` is the record of such a search: it lists the clocks that were looked
at and has a rule for each way of going on or coming to an end. `enterPhase` is a search
(`search_enterPhase`), so what is proved of searches by induction on their rules holds of it: a
search looks at one slot more than it may pass over (`Search.length_le`), and all that it commits it
commits where it ends (`Search.commits`).
-/

set_option autoImplicit false

namespace Realm
namespace Session

variable {α : Type}

/-- The phase at which the clock stands and the player whose turn it is. -/
def slot? (session : Session α) : Option (Phase α × Player α) := do
  return (← session.clock.phase?, ← session.activePlayer?)

/-- Whether the player of a slot skips the phase of the slot. -/
def SkipsSlot (session : Session α) (slot : Nat × Nat) : Prop :=
  ∃ phase player, session.clock.phases[slot.2]? = some phase ∧
    session.players[slot.1]? = some player ∧ player.skips.isPhaseSkipped phase.id = true

/-- Whether the player whose turn it is skips the phase at which the clock stands. -/
def Skips (session : Session α) : Prop := session.SkipsSlot session.clock.slot

theorem slot?_eq_some {session : Session α} {phase : Phase α} {player : Player α} :
    session.slot? = some (phase, player) ↔
      session.clock.phase? = some phase ∧ session.activePlayer? = some player := by
  unfold slot?
  cases session.clock.phase? <;> cases session.activePlayer? <;> simp

theorem skips_iff {session : Session α} {phase : Phase α} {player : Player α}
    (h : session.slot? = some (phase, player)) :
    session.Skips ↔ player.skips.isPhaseSkipped phase.id = true := by
  obtain ⟨hphase, hplayer⟩ := slot?_eq_some.1 h
  constructor
  · rintro ⟨phase', player', hphase', hplayer', hskips⟩
    rw [show session.clock.phases[session.clock.slot.2]? = some phase from hphase] at hphase'
    rw [show session.players[session.clock.slot.1]? = some player from hplayer] at hplayer'
    cases hphase'
    cases hplayer'
    exact hskips
  · exact fun hskips => ⟨phase, player, hphase, hplayer, hskips⟩

variable [Amount α]

/-- A search with its result: how many phases it may pass over, where it begins, the clocks it looks
    at. -/
inductive Search : Nat → Session α → List (Clock α) →
    Except (SessionError α) Unit × Session α → Prop
  | astray (slack : Nat) (session : Session α) (h : session.slot? = none) :
      Search slack session [session.clock] (.error .outOfRange, session)
  | entered (slack : Nat) (session : Session α) (phase : Phase α)
      (hphase : session.clock.phase? = some phase) (h : ¬ session.Skips) :
      Search slack session [session.clock] ((enter phase).run session)
  | exhausted (session : Session α) (h : session.Skips) :
      Search 0 session [session.clock] (.error .allPhasesSkipped, session)
  | stopped (slack : Nat) (session : Session α) (h : session.Skips) (error : ClockError)
      (hnext : session.clock.nextPhase = .error error) :
      Search (slack + 1) session [session.clock] (.error (.clock error), session)
  | passed (slack : Nat) (session : Session α) (h : session.Skips) (boundary : Boundary)
      (clock : Clock α) (hnext : session.clock.nextPhase = .ok (boundary, clock))
      (seen : List (Clock α)) (result : Except (SessionError α) Unit × Session α)
      (hrest : Search slack { session with clock } seen result) :
      Search (slack + 1) session (session.clock :: seen) result

/-! ## Entering is searching -/

theorem run_enterPhase_astray (slack : Nat) {session : Session α} (h : session.slot? = none) :
    (enterPhase slack).run session = (.error .outOfRange, session) := by
  unfold enterPhase
  cases hphase : session.clock.phase? with
  | none => rw [run_currentPhase_bind_none hphase]
  | some phase =>
    rw [run_currentPhase_bind hphase]
    cases hplayer : session.activePlayer? with
    | none => rw [run_currentPlayer_bind_none hplayer]
    | some player =>
      rw [slot?_eq_some.2 ⟨hphase, hplayer⟩] at h
      cases h

theorem run_enterPhase (slack : Nat) {session : Session α} {phase : Phase α} {player : Player α}
    (h : session.slot? = some (phase, player)) :
    (enterPhase slack).run session =
      if player.skips.isPhaseSkipped phase.id = true then
        match slack with
        | 0 => (.error .allPhasesSkipped, session)
        | slack + 1 =>
          match session.clock.nextPhase with
          | .ok (_, clock) => (enterPhase slack).run { session with clock }
          | .error error => (.error (.clock error), session)
      else (enter phase).run session := by
  obtain ⟨hphase, hplayer⟩ := slot?_eq_some.1 h
  rw [enterPhase.eq_def, run_currentPhase_bind hphase, run_currentPlayer_bind hplayer]
  split
  · cases slack with
    | zero => rfl
    | succ slack =>
      show (moveClock Clock.nextPhase >>= fun _ => enterPhase slack).run session = _
      rw [Attempt.run_bind, run_moveClock]
      cases session.clock.nextPhase with
      | error error => rfl
      | ok moved => rfl
  · rfl

/-- Entering a phase is a search. -/
theorem search_enterPhase (slack : Nat) (session : Session α) :
    ∃ seen, Search slack session seen ((enterPhase slack).run session) := by
  induction slack generalizing session with
  | zero =>
    cases hslot : session.slot? with
    | none =>
      rw [run_enterPhase_astray 0 hslot]
      exact ⟨_, .astray 0 session hslot⟩
    | some slot =>
      obtain ⟨phase, player⟩ := slot
      rw [run_enterPhase 0 hslot]
      split
      · rename_i hskips
        exact ⟨_, .exhausted session ((skips_iff hslot).2 hskips)⟩
      · rename_i hskips
        refine ⟨_, .entered 0 session phase (slot?_eq_some.1 hslot).1 ?_⟩
        exact fun h => hskips ((skips_iff hslot).1 h)
  | succ slack ih =>
    cases hslot : session.slot? with
    | none =>
      rw [run_enterPhase_astray (slack + 1) hslot]
      exact ⟨_, .astray (slack + 1) session hslot⟩
    | some slot =>
      obtain ⟨phase, player⟩ := slot
      rw [run_enterPhase (slack + 1) hslot]
      split
      · rename_i hskips
        have hskip := (skips_iff hslot).2 hskips
        cases hnext : session.clock.nextPhase with
        | error error => exact ⟨_, .stopped slack session hskip error hnext⟩
        | ok move =>
          obtain ⟨boundary, clock⟩ := move
          obtain ⟨seen, hseen⟩ := ih { session with clock }
          exact ⟨_, .passed slack session hskip boundary clock hnext seen _ hseen⟩
      · rename_i hskips
        refine ⟨_, .entered (slack + 1) session phase (slot?_eq_some.1 hslot).1 ?_⟩
        exact fun h => hskips ((skips_iff hslot).1 h)

/-! ## What every search does -/

section

variable {slack : Nat} {session : Session α} {seen : List (Clock α)}
  {result : Except (SessionError α) Unit × Session α}

theorem Search.length_le (h : Search slack session seen result) : seen.length ≤ slack + 1 := by
  induction h with
  | astray slack session h => simp
  | entered slack session phase hphase h => simp
  | exhausted session h => simp
  | stopped slack session h error hnext => simp
  | passed slack session h boundary clock hnext seen result hrest ih =>
    rw [List.length_cons]
    omega

/-- The slots that are looked at are those that follow one another. -/
theorem Search.slots (h : Search slack session seen result) (hrange : session.clock.InRange) :
    seen.map Clock.slot = (List.range seen.length).map session.clock.slotAfter := by
  have hsingle : ∀ session : Session α, session.clock.InRange →
      [session.clock].map Clock.slot
        = (List.range [session.clock].length).map session.clock.slotAfter := by
    intro session hrange
    simp [hrange.slotAfter_zero]
  induction h with
  | astray slack session h => exact hsingle session hrange
  | entered slack session phase hphase h => exact hsingle session hrange
  | exhausted session h => exact hsingle session hrange
  | stopped slack session h error hnext => exact hsingle session hrange
  | passed slack session h boundary clock hnext seen result hrest ih =>
    obtain ⟨hfollows, -, -⟩ := hrange.nextPhase_follows hnext
    rw [List.map_cons, ih hfollows.inRange, List.length_cons, List.range_succ_eq_map,
      List.map_cons, hrange.slotAfter_zero, List.map_map]
    congr 1
    refine List.map_congr_left fun k _ => ?_
    rw [hfollows.slotAfter k, Nat.add_comm]
    rfl

/-- Whatever a search has committed, it has committed after its last move of the clock. -/
theorem Search.commits (h : Search slack session seen result) :
    ∃ clock, Relation.ReflTransGen Clock.Enters session.clock clock ∧
      Relation.ReflTransGen Commits { session with clock } result.2 := by
  induction h with
  | astray slack session h => exact ⟨session.clock, .refl, .refl⟩
  | entered slack session phase hphase h =>
    exact ⟨session.clock, .refl, enter_commits phase session⟩
  | exhausted session h => exact ⟨session.clock, .refl, .refl⟩
  | stopped slack session h error hnext => exact ⟨session.clock, .refl, .refl⟩
  | passed slack session h boundary clock hnext seen result hrest ih =>
    obtain ⟨last, henters, hcommits⟩ := ih
    exact ⟨last, .head ⟨boundary, hnext⟩ henters, hcommits⟩

end

end Session

end Realm
