import Realm.Proofs.Catalog
import Realm.Proofs.Session.Reach

/-!
# Where a move comes to

A move that leaves the phase comes to the first slot, counted from where the clock has moved to,
whose phase its player does not skip; if there is none in a whole round, it is refused. Whatever
happens, happens at the slot it comes to (`move_lands`).

The session gives up after passing over as many phases as a round has, and looks at one slot more.
That one is the first of the round again, so it is skipped if all others are: the search neither
gives up too early nor runs on. What it needs is room, two turns before the last one, because going
round may take the clock into the turn after the next.
-/

set_option autoImplicit false

namespace Realm
namespace Session

variable {α : Type} [Amount α]

/-! ## Steps and phases do not give up -/

theorem runStep_ne (session : Session α) :
    (runStep.run session).1 ≠ .error .allPhasesSkipped := by
  have hending := runStep_ending session
  generalize runStep.run session = result at hending
  intro h
  cases hending <;> cases h

theorem enter_ne (phase : Phase α) (session : Session α) :
    ((enter phase).run session).1 ≠ .error .allPhasesSkipped := by
  unfold enter
  refine holds_batch_bind (fun result => result.1 ≠ .error .allPhasesSkipped) ?_ ?_ ?_
  · intro h
    cases h
  · intro error h
    cases h
  · intro draft
    exact runStep_ne _

/-! ## What a search comes to -/

omit [Amount α] in
theorem skipsSlot_of_phases {session : Session α} {clock : Clock α}
    (h : clock.phases = session.clock.phases) (slot : Nat × Nat) :
    SkipsSlot { session with clock } slot ↔ session.SkipsSlot slot := by
  unfold SkipsSlot
  rw [h]

/-- What a search comes to in a session with room: the first slot that is not skipped, or nothing,
    where all that it may look at are skipped. -/
inductive Landing (slack : Nat) (session : Session α) :
    Except (SessionError α) Unit × Session α → Prop
  | entered (k : Nat) (clock : Clock α) (phase : Phase α) (hk : k ≤ slack)
      (hclock : session.clock.Follows k clock)
      (hpassed : ∀ j < k, session.SkipsSlot (session.clock.slotAfter j))
      (hslot : ¬ session.SkipsSlot (session.clock.slotAfter k))
      (hphase : clock.phase? = some phase) :
      Landing slack session ((enter phase).run { session with clock })
  | exhausted (after : Session α)
      (hall : ∀ k ≤ slack, session.SkipsSlot (session.clock.slotAfter k)) :
      Landing slack session (.error .allPhasesSkipped, after)

/-- Having passed over a phase, a session comes to what it comes to from the next one. -/
theorem Landing.passed {slack : Nat} {session : Session α} {clock : Clock α}
    {result : Except (SessionError α) Unit × Session α} (hskips : session.Skips)
    (hrange : session.clock.InRange) (hnext : session.clock.Follows 1 clock)
    (h : Landing slack { session with clock } result) : Landing (slack + 1) session result := by
  have hfirst : session.SkipsSlot (session.clock.slotAfter 0) := by
    rw [hrange.slotAfter_zero]
    exact hskips
  have hrest : ∀ k, SkipsSlot { session with clock } (clock.slotAfter k) ↔
      session.SkipsSlot (session.clock.slotAfter (k + 1)) := by
    intro k
    rw [skipsSlot_of_phases hnext.phases, hnext.slotAfter k, Nat.add_comm]
  cases h with
  | entered k last phase hk hclock hpassed hslot hphase =>
    refine .entered (k + 1) last phase (by omega) ?_ ?_ ?_ hphase
    · rw [Nat.add_comm]
      exact hnext.trans hclock
    · intro j hj
      cases j with
      | zero => exact hfirst
      | succ j => exact (hrest j).1 (hpassed j (by omega))
    · exact fun hskips => hslot ((hrest k).2 hskips)
  | exhausted after hall =>
    refine .exhausted after fun k hk => ?_
    cases k with
    | zero => exact hfirst
    | succ k => exact (hrest k).1 (hall k (by omega))

/-- A search that begins with a phase, and with room for as many moves as it may make, lands. -/
theorem Search.landing {slack : Nat} {session : Session α} {seen : List (Clock α)}
    {result : Except (SessionError α) Unit × Session α}
    (h : Search slack session seen result) (hseated : session.Seated)
    (hstep : session.clock.step = 0)
    (hroom : session.clock.number + slack < (Clock.lastTurn + 1) * session.clock.phaseSlots) :
    Landing slack session result := by
  induction h with
  | astray slack session h =>
    obtain ⟨phase, player, hslot⟩ := hseated.slot
    rw [h] at hslot
    cases hslot
  | entered slack session phase hphase h =>
    have hfollows := Clock.Follows.refl hseated.clock hstep
    refine .entered 0 session.clock phase (Nat.zero_le _) hfollows ?_ ?_ hphase
    · intro j hj
      exact absurd hj (Nat.not_lt_zero j)
    · rw [← hfollows.slot]
      exact h
  | exhausted session h =>
    refine .exhausted session fun k hk => ?_
    rw [Nat.le_zero.1 hk, hseated.clock.slotAfter_zero]
    exact h
  | stopped slack session h error hnext =>
    obtain ⟨boundary, next, hok⟩ := hseated.clock.nextPhase_ok (by omega)
    rw [hnext] at hok
    cases hok
  | passed slack session h boundary clock hnext seen result hrest ih =>
    obtain ⟨hfollows, -, -⟩ := hseated.clock.nextPhase_follows hnext
    refine Landing.passed h hseated.clock hfollows (ih ?_ hfollows.step ?_)
    · exact hseated.enters (.single ⟨boundary, hnext⟩)
    · show clock.number + slack < (Clock.lastTurn + 1) * clock.phaseSlots
      rw [hfollows.number, hfollows.phaseSlots]
      omega

/-! ## Going round -/

omit [Amount α] in
/-- A whole round that is skipped and one slot more are skipped together. -/
theorem skips_round {session : Session α} (h : session.Seated) :
    (∀ k ≤ session.clock.phaseSlots, session.SkipsSlot (session.clock.slotAfter k)) ↔
      ∀ k < session.clock.phaseSlots, session.SkipsSlot (session.clock.slotAfter k) := by
  constructor
  · exact fun hall k hk => hall k (Nat.le_of_lt hk)
  · intro hall k hk
    rcases Nat.lt_or_eq_of_le hk with hlt | heq
    · exact hall k hlt
    · rw [heq, ← Nat.zero_add session.clock.phaseSlots, h.clock.slotAfter_phaseSlots]
      exact hall 0 h.clock.phaseSlots_pos

omit [Amount α] in
/-- A whole round is skipped if every player skips every phase. -/
theorem skips_round_iff {session : Session α} {clock : Clock α} (hrange : clock.InRange) :
    (∀ k < clock.phaseSlots, session.SkipsSlot (clock.slotAfter k)) ↔
      ∀ player < clock.players.length, ∀ phase < clock.phases.length,
        session.SkipsSlot (player, phase) := by
  constructor
  · intro hall player hplayer phase hphase
    obtain ⟨k, hk, hslot⟩ := hrange.exists_slotAfter hplayer hphase
    rw [← hslot]
    exact hall k hk
  · intro hall k _
    exact hall _ (Nat.mod_lt _ (Nat.zero_lt_of_lt hrange.player)) _
      (Nat.mod_lt _ (Nat.zero_lt_of_lt hrange.phase))

/-- What entering a phase comes to: it fails for want of a phase if a whole round is skipped, and
    if it succeeds it has entered the first slot of the round that is not. -/
theorem Landing.round {session : Session α} (hseated : session.Seated)
    {result : Except (SessionError α) Unit × Session α}
    (h : Landing session.clock.phaseSlots session result) :
    (result.1 = .error .allPhasesSkipped ↔
      ∀ k < session.clock.phaseSlots, session.SkipsSlot (session.clock.slotAfter k)) ∧
    ∀ after, result = (.ok (), after) →
      ∃ k phase, k < session.clock.phaseSlots ∧
        (∀ j < k, session.SkipsSlot (session.clock.slotAfter j)) ∧
        ¬ session.SkipsSlot (session.clock.slotAfter k) ∧
        after.clock.slot = session.clock.slotAfter k ∧ after.clock.step = 0 ∧
        after.clock.phase? = some phase ∧
        (enter phase).run { session with clock := after.clock } = (.ok (), after) := by
  cases h with
  | exhausted after hall =>
    refine ⟨⟨fun _ => (skips_round hseated).1 hall, fun _ => rfl⟩, ?_⟩
    intro after h
    cases h
  | entered k clock phase hk hclock hpassed hslot hphase =>
    have hround : ¬ ∀ k < session.clock.phaseSlots,
        session.SkipsSlot (session.clock.slotAfter k) :=
      fun hall => hslot ((skips_round hseated).2 hall k hk)
    refine ⟨⟨fun h => absurd h (enter_ne _ _), fun hall => absurd hall hround⟩, ?_⟩
    intro after hrun
    have hcommits := (enter_commits phase { session with clock }).reaches
    rw [hrun] at hcommits
    have hafter : after.clock = clock := (touches_of_commits hcommits).1
    refine ⟨k, phase, ?_, hpassed, hslot, ?_, ?_, ?_, ?_⟩
    · rcases Nat.lt_or_eq_of_le hk with hlt | heq
      · exact hlt
      · -- The slot after a whole round is the first one, which was passed over.
        exact absurd (fun j hj => hpassed j (heq ▸ hj)) hround
    · rw [hafter]
      exact hclock.slot
    · rw [hafter]
      exact hclock.step
    · rw [hafter]
      exact hphase
    · rw [hafter]
      exact hrun

/-! ## Moves -/

/-- A move stays in the phase: if it succeeds, the game stands at the next step, and running that
    step is all that has happened. -/
structure Stays (session : Session α) (clock : Clock α)
    (result : Except (SessionError α) Progress × Session α) : Prop where
  next : clock = { session.clock with step := session.clock.step + 1 }
  not_refused : result.1 ≠ .error .allPhasesSkipped
  ran : ∀ progress after, result = (.ok progress, after) →
    after.clock = clock ∧ runStep.run { session with clock } = (.ok (), after)

/-- A move leaves the phase, and the clock moves to another: the move is refused if every slot of
    the round that begins there is skipped, which is to say every phase by every player, and if it
    succeeds, the game stands at the beginning of the first slot that is not, and entering that one
    is all that has happened. -/
structure Lands (session : Session α) (clock : Clock α)
    (result : Except (SessionError α) Progress × Session α) : Prop where
  refused_iff : result.1 = .error .allPhasesSkipped ↔
    ∀ k < clock.phaseSlots, session.SkipsSlot (clock.slotAfter k)
  refused_iff_all : result.1 = .error .allPhasesSkipped ↔
    ∀ player < clock.players.length, ∀ phase < clock.phases.length,
      session.SkipsSlot (player, phase)
  entered : ∀ progress after, result = (.ok progress, after) →
    ∃ k phase, k < clock.phaseSlots ∧
      (∀ j < k, session.SkipsSlot (clock.slotAfter j)) ∧
      ¬ session.SkipsSlot (clock.slotAfter k) ∧
      after.clock.slot = clock.slotAfter k ∧ after.clock.step = 0 ∧
      after.clock.phase? = some phase ∧
      (enter phase).run { session with clock := after.clock } = (.ok (), after)

theorem run_settle_step (session : Session α) :
    (settle .step).run session = runStep.run session := rfl

theorem run_settle_enters {boundary : Boundary} (h : boundary.entersPhase = true)
    (session : Session α) :
    (settle boundary).run session = (enterPhase session.clock.phaseSlots).run session := by
  unfold settle
  rw [if_pos h, Attempt.run_get_bind]

/-- A move within the phase runs the next step. -/
theorem stays_of_step {session : Session α} {move : Move} {clock : Clock α}
    (hmove : move.onClock session.clock = .ok (.step, clock))
    (hnext : clock = { session.clock with step := session.clock.step + 1 }) :
    Stays session clock (move.attempt.run session) := by
  have hne := runStep_ne { session with clock }
  have hcommits := (runStep_commits { session with clock }).reaches
  rw [run_move, hmove]
  dsimp only
  rw [run_settle_step]
  generalize hrun : runStep.run { session with clock } = settled at hne hcommits ⊢
  obtain ⟨outcome, after⟩ := settled
  cases outcome with
  | error error =>
    refine ⟨hnext, ?_, ?_⟩
    · intro h
      cases h
      exact hne rfl
    · intro progress last h
      cases h
  | ok done =>
    refine ⟨hnext, ?_, ?_⟩
    · intro h
      cases h
    · intro progress last h
      cases h
      exact ⟨(touches_of_commits hcommits).1, hrun⟩

/-- A move to another phase lands. -/
theorem lands_of_enters {session : Session α} (hseated : session.Seated)
    (hturn : session.clock.turn + 2 ≤ Clock.lastTurn) {move : Move} {boundary : Boundary}
    {clock : Clock α} (hmove : move.onClock session.clock = .ok (boundary, clock))
    (hnext : session.clock.nextPhase = .ok (boundary, clock)) :
    Lands session clock (move.attempt.run session) := by
  obtain ⟨hfollows, henters, hlater⟩ := hseated.clock.nextPhase_follows hnext
  have hmoved : Seated { session with clock } := hseated.onClock hmove
  -- The move may have begun a turn, and it was not the last one.
  have hroom := hfollows.inRange.room (by omega)
  obtain ⟨seen, hsearch⟩ := search_enterPhase clock.phaseSlots { session with clock }
  have hlanding := hsearch.landing hmoved hfollows.step hroom
  have hround := hlanding.round hmoved
  simp only [skipsSlot_of_phases hfollows.phases] at hround
  obtain ⟨hrefused, hentered⟩ := hround
  rw [run_move, hmove]
  dsimp only
  rw [run_settle_enters henters]
  dsimp only
  generalize (enterPhase clock.phaseSlots).run { session with clock } = settled
    at hrefused hentered ⊢
  obtain ⟨outcome, after⟩ := settled
  have hall := hrefused.trans (skips_round_iff hfollows.inRange)
  cases outcome with
  | error error =>
    -- A move is refused if settling is, with the same error.
    have hsame : (.error error : Except (SessionError α) Progress) = .error .allPhasesSkipped ↔
        (.error error : Except (SessionError α) Unit) = .error .allPhasesSkipped := by
      rw [Except.error.injEq, Except.error.injEq]
    refine ⟨hsame.trans hrefused, hsame.trans hall, ?_⟩
    intro progress last h
    cases h
  | ok done =>
    have hsame : (.ok after.progress : Except (SessionError α) Progress) = .error .allPhasesSkipped
        ↔ (.ok done : Except (SessionError α) Unit) = .error .allPhasesSkipped :=
      ⟨fun h => (by cases h), fun h => (by cases h)⟩
    refine ⟨hsame.trans hrefused, hsame.trans hall, ?_⟩
    intro progress last h
    cases h
    exact hentered after rfl

/-- **A move lands on the first slot that can be entered.** Two turns before the last one the clock
    can always move. A move that stays in the phase runs the next step and enters no phase. Any
    other passes over the slots whose phase is skipped and enters the first one that is not, and is
    refused exactly if a whole round is skipped; the search for it looks at the slots one after the
    other, and at one more than a round has at most. -/
theorem move_lands {session : Session α} (hreachable : session.Reachable)
    (hturn : session.clock.turn + 2 ≤ Clock.lastTurn) (move : Move) :
    ∃ boundary clock, move.onClock session.clock = .ok (boundary, clock) ∧
      (boundary.entersPhase = false →
        Stays session clock (move.attempt.run session)) ∧
      (boundary.entersPhase = true →
        Lands session clock (move.attempt.run session) ∧
        ∃ seen, Search clock.phaseSlots { session with clock } seen
            ((settle boundary).run { session with clock }) ∧
          seen.map Clock.slot = (List.range seen.length).map clock.slotAfter ∧
          seen.length ≤ clock.phaseSlots + 1) := by
  have hseated := hreachable.seated
  rcases move.onClock_cases session.clock with ⟨-, hstep⟩ | hnext
  · refine ⟨_, _, hstep, fun _ => stays_of_step hstep rfl, ?_⟩
    intro h
    cases h
  · have hroom := hseated.clock.room (by omega)
    have hpos := hseated.clock.phaseSlots_pos
    obtain ⟨boundary, clock, hok⟩ := hseated.clock.nextPhase_ok (by omega)
    have hmove := hnext.trans hok
    obtain ⟨hfollows, henters, -⟩ := hseated.clock.nextPhase_follows hok
    refine ⟨boundary, clock, hmove, ?_, fun _ => ⟨lands_of_enters hseated hturn hmove hok, ?_⟩⟩
    · intro h
      rw [henters] at h
      cases h
    · obtain ⟨seen, hsearch⟩ := search_enterPhase clock.phaseSlots { session with clock }
      refine ⟨seen, ?_, hsearch.slots hfollows.inRange, hsearch.length_le⟩
      rw [run_settle_enters henters]
      exact hsearch

end Session

namespace Sample

/-- A game in which everyone begins with the upkeep skipped. -/
def config : Config Binary64 :=
  { start := {
      effects := [
        { family := "phase_skip"
          method := "add"
          params := .record [("phaseId", .text "upkeep"), ("source", .text "feast")] }] } }

def opening : Except (SessionError Binary64) (Session Binary64) :=
  Session.start config { catalog } Operation.all

end Sample

namespace Session

theorem move_lands_sample :
    ∃ session, Sample.opening = .ok session ∧ session.Reachable ∧
      session.clock.turn + 2 ≤ Clock.lastTurn ∧
      ∃ boundary clock, Move.endPhase.onClock session.clock = .ok (boundary, clock) ∧
        Lands session clock (Move.endPhase.attempt.run session) := by
  obtain ⟨session, hstart, hturn⟩ : ∃ session, Sample.opening = .ok session ∧
      session.clock.turn + 2 ≤ Clock.lastTurn := ⟨_, rfl, by decide +kernel⟩
  have hreachable : session.Reachable := .start _ _ _ _ session hstart
  obtain ⟨boundary, clock, hmove, -, hlands⟩ := move_lands hreachable hturn .endPhase
  have henters := (hreachable.seated.clock.nextPhase_follows hmove).2.1
  exact ⟨session, hstart, hreachable, hturn, boundary, clock, hmove, (hlands henters).1⟩

end Session

end Realm
