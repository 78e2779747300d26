import Realm.Proofs.Playbook

/-!
# How far the playbook looks for an action phase

The playbook advances the game until it stands in an action phase. Which action phase that is can be
said without the search: `Session.FirstActionPhase` counts the advances that lead there, all of which
succeed and none of which passes another action phase. The search is compared with it in
`Seek.course`.

The search looks at the game before each advance, and after the last one it may make it does not
look again. So it finds what is fewer than `searchLimit` advances away. What is exactly that many
away it reaches and leaves unnoticed: the game stands in an action phase then, and the search says
that there is none (`last_advance_unnoticed`).
-/

set_option autoImplicit false

namespace Realm

variable {α : Type}

namespace Session

/-- The clock stands in a phase in which players act. -/
def InActionPhase (session : Session α) : Prop :=
  ∃ phase, session.clock.phase? = some phase ∧ phase.action = true

theorem actionPhase_snapshot_iff {session : Session α} :
    session.snapshot.game.actionPhase = true ↔ session.InActionPhase := by
  show (session.clock.phase?.map (·.action)).getD false = true ↔ _
  unfold InActionPhase
  cases session.clock.phase? with
  | none =>
    refine iff_of_false Bool.false_ne_true ?_
    rintro ⟨_, ⟨⟩, -⟩
  | some phase =>
    refine ⟨fun h => ⟨phase, rfl, h⟩, ?_⟩
    rintro ⟨_, ⟨⟩, h⟩
    exact h

variable [Amount α]

/-- A session that is advanced so many times, always with success, becomes the other. -/
def Advances (steps : Nat) (session later : Session α) : Prop :=
  (Attempt.times steps do let _ ← advance).run session = (.ok (), later)

/-- There is no action phase fewer than so many advances away. -/
def Idle (steps : Nat) (session : Session α) : Prop :=
  ∀ fewer < steps, ∀ earlier, Advances fewer session earlier → ¬ earlier.InActionPhase

/-- The first action phase is so many advances away, and this is the session there. -/
structure FirstActionPhase (steps : Nat) (session later : Session α) : Prop where
  advances : Advances steps session later
  reached : later.InActionPhase
  first : Idle steps session

variable {steps : Nat} {session between later : Session α} {progress : Progress}

theorem advances_zero : Advances 0 session later ↔ later = session := by
  constructor
  · intro h
    exact (Prod.mk.inj h).2.symm
  · rintro rfl
    rfl

theorem advances_succ : Advances (steps + 1) session later ↔
    ∃ progress between, advance.run session = (.ok progress, between) ∧
      Advances steps between later := by
  refine Attempt.run_bind_eq_ok.trans ?_
  constructor
  · rintro ⟨_, between, hfirst, hrest⟩
    obtain ⟨progress, _, hadvance, hpure⟩ := Attempt.run_bind_eq_ok.1 hfirst
    cases hpure
    exact ⟨progress, between, hadvance, hrest⟩
  · rintro ⟨progress, between, hadvance, hrest⟩
    exact ⟨(), between, Attempt.run_bind_eq_ok.2 ⟨progress, between, hadvance, rfl⟩, hrest⟩

theorem Advances.unique {other : Session α} (h : Advances steps session later)
    (h' : Advances steps session other) : other = later :=
  (Prod.mk.inj (h'.symm.trans h)).2

/-- On the way every advance succeeds. -/
theorem Advances.advance_ok {fewer : Nat} (h : Advances steps session later)
    (hfewer : fewer < steps) {earlier : Session α} (hearlier : Advances fewer session earlier) :
    ∃ progress, advance.outcome earlier = .ok progress := by
  induction fewer generalizing steps session with
  | zero =>
    obtain ⟨rest, rfl⟩ := Nat.exists_eq_add_one_of_ne_zero (Nat.ne_of_gt hfewer)
    obtain rfl := advances_zero.1 hearlier
    obtain ⟨progress, between, hadvance, -⟩ := advances_succ.1 h
    exact ⟨progress, congrArg Prod.fst hadvance⟩
  | succ fewer ih =>
    obtain ⟨rest, rfl⟩ := Nat.exists_eq_add_one_of_ne_zero (Nat.ne_of_gt (Nat.zero_lt_of_lt hfewer))
    obtain ⟨progress, between, hadvance, hrest⟩ := advances_succ.1 h
    obtain ⟨_, other, hother, hearlier⟩ := advances_succ.1 hearlier
    cases hadvance.symm.trans hother
    exact ih hrest (Nat.lt_of_succ_lt_succ hfewer) hearlier

theorem idle_zero (session : Session α) : Idle 0 session :=
  fun _ hfewer => (Nat.not_lt_zero _ hfewer).elim

/-- A session that is in no action phase is idle for one step more than the next one. -/
theorem Idle.succ (h : ¬ session.InActionPhase)
    (hnext : ∀ progress between, advance.run session = (.ok progress, between) →
      Idle steps between) : Idle (steps + 1) session := by
  intro fewer hfewer earlier hearlier
  cases fewer with
  | zero =>
    obtain rfl := advances_zero.1 hearlier
    exact h
  | succ fewer =>
    obtain ⟨progress, between, hadvance, hrest⟩ := advances_succ.1 hearlier
    exact hnext progress between hadvance fewer (Nat.lt_of_succ_lt_succ hfewer) earlier hrest

/-- Where the game cannot go on, idleness lasts. -/
theorem Idle.of_stuck {earlier : Session α} {error : SessionError α}
    (h : Idle (steps + 1) session) (hearlier : Advances steps session earlier)
    (herror : advance.outcome earlier = .error error) (others : Nat) : Idle others session := by
  intro fewer _ other hother
  rcases Nat.lt_or_ge steps fewer with hlater | hbefore
  · obtain ⟨progress, hok⟩ := hother.advance_ok hlater hearlier
    cases herror.symm.trans hok
  · exact h fewer (Nat.lt_succ_of_le hbefore) other hother

theorem FirstActionPhase.succ (h : ¬ session.InActionPhase)
    (hadvance : advance.run session = (.ok progress, between))
    (hfirst : FirstActionPhase steps between later) :
    FirstActionPhase (steps + 1) session later where
  advances := advances_succ.2 ⟨progress, between, hadvance, hfirst.advances⟩
  reached := hfirst.reached
  first := .succ h fun _ _ hother => by
    cases hadvance.symm.trans hother
    exact hfirst.first

/-- An advance that fails leaves the session as it was. -/
theorem advance_stays {error : SessionError α} (h : advance.run session = (.error error, later)) :
    later = session := by
  have hrun : (Move.advance.attempt : SessionAttempt α Progress).run session
      = (.error error, later) := h
  rw [run_move] at hrun
  split at hrun
  · cases hrun
    rfl
  · split at hrun
    · cases hrun
      rfl
    · cases hrun

end Session

/-- The broadcast of a session that has been called so many times since. -/
def Broadcast.moved (broadcast : Broadcast α) (calls : Nat) (later : Session α) : Broadcast α where
  session := later
  latest := later.snapshot
  issue := broadcast.issue + calls

theorem Broadcast.moved_zero {broadcast : Broadcast α}
    (h : broadcast.latest = broadcast.session.snapshot) :
    broadcast.moved 0 broadcast.session = broadcast := by
  unfold moved
  rw [← h]
  rfl

theorem Broadcast.moved_moved (broadcast : Broadcast α) (calls others : Nat)
    (between later : Session α) :
    (broadcast.moved calls between).moved others later = broadcast.moved (others + calls) later := by
  unfold moved
  rw [Nat.add_assoc, Nat.add_comm calls]

theorem Broadcast.run_enqueue_moved {β : Type} (operation : SessionAttempt α β)
    (broadcast : Broadcast α) :
    (enqueue operation).run broadcast =
      ((operation.run broadcast.session).1,
        broadcast.moved 1 (operation.run broadcast.session).2) := rfl

namespace Playbook

open Session (Advances Idle FirstActionPhase)
open Broadcast (run_enqueue_moved)

variable [Amount α]

/-- What comes of a search that may look so many times, in terms of the session it begins with. -/
inductive Course (looks : Nat) (broadcast : Broadcast α) :
    Except (SessionError α) Unit × Broadcast α → Prop
  | found (steps : Nat) (later : Session α) (hsteps : steps < looks)
      (hfirst : FirstActionPhase steps broadcast.session later) :
      Course looks broadcast (.ok (), broadcast.moved steps later)
  | gaveUp (later : Session α) (hidle : Idle looks broadcast.session)
      (hadvances : Advances looks broadcast.session later) :
      Course looks broadcast (.error .allPhasesSkipped, broadcast.moved looks later)
  | stopped (steps : Nat) (earlier : Session α) (error : SessionError α) (hsteps : steps < looks)
      (hidle : Idle (steps + 1) broadcast.session)
      (hadvances : Advances steps broadcast.session earlier)
      (herror : Session.advance.outcome earlier = .error error) :
      Course looks broadcast (.error error, broadcast.moved (steps + 1) earlier)

variable {looks advances : Nat} {broadcast : Broadcast α}
  {result : Except (SessionError α) Unit × Broadcast α}

/-- One advance more before it. -/
theorem Course.advanced {progress : Progress} {between : Session α}
    (h : ¬ broadcast.session.InActionPhase)
    (hadvance : Session.advance.run broadcast.session = (.ok progress, between))
    (hrest : Course looks (broadcast.moved 1 between) result) :
    Course (looks + 1) broadcast result := by
  have hidle : ∀ {steps}, Idle steps between → Idle (steps + 1) broadcast.session := by
    refine fun hidle => .succ h fun _ _ hother => ?_
    cases hadvance.symm.trans hother
    exact hidle
  cases hrest with
  | found steps later hsteps hfirst =>
    rw [Broadcast.moved_moved]
    exact .found (steps + 1) later (Nat.succ_lt_succ hsteps) (hfirst.succ h hadvance)
  | gaveUp later hlater hadvances =>
    rw [Broadcast.moved_moved]
    exact .gaveUp later (hidle hlater) (Session.advances_succ.2 ⟨_, _, hadvance, hadvances⟩)
  | stopped steps earlier error hsteps hearlier hadvances herror =>
    rw [Broadcast.moved_moved]
    exact .stopped (steps + 1) earlier error (Nat.succ_lt_succ hsteps) (hidle hearlier)
      (Session.advances_succ.2 ⟨_, _, hadvance, hadvances⟩) herror

/-- A search of what is shown is a search of the session. -/
theorem Seek.course (h : Seek looks broadcast advances result)
    (hcurrent : broadcast.latest = broadcast.session.snapshot) : Course looks broadcast result := by
  have hidle : ∀ broadcast : Broadcast α, broadcast.latest = broadcast.session.snapshot →
      broadcast.latest.game.actionPhase = false → ¬ broadcast.session.InActionPhase := by
    intro broadcast hcurrent haction hin
    rw [hcurrent, Session.actionPhase_snapshot_iff.2 hin] at haction
    cases haction
  induction h with
  | gaveUp broadcast =>
    have hgaveUp : Course 0 broadcast _ :=
      .gaveUp broadcast.session (Session.idle_zero _) (Session.advances_zero.2 rfl)
    rwa [Broadcast.moved_zero hcurrent] at hgaveUp
  | found looks broadcast haction =>
    rw [hcurrent, Session.actionPhase_snapshot_iff] at haction
    have hfound : Course (looks + 1) broadcast _ :=
      .found 0 broadcast.session (Nat.succ_pos looks)
        ⟨Session.advances_zero.2 rfl, haction, Session.idle_zero _⟩
    rwa [Broadcast.moved_zero hcurrent] at hfound
  | stopped looks broadcast after haction error hadvance =>
    rw [run_enqueue_moved] at hadvance
    obtain ⟨herror, rfl⟩ := Prod.mk.inj hadvance
    have hstays : (Session.advance.run broadcast.session).2 = broadcast.session :=
      Session.advance_stays (Prod.ext herror rfl)
    rw [hstays]
    refine .stopped 0 broadcast.session error (Nat.succ_pos looks) ?_
      (Session.advances_zero.2 rfl) herror
    exact .succ (hidle broadcast hcurrent haction) fun _ between _ => Session.idle_zero between
  | advanced looks broadcast between haction progress hadvance advances result hrest ih =>
    rw [run_enqueue_moved] at hadvance
    obtain ⟨hok, rfl⟩ := Prod.mk.inj hadvance
    exact (ih rfl).advanced (hidle broadcast hcurrent haction) (Prod.ext hok rfl)

theorem course_seekActionPhase (looks : Nat)
    (hcurrent : broadcast.latest = broadcast.session.snapshot) :
    Course looks broadcast ((seekActionPhase looks).run broadcast) := by
  obtain ⟨advances, hseek⟩ := exists_seek looks broadcast
  exact hseek.course hcurrent

/-- An action phase that is fewer advances away than the search may look is found, or another before
    it. -/
theorem Course.of_advances (h : Course looks broadcast result) {calls : Nat} {later : Session α}
    (hcalls : Advances calls broadcast.session later) (hreached : later.InActionPhase)
    (hlooks : calls < looks) :
    ∃ steps ≤ calls, ∃ first, FirstActionPhase steps broadcast.session first ∧
      result = (.ok (), broadcast.moved steps first) := by
  cases h with
  | found steps first hsteps hfirst =>
    refine ⟨steps, Nat.le_of_not_lt fun hbefore => ?_, first, hfirst, rfl⟩
    exact hfirst.first calls hbefore later hcalls hreached
  | gaveUp last hidle _ => exact (hidle calls hlooks later hcalls hreached).elim
  | stopped steps earlier error hsteps hidle hadvances herror =>
    rcases Nat.lt_or_ge steps calls with hbefore | hafter
    · obtain ⟨progress, hok⟩ := hcalls.advance_ok hbefore hadvances
      cases herror.symm.trans hok
    · exact (hidle calls (Nat.lt_succ_of_le hafter) later hcalls hreached).elim

/-- The session at the last advance that the search may make is not looked at. -/
theorem Course.of_idle (h : Course looks broadcast result) {later : Session α}
    (hadvances : Advances looks broadcast.session later) (hidle : Idle looks broadcast.session) :
    result = (.error .allPhasesSkipped, broadcast.moved looks later) := by
  cases h with
  | found steps first hsteps hfirst =>
    exact (hidle steps hsteps first hfirst.advances hfirst.reached).elim
  | gaveUp last _ hlast => rw [hadvances.unique hlast]
  | stopped steps earlier error hsteps _ hearlier herror =>
    obtain ⟨progress, hok⟩ := hadvances.advance_ok hsteps hearlier
    cases herror.symm.trans hok

theorem Course.ok_iff (h : Course looks broadcast result) :
    result.1 = .ok () ↔ ∃ steps < looks, ∃ first, FirstActionPhase steps broadcast.session first := by
  constructor
  · intro hok
    cases h with
    | found steps first hsteps hfirst => exact ⟨steps, hsteps, first, hfirst⟩
    | gaveUp => cases hok
    | stopped => cases hok
  · rintro ⟨steps, hsteps, first, hfirst⟩
    obtain ⟨_, -, _, -, rfl⟩ := h.of_advances hfirst.advances hfirst.reached hsteps
    rfl

theorem Course.allPhasesSkipped_iff (h : Course looks broadcast result) :
    result.1 = .error .allPhasesSkipped ↔
      Idle looks broadcast.session ∧
        ((∃ later, Advances looks broadcast.session later) ∨
          ∃ steps < looks, ∃ earlier, Advances steps broadcast.session earlier ∧
            Session.advance.outcome earlier = .error .allPhasesSkipped) := by
  constructor
  · intro herror
    cases h with
    | found => cases herror
    | gaveUp later hidle hadvances => exact ⟨hidle, .inl ⟨later, hadvances⟩⟩
    | stopped steps earlier error hsteps hidle hadvances hfails =>
      cases herror
      exact ⟨hidle.of_stuck hadvances hfails looks, .inr ⟨steps, hsteps, earlier, hadvances, hfails⟩⟩
  · rintro ⟨hidle, ⟨later, hadvances⟩ | ⟨steps, hsteps, earlier, hadvances, hfails⟩⟩
    · rw [h.of_idle hadvances hidle]
    · cases h with
      | found others first hothers hfirst =>
        exact (hidle others hothers first hfirst.advances hfirst.reached).elim
      | gaveUp => rfl
      | stopped others other error hothers _ hother herror =>
        -- A game that cannot go on cannot do so at two places.
        rcases Nat.lt_trichotomy others steps with hlt | rfl | hgt
        · obtain ⟨progress, hok⟩ := hadvances.advance_ok hlt hother
          cases herror.symm.trans hok
        · rw [hadvances.unique hother] at herror
          exact congrArg Except.error (Except.error.inj (herror.symm.trans hfails))
        · obtain ⟨progress, hok⟩ := hother.advance_ok hgt hadvances
          cases hfails.symm.trans hok

/-- The first action phase is found if it is fewer advances away than the search may look. If it is
    exactly that many advances away, the search goes there and fails. It succeeds in no other case,
    and it says that all phases are skipped only where none of the sessions that it looks at is in
    an action phase: having come to its last advance, or because an advance says so itself. -/
theorem action_phase_found_below_limit (broadcast : Broadcast α)
    (hcurrent : broadcast.latest = broadcast.session.snapshot) :
    (∀ calls later, Advances calls broadcast.session later → later.InActionPhase →
      calls < searchLimit →
        ∃ steps ≤ calls, ∃ first, FirstActionPhase steps broadcast.session first ∧
          (seekActionPhase searchLimit).run broadcast = (.ok (), broadcast.moved steps first)) ∧
    (∀ later, FirstActionPhase searchLimit broadcast.session later →
      (seekActionPhase searchLimit).run broadcast
        = (.error .allPhasesSkipped, broadcast.moved searchLimit later)) ∧
    ((seekActionPhase searchLimit).outcome broadcast = .ok () ↔
      ∃ steps < searchLimit, ∃ first, FirstActionPhase steps broadcast.session first) ∧
    ((seekActionPhase searchLimit).outcome broadcast = .error .allPhasesSkipped ↔
      Idle searchLimit broadcast.session ∧
        ((∃ later, Advances searchLimit broadcast.session later) ∨
          ∃ steps < searchLimit, ∃ earlier, Advances steps broadcast.session earlier ∧
            Session.advance.outcome earlier = .error .allPhasesSkipped)) := by
  have hcourse := course_seekActionPhase searchLimit hcurrent
  exact ⟨fun calls later hcalls hreached hlimit => hcourse.of_advances hcalls hreached hlimit,
    fun later hfirst => hcourse.of_idle hfirst.advances hfirst.first,
    hcourse.ok_iff, hcourse.allPhasesSkipped_iff⟩

end Playbook

namespace Sample

/-- So many phases of so many steps in which nobody acts, and then one in which players do. -/
def drill (rows : Nat) : Config Whole :=
  let numbers := (List.range rows).map toString
  { phases := numbers.map (fun phase => { id := phase, steps := numbers.map fun id => { id } })
      ++ [{ Phase.named "main" with action := true }] }

end Sample

namespace Playbook

open Sample

theorem action_phase_found_below_limit_drill :
    ∃ session later, Session.start (drill 2) town Operation.all = .ok session ∧
      session.Advances 4 later ∧ later.InActionPhase ∧ 4 < searchLimit ∧
      ∃ steps ≤ 4, ∃ first, session.FirstActionPhase steps first ∧
        (seekActionPhase searchLimit).run (.ofSession session)
          = (.ok (), (Broadcast.ofSession session).moved steps first) := by
  obtain ⟨session, later, hstart, hadvances, haction⟩ : ∃ session later,
      Session.start (drill 2) town Operation.all = .ok session ∧ session.Advances 4 later ∧
        later.snapshot.game.actionPhase = true :=
    ⟨_, _, rfl, rfl, by decide +kernel⟩
  have hreached := Session.actionPhase_snapshot_iff.1 haction
  have hlimit : 4 < searchLimit := by decide
  obtain ⟨hfound, -⟩ := action_phase_found_below_limit (.ofSession session) rfl
  exact ⟨session, later, hstart, hadvances, hreached, hlimit,
    hfound 4 later hadvances hreached hlimit⟩

/-- A session whose first action phase is as many advances away as the search may make. -/
theorem last_advance_unnoticed :
    ∃ session later, Session.start (drill 16) town Operation.all = .ok session ∧
      session.FirstActionPhase searchLimit later ∧
      (seekActionPhase searchLimit).run (.ofSession session)
        = (.error .allPhasesSkipped, (Broadcast.ofSession session).moved searchLimit later) := by
  obtain ⟨session, hstart, hfound, hmissed⟩ : ∃ session,
      Session.start (drill 16) town Operation.all = .ok session ∧
      ((seekActionPhase (searchLimit + 1)).outcome (.ofSession session)).isOk = true ∧
      ((seekActionPhase searchLimit).outcome (.ofSession session)).isOk = false :=
    ⟨_, rfl, by decide +kernel, by decide +kernel⟩
  have hcourse (looks : Nat) : Course looks (.ofSession session)
      ((seekActionPhase looks).run (.ofSession session)) := course_seekActionPhase looks rfl
  obtain ⟨steps, hsteps, later, hfirst⟩ : ∃ steps < searchLimit + 1, ∃ later,
      session.FirstActionPhase steps later := by
    refine (hcourse (searchLimit + 1)).ok_iff.1 ?_
    rw [← Attempt.outcome_def]
    cases hsearch : (seekActionPhase (searchLimit + 1)).outcome (.ofSession session) with
    | ok done => rfl
    | error error =>
      rw [hsearch] at hfound
      cases hfound
  have hlimit : steps = searchLimit := by
    refine Nat.le_antisymm (Nat.le_of_lt_succ hsteps) (Nat.le_of_not_lt fun hbefore => ?_)
    have hok := (hcourse searchLimit).ok_iff.2 ⟨steps, hbefore, later, hfirst⟩
    rw [Attempt.outcome_def, hok] at hmissed
    cases hmissed
  subst hlimit
  exact ⟨session, later, hstart, hfirst, (hcourse _).of_idle hfirst.advances hfirst.first⟩

end Playbook

end Realm
