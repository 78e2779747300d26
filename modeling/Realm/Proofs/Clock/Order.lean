import Mathlib.Logic.Relation
import Mathlib.Order.Monotone.Basic
import Mathlib.Tactic.Ring
import Realm.Amount.Binary64
import Realm.Proofs.Clock

/-!
# The order of positions

`Clock.number` counts phases and forgets the step. Here the steps are counted too: `Clock.index` is
the number of a position among all positions of a layout, read in mixed radix with a last digit
whose radix changes from phase to phase. Because of that there is no dividing by the radix. What
takes its place is `stepsBefore`, the number of steps of the first so many phases: it grows with the
number of phases (`strictMono_stepsBefore`), and the index is its value at the clock's number, and
the step (`Placed.index_add`). So whoever compares positions compares numbers of phases first, and
steps where these are the same.

A clock that stands somewhere (`Placed`) does so after every move, and the positions come in order:
`advance` goes to the next one, `nextPhase` to the next at which a phase begins, and both say truly
which line they have crossed (`moves_in_order`).
-/

set_option autoImplicit false

namespace Realm

variable {α : Type}

/-! ## Counting steps -/

/-- How many steps phases have together. -/
def totalSteps : List (Phase α) → Nat
  | [] => 0
  | phase :: rest => phase.steps.length + totalSteps rest

/-- How many steps the phase at a place has. -/
def stepsAt (phases : List (Phase α)) (place : Nat) : Nat :=
  (phases[place]?.map (·.steps.length)).getD 0

/-- How many steps the first `n` phases have that are entered, going round the list. -/
def stepsBefore (phases : List (Phase α)) : Nat → Nat
  | 0 => 0
  | n + 1 => stepsBefore phases n + stepsAt phases (n % phases.length)

theorem totalSteps_take_succ (phases : List (Phase α)) (place : Nat) :
    totalSteps (phases.take (place + 1))
      = totalSteps (phases.take place) + stepsAt phases place := by
  induction phases generalizing place with
  | nil =>
    rw [List.take_nil, List.take_nil]
    rfl
  | cons phase rest ih =>
    cases place with
    | zero => exact Nat.add_comm _ 0
    | succ place =>
      show phase.steps.length + totalSteps (rest.take (place + 1)) = _
      rw [ih place]
      exact (Nat.add_assoc _ _ _).symm

/-- Within a round the steps are those of the phases of the round so far. -/
theorem stepsBefore_add (phases : List (Phase α)) (rounds : Nat) {place : Nat}
    (hplace : place ≤ phases.length) :
    stepsBefore phases (rounds * phases.length + place)
      = stepsBefore phases (rounds * phases.length) + totalSteps (phases.take place) := by
  induction place with
  | zero => rfl
  | succ place ih =>
    have hslot : (rounds * phases.length + place) % phases.length = place := by
      rw [Nat.mul_add_mod', Nat.mod_eq_of_lt hplace]
    show stepsBefore phases (rounds * phases.length + place)
      + stepsAt phases ((rounds * phases.length + place) % phases.length) = _
    rw [hslot, ih (Nat.le_of_succ_le hplace), totalSteps_take_succ, Nat.add_assoc]

/-- Whole rounds have the steps of all phases each time. -/
theorem stepsBefore_mul (phases : List (Phase α)) (rounds : Nat) :
    stepsBefore phases (rounds * phases.length) = rounds * totalSteps phases := by
  induction rounds with
  | zero => rw [Nat.zero_mul, Nat.zero_mul]; rfl
  | succ rounds ih =>
    rw [Nat.add_mul, Nat.one_mul, stepsBefore_add phases rounds (Nat.le_refl _), List.take_length,
      ih, Nat.add_mul, Nat.one_mul]

/-- Where every phase has steps, more phases have more. -/
theorem strictMono_stepsBefore {phases : List (Phase α)} (hphases : 0 < phases.length)
    (hsteps : ∀ phase ∈ phases, 0 < phase.steps.length) : StrictMono (stepsBefore phases) := by
  refine strictMono_nat_of_lt_succ fun n => Nat.lt_add_of_pos_right ?_
  have hplace := Nat.mod_lt n hphases
  unfold stepsAt
  rw [List.getElem?_eq_getElem hplace]
  exact hsteps _ (List.getElem_mem hplace)

namespace Clock

/-! ## Positions -/

/-- The number of a position: the steps of the turns before, of the players before in the turn, of
    the phases before, and before in the phase. -/
def index (clock : Clock α) : Nat :=
  (clock.turn - 1) * clock.players.length * totalSteps clock.phases
    + clock.player * totalSteps clock.phases
    + totalSteps (clock.phases.take clock.phase)
    + clock.step

/-- The clock stands at a turn, a player, a phase and a step that are there, in a layout in which
    every phase has steps. -/
structure Placed (clock : Clock α) : Prop where
  inRange : clock.InRange
  turn : 1 ≤ clock.turn
  steps : ∀ phase ∈ clock.phases, 0 < phase.steps.length
  step : ∃ phase, clock.phase? = some phase ∧ clock.step < phase.steps.length

/-- Two clocks go over the same players and phases. -/
def SameLayout (clock other : Clock α) : Prop :=
  other.players = clock.players ∧ other.phases = clock.phases

theorem SameLayout.symm {clock other : Clock α} (h : clock.SameLayout other) :
    other.SameLayout clock :=
  ⟨h.1.symm, h.2.symm⟩

theorem SameLayout.trans {first second third : Clock α} (h : first.SameLayout second)
    (h' : second.SameLayout third) : first.SameLayout third :=
  ⟨h'.1.trans h.1, h'.2.trans h.2⟩

theorem InRange.number_mod {clock : Clock α} (h : clock.InRange) :
    clock.number % clock.phases.length = clock.phase := by
  unfold number
  rw [Nat.mul_add_mod', Nat.mod_eq_of_lt h.phase]

/-- The number of the phase says in which turn, at which player and in which phase a clock
    stands. -/
theorem InRange.digits_of_number {clock other : Clock α} (h : clock.InRange)
    (hother : other.InRange) (hlayout : clock.SameLayout other)
    (hnumber : other.number = clock.number) :
    other.turn = clock.turn ∧ other.player = clock.player ∧ other.phase = clock.phase := by
  have hslot : other.slot = clock.slot := by
    rw [← hother.slotAfter_zero, ← h.slotAfter_zero]
    unfold slotAfter
    rw [hlayout.1, hlayout.2, hnumber]
  obtain ⟨hplayer, hphase⟩ := Prod.mk.inj hslot
  refine ⟨?_, hplayer, hphase⟩
  unfold number at hnumber
  rw [hlayout.1, hlayout.2, hplayer, hphase] at hnumber
  have hturns := Nat.eq_of_mul_eq_mul_right (Nat.zero_lt_of_lt h.phase)
    (Nat.add_right_cancel hnumber)
  exact Nat.eq_of_mul_eq_mul_right (Nat.zero_lt_of_lt h.player) (Nat.add_right_cancel hturns)

namespace Placed

theorem lt_stepsAt {clock : Clock α} (h : clock.Placed) :
    clock.step < stepsAt clock.phases clock.phase := by
  obtain ⟨phase, hphase, hstep⟩ := h.step
  unfold phase? at hphase
  unfold stepsAt
  rw [hphase]
  exact hstep

/-- The index is how many steps there are up to the phase and then in it; the number of a phase
    counts a turn before the first. -/
theorem index_add {clock : Clock α} (h : clock.Placed) :
    clock.index + clock.players.length * totalSteps clock.phases
      = stepsBefore clock.phases clock.number + clock.step := by
  obtain ⟨turn, hturn⟩ := Nat.exists_eq_add_of_le' h.turn
  unfold number index
  rw [stepsBefore_add _ _ (Nat.le_of_lt h.inRange.phase), stepsBefore_mul, hturn,
    Nat.add_sub_cancel]
  ring

/-- With the next phase come the steps of this one. -/
theorem stepsBefore_succ {clock : Clock α} (h : clock.Placed) :
    stepsBefore clock.phases (clock.number + 1)
      = stepsBefore clock.phases clock.number + stepsAt clock.phases clock.phase := by
  show _ + stepsAt clock.phases (clock.number % clock.phases.length) = _
  rw [h.inRange.number_mod]

/-- What is left of a phase lies between a position in it and every position in a later phase. -/
theorem index_le {clock other : Clock α} (h : clock.Placed) (hother : other.Placed)
    (hlayout : clock.SameLayout other) (hlt : clock.number < other.number) :
    clock.index + stepsAt clock.phases clock.phase ≤ other.index + clock.step := by
  have hmono := strictMono_stepsBefore (Nat.zero_lt_of_lt h.inRange.phase) h.steps
  have hle : stepsBefore clock.phases (clock.number + 1)
      ≤ stepsBefore clock.phases other.number := hmono.monotone hlt
  have hsucc := h.stepsBefore_succ
  have hindex := h.index_add
  have hindexOther := hother.index_add
  rw [hlayout.1, hlayout.2] at hindexOther
  omega

theorem index_lt {clock other : Clock α} (h : clock.Placed) (hother : other.Placed)
    (hlayout : clock.SameLayout other) (hlt : clock.number < other.number) :
    clock.index < other.index := by
  have hle := h.index_le hother hlayout hlt
  have hstep := h.lt_stepsAt
  omega

/-- A position is known by its index. -/
theorem eq_of_index {clock other : Clock α} (h : clock.Placed) (hother : other.Placed)
    (hlayout : clock.SameLayout other) (hindex : other.index = clock.index) : other = clock := by
  have hnumber : other.number = clock.number := by
    rcases Nat.lt_trichotomy other.number clock.number with hlt | heq | hlt
    · have := hother.index_lt h hlayout.symm hlt
      omega
    · exact heq
    · have := h.index_lt hother hlayout hlt
      omega
  obtain ⟨hturn, hplayer, hphase⟩ :=
    h.inRange.digits_of_number hother.inRange hlayout hnumber
  have hstep : other.step = clock.step := by
    have hsteps := h.index_add
    have hstepsOther := hother.index_add
    rw [hlayout.1, hlayout.2] at hstepsOther
    rw [hnumber, hindex] at hstepsOther
    omega
  obtain ⟨hplayers, hphases⟩ := hlayout
  cases clock
  cases other
  simp_all

end Placed

/-! ## Moving on -/

/-- One clock moves, and becomes the other: by a step or to the next phase. -/
inductive Moves (before after : Clock α) : Prop
  | advance (boundary : Boundary) (h : before.advance = .ok (boundary, after))
  | nextPhase (boundary : Boundary) (h : before.nextPhase = .ok (boundary, after))

/-- The next position after a clock's at which a phase begins. -/
structure NextOpening (clock next : Clock α) : Prop where
  begins : next.step = 0
  later : clock.index < next.index
  least : ∀ other : Clock α, other.Placed → clock.SameLayout other → other.step = 0 →
    clock.index < other.index → next.index ≤ other.index

namespace Placed

theorem of_nextPhase {clock next : Clock α} {boundary : Boundary} (h : clock.Placed)
    (hnext : clock.nextPhase = .ok (boundary, next)) :
    next.Placed ∧ clock.SameLayout next := by
  obtain ⟨hfollows, -, -⟩ := h.inRange.nextPhase_follows hnext
  have hturn := (nextPhase_crosses hnext).2
  have hsteps : ∀ phase ∈ next.phases, 0 < phase.steps.length := by
    rw [hfollows.phases]
    exact h.steps
  have hphase := hfollows.inRange.phase
  refine ⟨⟨hfollows.inRange, Nat.le_trans h.turn hturn, hsteps, ?_⟩,
    hfollows.players, hfollows.phases⟩
  refine ⟨_, List.getElem?_eq_getElem hphase, ?_⟩
  rw [hfollows.step]
  exact hsteps _ (List.getElem_mem hphase)

/-- The next phase begins as many positions on as are left of this one. -/
theorem index_nextPhase {clock next : Clock α} {boundary : Boundary} (h : clock.Placed)
    (hnext : clock.nextPhase = .ok (boundary, next)) :
    next.index + clock.step = clock.index + stepsAt clock.phases clock.phase := by
  obtain ⟨hfollows, -, -⟩ := h.inRange.nextPhase_follows hnext
  have hindexNext := (h.of_nextPhase hnext).1.index_add
  have hindex := h.index_add
  rw [hfollows.players, hfollows.phases, hfollows.number, h.stepsBefore_succ, hfollows.step]
    at hindexNext
  omega

theorem nextOpening {clock next : Clock α} {boundary : Boundary} (h : clock.Placed)
    (hnext : clock.nextPhase = .ok (boundary, next)) : clock.NextOpening next := by
  obtain ⟨hfollows, -, -⟩ := h.inRange.nextPhase_follows hnext
  have hindex := h.index_nextPhase hnext
  have hstep := h.lt_stepsAt
  refine ⟨hfollows.step, by omega, fun other hother hlayout hbegins hlater => ?_⟩
  have hnumber : clock.number < other.number := by
    rcases Nat.lt_trichotomy clock.number other.number with hlt | heq | hlt
    · exact hlt
    · -- The beginning of this phase is not after the clock.
      have hsteps := h.index_add
      have hstepsOther := hother.index_add
      rw [hlayout.1, hlayout.2, ← heq, hbegins] at hstepsOther
      omega
    · have := hother.index_lt h hlayout.symm hlt
      omega
  have hle := h.index_le hother hlayout hnumber
  omega

/-- Going to the next step goes to the next position. -/
theorem of_advance {clock next : Clock α} {boundary : Boundary} (h : clock.Placed)
    (hnext : clock.advance = .ok (boundary, next)) :
    next.Placed ∧ clock.SameLayout next ∧ next.index = clock.index + 1 ∧
      boundary = clock.crossed next := by
  have hstep := h.lt_stepsAt
  unfold advance at hnext
  dsimp only at hnext
  split at hnext
  · rename_i hmore
    cases hnext
    obtain ⟨phase, hphase, -⟩ := h.step
    refine ⟨⟨⟨h.inRange.player, h.inRange.phase⟩, h.turn, h.steps, phase, hphase, ?_⟩,
      ⟨rfl, rfl⟩, rfl, ?_⟩
    · rw [hphase] at hmore
      exact hmore
    · unfold crossed
      simp
  · -- The step was the last one of its phase, so the next phase begins at the next position.
    rename_i hlast
    have hlast : ¬ clock.step + 1 < stepsAt clock.phases clock.phase := hlast
    obtain ⟨hplaced, hlayout⟩ := h.of_nextPhase hnext
    have hindex := h.index_nextPhase hnext
    exact ⟨hplaced, hlayout, by omega, (nextPhase_crosses hnext).1⟩

theorem of_moves {before after : Clock α} (h : before.Placed) (hmoves : Moves before after) :
    after.Placed ∧ before.SameLayout after := by
  cases hmoves with
  | advance boundary hnext =>
    obtain ⟨hplaced, hlayout, -, -⟩ := h.of_advance hnext
    exact ⟨hplaced, hlayout⟩
  | nextPhase boundary hnext => exact h.of_nextPhase hnext

theorem of_movesOn {before after : Clock α} (h : before.Placed)
    (hmoves : Relation.ReflTransGen Moves before after) :
    after.Placed ∧ before.SameLayout after := by
  induction hmoves with
  | refl => exact ⟨h, rfl, rfl⟩
  | tail _ hlast ih =>
    obtain ⟨hplaced, hlayout⟩ := ih
    obtain ⟨hnext, hlayoutNext⟩ := hplaced.of_moves hlast
    exact ⟨hnext, hlayout.trans hlayoutNext⟩

/-- Before the last turn a clock can move either way. -/
theorem exists_next {clock : Clock α} (h : clock.Placed) (hturn : clock.turn < lastTurn) :
    (∃ boundary next, clock.nextPhase = .ok (boundary, next)) ∧
      ∃ boundary next, clock.advance = .ok (boundary, next) := by
  have hroom := h.inRange.room hturn
  have hpos := h.inRange.phaseSlots_pos
  have hnext := h.inRange.nextPhase_ok (by omega)
  refine ⟨hnext, ?_⟩
  rcases clock.advance_cases with hstep | hphase
  · exact ⟨_, _, hstep⟩
  · rw [hphase]
    exact hnext

end Placed

/-- One clock is where the other is or has been: in the same phase or before it. -/
structure Onward (before after : Clock α) : Prop where
  placed : after.Placed
  layout : before.SameLayout after
  number : before.number ≤ after.number

theorem Onward.refl {clock : Clock α} (h : clock.Placed) : clock.Onward clock :=
  ⟨h, ⟨rfl, rfl⟩, Nat.le_refl _⟩

theorem Onward.trans {first second third : Clock α} (h : first.Onward second)
    (h' : second.Onward third) : first.Onward third :=
  ⟨h'.placed, h.layout.trans h'.layout, Nat.le_trans h.number h'.number⟩

theorem Onward.phaseSlots {before after : Clock α} (h : before.Onward after) :
    after.phaseSlots = before.phaseSlots := by
  unfold Clock.phaseSlots
  rw [h.layout.1, h.layout.2]

namespace Placed

theorem onward_nextPhase {clock next : Clock α} {boundary : Boundary} (h : clock.Placed)
    (hnext : clock.nextPhase = .ok (boundary, next)) : clock.Onward next := by
  obtain ⟨hplaced, hlayout⟩ := h.of_nextPhase hnext
  have hnumber := (h.inRange.nextPhase_follows hnext).1.number
  exact ⟨hplaced, hlayout, by omega⟩

theorem onward_advance {clock next : Clock α} {boundary : Boundary} (h : clock.Placed)
    (hnext : clock.advance = .ok (boundary, next)) : clock.Onward next := by
  obtain ⟨hplaced, hlayout, -, -⟩ := h.of_advance hnext
  refine ⟨hplaced, hlayout, ?_⟩
  rcases clock.advance_cases with hstep | hphase
  · rw [hstep] at hnext
    cases hnext
    exact Nat.le_refl _
  · exact (h.onward_nextPhase (hphase.symm.trans hnext)).number

theorem onward_enters {before after : Clock α} (h : before.Placed)
    (henters : Relation.ReflTransGen Enters before after) : before.Onward after := by
  induction henters with
  | refl => exact .refl h
  | tail _ hlast ih =>
    obtain ⟨boundary, hnext⟩ := hlast
    exact ih.trans (ih.placed.onward_nextPhase hnext)

end Placed

/-! ## The beginning -/

/-- A clock that starts stands at the first position. -/
theorem placed_start {players : List String} {phases : List (Phase α)} {clock : Clock α}
    (h : start players phases = .ok clock) :
    clock.Placed ∧ clock.players = players ∧ clock.phases = phases ∧ clock.index = 0 := by
  obtain ⟨hrange, -, -⟩ := inRange_start h
  unfold start at h
  split at h
  · cases h
  · split at h
    · cases h
    · split at h
      · cases h
      · rename_i hsteps
        cases h
        have hsteps : ∀ phase ∈ phases, 0 < phase.steps.length := by
          intro phase hphase
          have hfull := List.find?_eq_none.1 hsteps phase hphase
          rw [List.isEmpty_iff] at hfull
          exact List.length_pos_iff.2 hfull
        refine ⟨⟨hrange, Nat.le_refl 1, hsteps, ?_⟩, rfl, rfl, ?_⟩
        · exact ⟨_, List.getElem?_eq_getElem hrange.phase,
            hsteps _ (List.getElem_mem hrange.phase)⟩
        · unfold index
          simp [totalSteps]

/-- **A clock goes through its positions in order.** From the first position, the one with index
    nought, every number of moves of either kind leads to a position of the layout, and no other
    position has the same index. Unless the last turn has come, going to the next step takes the
    clock to the next index, and going to the next phase takes it to the least greater index at
    which a phase begins. Either tells the widest line between the two positions. -/
theorem moves_in_order {players : List String} {phases : List (Phase α)} {first clock : Clock α}
    (hstart : start players phases = .ok first)
    (hmoves : Relation.ReflTransGen Moves first clock) :
    first.index = 0 ∧ clock.players = players ∧ clock.phases = phases ∧ clock.Placed ∧
      (∀ other : Clock α, other.Placed → clock.SameLayout other →
        other.index = clock.index → other = clock) ∧
      (clock.turn < lastTurn →
        (∃ next, clock.advance = .ok (clock.crossed next, next) ∧
          next.index = clock.index + 1) ∧
        ∃ next, clock.nextPhase = .ok (clock.crossed next, next) ∧ clock.NextOpening next) := by
  obtain ⟨hfirst, hplayers, hphases, hindex⟩ := placed_start hstart
  obtain ⟨hplaced, hlayout⟩ := hfirst.of_movesOn hmoves
  refine ⟨hindex, hlayout.1.trans hplayers, hlayout.2.trans hphases, hplaced,
    fun other hother hsame => hplaced.eq_of_index hother hsame, fun hturn => ?_⟩
  obtain ⟨⟨boundary, next, hnext⟩, line, later, hadvance⟩ := hplaced.exists_next hturn
  obtain ⟨-, -, hlater, hline⟩ := hplaced.of_advance hadvance
  have hboundary := (nextPhase_crosses hnext).1
  refine ⟨⟨later, ?_, hlater⟩, next, ?_, hplaced.nextOpening hnext⟩
  · rw [← hline]
    exact hadvance
  · rw [← hboundary]
    exact hnext

end Clock

namespace Sample

/-- A phase of two steps and a phase of one. -/
def day : List (Phase Binary64) :=
  [{ id := "work", steps := [{ id := "sow" }, { id := "reap" }] }, .named "rest"]

end Sample

namespace Clock

/-- Two steps and the first player rests, and after that it is the turn of the other, whether the
    step is over or the phase. -/
theorem moves_in_order_day :
    ∃ first clock : Clock Binary64, start ["A", "B"] Sample.day = .ok first ∧
      Relation.ReflTransGen Moves first clock ∧ clock.turn < lastTurn ∧
      clock.index = 2 ∧ clock.Placed ∧
      (∃ next, clock.advance = .ok (.player, next) ∧ next.index = 3) ∧
      ∃ next, clock.nextPhase = .ok (.player, next) ∧ clock.NextOpening next := by
  let first : Clock Binary64 := { players := ["A", "B"], phases := Sample.day }
  let reaping : Clock Binary64 := { first with step := 1 }
  let resting : Clock Binary64 := { first with phase := 1 }
  have hstart : start ["A", "B"] Sample.day = .ok first := rfl
  have hmoves : Relation.ReflTransGen Moves first resting :=
    (Relation.ReflTransGen.single (show Moves _ reaping from .advance .step rfl)).tail
      (.advance .phase rfl)
  have hturn : resting.turn < lastTurn := by decide
  let other : Clock Binary64 := { first with player := 1 }
  have hother : resting.advance = .ok (.player, other) ∧
      resting.nextPhase = .ok (.player, other) := ⟨rfl, rfl⟩
  obtain ⟨-, -, -, hplaced, -, hnext⟩ := moves_in_order hstart hmoves
  obtain ⟨⟨later, hadvance, hlater⟩, next, hphase, hopening⟩ := hnext hturn
  obtain ⟨-, rfl⟩ := Prod.mk.inj (Except.ok.inj (hother.1.symm.trans hadvance))
  obtain ⟨-, rfl⟩ := Prod.mk.inj (Except.ok.inj (hother.2.symm.trans hphase))
  exact ⟨first, resting, hstart, hmoves, hturn, rfl, hplaced,
    ⟨other, hother.1, hlater⟩, other, hother.2, hopening⟩

end Clock

end Realm
