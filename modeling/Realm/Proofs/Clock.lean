import Mathlib.Logic.Relation
import Mathlib.Tactic.Ring
import Realm.Clock

/-!
# Counting phases

A clock is a number in mixed radix whose last digit, the step, starts again with every phase. Leave
the step out, and what is left counts the phases: `Clock.number`. Entering the next phase adds one
to it (`nextPhase_ok`), and its last two digits are the *slot*, the player and the phase of the
player's turn. So the slots that are entered one after the other are the digits of consecutive
numbers (`slotAfter`), and after as many as there are they come round again
(`slotAfter_phaseSlots`).

`nextPhase` knows four cases and the numbers have none: this module is the only one that looks at
the cases.
-/

set_option autoImplicit false

namespace Realm
namespace Clock

variable {α : Type}

/-! ## Positions -/

/-- The clock stands at a player and a phase that are there. -/
structure InRange (clock : Clock α) : Prop where
  player : clock.player < clock.players.length
  phase : clock.phase < clock.phases.length

/-- The player and the phase. -/
def slot (clock : Clock α) : Nat × Nat := (clock.player, clock.phase)

/-- How many phases came before, in all turns. -/
def number (clock : Clock α) : Nat :=
  (clock.turn * clock.players.length + clock.player) * clock.phases.length + clock.phase

/-- The slot `k` phases further on. -/
def slotAfter (clock : Clock α) (k : Nat) : Nat × Nat :=
  ((clock.number + k) / clock.phases.length % clock.players.length,
    (clock.number + k) % clock.phases.length)

theorem InRange.phaseSlots_pos {clock : Clock α} (h : clock.InRange) : 0 < clock.phaseSlots :=
  Nat.mul_pos (Nat.zero_lt_of_lt h.player) (Nat.zero_lt_of_lt h.phase)

/-- The slot is the last two digits of the number. -/
theorem InRange.slotAfter_zero {clock : Clock α} (h : clock.InRange) :
    clock.slotAfter 0 = clock.slot := by
  have hphases : 0 < clock.phases.length := Nat.zero_lt_of_lt h.phase
  unfold slotAfter slot number
  rw [Nat.add_zero, Nat.add_comm, Nat.add_mul_div_right _ _ hphases, Nat.div_eq_of_lt h.phase,
    Nat.zero_add, Nat.add_mul_mod_self_right, Nat.mod_eq_of_lt h.phase, Nat.add_comm,
    Nat.add_mul_mod_self_right, Nat.mod_eq_of_lt h.player]

/-- The slots come round again. -/
theorem InRange.slotAfter_phaseSlots {clock : Clock α} (h : clock.InRange) (k : Nat) :
    clock.slotAfter (k + clock.phaseSlots) = clock.slotAfter k := by
  have hphases : 0 < clock.phases.length := Nat.zero_lt_of_lt h.phase
  unfold slotAfter phaseSlots
  rw [← Nat.add_assoc, Nat.add_mul_div_right _ _ hphases, Nat.add_mod_right,
    Nat.add_mul_mod_self_right]

/-- What is left of a number after whole rounds is the slot. -/
theorem slotAfter_eq {clock : Clock α} {player phase k : Nat}
    (hphase : phase < clock.phases.length)
    (h : (clock.number + k) % clock.phaseSlots = phase + player * clock.phases.length) :
    clock.slotAfter k = (player, phase) := by
  have hphases : 0 < clock.phases.length := Nat.zero_lt_of_lt hphase
  rw [show clock.phaseSlots = clock.phases.length * clock.players.length from
    Nat.mul_comm _ _] at h
  have hplayer : (clock.number + k) / clock.phases.length % clock.players.length = player := by
    rw [← Nat.mod_mul_right_div_self, h, Nat.add_mul_div_right _ _ hphases,
      Nat.div_eq_of_lt hphase, Nat.zero_add]
  have hlast : (clock.number + k) % clock.phases.length = phase := by
    rw [← Nat.mod_mul_right_mod _ _ clock.players.length, h, Nat.add_mul_mod_self_right,
      Nat.mod_eq_of_lt hphase]
  unfold slotAfter
  rw [hplayer, hlast]

/-- Every slot comes in a round. -/
theorem InRange.exists_slotAfter {clock : Clock α} (h : clock.InRange) {player phase : Nat}
    (hplayer : player < clock.players.length) (hphase : phase < clock.phases.length) :
    ∃ k < clock.phaseSlots, clock.slotAfter k = (player, phase) := by
  have hpos := h.phaseSlots_pos
  have hslot : phase + player * clock.phases.length < clock.phaseSlots := by
    unfold phaseSlots
    calc phase + player * clock.phases.length
        < clock.phases.length + player * clock.phases.length := Nat.add_lt_add_right hphase _
      _ = (player + 1) * clock.phases.length := by ring
      _ ≤ clock.players.length * clock.phases.length := Nat.mul_le_mul_right _ hplayer
  -- As many phases further on as are missing from the number to the slot, in rounds.
  let missing := phase + player * clock.phases.length + clock.phaseSlots
    - clock.number % clock.phaseSlots
  have hmissing : (clock.number + missing) % clock.phaseSlots
      = phase + player * clock.phases.length := by
    have hlt := Nat.mod_lt clock.number hpos
    have hdiv := Nat.div_add_mod clock.number clock.phaseSlots
    have hsum : clock.number + missing = phase + player * clock.phases.length
        + clock.phaseSlots * (clock.number / clock.phaseSlots + 1) := by
      rw [Nat.mul_add, Nat.mul_one]
      omega
    rw [hsum, Nat.add_mul_mod_self_left, Nat.mod_eq_of_lt hslot]
  refine ⟨missing % clock.phaseSlots, Nat.mod_lt _ hpos, slotAfter_eq hphase ?_⟩
  rw [Nat.add_mod_mod, hmissing]

/-- A clock in its turn is not yet in the next one. -/
theorem InRange.number_lt {clock : Clock α} (h : clock.InRange) :
    clock.number < (clock.turn + 1) * clock.phaseSlots := by
  have hplayer := h.player
  have hphase := h.phase
  unfold number phaseSlots
  calc (clock.turn * clock.players.length + clock.player) * clock.phases.length + clock.phase
      < (clock.turn * clock.players.length + clock.player + 1) * clock.phases.length := by
        rw [Nat.add_mul _ 1, Nat.one_mul]
        omega
    _ ≤ (clock.turn * clock.players.length + clock.players.length) * clock.phases.length :=
        Nat.mul_le_mul_right _ (by omega)
    _ = (clock.turn + 1) * (clock.players.length * clock.phases.length) := by ring

theorem InRange.number_lt_of_turn_lt {clock : Clock α} (h : clock.InRange) {turn : Nat}
    (hturn : clock.turn < turn) : clock.number < turn * clock.phaseSlots :=
  Nat.lt_of_lt_of_le h.number_lt (Nat.mul_le_mul_right _ hturn)

/-- A clock in its turn has left the turns before behind. -/
theorem turn_mul_phaseSlots_le (clock : Clock α) :
    clock.turn * clock.phaseSlots ≤ clock.number := by
  unfold number phaseSlots
  calc clock.turn * (clock.players.length * clock.phases.length)
      = clock.turn * clock.players.length * clock.phases.length := by ring
    _ ≤ (clock.turn * clock.players.length + clock.player) * clock.phases.length :=
        Nat.mul_le_mul_right _ (Nat.le_add_right _ _)
    _ ≤ _ := Nat.le_add_right _ _

/-- Before the last turn there is room for a whole round. -/
theorem InRange.room {clock : Clock α} (h : clock.InRange) (hturn : clock.turn + 1 ≤ lastTurn) :
    clock.number + clock.phaseSlots < (lastTurn + 1) * clock.phaseSlots := by
  calc clock.number + clock.phaseSlots
      < (clock.turn + 1) * clock.phaseSlots + clock.phaseSlots :=
        Nat.add_lt_add_right h.number_lt _
    _ = (clock.turn + 1 + 1) * clock.phaseSlots := by ring
    _ ≤ (lastTurn + 1) * clock.phaseSlots := Nat.mul_le_mul_right _ (by omega)

/-! ## Moving on -/

/-- One clock stands `k` phases after another, at the beginning of its phase. -/
structure Follows (k : Nat) (before after : Clock α) : Prop where
  number : after.number = before.number + k
  players : after.players = before.players
  phases : after.phases = before.phases
  inRange : after.InRange
  step : after.step = 0

theorem Follows.refl {clock : Clock α} (h : clock.InRange) (hstep : clock.step = 0) :
    Follows 0 clock clock :=
  ⟨rfl, rfl, rfl, h, hstep⟩

theorem Follows.trans {j k : Nat} {first second third : Clock α} (h : Follows j first second)
    (h' : Follows k second third) : Follows (j + k) first third := by
  refine ⟨?_, h'.players.trans h.players, h'.phases.trans h.phases, h'.inRange, h'.step⟩
  rw [h'.number, h.number, Nat.add_assoc]

theorem Follows.phaseSlots {k : Nat} {before after : Clock α} (h : Follows k before after) :
    after.phaseSlots = before.phaseSlots := by
  unfold Clock.phaseSlots
  rw [h.players, h.phases]

theorem Follows.slotAfter {k : Nat} {before after : Clock α} (h : Follows k before after)
    (j : Nat) : after.slotAfter j = before.slotAfter (k + j) := by
  unfold Clock.slotAfter
  rw [h.number, h.players, h.phases, Nat.add_assoc]

theorem Follows.slot {k : Nat} {before after : Clock α} (h : Follows k before after) :
    after.slot = before.slotAfter k := by
  rw [← h.inRange.slotAfter_zero, h.slotAfter 0, Nat.add_zero]

/-- The next phase, if it is entered, is the next one in number. -/
theorem InRange.nextPhase_follows {clock next : Clock α} {boundary : Boundary}
    (h : clock.InRange) (hnext : clock.nextPhase = .ok (boundary, next)) :
    Follows 1 clock next ∧ boundary.entersPhase = true ∧ next.turn ≤ clock.turn + 1 := by
  have hplayer := h.player
  have hphase := h.phase
  unfold nextPhase at hnext
  split at hnext
  · -- Another phase of the same player.
    rename_i hmore
    cases hnext
    exact ⟨⟨rfl, rfl, rfl, ⟨hplayer, hmore⟩, rfl⟩, rfl, Nat.le_succ _⟩
  · rename_i hlast
    have hphases : clock.phase + 1 = clock.phases.length := by omega
    split at hnext
    · -- The first phase of the next player.
      rename_i hmore
      cases hnext
      refine ⟨⟨?_, rfl, rfl, ⟨hmore, Nat.zero_lt_of_lt hphase⟩, rfl⟩, rfl, Nat.le_succ _⟩
      unfold number
      dsimp only
      rw [Nat.add_assoc _ clock.phase 1, hphases]
      ring
    · rename_i hlastPlayer
      have hplayers : clock.player + 1 = clock.players.length := by omega
      split at hnext
      · -- The first phase of the next turn.
        cases hnext
        refine ⟨⟨?_, rfl, rfl, ⟨Nat.zero_lt_of_lt hplayer, Nat.zero_lt_of_lt hphase⟩, rfl⟩, rfl,
          Nat.le_refl _⟩
        unfold number
        dsimp only
        rw [Nat.add_assoc _ clock.phase 1, hphases, Nat.add_zero, Nat.add_zero, Nat.add_mul,
          Nat.one_mul]
        nth_rewrite 2 [← hplayers]
        ring
      · cases hnext

/-- The widest line between two positions: that of the turn if it has changed, or else that of the
    player, or else that of the phase. -/
def crossed (before after : Clock α) : Boundary :=
  if after.turn ≠ before.turn then .turn
  else if after.player ≠ before.player then .player
  else if after.phase ≠ before.phase then .phase
  else .step

/-- The next phase is told apart by the line that is crossed, and turns do not go back. -/
theorem nextPhase_crosses {clock next : Clock α} {boundary : Boundary}
    (hnext : clock.nextPhase = .ok (boundary, next)) :
    boundary = clock.crossed next ∧ clock.turn ≤ next.turn := by
  unfold crossed
  unfold nextPhase at hnext
  split at hnext
  · cases hnext
    simp
  · split at hnext
    · cases hnext
      simp
    · split at hnext
      · cases hnext
        simp
      · cases hnext

/-- There is a next phase unless this is the last one of the last turn. -/
theorem InRange.nextPhase_ok {clock : Clock α} (h : clock.InRange)
    (hroom : clock.number + 1 < (lastTurn + 1) * clock.phaseSlots) :
    ∃ boundary next, clock.nextPhase = .ok (boundary, next) := by
  have hplayer := h.player
  have hphase := h.phase
  unfold nextPhase
  by_cases hmore : clock.phase + 1 < clock.phases.length
  · exact ⟨_, _, if_pos hmore⟩
  · rw [if_neg hmore]
    by_cases hmorePlayers : clock.player + 1 < clock.players.length
    · exact ⟨_, _, if_pos hmorePlayers⟩
    · rw [if_neg hmorePlayers]
      refine ⟨_, _, if_pos ?_⟩
      -- The last phase of a turn has the number before the next turn's first.
      have hphases : clock.phase + 1 = clock.phases.length := by omega
      have hplayers : clock.player + 1 = clock.players.length := by omega
      have hnumber : clock.number + 1 = (clock.turn + 1) * clock.phaseSlots := by
        unfold number phaseSlots
        rw [Nat.add_assoc, hphases, ← hplayers]
        ring
      rw [hnumber] at hroom
      have := Nat.lt_of_mul_lt_mul_right hroom
      omega

/-- One clock enters the next phase and becomes the other. -/
def Enters (before after : Clock α) : Prop :=
  ∃ boundary, before.nextPhase = .ok (boundary, after)

theorem InRange.of_enters {before after : Clock α}
    (h : Relation.ReflTransGen Enters before after) (hbefore : before.InRange) :
    after.InRange ∧ after.players = before.players ∧ after.phases = before.phases := by
  induction h with
  | refl => exact ⟨hbefore, rfl, rfl⟩
  | tail _ hlast ih =>
    obtain ⟨hrange, hplayers, hphases⟩ := ih
    obtain ⟨boundary, hnext⟩ := hlast
    obtain ⟨hfollows, -, -⟩ := hrange.nextPhase_follows hnext
    exact ⟨hfollows.inRange, hfollows.players.trans hplayers, hfollows.phases.trans hphases⟩

/-- Going to the next step is that, or entering the next phase. -/
theorem advance_cases (clock : Clock α) :
    clock.advance = .ok (.step, { clock with step := clock.step + 1 }) ∨
      clock.advance = clock.nextPhase := by
  unfold advance
  dsimp only
  split
  · exact .inl rfl
  · exact .inr rfl

/-! ## The beginning -/

theorem inRange_start {players : List String} {phases : List (Phase α)} {clock : Clock α}
    (h : start players phases = .ok clock) :
    clock.InRange ∧ clock.players = players ∧ clock.phases = phases := by
  unfold start at h
  split at h
  · cases h
  · rename_i hplayers
    split at h
    · cases h
    · rename_i hphases
      split at h
      · cases h
      · cases h
        rw [List.isEmpty_iff] at hplayers hphases
        exact ⟨⟨List.length_pos_iff.2 hplayers, List.length_pos_iff.2 hphases⟩, rfl, rfl⟩

end Clock

end Realm
