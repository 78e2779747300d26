import Realm.Proofs.Effect.Sparing
import Realm.Proofs.Skips

/-!
# Effects that apply several times

An effect of the families that add and take things says how many times it applies. Lands and
developments are added, tilled and taken that many times. What a player has only once — buildings,
passives, skips — is added or taken once, whatever the effect says: `Instruction.turns`, and
`applyEffect_turns` for all these families.

So the question is when doing it once is as good as doing it `m` times one after the other. Not for
no times at all, unless it does nothing (`not_repeated`); and for more than one only if the first
time lasts, which is to say that the second would do nothing (`Attempt.Lasting`) or is not reached.
A building or a skip that is taken stays away, because taking things away brings nothing back. A
building that is added need not stay, because its own passives may take it away, and a passive that
is added makes the second addition fail. `Instruction.Repeats` collects these conditions, and
`repeats` shows that they suffice.
-/

set_option autoImplicit false

namespace Realm

/-! ## Repeated attempts -/

namespace Attempt

variable {σ ε : Type}

theorem times_succ (n : Nat) (attempt : Attempt σ ε Unit) :
    times (n + 1) attempt = attempt >>= fun _ => times n attempt := rfl

theorem times_one (attempt : Attempt σ ε Unit) : times 1 attempt = attempt :=
  bind_pure_unit

theorem times_add (m n : Nat) (attempt : Attempt σ ε Unit) :
    times (m + n) attempt = times m attempt >>= fun _ => times n attempt := by
  induction m with
  | zero =>
    rw [Nat.zero_add]
    exact (pure_bind _ _).symm
  | succ m ih => rw [Nat.succ_add, times_succ, ih, times_succ, bind_assoc]

theorem times_mul (m n : Nat) (attempt : Attempt σ ε Unit) :
    times (m * n) attempt = times m (times n attempt) := by
  induction m with
  | zero =>
    rw [Nat.zero_mul]
    rfl
  | succ m ih => rw [Nat.succ_mul, Nat.add_comm, times_add, ih, times_succ]

/-- What the attempt has done, if it succeeds, it need not do again. -/
def Lasting (attempt : Attempt σ ε Unit) (state : σ) : Prop :=
  ∀ after, attempt.run state = (.ok (), after) → attempt.run after = (.ok (), after)

theorem run_times_of_stays {attempt : Attempt σ ε Unit} {state : σ}
    (h : attempt.run state = (.ok (), state)) (n : Nat) :
    (times n attempt).run state = (.ok (), state) := by
  induction n with
  | zero => rfl
  | succ n ih =>
    rw [times_succ, run_bind_of_ok h, ih]

theorem run_times_of_error {attempt : Attempt σ ε Unit} {state after : σ} {error : ε}
    (h : attempt.run state = (.error error, after)) {n : Nat} (hn : 0 < n) :
    (times n attempt).run state = (.error error, after) := by
  obtain ⟨n, rfl⟩ := Nat.exists_eq_succ_of_ne_zero hn.ne'
  rw [times_succ]
  exact run_bind_of_error h

/-- What lasts is done as well once as several times. -/
theorem run_times_of_lasting {attempt : Attempt σ ε Unit} {state : σ} (h : attempt.Lasting state)
    {n : Nat} (hn : 0 < n) : (times n attempt).run state = attempt.run state := by
  obtain ⟨n, rfl⟩ := Nat.exists_eq_succ_of_ne_zero hn.ne'
  cases hrun : attempt.run state with
  | mk outcome after =>
    cases outcome with
    | error error => exact run_times_of_error hrun (Nat.succ_pos n)
    | ok done =>
      rw [times_succ, run_bind_of_ok hrun]
      exact run_times_of_stays (h after hrun) n

theorem lasting_of_error {attempt : Attempt σ ε Unit} {state : σ}
    (h : ∀ after, attempt.run state ≠ (.ok (), after)) : attempt.Lasting state :=
  fun after hrun => (h after hrun).elim

end Attempt

variable {α : Type} [Amount α] {setting : Setting α}

/-! ## How often -/

/-- How often an instruction of the families that add and take things is carried out when its effect
    applies `m` times. -/
def Instruction.turns (m : Nat) : Instruction α → Nat
  | .leaf (.addLands ..) | .leaf (.tillLand _) => m
  | .leaf _ => 1
  | .removal taking => taking.repetitions m
  | .addition adding => adding.repetitions m

/-- The instruction changes no amount and no bound. -/
def Instruction.Structural : Instruction α → Prop
  | .leaf (.changeAmount ..) | .leaf (.raiseUpperBound ..) => False
  | _ => True

/-- The lands that are added `m` times can be counted. -/
def Instruction.Countable (m : Nat) : Instruction α → Prop
  | .leaf (.addLands count _) => count * m ≤ Document.countLimit
  | _ => True

/-- Carries out an instruction that applies `m` times, given a way to apply effects. -/
def Instruction.carryOut (setting : Setting α) (applyAll : List (Effect α) → DraftAttempt α Unit)
    (m : Nat) : Instruction α → DraftAttempt α Unit
  | .leaf change => change.apply setting m
  | .removal taking => Attempt.times (taking.repetitions m) (taking.apply setting)
  | .addition adding => Attempt.times (adding.repetitions m) (addWith setting applyAll adding)

/-- An instruction that applies `m` times is carried out as often as it says, each time as if it
    applied once. -/
theorem Instruction.carryOut_turns {instruction : Instruction α} {m : Nat}
    (hstructural : instruction.Structural) (hcountable : instruction.Countable m)
    (applyAll : List (Effect α) → DraftAttempt α Unit) :
    instruction.carryOut setting applyAll m
      = Attempt.times (instruction.turns m) (instruction.carryOut setting applyAll 1) := by
  cases instruction with
  | leaf leaf =>
    cases leaf with
    | changeAmount => exact hstructural.elim
    | raiseUpperBound => exact hstructural.elim
    | addLands count slots =>
      -- The number of lands is capped, but not before the lands cannot be counted any more.
      have hall : min (count * m) Document.countLimit
          = m * min (count * 1) Document.countLimit := by
        have hcount : count * m ≤ Document.countLimit := hcountable
        rcases Nat.eq_zero_or_pos m with rfl | hm
        · rw [Nat.mul_zero, Nat.zero_min, Nat.zero_mul]
        · have hone : count ≤ count * m := Nat.le_mul_of_pos_right count hm
          rw [Nat.mul_one, Nat.min_eq_left hcount, Nat.min_eq_left (Nat.le_trans hone hcount),
            Nat.mul_comm]
      exact (congrArg (Attempt.times · _) hall).trans (Attempt.times_mul _ _ _)
    | tillLand land => exact congrArg (Attempt.times m) (Attempt.times_one _).symm
    | changeSkip direction phase step source => exact (Attempt.times_one _).symm
  | removal taking =>
    cases taking with
    | development id land => exact congrArg (Attempt.times m) (Attempt.times_one _).symm
    | building id => exact (Attempt.times_one _).symm
    | passive id => exact (Attempt.times_one _).symm
  | addition adding =>
    cases adding with
    | development id land => exact congrArg (Attempt.times m) (Attempt.times_one _).symm
    | building id => exact (Attempt.times_one _).symm
    | passive definition source => exact (Attempt.times_one _).symm

/-! ## Dispatch -/

/-- The effect, applying once where it is called for once. -/
def Effect.once (effect : Effect α) : Effect α := { effect with times := none }

/-- Applies the effects that come with a thing that an effect adds. -/
def applyNested (setting : Setting α) (effects : List (Effect α)) : DraftAttempt α Unit :=
  effects.forM fun effect => applyWithin setting (setting.nesting - 1) effect 1

omit [Amount α] in
theorem Effect.repetitions_once (effect : Effect α) : effect.once.repetitions 1 = 1 := by
  show min (1 * 1) Document.countLimit = 1
  rfl

theorem Operation.read_once (operation : Operation) (effect : Effect α) :
    operation.read effect.once = operation.read effect := by
  rcases operation with undoing | _ | _ | _ | _ | _ | _
  · cases undoing <;> rfl
  all_goals rfl

variable {effect : Effect α} {operation : Operation}

theorem applyWithin_of_read {instruction : Instruction α}
    (hoperation : setting.operation? effect.family effect.method = some operation)
    (hread : operation.read effect = .ok instruction) (depth multiplier : Nat) :
    applyWithin setting (depth + 1) effect multiplier
      = instruction.carryOut setting
          (fun effects => effects.forM fun effect => applyWithin setting depth effect 1)
          (effect.repetitions multiplier) := by
  conv_lhs => unfold applyWithin
  rw [hoperation]
  dsimp only
  rw [hread]
  cases instruction <;> rfl

theorem applyEffect_of_read {instruction : Instruction α} (hnesting : setting.nesting ≠ 0)
    (hoperation : setting.operation? effect.family effect.method = some operation)
    (hread : operation.read effect = .ok instruction) (multiplier : Nat) :
    applyEffect setting effect multiplier
      = instruction.carryOut setting (applyNested setting) (effect.repetitions multiplier) := by
  obtain ⟨depth, hdepth⟩ := Nat.exists_eq_succ_of_ne_zero hnesting
  have hbelow : setting.nesting - 1 = depth := by omega
  unfold applyEffect applyNested
  rw [hbelow, hdepth]
  exact applyWithin_of_read hoperation hread depth multiplier

theorem run_applyEffect_of_unreadable {error : EffectError α} (hnesting : setting.nesting ≠ 0)
    (hoperation : setting.operation? effect.family effect.method = some operation)
    (hread : operation.read effect = .error error) (multiplier : Nat) (draft : Draft α) :
    (applyEffect setting effect multiplier).run draft = (.error error, draft) := by
  obtain ⟨depth, hdepth⟩ := Nat.exists_eq_succ_of_ne_zero hnesting
  unfold applyEffect
  rw [hdepth]
  unfold applyWithin
  rw [hoperation]
  dsimp only
  rw [hread]
  rfl

theorem applyEffect_once {instruction : Instruction α} (hnesting : setting.nesting ≠ 0)
    (hoperation : setting.operation? effect.family effect.method = some operation)
    (hread : operation.read effect = .ok instruction) :
    applyEffect setting effect.once 1 = instruction.carryOut setting (applyNested setting) 1 := by
  have hsame : setting.operation? effect.once.family effect.once.method = some operation :=
    hoperation
  rw [applyEffect_of_read hnesting hsame ((operation.read_once effect).trans hread),
    Effect.repetitions_once]

/-- An effect that adds or takes something is carried out as often as its instruction says, each
    time as if it applied once. -/
theorem applyEffect_turns {instruction : Instruction α} (hnesting : setting.nesting ≠ 0)
    (hoperation : setting.operation? effect.family effect.method = some operation)
    (hread : operation.read effect = .ok instruction) (hstructural : instruction.Structural)
    {multiplier : Nat} (hcountable : instruction.Countable (effect.repetitions multiplier)) :
    applyEffect setting effect multiplier
      = Attempt.times (instruction.turns (effect.repetitions multiplier))
          (applyEffect setting effect.once 1) := by
  rw [applyEffect_once hnesting hoperation hread, applyEffect_of_read hnesting hoperation hread]
  exact Instruction.carryOut_turns hstructural hcountable _

/-! ## What lasts -/

theorem lasting_changeSkip (setting : Setting α) (direction : Direction) (phase : String)
    (step : Option String) (source : String) (m : Nat) (draft : Draft α) :
    ((Leaf.changeSkip direction phase step source).apply setting m).Lasting draft := by
  intro after hafter
  cases hafter
  have hskips := Skips.put_put draft.player.skips (direction == .add) { phase, step, source }
  exact congrArg (fun skips => (Except.ok (), { draft with player := { draft.player with skips } }))
    hskips

theorem run_removeBuilding_of_disowned {id : String} {draft : Draft α}
    (h : draft.player.buildings.contains id = false) :
    ((Removal.building id).apply setting).run draft = (.ok (), draft) := by
  have hrun : (removeBuilding setting id).run draft = (.ok false, draft) := by
    unfold removeBuilding removeBuildingWith
    rw [Draft.run_current_bind, h, if_neg Bool.false_ne_true]
    rfl
  exact Attempt.run_bind_of_ok hrun

/-- Taking away brings no building back. -/
theorem lasting_removeBuilding (id : String) (draft : Draft α) :
    ((Removal.building id).apply setting).Lasting draft := by
  intro after hafter
  have hgone : after.player.buildings.contains id = false :=
    ((removeBuilding_disowns setting id draft).bind_pure fun _ => ()) () after hafter
  exact run_removeBuilding_of_disowned hgone

theorem run_removePassive_of_absent {id : String} {draft : Draft α}
    (h : draft.player.hasPassive id = false) :
    ((Removal.passive id).apply setting).run draft = (.ok (), draft) := by
  have hrun : (removePassive setting id).run draft = (.ok false, draft) := by
    unfold removePassive removePassiveWith
    rw [Draft.run_current_bind, Option.not_isSome_iff_eq_none.1 (Bool.eq_false_iff.1 h)]
    rfl
  exact Attempt.run_bind_of_ok hrun

/-- Taking away brings no passive back, and where no two have the same id there is no other. -/
theorem lasting_removePassive (id : String) {draft : Draft α} (hdraft : draft.player.Distinct) :
    ((Removal.passive id).apply setting).Lasting draft := by
  intro after hafter
  have hgone : after.player.hasPassive id = false :=
    (((removePassiveWith_vacates revertAll_vacates id hdraft).mono fun _ h => h.2).bind_pure
      fun _ => ()) () after hafter
  exact run_removePassive_of_absent hgone

omit [Amount α] in
/-- A building that is there to stay is added once. -/
theorem lasting_addBuilding {applyAll : List (Effect α) → DraftAttempt α Unit} {id : String}
    {draft : Draft α}
    (hkept : ∀ after, (addWith setting applyAll (.building id)).run draft = (.ok (), after) →
      after.player.buildings.contains id = true) :
    (addWith setting applyAll (.building id)).Lasting draft := by
  intro after hafter
  have howned := hkept after hafter
  obtain ⟨_, _, hadd, -⟩ := Attempt.run_bind_eq_ok.1 hafter
  obtain ⟨building, _, hfind, -⟩ := Attempt.run_bind_eq_ok.1 hadd
  have hrun : (addBuildingWith setting applyAll id).run after = (.ok false, after) := by
    unfold addBuildingWith
    cases hfound : setting.content.buildings.find? id with
    | none =>
      rw [hfound] at hfind
      cases hfind
    | some building =>
      change (if after.player.buildings.contains id then _ else _ : DraftAttempt α Bool).run after
        = _
      rw [howned, if_pos rfl]
      rfl
  exact Attempt.run_bind_of_ok hrun

/-! ## When once is as good as several times -/

/-- What is carried out once has been carried out `m` times: it was called for once, or not at all
    and does nothing, or more than once and lasts. -/
def OnceServes (once : DraftAttempt α Unit) (m : Nat) (draft : Draft α) (lasts : Prop) : Prop :=
  m = 1 ∨ (m = 0 ∧ once.run draft = (.ok (), draft)) ∨ (1 < m ∧ lasts)

/-- When an effect that applies `m` times comes to the same as applying it once, `m` times. Lands
    and developments always do; the others are carried out once. -/
def Instruction.Repeats (once : DraftAttempt α Unit) (m : Nat) (draft : Draft α) :
    Instruction α → Prop
  | .leaf (.changeAmount ..) | .leaf (.raiseUpperBound ..) => False
  | .leaf (.addLands count _) => count * m ≤ Document.countLimit
  | .leaf (.tillLand _) | .removal (.development ..) | .addition (.development ..) => True
  | .leaf (.changeSkip ..) | .removal (.building _) => OnceServes once m draft True
  | .removal (.passive _) => OnceServes once m draft draft.player.Distinct
  | .addition (.building id) => OnceServes once m draft <|
    ∀ after, once.run draft = (.ok (), after) → after.player.buildings.contains id = true
  | .addition (.passive ..) => OnceServes once m draft <|
    ∀ after, once.run draft ≠ (.ok (), after)

/-- The same of an effect whose parameters need not be readable: they are read even if the effect
    does not apply. -/
def Operation.Repeats (operation : Operation) (setting : Setting α) (effect : Effect α) (m : Nat)
    (draft : Draft α) : Prop :=
  match operation.read effect with
  | .error _ => 0 < m
  | .ok instruction => instruction.Repeats (applyEffect setting effect.once 1) m draft

omit [Amount α] in
theorem OnceServes.run_times {once : DraftAttempt α Unit} {m : Nat} {draft : Draft α} {lasts : Prop}
    (h : OnceServes once m draft lasts) (hlasts : lasts → once.Lasting draft) :
    (Attempt.times 1 once).run draft = (Attempt.times m once).run draft := by
  rcases h with rfl | ⟨rfl, hnothing⟩ | ⟨hm, h⟩
  · rfl
  · exact Attempt.run_times_of_stays hnothing 1
  · rw [Attempt.times_one, Attempt.run_times_of_lasting (hlasts h) (Nat.zero_lt_of_lt hm)]

omit [Amount α] in
theorem Instruction.Repeats.structural {instruction : Instruction α} {once : DraftAttempt α Unit}
    {m : Nat} {draft : Draft α} (h : instruction.Repeats once m draft) :
    instruction.Structural := by
  rcases instruction with leaf | removal | addition
  · cases leaf <;> first | exact h.elim | trivial
  · trivial
  · trivial

omit [Amount α] in
theorem Instruction.Repeats.countable {instruction : Instruction α} {once : DraftAttempt α Unit}
    {m : Nat} {draft : Draft α} (h : instruction.Repeats once m draft) :
    instruction.Countable m := by
  rcases instruction with leaf | removal | addition
  · cases leaf <;> first | exact h | trivial
  · trivial
  · trivial

/-- As often as an instruction is carried out is as good as `m` times. -/
theorem Instruction.Repeats.run_turns {instruction : Instruction α}
    {applyAll : List (Effect α) → DraftAttempt α Unit} {m : Nat} {draft : Draft α}
    (h : instruction.Repeats (instruction.carryOut setting applyAll 1) m draft) :
    (Attempt.times (instruction.turns m) (instruction.carryOut setting applyAll 1)).run draft
      = (Attempt.times m (instruction.carryOut setting applyAll 1)).run draft := by
  cases instruction with
  | leaf leaf =>
    cases leaf with
    | changeAmount => exact h.elim
    | raiseUpperBound => exact h.elim
    | addLands => rfl
    | tillLand => rfl
    | changeSkip direction phase step source =>
      exact OnceServes.run_times h fun _ =>
        lasting_changeSkip setting direction phase step source 1 draft
  | removal removal =>
    have hone : (Instruction.removal removal).carryOut setting applyAll 1
        = removal.apply setting := by
      cases removal <;> exact Attempt.times_one _
    rw [hone] at h ⊢
    cases removal with
    | development => rfl
    | building id =>
      exact OnceServes.run_times h fun _ => lasting_removeBuilding id draft
    | passive id =>
      exact OnceServes.run_times h (lasting_removePassive id)
  | addition addition =>
    have hone : (Instruction.addition addition).carryOut setting applyAll 1
        = addWith setting applyAll addition := by
      cases addition <;> exact Attempt.times_one _
    rw [hone] at h ⊢
    cases addition with
    | development => rfl
    | building id =>
      exact OnceServes.run_times h lasting_addBuilding
    | passive definition source =>
      exact OnceServes.run_times h Attempt.lasting_of_error

/-- An effect that adds or takes a land, a development, a building, a passive or a skip is carried
    out as often as its instruction says: lands and developments as many times as it applies, and
    the others once, even if it applies more often or not at all. So it comes to the same as the
    effect that applies once, that many times one after the other and up to the first error, for
    lands and developments always, and for the others where once serves. -/
theorem structural_effect_repeats (hnesting : setting.nesting ≠ 0)
    (hoperation : setting.operation? effect.family effect.method = some operation)
    {multiplier : Nat} (hlimit : multiplier * effect.times.getD 1 ≤ Document.countLimit)
    (draft : Draft α) :
    (∀ instruction, operation.read effect = .ok instruction → instruction.Structural →
      instruction.Countable (multiplier * effect.times.getD 1) →
      applyEffect setting effect multiplier
        = Attempt.times (instruction.turns (multiplier * effect.times.getD 1))
            (applyEffect setting effect.once 1)) ∧
    (operation.Repeats setting effect (multiplier * effect.times.getD 1) draft →
      (applyEffect setting effect multiplier).run draft
        = (Attempt.times (multiplier * effect.times.getD 1)
            (applyEffect setting effect.once 1)).run draft) := by
  have hm : effect.repetitions multiplier = multiplier * effect.times.getD 1 :=
    Nat.min_eq_left hlimit
  rw [← hm]
  have hturns : ∀ instruction, operation.read effect = .ok instruction → instruction.Structural →
      instruction.Countable (effect.repetitions multiplier) → _ :=
    fun instruction hread hstructural hcountable =>
      applyEffect_turns hnesting hoperation hread hstructural hcountable
  refine ⟨hturns, fun hrepeats => ?_⟩
  unfold Operation.Repeats at hrepeats
  cases hread : operation.read effect with
  | error error =>
    rw [hread] at hrepeats
    have hsame : setting.operation? effect.once.family effect.once.method = some operation :=
      hoperation
    have honce := run_applyEffect_of_unreadable hnesting hsame
      ((operation.read_once effect).trans hread) 1 draft
    rw [run_applyEffect_of_unreadable hnesting hoperation hread,
      Attempt.run_times_of_error honce hrepeats]
  | ok instruction =>
    rw [hread] at hrepeats
    have honce := applyEffect_once hnesting hoperation hread
    rw [hturns instruction hread hrepeats.structural hrepeats.countable]
    rw [honce] at hrepeats ⊢
    exact hrepeats.run_turns

/-! ## A mill that is added three times, twice and not at all -/

namespace Sample

def addThreeMills : Effect Binary64 := { addMill with times := some 3 }

def addNoMill : Effect Binary64 := { addMill with times := some 0 }

def addGuest : Effect Binary64 :=
  { family := "passive", method := "add", params := .record [("id", .text "guest")] }

def squatter : Draft Binary64 := { player := .initial milling.content.catalog "A" "Player A" }

end Sample

open Sample in
/-- The mill stays, so adding it once serves for three times. -/
theorem structural_effect_repeats_mill :
    milling.nesting ≠ 0 ∧
    milling.operation? addThreeMills.family addThreeMills.method = some .addBuilding ∧
    1 * addThreeMills.times.getD 1 ≤ Document.countLimit ∧
    Operation.addBuilding.Repeats milling addThreeMills 3 squatter ∧
    (applyEffect milling addThreeMills 1).run squatter
      = (Attempt.times 3 (applyEffect milling addThreeMills.once 1)).run squatter := by
  have hnesting : milling.nesting ≠ 0 := by decide
  have hoperation : milling.operation? addThreeMills.family addThreeMills.method
      = some .addBuilding := by decide +kernel
  have hlimit : 1 * addThreeMills.times.getD 1 ≤ Document.countLimit := by decide
  have howned : ((applyEffect milling addThreeMills.once 1).after
      squatter).player.buildings.contains "mill" = true := by decide +kernel
  have hrepeats : Operation.addBuilding.Repeats milling addThreeMills 3 squatter := by
    refine .inr (.inr ⟨by decide, fun after hafter => ?_⟩)
    rw [Attempt.after_def, hafter] at howned
    exact howned
  exact ⟨hnesting, hoperation, hlimit, hrepeats,
    (structural_effect_repeats hnesting hoperation hlimit squatter).2 hrepeats⟩

open Sample in
/-- A mill that is added not at all is there; and a guest that is added twice at once is not refused
    as one is that is added a second time. -/
theorem structural_effect_not_repeated :
    (((applyEffect milling addNoMill 1).after squatter).player.buildings.contains "mill" = true ∧
      ((Attempt.times 0 (applyEffect milling addNoMill.once 1)).after
        squatter).player.buildings.contains "mill" = false) ∧
    (applyEffect milling addGuest 2).outcome squatter = .ok () ∧
    (Attempt.times 2 (applyEffect milling addGuest.once 1)).outcome squatter
      = .error (.duplicatePassive "guest") := by
  refine ⟨⟨by decide +kernel, by decide +kernel⟩, ?_, ?_⟩
  · rfl
  · rfl

end Realm
