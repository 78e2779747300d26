import Realm.Proofs.Amount.Exact
import Realm.Proofs.Catalog
import Realm.Proofs.Requirement

/-!
# Asking for the first failure and asking for all

A requirement holds of a player, fails, or is invalid: it is of a kind that there is not, or its
parameters cannot be read, or it counts what nobody has registered. Which of the three it is can be
said without evaluating anything. Whether it is invalid depends on the content and the rules alone
(`Requirement.Invalid`), and the numbers to be compared are there for any player
(`Operand.number`).

A list is evaluated from the left, and two things may end it early: an invalid requirement, with its
error, in both modes, and a failure where only the first is asked for. So the modes differ where an
invalid requirement stands behind a failure. Wherever all failures can be collected, the first of
them is what the other mode answers, and the modes are never of two minds about whether everything
holds (`modes_agree`).
-/

set_option autoImplicit false

namespace Realm

variable {α : Type} [Amount α]

/-! ## The numbers that are compared -/

theorem Ledger.amountOf_eq (ledger : Ledger α) (catalog : Catalog α) (key : String) :
    ledger.amountOf catalog key = if catalog.contains key = true then .ok (ledger.amount key)
      else .error (.unknownResource key) := by
  unfold amountOf Catalog.requireKnown
  split <;> rfl

namespace Operand

/-- The resource whose amount an operand stands for, if it stands for an amount. -/
def key? (rules : Rules) : Operand α → Option String
  | .source (.resource key) | .source (.stat key) => some key
  | .source (.population role) => some (role.getD rules.populationResource)
  | .literal _ | .source (.building _) | .source .land | .source (.development _) => none

/-- The number that an operand stands for, whether or not its resource is registered. -/
def number (rules : Rules) (player : Player α) : Operand α → α
  | .literal value => value
  | .source (.resource key) | .source (.stat key) => player.resources.amount key
  | .source (.population role) => player.resources.amount (role.getD rules.populationResource)
  | .source (.building id) => if player.buildings.contains id then Amount.one else 0
  | .source .land => countOf player.lands.length
  | .source (.development id) => countOf (player.developmentCount id)

/-- The operand stands for the amount of a resource that nobody has registered. -/
def Lacks (content : Content α) (rules : Rules) (operand : Operand α) (key : String) : Prop :=
  operand.key? rules = some key ∧ content.catalog.contains key = false

/-- The operand stands for a number: if for the amount of a resource, then of a registered one. -/
def Resolves (content : Content α) (rules : Rules) (operand : Operand α) : Prop :=
  ∀ key, ¬ operand.Lacks content rules key

variable {content : Content α} {rules : Rules} {operand : Operand α}

theorem value_eq (content : Content α) (rules : Rules) (player : Player α) (operand : Operand α) :
    operand.value content rules player =
      match operand.key? rules with
      | some key =>
        if content.catalog.contains key = true then .ok (operand.number rules player)
        else .error (.ledger (.unknownResource key))
      | none => .ok (operand.number rules player) := by
  have hamount : ∀ key, ((player.resources.amountOf content.catalog key).mapError .ledger :
      Except (EffectError α) α) = if content.catalog.contains key = true
        then .ok (player.resources.amount key) else .error (.ledger (.unknownResource key)) := by
    intro key
    rw [Ledger.amountOf_eq]
    split <;> rfl
  cases operand with
  | literal value => rfl
  | source origin =>
    cases origin with
    | resource key => exact hamount key
    | stat key => exact hamount key
    | population role => exact hamount (role.getD rules.populationResource)
    | building id => rfl
    | land => rfl
    | development id => rfl

theorem Resolves.value (h : operand.Resolves content rules) (player : Player α) :
    operand.value content rules player = .ok (operand.number rules player) := by
  rw [value_eq]
  cases hkey : operand.key? rules with
  | none => rfl
  | some key =>
    have hknown : content.catalog.contains key = true := by
      rw [← Bool.not_eq_false]
      exact fun hunknown => h key ⟨hkey, hunknown⟩
    dsimp only
    rw [if_pos hknown]

theorem Lacks.value {key : String} (h : operand.Lacks content rules key) (player : Player α) :
    operand.value content rules player = .error (.ledger (.unknownResource key)) := by
  obtain ⟨hkey, hunknown⟩ := h
  rw [value_eq, hkey]
  dsimp only
  rw [if_neg (by simp [hunknown])]

end Operand

/-! ## Being invalid, failing and holding -/

namespace Requirement

/-- The requirement is a comparison, and this is the one that it asks for. -/
structure Asks (requirement : Requirement α) (comparison : Comparison α) : Prop where
  family : requirement.family = "evaluator"
  method : requirement.method = "compare"
  params : Comparison.ofDocument? (.ofJson requirement.params) = some comparison

/-- What keeps a requirement from being evaluated, with the error. No player comes into it. -/
inductive Invalid (content : Content α) (rules : Rules) (requirement : Requirement α) :
    EffectError α → Prop
  | unknown (h : ¬ (requirement.family = "evaluator" ∧ requirement.method = "compare")) :
      Invalid content rules requirement
        (.unknownRequirement requirement.family requirement.method)
  | malformed (hfamily : requirement.family = "evaluator")
      (hmethod : requirement.method = "compare")
      (hparams : Comparison.ofDocument? (.ofJson requirement.params) = none) :
      Invalid content rules requirement (.invalidParams compareKey .malformed)
  | left (comparison : Comparison α) (h : requirement.Asks comparison) (key : String)
      (hleft : comparison.left.Lacks content rules key) :
      Invalid content rules requirement (.ledger (.unknownResource key))
  | right (comparison : Comparison α) (h : requirement.Asks comparison)
      (hleft : comparison.left.Resolves content rules) (key : String)
      (hright : comparison.right.Lacks content rules key) :
      Invalid content rules requirement (.ledger (.unknownResource key))

/-- The requirement can be evaluated, whoever the player is. -/
def Valid (content : Content α) (rules : Rules) (requirement : Requirement α) : Prop :=
  ∀ error, ¬ requirement.Invalid content rules error

/-- What there is to tell of a requirement: nothing, unless its comparison is false. A failure
    carries the requirement and the two numbers that were compared. -/
def told (content : Content α) (rules : Rules) (player : Player α) (requirement : Requirement α) :
    Option (Unmet α) :=
  match requirement.comparison? with
  | .error _ => none
  | .ok comparison =>
    let details : Shortfall α :=
      { left := comparison.left.number rules player, right := comparison.right.number rules player }
    if comparison.comparator.holds details.left details.right then none
    else some { requirement, details, message := comparison.complaint content rules details }

/-- The requirement can be evaluated and holds of the player. -/
structure Holds (content : Content α) (rules : Rules) (player : Player α)
    (requirement : Requirement α) : Prop where
  valid : requirement.Valid content rules
  silent : told content rules player requirement = none

/-- The requirement can be evaluated and is unmet, and this is told of it. -/
structure Fails (content : Content α) (rules : Rules) (player : Player α) (unmet : Unmet α)
    (requirement : Requirement α) : Prop where
  valid : requirement.Valid content rules
  told : told content rules player requirement = some unmet

variable {content : Content α} {rules : Rules} {player : Player α} {requirement : Requirement α}

theorem Asks.comparison? {comparison : Comparison α} (h : requirement.Asks comparison) :
    requirement.comparison? = .ok comparison := by
  unfold Requirement.comparison?
  rw [if_pos ⟨h.family, h.method⟩, h.params]

theorem Asks.read {comparison : Comparison α} (h : requirement.Asks comparison) :
    requirement.read = .ok comparison := by
  unfold Requirement.read
  rw [h.comparison?]
  rfl

theorem Invalid.check {error : EffectError α} (h : requirement.Invalid content rules error)
    (player : Player α) : check content rules player requirement = .error error := by
  unfold Requirement.check
  cases h with
  | unknown h =>
    unfold read Requirement.comparison?
    rw [if_neg h]
    rfl
  | malformed hfamily hmethod hparams =>
    unfold read Requirement.comparison?
    rw [if_pos ⟨hfamily, hmethod⟩, hparams]
    rfl
  | left comparison h key hleft =>
    rw [h.read]
    show (comparison.left.value content rules player >>= _) = _
    rw [hleft.value]
    rfl
  | right comparison h hleft key hright =>
    rw [h.read]
    show (comparison.left.value content rules player >>= fun left =>
      comparison.right.value content rules player >>= _) = _
    rw [hleft.value, hright.value]
    rfl

/-- What is not invalid asks for a comparison of two numbers that every player has. -/
theorem Valid.asks (h : requirement.Valid content rules) : ∃ comparison,
    requirement.Asks comparison ∧ comparison.left.Resolves content rules ∧
      comparison.right.Resolves content rules := by
  by_cases hnames : requirement.family = "evaluator" ∧ requirement.method = "compare"
  · obtain ⟨hfamily, hmethod⟩ := hnames
    cases hparams : Comparison.ofDocument? (.ofJson requirement.params) with
    | none => exact absurd (.malformed hfamily hmethod hparams) (h _)
    | some comparison =>
      have hasks : requirement.Asks comparison := ⟨hfamily, hmethod, hparams⟩
      have hleft : comparison.left.Resolves content rules :=
        fun key hlacks => h _ (.left comparison hasks key hlacks)
      have hright : comparison.right.Resolves content rules :=
        fun key hlacks => h _ (.right comparison hasks hleft key hlacks)
      exact ⟨comparison, hasks, hleft, hright⟩
  · exact absurd (.unknown hnames) (h _)

theorem Valid.check (h : requirement.Valid content rules) (player : Player α) :
    check content rules player requirement = .ok (told content rules player requirement) := by
  obtain ⟨comparison, hasks, hleft, hright⟩ := h.asks
  unfold Requirement.check Requirement.told
  rw [hasks.read, hasks.comparison?]
  show (comparison.left.value content rules player >>= fun left =>
    comparison.right.value content rules player >>= _) = _
  rw [hleft.value, hright.value]
  dsimp only
  split
  · rename_i hholds
    exact if_pos hholds
  · rename_i hholds
    exact if_neg hholds

/-- A requirement is invalid in one way only. -/
theorem Invalid.iff_eq {error other : EffectError α}
    (h : requirement.Invalid content rules error) (player : Player α) :
    requirement.Invalid content rules other ↔ error = other := by
  constructor
  · intro h'
    have hcheck := h.check player
    rw [h'.check] at hcheck
    cases hcheck
    rfl
  · rintro rfl
    exact h

theorem Invalid.not_valid {error : EffectError α} (h : requirement.Invalid content rules error) :
    ¬ requirement.Valid content rules := fun hvalid => hvalid error h

/-- Of three things one: a requirement is invalid, or it fails, or it holds. -/
theorem invalid_fails_or_holds (content : Content α) (rules : Rules) (player : Player α)
    (requirement : Requirement α) :
    (∃ error, requirement.Invalid content rules error) ∨
      (∃ unmet, requirement.Fails content rules player unmet) ∨
        requirement.Holds content rules player := by
  by_cases hinvalid : ∃ error, requirement.Invalid content rules error
  · exact .inl hinvalid
  · have hvalid : requirement.Valid content rules := fun error h => hinvalid ⟨error, h⟩
    cases htold : told content rules player requirement with
    | none => exact .inr (.inr ⟨hvalid, htold⟩)
    | some unmet => exact .inr (.inl ⟨unmet, hvalid, htold⟩)

theorem Fails.iff_eq {unmet other : Unmet α} (h : requirement.Fails content rules player unmet) :
    requirement.Fails content rules player other ↔ unmet = other := by
  constructor
  · intro h'
    have htold := h.told
    rw [h'.told] at htold
    exact (Option.some.inj htold).symm
  · rintro rfl
    exact h

theorem Fails.not_holds {unmet : Unmet α} (h : requirement.Fails content rules player unmet) :
    ¬ requirement.Holds content rules player := by
  intro hholds
  have hsilent := hholds.silent
  rw [h.told] at hsilent
  cases hsilent

/-! ## Lists -/

section

variable {β : Type} {before here : β → Prop}

/-- Among the items there is one that is `here`, and all that come before the first are `before`. -/
def Reaches (before here : β → Prop) (items : List β) : Prop :=
  ∃ passed item rest, items = passed ++ item :: rest ∧ (∀ other ∈ passed, before other) ∧ here item

theorem not_reaches_nil : ¬ Reaches before here [] := by
  rintro ⟨passed, item, rest, hitems, -, -⟩
  simp at hitems

theorem reaches_cons {first : β} {items : List β} :
    Reaches before here (first :: items) ↔
      here first ∨ (before first ∧ Reaches before here items) := by
  constructor
  · rintro ⟨passed, item, rest, hitems, hpassed, hitem⟩
    cases passed with
    | nil =>
      cases hitems
      exact .inl hitem
    | cons other passed =>
      cases hitems
      exact .inr ⟨hpassed first List.mem_cons_self, passed, item, rest, rfl,
        fun other hother => hpassed other (List.mem_cons_of_mem _ hother), hitem⟩
  · rintro (hfirst | ⟨hfirst, passed, item, rest, rfl, hpassed, hitem⟩)
    · exact ⟨[], first, items, rfl, by simp, hfirst⟩
    · exact ⟨first :: passed, item, rest, rfl, List.forall_mem_cons.2 ⟨hfirst, hpassed⟩, hitem⟩

end

section

variable {rest : List (Requirement α)} {mode : EvaluationMode}

theorem Invalid.evaluate_cons {error : EffectError α}
    (h : requirement.Invalid content rules error) :
    evaluate content rules player mode (requirement :: rest) = .error error := by
  rw [evaluate, h.check]
  rfl

theorem Holds.evaluate_cons (h : requirement.Holds content rules player) :
    evaluate content rules player mode (requirement :: rest)
      = evaluate content rules player mode rest := by
  rw [evaluate, h.valid.check, h.silent]
  rfl

theorem Fails.evaluate_first {unmet : Unmet α} (h : requirement.Fails content rules player unmet) :
    evaluate content rules player .firstFailure (requirement :: rest) = .ok [unmet] := by
  rw [evaluate, h.valid.check, h.told]
  rfl

theorem Fails.evaluate_all {unmet : Unmet α} (h : requirement.Fails content rules player unmet) :
    evaluate content rules player .collectAll (requirement :: rest)
      = (evaluate content rules player .collectAll rest).map (unmet :: ·) := by
  rw [evaluate, h.valid.check, h.told]
  rfl

end

variable {requirements : List (Requirement α)} {error : EffectError α} {failures : List (Unmet α)}

/-- Where all failures are asked for, the first invalid requirement is what goes wrong. -/
theorem collectAll_eq_error :
    evaluate content rules player .collectAll requirements = .error error ↔
      Reaches (Valid content rules) (Invalid content rules · error) requirements := by
  induction requirements with
  | nil =>
    constructor
    · intro h
      cases h
    · intro h
      exact absurd h not_reaches_nil
  | cons requirement rest ih =>
    rw [reaches_cons]
    rcases invalid_fails_or_holds content rules player requirement
      with ⟨other, hinvalid⟩ | ⟨unmet, hfails⟩ | hholds
    · rw [hinvalid.evaluate_cons, hinvalid.iff_eq player]
      simp [hinvalid.not_valid]
    · rw [hfails.evaluate_all]
      simp only [hfails.valid error, hfails.valid, false_or, true_and, ← ih]
      cases evaluate content rules player .collectAll rest <;> simp [Except.map]
    · rw [hholds.evaluate_cons, ih]
      simp only [hholds.valid error, hholds.valid, false_or, true_and]

/-- Where all failures are asked for and no requirement is invalid, there is one for every
    requirement whose comparison is false. -/
theorem collectAll_eq_ok :
    evaluate content rules player .collectAll requirements = .ok failures ↔
      (∀ requirement ∈ requirements, requirement.Valid content rules) ∧
        failures = requirements.filterMap (told content rules player) := by
  induction requirements generalizing failures with
  | nil => simp [evaluate, pure, Except.pure, eq_comm]
  | cons requirement rest ih =>
    rw [List.forall_mem_cons]
    rcases invalid_fails_or_holds content rules player requirement
      with ⟨other, hinvalid⟩ | ⟨unmet, hfails⟩ | hholds
    · rw [hinvalid.evaluate_cons]
      simp [hinvalid.not_valid]
    · rw [hfails.evaluate_all, List.filterMap_cons_some hfails.told]
      simp only [hfails.valid, true_and]
      constructor
      · intro h
        cases hrest : evaluate content rules player .collectAll rest with
        | error error =>
          rw [hrest] at h
          cases h
        | ok others =>
          rw [hrest] at h
          cases h
          obtain ⟨hvalid, rfl⟩ := ih.1 hrest
          exact ⟨hvalid, rfl⟩
      · rintro ⟨hvalid, rfl⟩
        rw [ih.2 ⟨hvalid, rfl⟩]
        rfl
    · rw [hholds.evaluate_cons, ih, List.filterMap_cons_none hholds.silent]
      simp only [hholds.valid, true_and]

/-- Where the first failure is asked for, an invalid requirement goes wrong if all before hold. -/
theorem firstFailure_eq_error :
    evaluate content rules player .firstFailure requirements = .error error ↔
      Reaches (Holds content rules player) (Invalid content rules · error) requirements := by
  induction requirements with
  | nil =>
    constructor
    · intro h
      cases h
    · intro h
      exact absurd h not_reaches_nil
  | cons requirement rest ih =>
    rw [reaches_cons]
    rcases invalid_fails_or_holds content rules player requirement
      with ⟨other, hinvalid⟩ | ⟨unmet, hfails⟩ | hholds
    · have hholds : ¬ requirement.Holds content rules player :=
        fun hholds => hinvalid.not_valid hholds.valid
      rw [hinvalid.evaluate_cons, hinvalid.iff_eq player]
      simp [hholds]
    · rw [hfails.evaluate_first]
      simp [hfails.valid error, hfails.not_holds]
    · rw [hholds.evaluate_cons, ih]
      simp only [hholds.valid error, hholds, false_or, true_and]

/-- Where the first failure is asked for, it is the answer if all before hold, and nothing is if all
    do. -/
theorem firstFailure_eq_ok :
    evaluate content rules player .firstFailure requirements = .ok failures ↔
      (∃ unmet, failures = [unmet] ∧
        Reaches (Holds content rules player) (Fails content rules player unmet) requirements) ∨
      (failures = [] ∧ ∀ requirement ∈ requirements, requirement.Holds content rules player) := by
  induction requirements with
  | nil => simp [evaluate, pure, Except.pure, not_reaches_nil, eq_comm]
  | cons requirement rest ih =>
    simp only [reaches_cons, List.forall_mem_cons]
    rcases invalid_fails_or_holds content rules player requirement
      with ⟨other, hinvalid⟩ | ⟨unmet, hfails⟩ | hholds
    · have hholds : ¬ requirement.Holds content rules player :=
        fun hholds => hinvalid.not_valid hholds.valid
      have hfails : ∀ unmet, ¬ requirement.Fails content rules player unmet :=
        fun unmet hfails => hinvalid.not_valid hfails.valid
      rw [hinvalid.evaluate_cons]
      simp [hholds, hfails]
    · rw [hfails.evaluate_first]
      simp [hfails.not_holds, hfails.iff_eq, eq_comm]
    · have hfails : ∀ unmet, ¬ requirement.Fails content rules player unmet :=
        fun unmet hfails => hfails.not_holds hholds
      rw [hholds.evaluate_cons, ih]
      simp only [hfails, hholds, false_or, true_and]

/-- The first failure is the first of all, where all can be told. -/
theorem firstFailure_of_collectAll
    (h : evaluate content rules player .collectAll requirements = .ok failures) :
    evaluate content rules player .firstFailure requirements = .ok (failures.take 1) := by
  induction requirements generalizing failures with
  | nil =>
    cases h
    rfl
  | cons requirement rest ih =>
    rcases invalid_fails_or_holds content rules player requirement
      with ⟨other, hinvalid⟩ | ⟨unmet, hfails⟩ | hholds
    · rw [hinvalid.evaluate_cons] at h
      cases h
    · rw [hfails.evaluate_all] at h
      cases hrest : evaluate content rules player .collectAll rest with
      | error error =>
        rw [hrest] at h
        cases h
      | ok others =>
        rw [hrest] at h
        cases h
        exact hfails.evaluate_first
    · rw [hholds.evaluate_cons] at h ⊢
      exact ih h

theorem collectAll_of_holds
    (h : ∀ requirement ∈ requirements, requirement.Holds content rules player) :
    evaluate content rules player .collectAll requirements = .ok [] := by
  refine collectAll_eq_ok.2 ⟨fun requirement hmem => (h requirement hmem).valid, ?_⟩
  symm
  rw [List.filterMap_eq_nil_iff]
  exact fun requirement hmem => (h requirement hmem).silent

/-- **The two modes agree.** Asking for all failures goes wrong exactly if a requirement is invalid,
    with the error of the first that is; otherwise there is one failure for every requirement whose
    comparison is false, in their order, with the requirement and its two numbers. Asking for the
    first gives the failure that stands before every invalid requirement and every other failure,
    or the error that stands before every failure, or nothing. So where all failures are told, the
    first of them is the other answer, and where one mode finds that everything holds, so does the
    other. -/
theorem modes_agree (content : Content α) (rules : Rules) (player : Player α)
    (requirements : List (Requirement α)) :
    (∀ error, evaluate content rules player .collectAll requirements = .error error ↔
      Reaches (Valid content rules) (Invalid content rules · error) requirements) ∧
    (∀ failures, evaluate content rules player .collectAll requirements = .ok failures ↔
      (∀ requirement ∈ requirements, requirement.Valid content rules) ∧
        failures = requirements.filterMap (told content rules player)) ∧
    (∀ error, evaluate content rules player .firstFailure requirements = .error error ↔
      Reaches (Holds content rules player) (Invalid content rules · error) requirements) ∧
    (∀ failures, evaluate content rules player .firstFailure requirements = .ok failures ↔
      (∃ unmet, failures = [unmet] ∧
        Reaches (Holds content rules player) (Fails content rules player unmet) requirements) ∨
      (failures = [] ∧
        ∀ requirement ∈ requirements, requirement.Holds content rules player)) ∧
    (∀ failures, evaluate content rules player .collectAll requirements = .ok failures →
      evaluate content rules player .firstFailure requirements = .ok (failures.take 1)) ∧
    (evaluate content rules player .collectAll requirements = .ok [] ↔
      evaluate content rules player .firstFailure requirements = .ok []) := by
  refine ⟨fun _ => collectAll_eq_error, fun _ => collectAll_eq_ok, fun _ => firstFailure_eq_error,
    fun _ => firstFailure_eq_ok, fun _ => firstFailure_of_collectAll, ?_, ?_⟩
  · exact firstFailure_of_collectAll
  · intro h
    rcases firstFailure_eq_ok.1 h with ⟨unmet, hunmet, -⟩ | ⟨-, hholds⟩
    · cases hunmet
    · exact collectAll_of_holds hholds

end Requirement

/-! ## Where the modes differ -/

namespace Sample

/-- One is at least two, which is false, and then something that there is not. -/
def impossible : List (Requirement Whole) :=
  [.compare ⟨.literal ⟨1⟩, .atLeast, .literal ⟨2⟩⟩, { family := "oracle", method := "ask" }]

end Sample

open Sample Requirement in
example : (evaluate { catalog := .empty } {} (.initial .empty "A" "Ada") .firstFailure
    impossible).map List.length = .ok 1 := rfl

open Sample Requirement in
example : evaluate { catalog := .empty } {} (.initial .empty "A" "Ada") .collectAll impossible
    = .error (.unknownRequirement "oracle" "ask") := rfl

end Realm
