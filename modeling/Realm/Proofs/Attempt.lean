import Mathlib.Data.List.Induction
import Mathlib.Logic.Relation
import Realm.Attempt

/-!
# What attempts do, step by step

Everything that is proved of the realm's operations is proved of attempts, and of an attempt there
are two things to know: how it runs from a given state, and what it may have done to the state *by
the time it ends*, which is also the time it fails.

The first is a matter of rewriting: `run_bind` and the equations beside it turn an attempt into its
outcome. The second is what `Walks` is for. An attempt walks along a relation if the state it
leaves, however it ends, is reached by steps of that relation. Sequences walk if their parts do
(`Walks.bind`), so of an interpreter it is enough to say once which steps it is made of; whatever
every step keeps, every run keeps (`Walks.keeps`), also one that failed half-way.
-/

set_option autoImplicit false

namespace Realm

variable {σ τ ε δ β γ : Type}

/-! ## Outcomes

Computations that need no state end in an `Except`. -/

theorem Outcome.bind_eq_ok {first : Except ε β} {next : β → Except ε γ} {value : γ} :
    (first >>= next) = .ok value ↔ ∃ between, first = .ok between ∧ next between = .ok value := by
  cases first with
  | error error => simp [bind, Except.bind]
  | ok between => simp [bind, Except.bind]

theorem Outcome.mapError_eq_ok {outcome : Except ε β} {f : ε → δ} {value : β} :
    outcome.mapError f = .ok value ↔ outcome = .ok value := by
  cases outcome with
  | error error =>
    constructor
    · intro h
      cases h
    · intro h
      cases h
  | ok between =>
    constructor
    · intro h
      cases h
      rfl
    · intro h
      cases h
      rfl

/-- What holds of the error of the first part, and of the rest after its value, holds of both. -/
theorem Outcome.holds_bind (holds : Except ε γ → Prop) {first : Except ε β}
    {next : β → Except ε γ} (herror : ∀ error, first = .error error → holds (.error error))
    (hnext : ∀ value, first = .ok value → holds (next value)) : holds (first >>= next) := by
  cases first with
  | error error => exact herror error rfl
  | ok value => exact hnext value rfl

theorem Outcome.bind_eq_error {first : Except ε β} {next : β → Except ε γ} {error : ε} :
    (first >>= next) = .error error ↔
      first = .error error ∨ ∃ between, first = .ok between ∧ next between = .error error := by
  cases first with
  | error cause => simp [bind, Except.bind]
  | ok between => simp [bind, Except.bind]

theorem Outcome.mapError_eq_error {outcome : Except ε β} {f : ε → δ} {error : δ} :
    outcome.mapError f = .error error ↔ ∃ cause, outcome = .error cause ∧ f cause = error := by
  cases outcome with
  | error cause =>
    constructor
    · intro h
      cases h
      exact ⟨cause, rfl, rfl⟩
    · rintro ⟨_, hcause, rfl⟩
      cases hcause
      rfl
  | ok value =>
    constructor
    · intro h
      cases h
    · rintro ⟨_, hcause, -⟩
      cases hcause

/-- Two checks pass if each does. -/
theorem Outcome.then_eq_ok {first : Except ε Unit} {next : Except ε β} {value : β} :
    (first >>= fun _ => next) = .ok value ↔ first = .ok () ∧ next = .ok value := by
  rw [Outcome.bind_eq_ok]
  constructor
  · rintro ⟨⟨⟩, hfirst, hnext⟩
    exact ⟨hfirst, hnext⟩
  · rintro ⟨hfirst, hnext⟩
    exact ⟨(), hfirst, hnext⟩

/-- A list passes a check if each item does. -/
theorem Outcome.forM_eq_ok {work : β → Except ε Unit} {items : List β} :
    items.forM work = .ok () ↔ ∀ item ∈ items, work item = .ok () := by
  induction items with
  | nil => exact iff_of_true rfl fun item hitem => (List.not_mem_nil hitem).elim
  | cons item rest ih =>
    rw [List.forall_mem_cons, ← ih]
    exact Outcome.then_eq_ok

/-- The error of a list of checks is the error of one of them. -/
theorem Outcome.exists_of_forM_error {work : β → Except ε Unit} {items : List β} {error : ε}
    (h : items.forM work = .error error) : ∃ item ∈ items, work item = .error error := by
  induction items with
  | nil => cases h
  | cons item rest ih =>
    rcases Outcome.bind_eq_error.1 h with hitem | ⟨_, -, hrest⟩
    · exact ⟨item, List.mem_cons_self, hitem⟩
    · obtain ⟨other, hother, herror⟩ := ih hrest
      exact ⟨other, List.mem_cons_of_mem _ hother, herror⟩

/-- The outcome is a value exactly where it is meant to be, and the value is then as it should
    be. -/
structure Outcome.Decides (accepted : Prop) (result : β → Prop) (outcome : Except ε β) : Prop where
  succeeds_iff : (∃ value, outcome = .ok value) ↔ accepted
  value : ∀ value, outcome = .ok value → result value

theorem Outcome.decides_ok {accepted : Prop} {result : β → Prop} {value : β} (h : accepted)
    (hvalue : result value) : Outcome.Decides accepted result (.ok value : Except ε β) := by
  refine ⟨iff_of_true ⟨value, rfl⟩ h, fun other hother => ?_⟩
  cases hother
  exact hvalue

theorem Outcome.decides_error {accepted : Prop} {result : β → Prop} {error : ε}
    (h : ¬ accepted) : Outcome.Decides accepted result (.error error) := by
  refine ⟨iff_of_false ?_ h, fun other hother => ?_⟩
  · rintro ⟨value, hvalue⟩
    cases hvalue
  · cases hother

theorem Outcome.Decides.congr {accepted accepted' : Prop} {result : β → Prop}
    {outcome : Except ε β} (h : Outcome.Decides accepted result outcome)
    (haccepted : accepted ↔ accepted') : Outcome.Decides accepted' result outcome :=
  ⟨h.succeeds_iff.trans haccepted, h.value⟩

/-- What is accepted as a whole is accepted by the first part, and then by the rest. -/
theorem Outcome.Decides.bind {accepted whole : Prop} {known : β → Prop} {result : γ → Prop}
    {first : Except ε β} {next : β → Except ε γ} (h : Outcome.Decides accepted known first)
    (hwhole : whole → accepted)
    (hnext : ∀ value, accepted → known value → Outcome.Decides whole result (next value)) :
    Outcome.Decides whole result (first >>= next) := by
  cases hfirst : first with
  | error error =>
    refine Outcome.decides_error fun haccepted => ?_
    obtain ⟨value, hvalue⟩ := h.succeeds_iff.2 (hwhole haccepted)
    rw [hfirst] at hvalue
    cases hvalue
  | ok value => exact hnext value (h.succeeds_iff.1 ⟨value, hfirst⟩) (h.value value hfirst)

/-- A fold decides what its steps decide, one after the other, of the items done so far. -/
theorem Outcome.decides_foldlM (fits : List β → Prop) (account : List β → σ → Prop)
    {step : σ → β → Except ε σ} {start : σ} (hnil : fits []) (hstart : account [] start)
    (hshorter : ∀ done item, fits (done ++ [item]) → fits done)
    (hstep : ∀ done item before, fits done → account done before →
      Outcome.Decides (fits (done ++ [item])) (account (done ++ [item])) (step before item))
    (items : List β) : Outcome.Decides (fits items) (account items) (items.foldlM step start) := by
  induction items using List.reverseRecOn with
  | nil => exact Outcome.decides_ok hnil hstart
  | append_singleton done item ih =>
    rw [List.foldlM_append]
    refine ih.bind (hshorter done item) fun before hfits hbefore => ?_
    rw [List.foldlM_cons, show (fun last => List.foldlM step last []) = pure from rfl, bind_pure]
    exact hstep done item before hfits hbefore

theorem Outcome.mem_of_mapM {f : β → Except ε γ} {items : List β} {results : List γ}
    (h : items.mapM f = .ok results) {result : γ} (hresult : result ∈ results) :
    ∃ item ∈ items, f item = .ok result := by
  induction items generalizing results with
  | nil =>
    rw [List.mapM_nil] at h
    cases h
    cases hresult
  | cons item rest ih =>
    rw [List.mapM_cons] at h
    obtain ⟨first, hfirst, h⟩ := Outcome.bind_eq_ok.1 h
    obtain ⟨others, hothers, h⟩ := Outcome.bind_eq_ok.1 h
    cases h
    rcases List.mem_cons.1 hresult with rfl | hresult
    · exact ⟨item, List.mem_cons_self, hfirst⟩
    · obtain ⟨other, hother, hread⟩ := ih hothers hresult
      exact ⟨other, List.mem_cons_of_mem _ hother, hread⟩

/-- The error of a list of computations is the error of the first that fails. -/
theorem Outcome.first_of_mapM_error {f : β → Except ε γ} {items : List β} {error : ε}
    (h : items.mapM f = .error error) :
    ∃ (index : Nat) (item : β), items[index]? = some item ∧ f item = .error error ∧
      ∀ earlier < index, ∀ other, items[earlier]? = some other → ∃ result, f other = .ok result := by
  induction items with
  | nil =>
    rw [List.mapM_nil] at h
    cases h
  | cons item rest ih =>
    rw [List.mapM_cons] at h
    rcases Outcome.bind_eq_error.1 h with hitem | ⟨result, hitem, h⟩
    · exact ⟨0, item, rfl, hitem, fun earlier hearlier => (Nat.not_lt_zero _ hearlier).elim⟩
    · rcases Outcome.bind_eq_error.1 h with hrest | ⟨_, -, h⟩
      · obtain ⟨index, other, hother, herror, hbefore⟩ := ih hrest
        refine ⟨index + 1, other, hother, herror, fun earlier hearlier => ?_⟩
        cases earlier with
        | zero =>
          rintro _ ⟨⟩
          exact ⟨result, hitem⟩
        | succ earlier => exact hbefore earlier (Nat.lt_of_succ_lt_succ hearlier)
      · cases h

theorem Outcome.exists_of_mapM_error {f : β → Except ε γ} {items : List β} {error : ε}
    (h : items.mapM f = .error error) : ∃ item ∈ items, f item = .error error := by
  obtain ⟨index, item, hitem, herror, -⟩ := Outcome.first_of_mapM_error h
  exact ⟨item, List.mem_of_getElem? hitem, herror⟩

/-- Where a list of computations has results, each of them has one. -/
theorem Outcome.ok_of_mapM {f : β → Except ε γ} {items : List β} {results : List γ}
    (h : items.mapM f = .ok results) {item : β} (hitem : item ∈ items) :
    ∃ result, f item = .ok result := by
  induction items generalizing results with
  | nil => cases hitem
  | cons first rest ih =>
    rw [List.mapM_cons] at h
    obtain ⟨result, hfirst, h⟩ := Outcome.bind_eq_ok.1 h
    obtain ⟨others, hothers, -⟩ := Outcome.bind_eq_ok.1 h
    rcases List.mem_cons.1 hitem with rfl | hitem
    · exact ⟨result, hfirst⟩
    · exact ih hothers hitem

/-- The results of computations all of which succeed. -/
theorem Outcome.mapM_eq_ok_map {f : β → Except ε γ} {g : β → γ} {items : List β}
    (h : ∀ item ∈ items, f item = .ok (g item)) : items.mapM f = .ok (items.map g) := by
  induction items with
  | nil => rfl
  | cons item rest ih =>
    obtain ⟨hitem, hrest⟩ := List.forall_mem_cons.1 h
    rw [List.mapM_cons, hitem, ih hrest]
    rfl

theorem Outcome.mapM_congr {f g : β → Except ε γ} {items : List β}
    (h : ∀ item ∈ items, f item = g item) : items.mapM f = items.mapM g := by
  induction items with
  | nil => rfl
  | cons item rest ih =>
    obtain ⟨hitem, hrest⟩ := List.forall_mem_cons.1 h
    rw [List.mapM_cons, List.mapM_cons, hitem, ih hrest]

theorem Outcome.length_mapM {f : β → Except ε γ} {items : List β} {results : List γ}
    (h : items.mapM f = .ok results) : results.length = items.length := by
  induction items generalizing results with
  | nil =>
    rw [List.mapM_nil] at h
    cases h
    rfl
  | cons item rest ih =>
    rw [List.mapM_cons] at h
    obtain ⟨result, -, h⟩ := Outcome.bind_eq_ok.1 h
    obtain ⟨others, hothers, h⟩ := Outcome.bind_eq_ok.1 h
    cases h
    rw [List.length_cons, List.length_cons, ih hothers]

/-- What the results have in common with the items, the lists have in common. -/
theorem Outcome.map_eq_of_mapM {f : β → Except ε γ} {items : List β} {results : List γ}
    {of : β → δ} {of' : γ → δ} (h : items.mapM f = .ok results)
    (hsame : ∀ item result, f item = .ok result → of' result = of item) :
    results.map of' = items.map of := by
  induction items generalizing results with
  | nil =>
    rw [List.mapM_nil] at h
    cases h
    rfl
  | cons item rest ih =>
    rw [List.mapM_cons] at h
    obtain ⟨result, hresult, h⟩ := Outcome.bind_eq_ok.1 h
    obtain ⟨others, hothers, h⟩ := Outcome.bind_eq_ok.1 h
    cases h
    rw [List.map_cons, List.map_cons, hsame item result hresult, ih hothers]

namespace Attempt

/-! ## Running -/

theorem after_def (attempt : Attempt σ ε β) (state : σ) :
    attempt.after state = (attempt.run state).2 := rfl

@[simp] theorem run_get (state : σ) : (get : Attempt σ ε σ).run state = (.ok state, state) := rfl

@[simp] theorem run_ofExcept (outcome : Except ε β) (state : σ) :
    (ofExcept outcome).run state = (outcome, state) := rfl

@[simp] theorem run_ofOption_some (error : ε) (value : β) (state : σ) :
    (ofOption error (some value)).run state = (.ok value, state) := rfl

@[simp] theorem run_ofOption_none (error : ε) (state : σ) :
    (ofOption error (none : Option β)).run state = (.error error, state) := rfl

/-- Where the first part succeeds, the sequence is the rest from there. -/
theorem run_bind_of_ok {attempt : Attempt σ ε β} {next : β → Attempt σ ε γ} {state after : σ}
    {value : β} (h : attempt.run state = (.ok value, after)) :
    (attempt >>= next).run state = (next value).run after := by
  rw [run_bind, h]

/-- Where the first part fails, so does the sequence. -/
theorem run_bind_of_error {attempt : Attempt σ ε β} {next : β → Attempt σ ε γ} {state after : σ}
    {error : ε} (h : attempt.run state = (.error error, after)) :
    (attempt >>= next).run state = (.error error, after) := by
  rw [run_bind, h]

theorem run_eq_of_outcome {attempt : Attempt σ ε β} {state : σ} {outcome : Except ε β}
    (h : attempt.outcome state = outcome) : attempt.run state = (outcome, attempt.after state) :=
  Prod.ext h rfl

theorem run_bind_eq_ok {attempt : Attempt σ ε β} {next : β → Attempt σ ε γ} {state after : σ}
    {value : γ} : (attempt >>= next).run state = (.ok value, after) ↔
      ∃ first between, attempt.run state = (.ok first, between) ∧
        (next first).run between = (.ok value, after) := by
  cases hfirst : attempt.run state with
  | mk outcome between =>
    cases outcome with
    | error error =>
      rw [run_bind_of_error hfirst]
      simp
    | ok first =>
      rw [run_bind_of_ok hfirst]
      constructor
      · exact fun h => ⟨first, between, rfl, h⟩
      · rintro ⟨_, _, heq, h⟩
        cases heq
        exact h

/-- Giving the value another form at the end does nothing to the state. -/
theorem after_bind_pure (attempt : Attempt σ ε β) (f : β → γ) (state : σ) :
    (attempt >>= fun value => pure (f value)).after state = attempt.after state := by
  rw [after_def, after_def]
  cases hfirst : attempt.run state with
  | mk outcome between =>
    cases outcome with
    | error error => rw [run_bind_of_error hfirst]
    | ok value => rw [run_bind_of_ok hfirst, run_pure]

/-- A sequence that begins with a known outcome. -/
theorem run_ofExcept_bind (outcome : Except ε β) (next : β → Attempt σ ε γ) (state : σ) :
    (ofExcept outcome >>= next).run state =
      match outcome with
      | .ok value => (next value).run state
      | .error error => (.error error, state) := by
  cases outcome with
  | error error => rfl
  | ok value => rfl

/-- What holds of a failure and of the rest, holds of a sequence that begins with a known
    outcome. -/
theorem holds_ofExcept_bind (holds : Except ε γ × σ → Prop) {outcome : Except ε β}
    {next : β → Attempt σ ε γ} {state : σ} (hfailed : ∀ error, holds (.error error, state))
    (hnext : ∀ value, outcome = .ok value → holds ((next value).run state)) :
    holds ((ofExcept outcome >>= next).run state) := by
  rw [run_ofExcept_bind]
  cases outcome with
  | error error => exact hfailed error
  | ok value => exact hnext value rfl

theorem holds_ofOption_bind (holds : Except ε γ × σ → Prop) {error : ε} {found : Option β}
    {next : β → Attempt σ ε γ} {state : σ} (hfailed : holds (.error error, state))
    (hnext : ∀ value, found = some value → holds ((next value).run state)) :
    holds ((ofOption error found >>= next).run state) := by
  rw [run_bind]
  cases found with
  | none => exact hfailed
  | some value => exact hnext value rfl

/-- A sequence that begins by reading the state. -/
theorem run_get_bind (next : σ → Attempt σ ε γ) (state : σ) :
    (get >>= next).run state = (next state).run state := rfl

/-- A sequence that begins by replacing the state. -/
theorem run_set_bind (next : PUnit → Attempt σ ε γ) (state between : σ) :
    (set between >>= next).run state = (next ⟨⟩).run between := rfl

/-! ## Walking -/

/-- However the attempt ends, it leaves a state that steps lead to. -/
def Walks (step : σ → σ → Prop) (attempt : Attempt σ ε β) (state : σ) : Prop :=
  Relation.ReflTransGen step state (attempt.after state)

variable {step : σ → σ → Prop}

theorem walks_pure (value : β) (state : σ) : (pure value : Attempt σ ε β).Walks step state := .refl

theorem walks_fail (error : ε) (state : σ) : (fail error : Attempt σ ε β).Walks step state := .refl

theorem walks_of_step {attempt : Attempt σ ε β} {state : σ} (h : step state (attempt.after state)) :
    attempt.Walks step state := .single h

theorem Walks.reaches {attempt : Attempt σ ε β} {state : σ} (h : attempt.Walks step state) :
    Relation.ReflTransGen step state (attempt.run state).2 := h

/-- A sequence walks if its first part does, and the rest does from where the first part got to. -/
theorem Walks.bind {attempt : Attempt σ ε β} {next : β → Attempt σ ε γ} {state : σ}
    (h : attempt.Walks step state)
    (hnext : ∀ value between, attempt.run state = (.ok value, between) →
      (next value).Walks step between) :
    (attempt >>= next).Walks step state := by
  unfold Walks at h ⊢
  rw [after_def] at h ⊢
  cases hfirst : attempt.run state with
  | mk outcome between =>
    rw [hfirst] at h
    cases outcome with
    | error error => rw [run_bind_of_error hfirst]; exact h
    | ok value => rw [run_bind_of_ok hfirst]; exact h.trans (hnext value between hfirst)

theorem walks_ofExcept_bind {outcome : Except ε β} {next : β → Attempt σ ε γ} {state : σ}
    (h : ∀ value, outcome = .ok value → (next value).Walks step state) :
    (ofExcept outcome >>= next).Walks step state := by
  cases outcome with
  | error error => exact walks_fail error state
  | ok value => exact h value rfl

theorem walks_ofOption_bind {error : ε} {found : Option β} {next : β → Attempt σ ε γ} {state : σ}
    (h : ∀ value, found = some value → (next value).Walks step state) :
    (ofOption error found >>= next).Walks step state :=
  holds_ofOption_bind (fun result => Relation.ReflTransGen step state result.2) .refl h

theorem walks_times {attempt : Attempt σ ε Unit} (h : ∀ state, attempt.Walks step state) (n : Nat)
    (state : σ) : (times n attempt).Walks step state := by
  induction n generalizing state with
  | zero => exact walks_pure _ _
  | succ n ih => exact (h state).bind fun _ between _ => ih between

theorem walks_forM {items : List β} {work : β → Attempt σ ε PUnit}
    (h : ∀ item state, (work item).Walks step state) (state : σ) :
    (items.forM work).Walks step state := by
  induction items generalizing state with
  | nil => exact walks_pure _ _
  | cons item rest ih => exact (h item state).bind fun _ between _ => ih between

/-- What every step keeps, an attempt that walks keeps, whether it succeeds or fails. -/
theorem Walks.keeps {attempt : Attempt σ ε β} {state : σ} (h : attempt.Walks step state)
    {holds : σ → Prop} (hstep : ∀ before after, step before after → holds before → holds after)
    (hstate : holds state) : holds (attempt.after state) := by
  unfold Walks at h
  generalize attempt.after state = last at h ⊢
  induction h with
  | refl => exact hstate
  | tail _ hlast ih => exact hstep _ _ hlast ih

/-! ## Safety

Walks say what becomes of the state and nothing of errors. Where both matter, an attempt is said to
be safe from a state: it keeps an invariant, however it ends, and some errors it never ends in. -/

/-- The attempt leaves a state with the invariant, and does not fail in a bad way. -/
def SafeAt (holds : σ → Prop) (bad : ε → Prop) (attempt : Attempt σ ε β) (state : σ) : Prop :=
  holds (attempt.after state) ∧ ∀ error, attempt.outcome state = .error error → ¬ bad error

theorem outcome_def (attempt : Attempt σ ε β) (state : σ) :
    attempt.outcome state = (attempt.run state).1 := rfl

variable {holds : σ → Prop} {bad : ε → Prop}

theorem safeAt_pure {value : β} {state : σ} (h : holds state) :
    (pure value : Attempt σ ε β).SafeAt holds bad state := by
  refine ⟨h, ?_⟩
  intro error herror
  cases herror

theorem safeAt_fail {error : ε} {state : σ} (h : holds state) (herror : ¬ bad error) :
    (fail error : Attempt σ ε β).SafeAt holds bad state := by
  refine ⟨h, ?_⟩
  intro other hother
  cases hother
  exact herror

theorem SafeAt.of_run_ok {attempt : Attempt σ ε β} {state after : σ} {value : β}
    (h : attempt.SafeAt holds bad state) (hrun : attempt.run state = (.ok value, after)) :
    holds after := by
  have hafter := h.1
  rw [after_def, hrun] at hafter
  exact hafter

theorem SafeAt.of_run_error {attempt : Attempt σ ε β} {state after : σ} {error : ε}
    (h : attempt.SafeAt holds bad state) (hrun : attempt.run state = (.error error, after)) :
    holds after ∧ ¬ bad error := by
  obtain ⟨hafter, herror⟩ := h
  rw [after_def, hrun] at hafter
  rw [outcome_def, hrun] at herror
  exact ⟨hafter, herror error rfl⟩

theorem SafeAt.mono {holds' : σ → Prop} {bad' : ε → Prop} {attempt : Attempt σ ε β} {state : σ}
    (h : attempt.SafeAt holds bad state) (hholds : ∀ state, holds state → holds' state)
    (hbad : ∀ error, bad' error → bad error) : attempt.SafeAt holds' bad' state :=
  ⟨hholds _ h.1, fun error herror hworse => h.2 error herror (hbad error hworse)⟩

/-- A sequence is safe if its first part is, and the rest is from where the first part got to. -/
theorem SafeAt.bind {attempt : Attempt σ ε β} {next : β → Attempt σ ε γ} {state : σ}
    (h : attempt.SafeAt holds bad state)
    (hnext : ∀ value between, attempt.run state = (.ok value, between) → holds between →
      (next value).SafeAt holds bad between) :
    (attempt >>= next).SafeAt holds bad state := by
  unfold SafeAt at h ⊢
  rw [after_def, outcome_def] at h ⊢
  cases hfirst : attempt.run state with
  | mk outcome between =>
    rw [hfirst] at h
    cases outcome with
    | error error =>
      rw [run_bind_of_error hfirst]
      refine ⟨h.1, ?_⟩
      intro other hother
      cases hother
      exact h.2 error rfl
    | ok value =>
      rw [run_bind_of_ok hfirst]
      exact hnext value between hfirst h.1

theorem SafeAt.bind_pure {attempt : Attempt σ ε β} {state : σ}
    (h : attempt.SafeAt holds bad state) (f : β → γ) :
    (attempt >>= fun value => pure (f value)).SafeAt holds bad state :=
  h.bind fun _ _ _ hlast => safeAt_pure hlast

theorem safeAt_get_bind {next : σ → Attempt σ ε β} {state : σ}
    (h : (next state).SafeAt holds bad state) : (get >>= next).SafeAt holds bad state := h

theorem safeAt_set_bind {next : PUnit → Attempt σ ε β} {state between : σ}
    (h : (next ⟨⟩).SafeAt holds bad between) : (set between >>= next).SafeAt holds bad state := h

theorem safeAt_ofExcept_bind {outcome : Except ε β} {next : β → Attempt σ ε γ} {state : σ}
    (h : holds state) (hfailed : ∀ error, outcome = .error error → ¬ bad error)
    (hnext : ∀ value, outcome = .ok value → (next value).SafeAt holds bad state) :
    (ofExcept outcome >>= next).SafeAt holds bad state := by
  cases outcome with
  | error error => exact safeAt_fail h (hfailed error rfl)
  | ok value => exact hnext value rfl

theorem safeAt_ofOption_bind {error : ε} {found : Option β} {next : β → Attempt σ ε γ} {state : σ}
    (h : holds state) (hfailed : found = none → ¬ bad error)
    (hnext : ∀ value, found = some value → (next value).SafeAt holds bad state) :
    (ofOption error found >>= next).SafeAt holds bad state := by
  cases found with
  | none => exact safeAt_fail h (hfailed rfl)
  | some value => exact hnext value rfl

theorem safeAt_forM {items : List β} {work : β → Attempt σ ε PUnit}
    (hwork : ∀ item ∈ items, ∀ state, holds state → (work item).SafeAt holds bad state)
    {state : σ} (h : holds state) : (items.forM work).SafeAt holds bad state := by
  induction items generalizing state with
  | nil => exact safeAt_pure h
  | cons item rest ih =>
    refine SafeAt.bind (hwork item List.mem_cons_self state h) fun _ between _ hbetween => ?_
    exact ih (fun other hother => hwork other (List.mem_cons_of_mem _ hother)) hbetween

theorem safeAt_times {attempt : Attempt σ ε Unit}
    (hattempt : ∀ state, holds state → attempt.SafeAt holds bad state) (n : Nat) {state : σ}
    (h : holds state) : (times n attempt).SafeAt holds bad state := by
  induction n generalizing state with
  | zero => exact safeAt_pure h
  | succ n ih => exact (hattempt state h).bind fun _ _ _ hbetween => ih hbetween

/-- A walk is safe if its steps keep the invariant, and it fails in no bad way. -/
theorem Walks.safeAt {attempt : Attempt σ ε β} {state : σ} (hwalk : attempt.Walks step state)
    (hstep : ∀ before after, step before after → holds before → holds after) (h : holds state)
    (herror : ∀ error, attempt.outcome state = .error error → ¬ bad error) :
    attempt.SafeAt holds bad state :=
  ⟨hwalk.keeps hstep h, herror⟩

/-! ## What success ensures

Some things hold of the state only if all has gone well: what has failed half-way may have left
things as they should not stay. -/

/-- If the attempt succeeds, it leaves a state of which something holds. -/
def Ensures (post : σ → Prop) (attempt : Attempt σ ε β) (state : σ) : Prop :=
  ∀ value after, attempt.run state = (.ok value, after) → post after

variable {post : σ → Prop}

theorem ensures_pure {value : β} {state : σ} (h : post state) :
    (pure value : Attempt σ ε β).Ensures post state := by
  rintro _ _ ⟨⟩
  exact h

theorem ensures_fail {error : ε} {state : σ} : (fail error : Attempt σ ε β).Ensures post state := by
  rintro _ _ ⟨⟩

theorem Ensures.mono {attempt : Attempt σ ε β} {state : σ} {post' : σ → Prop}
    (h : attempt.Ensures post state) (hpost : ∀ after, post after → post' after) :
    attempt.Ensures post' state :=
  fun value after hrun => hpost after (h value after hrun)

/-- Whatever holds however the attempt ends, holds if it succeeds. -/
theorem ensures_of_after {attempt : Attempt σ ε β} {state : σ} (h : post (attempt.after state)) :
    attempt.Ensures post state := by
  intro value after hrun
  rw [after_def, hrun] at h
  exact h

theorem SafeAt.ensures {bad : ε → Prop} {attempt : Attempt σ ε β} {state : σ}
    (h : attempt.SafeAt post bad state) : attempt.Ensures post state := ensures_of_after h.1

theorem Walks.ensures {attempt : Attempt σ ε β} {state : σ} (h : attempt.Walks step state)
    (hstep : ∀ before after, step before after → post before → post after)
    (hstate : post state) : attempt.Ensures post state := ensures_of_after (h.keeps hstep hstate)

theorem Ensures.and {attempt : Attempt σ ε β} {state : σ} {post' : σ → Prop}
    (h : attempt.Ensures post state) (h' : attempt.Ensures post' state) :
    attempt.Ensures (fun after => post after ∧ post' after) state :=
  fun value after hrun => ⟨h value after hrun, h' value after hrun⟩

theorem Ensures.bind {attempt : Attempt σ ε β} {next : β → Attempt σ ε γ} {state : σ}
    {between : σ → Prop} (h : attempt.Ensures between state)
    (hnext : ∀ value state, between state → (next value).Ensures post state) :
    (attempt >>= next).Ensures post state := by
  intro value after hrun
  obtain ⟨first, middle, hfirst, hrest⟩ := run_bind_eq_ok.1 hrun
  exact hnext first middle (h first middle hfirst) value after hrest

theorem Ensures.bind_pure {attempt : Attempt σ ε β} {state : σ} (h : attempt.Ensures post state)
    (f : β → γ) : (attempt >>= fun value => pure (f value)).Ensures post state :=
  h.bind fun _ _ hlast => ensures_pure hlast

theorem ensures_ofExcept_bind {outcome : Except ε β} {next : β → Attempt σ ε γ} {state : σ}
    (h : ∀ value, outcome = .ok value → (next value).Ensures post state) :
    (ofExcept outcome >>= next).Ensures post state := by
  cases outcome with
  | error error => exact ensures_fail
  | ok value => exact h value rfl

theorem ensures_ofOption_bind {error : ε} {found : Option β} {next : β → Attempt σ ε γ} {state : σ}
    (h : ∀ value, found = some value → (next value).Ensures post state) :
    (ofOption error found >>= next).Ensures post state := by
  cases found with
  | none => exact ensures_fail
  | some value => exact h value rfl

theorem ensures_forM {items : List β} {work : β → Attempt σ ε PUnit}
    (hwork : ∀ item ∈ items, ∀ state, post state → (work item).Ensures post state) {state : σ}
    (h : post state) : (items.forM work).Ensures post state := by
  induction items generalizing state with
  | nil => exact ensures_pure h
  | cons item rest ih =>
    refine Ensures.bind (hwork item List.mem_cons_self state h) fun _ between hbetween => ?_
    exact ih (fun other hother => hwork other (List.mem_cons_of_mem _ hother)) hbetween

theorem ensures_times {attempt : Attempt σ ε Unit}
    (hattempt : ∀ state, post state → attempt.Ensures post state) (n : Nat) {state : σ}
    (h : post state) : (times n attempt).Ensures post state := by
  induction n generalizing state with
  | zero => exact ensures_pure h
  | succ n ih => exact (hattempt state h).bind fun _ _ hbetween => ih hbetween

end Attempt

end Realm
