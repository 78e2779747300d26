import Realm.Proofs.Attempt

/-!
# Attempts that may run out of depth

An interpreter that calls itself is a family of attempts, one for each depth, with an error for the
case that the depth is not enough. Two things make such a family an honest account of a recursion
without a limit.

One is that a depth that is enough is as good as any greater one: the deeper attempt *extends* the
other (`ExtendedBy`), and sequences extend each other if their parts do. The other is that some
depth is enough, and then the family settles on one result (`Settles`). Settling is a matter of one
state, since the depth that is enough depends on it; a sequence settles if its first part does, and
the rest settles from where the first part gets to. So it carries an invariant of the state, as
safety does.

Of work that is made of such families both are wanted at once, and the depth may be something that
the state says of itself (`Deepens`). That some depth is enough is then said on a condition, for the
other half holds without it.
-/

set_option autoImplicit false

namespace Realm

variable {σ ε β γ : Type}

namespace Attempt

/-! ## Extending -/

/-- Wherever an attempt does not run out, the other one does the same. -/
def ExtendedBy (out : ε) (attempt longer : Attempt σ ε β) : Prop :=
  ∀ state, attempt.outcome state ≠ .error out → longer.run state = attempt.run state

variable {out : ε}

theorem ExtendedBy.refl (attempt : Attempt σ ε β) : attempt.ExtendedBy out attempt :=
  fun _ _ => rfl

/-- What runs out at once is extended by anything. -/
theorem extendedBy_fail (longer : Attempt σ ε β) : (fail out).ExtendedBy out longer := by
  intro state h
  exact absurd rfl h

theorem ExtendedBy.bind {attempt longer : Attempt σ ε β} {next longerNext : β → Attempt σ ε γ}
    (h : attempt.ExtendedBy out longer)
    (hnext : ∀ value, (next value).ExtendedBy out (longerNext value)) :
    (attempt >>= next).ExtendedBy out (longer >>= longerNext) := by
  intro state hstate
  rw [outcome_def] at hstate
  have hlonger := h state
  rw [outcome_def] at hlonger
  cases hfirst : attempt.run state with
  | mk outcome between =>
    rw [hfirst] at hlonger
    cases outcome with
    | error error =>
      -- The sequence does not run out, so its first part has not run out either.
      rw [run_bind_of_error hfirst] at hstate ⊢
      exact run_bind_of_error (hlonger fun hout => hstate (by cases hout; rfl))
    | ok value =>
      rw [run_bind_of_ok hfirst] at hstate ⊢
      rw [run_bind_of_ok (hlonger fun hbad => by cases hbad)]
      exact hnext value between hstate

theorem extendedBy_forM {items : List β} {work longer : β → Attempt σ ε PUnit}
    (h : ∀ item ∈ items, (work item).ExtendedBy out (longer item)) :
    (items.forM work).ExtendedBy out (items.forM longer) := by
  induction items with
  | nil => exact .refl _
  | cons item rest ih =>
    refine ExtendedBy.bind (h item List.mem_cons_self) fun _ => ?_
    exact ih fun other hother => h other (List.mem_cons_of_mem _ hother)

theorem extendedBy_times {attempt longer : Attempt σ ε Unit} (h : attempt.ExtendedBy out longer)
    (n : Nat) : (times n attempt).ExtendedBy out (times n longer) := by
  induction n with
  | zero => exact .refl _
  | succ n ih => exact h.bind fun _ => ih

/-! ## Settling -/

/-- From some depth on the attempts have one result, with the invariant, and it is not that the
    depth runs out. -/
def Settles (out : ε) (holds : σ → Prop) (family : Nat → Attempt σ ε β) (state : σ) : Prop :=
  ∃ depth result, result.1 ≠ .error out ∧ holds result.2 ∧
    ∀ deeper, depth ≤ deeper → (family deeper).run state = result

variable {holds : σ → Prop}

theorem settles_const {attempt : Attempt σ ε β} {state : σ}
    (h : attempt.SafeAt holds (fun error => error = out) state) :
    Settles out holds (fun _ => attempt) state :=
  ⟨0, attempt.run state, fun hout => h.2 out hout rfl, h.1, fun _ _ => rfl⟩

theorem settles_pure {value : β} {state : σ} (h : holds state) :
    Settles out holds (fun _ => (pure value : Attempt σ ε β)) state :=
  settles_const (safeAt_pure h)

theorem settles_fail {error : ε} {state : σ} (h : holds state) (herror : error ≠ out) :
    Settles out holds (fun _ => (fail error : Attempt σ ε β)) state :=
  settles_const (safeAt_fail h herror)

theorem Settles.mono {holds' : σ → Prop} {family : Nat → Attempt σ ε β} {state : σ}
    (h : Settles out holds family state) (hholds : ∀ state, holds state → holds' state) :
    Settles out holds' family state := by
  obtain ⟨depth, result, hresult, hlast, hdepth⟩ := h
  exact ⟨depth, result, hresult, hholds _ hlast, hdepth⟩

theorem Settles.of_succ {family : Nat → Attempt σ ε β} {state : σ}
    (h : Settles out holds (fun depth => family (depth + 1)) state) :
    Settles out holds family state := by
  obtain ⟨depth, result, hresult, hlast, hdepth⟩ := h
  refine ⟨depth + 1, result, hresult, hlast, ?_⟩
  intro deeper hdeeper
  obtain ⟨deeper, rfl⟩ : ∃ n, deeper = n + 1 := ⟨deeper - 1, by omega⟩
  exact hdepth deeper (by omega)

theorem Settles.bind {family : Nat → Attempt σ ε β} {next : Nat → β → Attempt σ ε γ} {state : σ}
    (h : Settles out holds family state)
    (hnext : ∀ value between, holds between → (∃ depth, (family depth).run state
      = (.ok value, between)) → Settles out holds (fun depth => next depth value) between) :
    Settles out holds (fun depth => family depth >>= next depth) state := by
  obtain ⟨depth, ⟨outcome, between⟩, hresult, hlast, hdepth⟩ := h
  cases outcome with
  | error error =>
    refine ⟨depth, (.error error, between), fun hout => hresult ?_, hlast, ?_⟩
    · cases hout
      rfl
    · exact fun deeper hdeeper => run_bind_of_error (hdepth deeper hdeeper)
  | ok value =>
    obtain ⟨depth', result, hresult', hlast', hdepth'⟩ :=
      hnext value between hlast ⟨depth, hdepth depth (Nat.le_refl depth)⟩
    -- Either depth may be the greater one, and both parts need theirs.
    refine ⟨max depth depth', result, hresult', hlast', ?_⟩
    intro deeper hdeeper
    rw [run_bind_of_ok (hdepth deeper (by omega))]
    exact hdepth' deeper (by omega)

theorem Settles.bind_pure {family : Nat → Attempt σ ε β} {state : σ}
    (h : Settles out holds family state) (f : β → γ) :
    Settles out holds (fun depth => family depth >>= fun value => pure (f value)) state :=
  h.bind fun _ _ hlast _ => settles_pure hlast

theorem settles_ofExcept_bind {outcome : Except ε β} {next : Nat → β → Attempt σ ε γ} {state : σ}
    (h : holds state) (hfailed : outcome ≠ .error out)
    (hnext : ∀ value, outcome = .ok value →
      Settles out holds (fun depth => next depth value) state) :
    Settles out holds (fun depth => ofExcept outcome >>= next depth) state := by
  cases outcome with
  | error error =>
    refine settles_fail h fun hout => hfailed ?_
    rw [hout]
  | ok value => exact hnext value rfl

theorem settles_ofOption_bind {error : ε} {found : Option β} {next : Nat → β → Attempt σ ε γ}
    {state : σ} (h : holds state) (hfailed : error ≠ out)
    (hnext : ∀ value, found = some value →
      Settles out holds (fun depth => next depth value) state) :
    Settles out holds (fun depth => ofOption error found >>= next depth) state := by
  cases found with
  | none => exact settles_fail h hfailed
  | some value => exact hnext value rfl

theorem settles_forM {items : List β} {work : Nat → β → Attempt σ ε PUnit}
    (hwork : ∀ item ∈ items, ∀ state, holds state →
      Settles out holds (fun depth => work depth item) state)
    {state : σ} (h : holds state) :
    Settles out holds (fun depth => items.forM (work depth)) state := by
  induction items generalizing state with
  | nil => exact settles_pure h
  | cons item rest ih =>
    refine Settles.bind (hwork item List.mem_cons_self state h) fun _ between hbetween _ => ?_
    exact ih (fun other hother => hwork other (List.mem_cons_of_mem _ hother)) hbetween

theorem settles_times {family : Nat → Attempt σ ε Unit}
    (hfamily : ∀ state, holds state → Settles out holds family state) (n : Nat) {state : σ}
    (h : holds state) : Settles out holds (fun depth => times n (family depth)) state := by
  induction n generalizing state with
  | zero => exact settles_pure h
  | succ n ih => exact (hfamily state h).bind fun _ _ hbetween _ => ih hbetween

/-! ## Deepening -/

/-- The attempt comes to an end that is not a bad error. -/
def Answers (bad : ε → Prop) (attempt : Attempt σ ε β) (state : σ) : Prop :=
  ∀ error, attempt.outcome state = .error error → ¬ bad error

/-- What a family answers at one depth it answers at every greater one, and the invariant holds
    then; and if it is known to end, it answers at some depth. A state is put at a depth by
    `place`. -/
structure Deepens (place : σ → Nat → σ) (bad : ε → Prop) (ends : Prop) (holds : σ → Prop)
    (family : Nat → Attempt σ ε β) (state : σ) : Prop where
  deeper : ∀ depth, (family depth).Answers bad (place state depth) →
    ∃ outcome after, holds after ∧ ∀ deeper, depth ≤ deeper →
      (family deeper).run (place state deeper) = (outcome, place after deeper)
  enough : ends → ∃ depth, (family depth).Answers bad (place state depth)

section

variable {place : σ → Nat → σ} {bad : ε → Prop} {ends : Prop}

theorem answers_iff_of_run {attempt : Attempt σ ε β} {state after : σ} {outcome : Except ε β}
    (h : attempt.run state = (outcome, after)) :
    attempt.Answers bad state ↔ ∀ error, outcome = .error error → ¬ bad error := by
  unfold Answers
  rw [outcome_def, h]

theorem answers_congr {attempt other : Attempt σ ε β} {state state' : σ}
    (h : attempt.run state = other.run state') :
    attempt.Answers bad state ↔ other.Answers bad state' := by
  unfold Answers
  rw [outcome_def, outcome_def, h]

/-- What answers the same at every depth. -/
theorem deepens_of_run {family : Nat → Attempt σ ε β} {state after : σ} {outcome : Except ε β}
    (h : ∀ depth, (family depth).run (place state depth) = (outcome, place after depth))
    (hafter : holds after) (hanswers : ∀ error, outcome = .error error → ¬ bad error) :
    Deepens place bad ends holds family state where
  deeper := fun _ _ => ⟨outcome, after, hafter, fun deeper _ => h deeper⟩
  enough := fun _ => ⟨0, (answers_iff_of_run (h 0)).2 hanswers⟩

theorem deepens_of_run_ok {family : Nat → Attempt σ ε β} {state after : σ} {value : β}
    (h : ∀ depth, (family depth).run (place state depth) = (.ok value, place after depth))
    (hafter : holds after) : Deepens place bad ends holds family state :=
  deepens_of_run h hafter fun _ herror => by cases herror

theorem deepens_pure {value : β} {state : σ} (h : holds state) :
    Deepens place bad ends holds (fun _ => (pure value : Attempt σ ε β)) state :=
  deepens_of_run_ok (fun _ => rfl) h

theorem deepens_fail {error : ε} {state : σ} (h : holds state) (herror : ¬ bad error) :
    Deepens place bad ends holds (fun _ => (fail error : Attempt σ ε β)) state := by
  refine deepens_of_run (fun _ => rfl) h fun other hother => ?_
  cases hother
  exact herror

theorem Deepens.congr {family other : Nat → Attempt σ ε β} {state : σ}
    (h : Deepens place bad ends holds other state)
    (hsame : ∀ depth,
      (family depth).run (place state depth) = (other depth).run (place state depth)) :
    Deepens place bad ends holds family state := by
  refine ⟨fun depth hanswers => ?_, fun hends => ?_⟩
  · obtain ⟨outcome, after, hafter, hrun⟩ :=
      h.deeper depth ((answers_congr (hsame depth)).1 hanswers)
    exact ⟨outcome, after, hafter, fun deeper hle => (hsame deeper).trans (hrun deeper hle)⟩
  · obtain ⟨depth, hanswers⟩ := h.enough hends
    exact ⟨depth, (answers_congr (hsame depth)).2 hanswers⟩

theorem Deepens.bind {family : Nat → Attempt σ ε β} {next : Nat → β → Attempt σ ε γ} {state : σ}
    (h : Deepens place bad ends holds family state)
    (hnext : ∀ value between, holds between →
      Deepens place bad ends holds (fun depth => next depth value) between) :
    Deepens place bad ends holds (fun depth => family depth >>= next depth) state := by
  refine ⟨fun depth hanswers => ?_, fun hends => ?_⟩
  · have hfirst : (family depth).Answers bad (place state depth) := by
      intro error herror
      exact hanswers error (congrArg Prod.fst (run_bind_of_error (run_eq_of_outcome herror)))
    obtain ⟨outcome, between, hbetween, hrun⟩ := h.deeper depth hfirst
    cases outcome with
    | error error =>
      exact ⟨.error error, between, hbetween,
        fun deeper hdeeper => run_bind_of_error (hrun deeper hdeeper)⟩
    | ok value =>
      have hsecond : (next depth value).Answers bad (place between depth) :=
        (answers_congr (run_bind_of_ok (hrun depth (Nat.le_refl depth)))).1 hanswers
      obtain ⟨outcome, after, hafter, hlast⟩ := (hnext value between hbetween).deeper depth hsecond
      refine ⟨outcome, after, hafter, fun deeper hdeeper => ?_⟩
      rw [run_bind_of_ok (hrun deeper hdeeper)]
      exact hlast deeper hdeeper
  · obtain ⟨depth, hanswers⟩ := h.enough hends
    obtain ⟨outcome, between, hbetween, hrun⟩ := h.deeper depth hanswers
    cases outcome with
    | error error =>
      have hfirst := hrun depth (Nat.le_refl depth)
      exact ⟨depth, (answers_iff_of_run (run_bind_of_error hfirst)).2
        fun other hother => (answers_iff_of_run hfirst).1 hanswers other (by cases hother; rfl)⟩
    | ok value =>
      have hrest := hnext value between hbetween
      obtain ⟨depth', hanswers'⟩ := hrest.enough hends
      obtain ⟨outcome, after, -, hlast⟩ := hrest.deeper depth' hanswers'
      -- Either depth may be the greater one, and both parts need theirs.
      have hwhole := (run_bind_of_ok (hrun _ (Nat.le_max_left depth depth'))).trans
        (hlast _ (Nat.le_max_right depth depth'))
      exact ⟨max depth depth', (answers_iff_of_run hwhole).2
        ((answers_iff_of_run (hlast depth' (Nat.le_refl depth'))).1 hanswers')⟩

theorem Deepens.bind_pure {family : Nat → Attempt σ ε β} {state : σ}
    (h : Deepens place bad ends holds family state) (f : β → γ) :
    Deepens place bad ends holds (fun depth => family depth >>= fun value => pure (f value))
      state :=
  h.bind fun _ _ hlast => deepens_pure hlast

theorem deepens_get_bind {next : Nat → σ → Attempt σ ε β} {state : σ}
    (h : Deepens place bad ends holds (fun depth => next depth (place state depth)) state) :
    Deepens place bad ends holds (fun depth => get >>= next depth) state :=
  h.congr fun _ => rfl

theorem deepens_ofExcept_bind {outcome : Except ε β} {next : Nat → β → Attempt σ ε γ} {state : σ}
    (h : holds state) (hfailed : ∀ error, outcome = .error error → ¬ bad error)
    (hnext : ∀ value, outcome = .ok value →
      Deepens place bad ends holds (fun depth => next depth value) state) :
    Deepens place bad ends holds (fun depth => ofExcept outcome >>= next depth) state := by
  cases outcome with
  | error error => exact deepens_fail h (hfailed error rfl)
  | ok value => exact hnext value rfl

theorem deepens_ofOption_bind {error : ε} {found : Option β} {next : Nat → β → Attempt σ ε γ}
    {state : σ} (h : holds state) (hfailed : ¬ bad error)
    (hnext : ∀ value, found = some value →
      Deepens place bad ends holds (fun depth => next depth value) state) :
    Deepens place bad ends holds (fun depth => ofOption error found >>= next depth) state := by
  cases found with
  | none => exact deepens_fail h hfailed
  | some value => exact hnext value rfl

theorem deepens_forM {items : List β} {work : Nat → β → Attempt σ ε PUnit}
    (hwork : ∀ item ∈ items, ∀ state, holds state →
      Deepens place bad ends holds (fun depth => work depth item) state)
    {state : σ} (h : holds state) :
    Deepens place bad ends holds (fun depth => items.forM (work depth)) state := by
  induction items generalizing state with
  | nil => exact deepens_pure h
  | cons item rest ih =>
    refine Deepens.bind (hwork item List.mem_cons_self state h) fun _ between hbetween => ?_
    exact ih (fun other hother => hwork other (List.mem_cons_of_mem _ hother)) hbetween

/-- What ends by finishing up after something else deepens with it. -/
theorem Deepens.of_inner {τ δ : Type} {within : τ → Nat → τ} {worse : δ → Prop} {keeps : τ → Prop}
    {inner : Nat → Attempt τ δ γ} {inside : τ} (h : Deepens within worse ends keeps inner inside)
    {family : Nat → Attempt σ ε β} {state : σ} (finish : Except δ γ → τ → Except ε β × σ)
    (hrun : ∀ depth outcome after,
      (inner depth).run (within inside depth) = (outcome, within after depth) →
      (family depth).run (place state depth)
        = ((finish outcome after).1, place (finish outcome after).2 depth))
    (hbad : ∀ depth error, (inner depth).outcome (within inside depth) = .error error →
      worse error → ¬ (family depth).Answers bad (place state depth))
    (hfine : ∀ outcome after, (∀ error, outcome = .error error → ¬ worse error) →
      ∀ error, (finish outcome after).1 = .error error → ¬ bad error)
    (hholds : ∀ outcome after, keeps after → holds (finish outcome after).2) :
    Deepens place bad ends holds family state := by
  refine ⟨fun depth hanswers => ?_, fun hends => ?_⟩
  · have hinner : (inner depth).Answers worse (within inside depth) :=
      fun error herror hworse => hbad depth error herror hworse hanswers
    obtain ⟨outcome, after, hafter, hall⟩ := h.deeper depth hinner
    exact ⟨_, _, hholds outcome after hafter,
      fun deeper hle => hrun deeper outcome after (hall deeper hle)⟩
  · obtain ⟨depth, hanswers⟩ := h.enough hends
    obtain ⟨outcome, after, -, hall⟩ := h.deeper depth hanswers
    have hfirst := hall depth (Nat.le_refl depth)
    exact ⟨depth, (answers_iff_of_run (hrun depth outcome after hfirst)).2
      (hfine outcome after ((answers_iff_of_run hfirst).1 hanswers))⟩

/-- A family that is known to end has one result: some depth is enough for it, every greater one
    gives it, and so does every smaller one that answers. -/
theorem Deepens.settled {family : Nat → Attempt σ ε β} {state : σ}
    (h : Deepens place bad ends holds family state)
    (hplace : ∀ state other depth, place (place state other) depth = place state depth)
    (hends : ends) :
    ∃ outcome after, (∀ error, outcome = .error error → ¬ bad error) ∧
      (∃ depth, ∀ deeper, depth ≤ deeper →
        (family deeper).run (place state deeper) = (outcome, place after deeper)) ∧
      ∀ depth, (family depth).Answers bad (place state depth) →
        (family depth).run (place state depth) = (outcome, place after depth) := by
  obtain ⟨depth, hanswers⟩ := h.enough hends
  obtain ⟨outcome, after, -, hrun⟩ := h.deeper depth hanswers
  refine ⟨outcome, after, (answers_iff_of_run (hrun depth (Nat.le_refl depth))).1 hanswers,
    ⟨depth, hrun⟩, fun other hother => ?_⟩
  obtain ⟨outcome', after', -, hrun'⟩ := h.deeper other hother
  -- At a depth that is enough for both, both results are the same.
  obtain ⟨rfl, hsame⟩ := Prod.mk.inj ((hrun' _ (Nat.le_max_right depth other)).symm.trans
    (hrun _ (Nat.le_max_left depth other)))
  rw [hrun' other (Nat.le_refl other), ← hplace after' (max depth other) other, hsame, hplace]

end

/-- A state that says nothing of the depth is where it is at every depth. -/
abbrev Still (σ : Type) : σ → Nat → σ := fun state _ => state

section

variable {bad : ε → Prop} {ends : Prop}

theorem deepens_const {attempt : Attempt σ ε β} {state : σ} (h : attempt.SafeAt holds bad state) :
    Deepens (Still σ) bad ends holds (fun _ => attempt) state :=
  deepens_of_run (fun _ => rfl) h.1 h.2

/-- A family whose attempts extend each other deepens, and it ends where it settles. -/
theorem deepens_of_settles {family : Nat → Attempt σ ε β} {state : σ}
    (hextends : ∀ depth deeper, depth ≤ deeper → (family depth).ExtendedBy out (family deeper))
    (hends : ends → Settles out (fun _ => True) family state)
    (hholds : ∀ depth, holds ((family depth).after state)) :
    Deepens (Still σ) (· = out) ends holds family state := by
  refine ⟨fun depth hanswers => ?_, fun h => ?_⟩
  · refine ⟨(family depth).outcome state, (family depth).after state, hholds depth, ?_⟩
    intro deeper hle
    exact hextends depth deeper hle state fun herror => hanswers out herror rfl
  · obtain ⟨depth, result, hresult, -, hrun⟩ := hends h
    refine ⟨depth, (answers_iff_of_run (hrun depth (Nat.le_refl depth))).2 ?_⟩
    rintro error herror rfl
    exact hresult herror

end

end Attempt

end Realm
