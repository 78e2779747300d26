import Realm.Proofs.Effect.Step

/-!
# Errors of dispatch

Three errors are not about what an effect does but about whether there is anything to do: no
operation of the name is in force, no requirement of the name is known, or effects nest too deeply.
Only the interpreter itself ends in one of them, where it looks an operation up or goes a level
deeper. Reading parameters never does, and neither do the leaves; so whoever asks for the errors of
dispatch has only the interpreter to look at.
-/

set_option autoImplicit false

namespace Realm

variable {α : Type}

/-- Whether an error says that there is nothing to carry out. -/
def EffectError.isDispatch : EffectError α → Bool
  | .unknownEffect .. | .unknownRequirement .. | .nestedTooDeeply => true
  | _ => false

/-- The outcome is no error of dispatch. -/
def Outcome.Mild {β : Type} (outcome : Except (EffectError α) β) : Prop :=
  ∀ error, outcome = .error error → error.isDispatch = false

namespace Outcome.Mild

variable {β γ : Type}

theorem ok (value : β) : Mild (.ok value : Except (EffectError α) β) := by
  intro error h
  cases h

theorem error {error : EffectError α} (h : error.isDispatch = false) :
    Mild (.error error : Except (EffectError α) β) := by
  intro other hother
  cases hother
  exact h

theorem bind {first : Except (EffectError α) β} {next : β → Except (EffectError α) γ}
    (h : Mild first) (hnext : ∀ value, Mild (next value)) : Mild (first >>= next) := by
  cases first with
  | error cause => exact error (h cause rfl)
  | ok value => exact hnext value

theorem ledger (outcome : Except (LedgerError α) β) :
    Mild (outcome.mapError EffectError.ledger) := by
  cases outcome with
  | error cause => exact error rfl
  | ok value => exact ok value

end Outcome.Mild

open Outcome

/-! ## Reading parameters -/

namespace Effect

variable [Amount α]

omit [Amount α] in
theorem readParams_mild {β : Type} (effect : Effect α) (read : Document α → Option β) :
    Mild (effect.readParams read) := by
  unfold readParams
  split
  · exact .ok _
  · exact .error rfl

theorem readChange_mild (effect : Effect α) (direction : Direction) :
    Mild (effect.readChange direction) := by
  refine (readParams_mild effect _).bind fun params => ?_
  obtain ⟨resource, amount, percent, rounding⟩ := params
  cases amount with
  | none =>
    cases percent with
    | none => exact .error rfl
    | some percent => exact .ok _
  | some amount =>
    cases percent with
    | none => exact .ok _
    | some percent => exact .error rfl

theorem readBoundIncrease_mild (effect : Effect α) : Mild effect.readBoundIncrease := by
  refine (readParams_mild effect _).bind fun params => ?_
  obtain ⟨resource, amount, key⟩ := params
  dsimp only
  split
  · exact .error rfl
  · split
    · exact .error rfl
    · split
      · exact .error rfl
      · split
        · exact .error rfl
        · exact .ok _

omit [Amount α] in
theorem readLands_mild (effect : Effect α) : Mild effect.readLands :=
  (readParams_mild effect _).bind fun _ => .ok _

omit [Amount α] in
theorem readTill_mild (effect : Effect α) : Mild effect.readTill := by
  refine (readParams_mild effect _).bind fun land => ?_
  split
  · exact .error rfl
  · exact .error rfl
  · exact .ok _

omit [Amount α] in
theorem readSkip_mild (effect : Effect α) (direction : Direction) :
    Mild (effect.readSkip direction) := by
  refine (readParams_mild effect _).bind fun params => ?_
  obtain ⟨phase, step, source⟩ := params
  dsimp only
  split
  · exact .error rfl
  · exact .error rfl
  · exact .ok _

end Effect

section

variable [Amount α]

theorem Undoing.read_mild (operation : Undoing) (effect : Effect α) :
    Mild (operation.read effect) := by
  cases operation with
  | resource direction => exact (effect.readChange_mild direction).bind fun _ => .ok _
  | skip direction => exact (effect.readSkip_mild direction).bind fun _ => .ok _
  | removeBuilding => exact (effect.readParams_mild _).bind fun _ => .ok _
  | removeDevelopment => exact (effect.readParams_mild _).bind fun _ => .ok _
  | removePassive => exact (effect.readParams_mild _).bind fun _ => .ok _

theorem Operation.read_mild (operation : Operation) (effect : Effect α) :
    Mild (operation.read effect) := by
  cases operation with
  | undoing operation =>
    refine (operation.read_mild effect).bind fun instruction => ?_
    cases instruction with
    | inl leaf => exact .ok _
    | inr removal => exact .ok _
  | raiseUpperBound => exact effect.readBoundIncrease_mild.bind fun _ => .ok _
  | addLand => exact effect.readLands_mild.bind fun _ => .ok _
  | tillLand => exact effect.readTill_mild.bind fun _ => .ok _
  | addBuilding => exact (effect.readParams_mild _).bind fun _ => .ok _
  | addDevelopment => exact (effect.readParams_mild _).bind fun _ => .ok _
  | addPassive => exact (effect.readParams_mild _).bind fun _ => .ok _

/-! ## Choosing lands -/

omit [Amount α] in
theorem landWithDevelopment_mild (player : Player α) (development : String)
    (land : Option String) : Mild (landWithDevelopment player development land) := by
  unfold landWithDevelopment
  split
  · split
    · exact .error rfl
    · exact .ok _
  · exact .ok _

omit [Amount α] in
theorem landWithFreeSlot_mild (player : Player α) (land : Option String) :
    Mild (landWithFreeSlot player land) := by
  unfold landWithFreeSlot
  split
  · split
    · exact .error rfl
    · split
      · exact .error rfl
      · exact .ok _
  · split
    · exact .ok _
    · exact .error rfl

/-! ## Leaves -/

theorem Leaf.delta_mild (catalog : Catalog α) (ledger : Ledger α) (multiplier : Nat)
    (resource : String) (direction : Direction) (size : Size α) (rounding : Option Rounding)
    (policy : Reconciliation) :
    Mild (Leaf.delta catalog ledger multiplier resource direction size rounding policy) := by
  cases size with
  | flat amount => exact .ok _
  | percent percent =>
    refine .bind ?_ fun _ => .ok _
    refine (Outcome.Mild.ledger _).bind fun current => ?_
    dsimp only
    split
    · exact .error rfl
    · exact .ok _

theorem Draft.record_mild (operation : LedgerAttempt α (Change α)) (draft : Draft α) :
    Mild ((Draft.record operation).outcome draft) := by
  rw [Draft.record_outcome]
  cases operation.outcome draft.player.resources with
  | error cause => exact .error rfl
  | ok change => exact .ok _

omit [Amount α] in
/-- What ends in no error of dispatch is safe as far as errors go. -/
theorem Draft.safeAt_of_mild {β : Type} {attempt : DraftAttempt α β} {draft : Draft α}
    (h : Mild (attempt.outcome draft)) :
    attempt.SafeAt (fun _ => True) (fun error => error.isDispatch = true) draft := by
  refine ⟨trivial, fun error herror hdispatch => ?_⟩
  have hmild : error.isDispatch = false := h error herror
  exact Bool.false_ne_true (hmild.symm.trans hdispatch)

omit [Amount α] in
theorem Draft.run_current_bind {β : Type} (next : Player α → DraftAttempt α β) (draft : Draft α) :
    (Draft.current >>= next).run draft = (next draft.player).run draft := rfl

omit [Amount α] in
theorem Draft.safeAt_current {β : Type} {holds : Draft α → Prop} {bad : EffectError α → Prop}
    {next : Player α → DraftAttempt α β} {draft : Draft α}
    (h : (next draft.player).SafeAt holds bad draft) :
    (Draft.current >>= next).SafeAt holds bad draft := h

omit [Amount α] in
theorem Draft.safeAt_update {holds : Draft α → Prop} {bad : EffectError α → Prop}
    {change : Player α → Player α} {draft : Draft α}
    (h : holds { draft with player := change draft.player }) :
    (Draft.update change).SafeAt holds bad draft := by
  refine ⟨h, fun error herror => ?_⟩
  cases herror

omit [Amount α] in
theorem Draft.ensures_current {β : Type} {post : Draft α → Prop}
    {next : Player α → DraftAttempt α β} {draft : Draft α}
    (h : (next draft.player).Ensures post draft) : (Draft.current >>= next).Ensures post draft := h

omit [Amount α] in
theorem Draft.ensures_update_bind {β : Type} {post : Draft α → Prop}
    {change : Player α → Player α} {next : PUnit → DraftAttempt α β} {draft : Draft α}
    (h : (next ⟨⟩).Ensures post { draft with player := change draft.player }) :
    (Draft.update change >>= next).Ensures post draft := h

theorem Leaf.apply_mild (setting : Setting α) (leaf : Leaf α) (multiplier : Nat)
    (draft : Draft α) : (leaf.apply setting multiplier).SafeAt (fun _ => True)
      (fun error => error.isDispatch = true) draft := by
  cases leaf with
  | changeAmount resource direction size rounding policy =>
    refine Draft.safeAt_current (Attempt.SafeAt.bind (Draft.safeAt_of_mild ?_) ?_)
    · exact Leaf.delta_mild _ _ _ _ _ _ _ _
    · exact fun delta between _ _ => Draft.safeAt_of_mild (Draft.record_mild _ between)
  | raiseUpperBound resource amount =>
    refine Draft.safeAt_current ?_
    dsimp only
    split
    · exact Attempt.safeAt_pure trivial
    · exact Draft.safeAt_of_mild (Draft.record_mild _ draft)
  | addLands count slots =>
    refine Attempt.safeAt_times (fun draft _ => ?_) _ trivial
    exact Draft.safeAt_update trivial
  | tillLand land =>
    refine Attempt.safeAt_times (fun draft _ => ?_) _ trivial
    refine Attempt.SafeAt.bind (Draft.safeAt_current ?_) fun _ _ _ _ => Attempt.safeAt_pure trivial
    cases draft.player.land? land with
    | none => exact Attempt.safeAt_fail trivial Bool.false_ne_true
    | some found =>
      refine Attempt.SafeAt.bind (Draft.safeAt_update ?_) fun _ _ _ _ => Attempt.safeAt_pure trivial
      trivial
  | changeSkip direction phase step source =>
    unfold Leaf.apply
    refine Draft.safeAt_update ?_
    trivial

end

end Realm
