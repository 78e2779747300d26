import Realm.Proofs.Attempt.Depth
import Realm.Proofs.Effect.Removal

/-!
# Detaching always ends

A removal removes further things, which remove further things, and content may have its things refer
to each other in a circle. The recursion runs on a bound, one more than the player has things to
lose, and the bound is never reached: every level of the recursion has lost a thing, and nothing in
it adds one. What the bounded recursion computes is therefore what the recursion without a bound
does (`revertAll_eq`): more bound changes nothing (`removeWithin_extendedBy`).

`detaching_only_detaches` is about every way of taking things away, the effects that do it included.
-/

set_option autoImplicit false

namespace Realm

variable {α : Type} [Amount α] {setting : Setting α}

/-! ## Inverses -/

/-- Where nothing else is said, every operation is in force. -/
theorem Operation.contains_all (operation : Operation) :
    Operation.all.contains operation = true := by
  rcases operation with undoing | _ | _ | _ | _ | _ | _
  · rcases undoing with direction | direction | _ | _ | _
    · cases direction <;> decide
    · cases direction <;> decide
    all_goals decide
  all_goals decide

omit [Amount α] in
theorem Effect.readParams_of_ok {β : Type} {effect other : Effect α} {read : Document α → Option β}
    {value : β} (hparams : other.params = effect.params)
    (h : effect.readParams read = .ok value) : other.readParams read = .ok value := by
  unfold readParams at h ⊢
  rw [hparams]
  cases hread : read (.ofJson effect.params) with
  | none =>
    rw [hread] at h
    cases h
  | some found =>
    rw [hread] at h
    cases h
    rfl

omit [Amount α] in
/-- The inverse of an effect has its parameters and is repeated as often. -/
theorem Effect.inverse?_of_operation? {effect : Effect α} {operation : Operation}
    {undoing : Undoing}
    (hoperation : setting.operation? effect.family effect.method = some operation)
    (hundo : operation.undo = some undoing) :
    ∃ inverse, effect.inverse? = some (undoing, inverse) ∧ inverse.params = effect.params ∧
      inverse.times = effect.times ∧ inverse.reconciliation = .clamp := by
  have heffect : effect.operation? = some operation := Option.eq_some_of_filter_eq_some hoperation
  unfold Effect.inverse?
  rw [heffect]
  refine ⟨{ effect with method := (Operation.undoing undoing).name.2 }.clamped, ?_, rfl, rfl, rfl⟩
  show (operation.undo.bind fun undoing => some (undoing, _)) = _
  rw [hundo]
  rfl

/-- Of two lists of effects the second is taken back first. -/
theorem revertAllWith_append (remove : Removal → DraftAttempt α Unit)
    (effects others : List (Effect α)) :
    revertAllWith setting remove (effects ++ others)
      = revertAllWith setting remove others >>= fun _ => revertAllWith setting remove effects := by
  unfold revertAllWith
  rw [List.reverse_append, List.forM_eq_forM, List.forM_append]

/-- What was applied first is taken back last. -/
theorem revertAllWith_cons (remove : Removal → DraftAttempt α Unit) (effect : Effect α)
    (rest : List (Effect α)) :
    revertAllWith setting remove (effect :: rest)
      = revertAllWith setting remove rest >>= fun _ => revertWith setting remove effect := by
  have hsingle : revertAllWith setting remove [effect] = revertWith setting remove effect := by
    unfold revertAllWith
    rw [List.reverse_singleton, List.forM_eq_forM, List.forM_cons, List.forM_nil]
    simp only [bind_pure_unit]
  rw [← hsingle]
  exact revertAllWith_append remove [effect] rest

/-! ## The bound is never reached -/

omit [Amount α] in
/-- Running out of depth has nothing to do with the operations in force. -/
theorem Effect.revertible_of_depth (setting : Setting α) (effect : Effect α) :
    effect.Revertible setting fun error => error = .nestedTooDeeply := by
  intro undoing inverse _ hbad
  cases hbad

/-- Whatever the content is, removals only detach and do not run out of depth. -/
theorem removes_detached (setting : Setting α) (player : Player α) :
    Removes setting (fun error => error = .nestedTooDeeply)
      fun draft => player.Detached draft.player where
  dispatch := by
    rintro error rfl
    rfl
  keeps := fun _ _ hstep hbefore => hbefore.trans hstep.detached
  passive := fun _ _ _ _ effect _ => effect.revertible_of_depth setting
  development := fun _ _ _ effect _ => effect.revertible_of_depth setting

section

variable {out : EffectError α}

theorem revertAllWith_extendedBy {remove longer : Removal → DraftAttempt α Unit}
    (h : ∀ removal, (remove removal).ExtendedBy out (longer removal)) (effects : List (Effect α)) :
    (revertAllWith setting remove effects).ExtendedBy out
      (revertAllWith setting longer effects) := by
  refine Attempt.extendedBy_forM fun effect _ => ?_
  unfold revertWith
  cases effect.inverse? with
  | none => exact .refl _
  | some inverse =>
    dsimp only
    split
    · refine Attempt.ExtendedBy.bind (.refl _) fun instruction => ?_
      cases instruction with
      | inl leaf => exact .refl _
      | inr removal => exact Attempt.extendedBy_times (h removal) _
    · exact .refl _

variable {revert longer : List (Effect α) → DraftAttempt α Unit}
  (h : ∀ effects, (revert effects).ExtendedBy out (longer effects))
include h

omit [Amount α] in
theorem removePassiveWith_extendedBy (id : String) :
    (removePassiveWith revert id).ExtendedBy out (removePassiveWith longer id) := by
  refine Attempt.ExtendedBy.bind (.refl _) fun player => ?_
  cases player.passive? id with
  | none => exact .refl _
  | some active =>
    refine Attempt.ExtendedBy.bind (.refl _) fun _ => ?_
    exact (h active.definition.effects).bind fun _ => .refl _

omit [Amount α] in
theorem removeBuildingWith_extendedBy (id : String) :
    (removeBuildingWith revert id).ExtendedBy out (removeBuildingWith longer id) := by
  refine Attempt.ExtendedBy.bind (.refl _) fun player => ?_
  split
  · refine Attempt.ExtendedBy.bind (.refl _) fun _ => ?_
    refine Attempt.ExtendedBy.bind (Attempt.ExtendedBy.bind (.refl _) fun player => ?_)
      fun _ => .refl _
    refine Attempt.ExtendedBy.bind (Attempt.extendedBy_forM fun id _ => ?_) fun _ => .refl _
    exact (removePassiveWith_extendedBy h id).bind fun _ => .refl _
  · exact .refl _

omit [Amount α] in
theorem removeDevelopmentWith_extendedBy (id : String) (land : Option String) :
    (removeDevelopmentWith setting revert id land).ExtendedBy out
      (removeDevelopmentWith setting longer id land) := by
  refine Attempt.ExtendedBy.bind (.refl _) fun development => ?_
  refine Attempt.ExtendedBy.bind (.refl _) fun player => ?_
  refine Attempt.ExtendedBy.bind (.refl _) fun found => ?_
  cases found with
  | none => exact .refl _
  | some found =>
    refine Attempt.ExtendedBy.bind (.refl _) fun _ => ?_
    exact (h development.effects).bind fun _ => .refl _

omit [Amount α] in
theorem removeWith_extendedBy (removal : Removal) :
    (removeWith setting revert removal).ExtendedBy out (removeWith setting longer removal) := by
  cases removal with
  | building id => exact (removeBuildingWith_extendedBy h id).bind fun _ => .refl _
  | passive id => exact (removePassiveWith_extendedBy h id).bind fun _ => .refl _
  | development id land =>
    exact (removeDevelopmentWith_extendedBy h id land).bind fun _ => .refl _

end

/-- A greater bound gives the same answers. -/
theorem removeWithin_extendedBy {bound further : Nat} (hle : bound ≤ further)
    (removal : Removal) : (removeWithin setting bound removal).ExtendedBy .nestedTooDeeply
      (removeWithin setting further removal) := by
  induction bound generalizing further removal with
  | zero => exact Attempt.extendedBy_fail _
  | succ bound ih =>
    obtain ⟨further, rfl⟩ : ∃ n, further = n + 1 := ⟨further - 1, by omega⟩
    refine removeWith_extendedBy (revertAllWith_extendedBy fun removal => ?_) removal
    exact ih (by omega) removal

theorem revertAll_run (effects : List (Effect α)) (draft : Draft α) :
    (revertAll setting effects).run draft =
      (revertAllWith setting (removeWithin setting (draft.player.attachments + 1)) effects).run
        draft := by
  unfold revertAll
  exact Draft.run_current_bind _ draft

theorem revertAllWith_ne_nestedTooDeeply (setting : Setting α) {bound : Nat}
    (effects : List (Effect α)) {draft : Draft α} (h : draft.player.attachments < bound) :
    (revertAllWith setting (removeWithin setting bound) effects).outcome draft
      ≠ .error .nestedTooDeeply := by
  intro hout
  have hremoves := removes_detached setting draft.player
  exact (revertAllWith_safe hremoves (fun removal _ => removeWithin_safe hremoves bound removal)
    (fun effect _ => effect.revertible_of_depth setting) ⟨.refl _, h⟩).2 _ hout rfl

/-- Taking effects back only detaches. -/
theorem revertAll_detaches (setting : Setting α) (effects : List (Effect α)) (draft : Draft α) :
    draft.player.Detached ((revertAll setting effects).after draft).player :=
  (revertAll_safe (removes_detached setting draft.player)
    (fun effect _ => effect.revertible_of_depth setting)
    (show draft.HasFewer (draft.player.attachments + 1) _ from
      ⟨.refl _, Nat.lt_succ_self _⟩)).1.1

/-- The bound that taking back starts with is as good as any. -/
theorem revertAllWith_extendedBy_revertAll (bound : Nat) (effects : List (Effect α)) :
    (revertAllWith setting (removeWithin setting bound) effects).ExtendedBy .nestedTooDeeply
      (revertAll setting effects) := by
  intro draft hdraft
  rw [revertAll_run]
  rcases Nat.le_total bound (draft.player.attachments + 1) with hle | hle
  · exact revertAllWith_extendedBy (removeWithin_extendedBy hle) effects draft hdraft
  · symm
    exact revertAllWith_extendedBy (removeWithin_extendedBy hle) effects draft
      (revertAllWith_ne_nestedTooDeeply setting effects (Nat.lt_succ_self _))

theorem removeWithin_extendedBy_apply (bound : Nat) (removal : Removal) :
    (removeWithin setting bound removal).ExtendedBy .nestedTooDeeply (removal.apply setting) := by
  cases bound with
  | zero => exact Attempt.extendedBy_fail _
  | succ bound => exact removeWith_extendedBy (revertAllWith_extendedBy_revertAll bound) removal

/-- Taking effects back is the recursion without a bound: each removal in it is carried out in
    full. -/
theorem revertAll_eq (setting : Setting α) (effects : List (Effect α)) :
    revertAll setting effects = revertAllWith setting (Removal.apply setting) effects := by
  funext draft
  -- Each removal of the bounded recursion is extended by the unbounded one, and none runs out.
  have hbound := revertAllWith_ne_nestedTooDeeply setting effects
    (Nat.lt_succ_self draft.player.attachments)
  exact (revertAllWith_extendedBy (removeWithin_extendedBy_apply _) effects draft hbound).symm

/-! ## Every way of detaching -/

omit [Amount α] in
theorem Operation.named?_undoing (undoing : Undoing) :
    Operation.named? (Operation.undoing undoing).name.1 (Operation.undoing undoing).name.2
      = some (.undoing undoing) := by
  rcases undoing with direction | direction | _ | _ | _
  · cases direction <;> decide
  · cases direction <;> decide
  · decide
  · decide
  · decide

/-- A call that takes things away. -/
inductive Detaching (α : Type) where
  | passive (id : String)
  | owned (owner : String)
  | building (id : String)
  | development (id : String) (land : Option String)
  /-- An effect that takes something back, with any parameters, nesting less than `depth + 1`
      deep. -/
  | effect (undoing : Undoing) (params : Json α) (note : Option Effect.Note) (times : Option Nat)
      (multiplier depth : Nat)

def Detaching.attempt (setting : Setting α) : Detaching α → DraftAttempt α Unit
  | .passive id => do let _ ← removePassive setting id
  | .owned owner => do let _ ← removeOwned setting owner
  | .building id => do let _ ← removeBuilding setting id
  | .development id land => do let _ ← removeDevelopment setting id land
  | .effect undoing params note times multiplier depth =>
    applyWithin setting (depth + 1)
      { family := (Operation.undoing undoing).name.1
        method := (Operation.undoing undoing).name.2
        params, note, times } multiplier

/-- An effect that takes something back is a leaf or a removal, if it is anything. -/
theorem applyWithin_undoing_safe {bad : EffectError α → Prop} {holds : Draft α → Prop}
    (h : Removes setting bad holds)
    (hunknown : ∀ family method, ¬ bad (.unknownEffect family method))
    (undoing : Undoing) {effect : Effect α} (heffect : effect.operation? = some (.undoing undoing))
    {multiplier depth : Nat} {draft : Draft α} (hdraft : holds draft) :
    (applyWithin setting (depth + 1) effect multiplier).SafeAt holds bad draft := by
  unfold applyWithin
  cases hoperation : setting.operation? effect.family effect.method with
  | none => exact Attempt.safeAt_fail hdraft (hunknown _ _)
  | some operation =>
    have hundoing : effect.operation? = some operation := (Option.filter_eq_some_iff.1 hoperation).1
    rw [heffect] at hundoing
    cases hundoing
    -- What takes an effect back is read as a leaf or a removal, never as an addition.
    refine Attempt.safeAt_ofExcept_bind hdraft (fun error herror => ?_) fun instruction hread => ?_
    · exact h.not_bad (Operation.read_mild _ _ error herror)
    obtain ⟨read, hread', hinstruction⟩ := Outcome.bind_eq_ok.1 hread
    cases read with
    | inl leaf =>
      cases hinstruction
      refine (Leaf.apply_taking (Undoing.isUndoing_of_read hread') _ draft).safeAt h.keeps hdraft ?_
      intro error herror hbad
      exact (leaf.apply_mild setting _ draft).2 error herror (h.dispatch error hbad)
    | inr removal =>
      cases hinstruction
      exact Attempt.safeAt_times (fun _ hstate => removal.apply_safe h hstate) _ hdraft

theorem Detaching.attempt_safe {bad : EffectError α → Prop} {holds : Draft α → Prop}
    (h : Removes setting bad holds)
    (hunknown : ∀ family method, ¬ bad (.unknownEffect family method))
    (call : Detaching α) {draft : Draft α} (hdraft : holds draft) :
    (call.attempt setting).SafeAt holds bad draft := by
  cases call with
  | passive id =>
    exact (removePassive_safe h id hdraft).bind_pure _
  | owned owner =>
    exact (removeOwned_safe h owner hdraft).bind_pure _
  | building id =>
    exact (removeBuilding_safe h id hdraft).bind_pure _
  | development id land =>
    exact (removeDevelopment_safe h id land hdraft).bind_pure _
  | effect undoing params note times multiplier depth =>
    unfold Detaching.attempt
    refine applyWithin_undoing_safe h hunknown undoing ?_ hdraft
    exact Operation.named?_undoing undoing

/-- **Detaching only detaches, and always ends**, whatever the content, the operations in force and
    the player, and whether it succeeds or fails: it never runs out of depth, it leaves a part of
    what the player had, and the bounded recursion is the unbounded one. -/
theorem detaching_only_detaches (setting : Setting α) (call : Detaching α) (draft : Draft α) :
    (call.attempt setting).outcome draft ≠ .error .nestedTooDeeply ∧
    draft.player.Detached ((call.attempt setting).after draft).player ∧
    ∀ effects : List (Effect α),
      revertAll setting effects = revertAllWith setting (Removal.apply setting) effects := by
  have hremoves := removes_detached setting draft.player
  have hunknown : ∀ family method,
      ¬ (.unknownEffect family method : EffectError α) = .nestedTooDeeply := by
    intro family method hbad
    cases hbad
  have hsafe := call.attempt_safe hremoves hunknown (.refl draft.player)
  refine ⟨fun hout => hsafe.2 _ hout rfl, hsafe.1, revertAll_eq setting⟩

end Realm
