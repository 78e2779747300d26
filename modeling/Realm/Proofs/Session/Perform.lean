import Realm.Proofs.Session.Commit
import Realm.Session.Action

/-!
# How an action is performed

An action that is asked for in a phase for actions, with every value that it needs, is examined, and
all there is to say about its ending is said by how the examination ends and how the work ends
(`Asked.run_perform`). The work is to pay the costs and to apply the effects; where the costs are
paid, what is left to be seen is how the effects end (`Asked.run_paid`), and where they are not, the
call fails with the reason and nothing has happened (`Asked.run_unpaid`).
-/

set_option autoImplicit false

namespace Realm

variable {α : Type} [Amount α]

/-- What is paid for an action, resource by resource. -/
abbrev Action.bill (action : Action α) (catalog : Catalog α) : List (String × α) :=
  (action.totalCosts catalog).toList

namespace Session

/-! ## Work on a draft -/

section

variable {setting : Setting α} {first rest : DraftAttempt α Unit} {draft between : Draft α}

/-- How work ends that goes on from a draft. -/
def carryOut (setting : Setting α) (work : DraftAttempt α Unit) (draft : Draft α) :
    Except (EffectError α) (Draft α) :=
  let attempt : DraftAttempt α Unit := do
    work
    let _ ← syncTiers setting
  match attempt.run draft with
  | (.ok _, draft) => .ok draft
  | (.error error, _) => .error error

theorem draftOf_eq (setting : Setting α) (work : DraftAttempt α Unit) (player : Player α) :
    draftOf setting work player = carryOut setting work { player } := rfl

theorem carryOut_of_ok (h : first.run draft = (.ok (), between)) :
    carryOut setting (do first; rest) draft = carryOut setting rest between := by
  unfold carryOut
  dsimp only
  rw [bind_assoc, Attempt.run_bind_of_ok h]

theorem carryOut_of_error {error : EffectError α} (h : first.outcome draft = .error error) :
    carryOut setting (do first; rest) draft = .error error := by
  unfold carryOut
  dsimp only
  rw [bind_assoc, Attempt.run_bind_of_error (Attempt.run_eq_of_outcome h)]

end

/-! ## Examination and work -/

variable {session : Session α} {id : String} {params : ActionParams α} {player : Player α}
  {action : Action α} {effects : List (Effect α)} {requirements : List (Requirement α)}

/-- An action is asked for in a phase for actions, with every value that it needs. -/
structure Asked (session : Session α) (id : String) (params : ActionParams α) (player : Player α)
    (action : Action α) (effects : List (Effect α)) (requirements : List (Requirement α)) :
    Prop where
  phase : ∃ phase, session.clock.phase? = some phase ∧ phase.action = true
  active : session.activePlayer? = some player
  found : session.content.actions.find? id = some action
  filled : action.effects.mapM (Effect.substitute params) = .ok effects
  required : action.requirements.mapM (Requirement.substitute params) = .ok requirements

/-- What is examined: the requirements, and that each cost can be afforded. -/
def examine (session : Session α) (player : Player α) (action : Action α)
    (requirements : List (Requirement α)) : Except (EffectError α) (List (Unmet α)) :=
  Requirement.evaluate session.content session.config.rules player .collectAll
    (requirements ++ (action.bill session.content.catalog).map costRequirement)

/-- What the costs of an action ask of a draft. -/
def payBill (session : Session α) (action : Action α) : DraftAttempt α Unit :=
  (action.bill session.content.catalog).forM (payCost session.setting)

/-- How an action ends whose work has ended. -/
def conclude (session : Session α) (action : Action α) :
    Except (EffectError α) (Draft α) → Except (SessionError α) (ActionOutcome α) × Session α
  | .ok draft => (.ok (.completed action.id draft.gains), session.commit draft)
  | .error error => (.error (.actionFailed action.id error), session)

namespace Asked

theorem run_perform (h : session.Asked id params player action effects requirements) :
    (perform id params).run session =
      match session.examine player action requirements with
      | .error error => (.error (.actionFailed action.id error), session)
      | .ok unmet =>
        if unmet.isEmpty then
          session.conclude action (carryOut session.setting (do
            session.payBill action
            applyAll session.setting effects) { player })
        else (.ok (.rejected action.id unmet), session) := by
  obtain ⟨⟨phase, hphase, hopen⟩, hplayer, haction, hfilled, hrequired⟩ := h
  unfold perform
  -- Up to the examination nothing can fail, and nothing is done to the session.
  rw [run_currentPhase_bind hphase, if_neg (by simp [hopen]), Attempt.run_get_bind, haction,
    Attempt.run_bind, Attempt.run_ofOption_some]
  dsimp only
  rw [Outcome.mapError_eq_ok.2 hfilled, Outcome.mapError_eq_ok.2 hrequired,
    Attempt.run_ofExcept_bind]
  dsimp only
  rw [Attempt.run_ofExcept_bind]
  dsimp only
  rw [run_currentPlayer_bind hplayer, Attempt.run_ofExcept_bind]
  unfold examine payBill
  cases Requirement.evaluate session.content session.config.rules player .collectAll
      (requirements ++ (action.bill session.content.catalog).map costRequirement) with
  | error error => rfl
  | ok unmet =>
    rw [Outcome.mapError_eq_ok.2 rfl]
    dsimp only
    split
    · rw [Attempt.run_bind, run_batch hplayer, draftOf_eq]
      cases carryOut session.setting _ ({ player } : Draft α) with
      | error error => rfl
      | ok draft => rfl
    · rfl

/-- What is unmet is told, and nothing happens. -/
theorem run_rejected (h : session.Asked id params player action effects requirements)
    {unmet : List (Unmet α)} (hanswer : session.examine player action requirements = .ok unmet)
    (hunmet : unmet ≠ []) :
    (perform id params).run session = (.ok (.rejected action.id unmet), session) := by
  rw [h.run_perform, hanswer]
  dsimp only
  rw [if_neg (by simp [hunmet])]

/-- If nothing is unmet and the costs are paid, the call ends as the effects end after that. -/
theorem run_paid (h : session.Asked id params player action effects requirements)
    (hanswer : session.examine player action requirements = .ok []) {paid : Draft α}
    (hpaid : (session.payBill action).run { player } = (.ok (), paid)) :
    (perform id params).run session
      = session.conclude action
          (carryOut session.setting (applyAll session.setting effects) paid) := by
  rw [h.run_perform, hanswer]
  dsimp only
  rw [if_pos List.isEmpty_nil, carryOut_of_ok hpaid]

/-- If nothing is unmet and a cost cannot be paid, the call fails. -/
theorem run_unpaid (h : session.Asked id params player action effects requirements)
    (hanswer : session.examine player action requirements = .ok []) {error : EffectError α}
    (hunpaid : (session.payBill action).outcome { player } = .error error) :
    (perform id params).run session = (.error (.actionFailed action.id error), session) := by
  rw [h.run_perform, hanswer]
  dsimp only
  rw [if_pos List.isEmpty_nil, carryOut_of_error hunpaid]
  rfl

end Asked

end Session

end Realm
