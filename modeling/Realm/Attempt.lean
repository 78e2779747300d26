/-!
# Attempts

An operation of the realm may fail half-way, and what it had done by then matters: a failed effect
leaves its mark on the draft it worked on, and it is the session's business to throw the draft
away. An `Attempt σ ε β` is such an operation: from a state it yields an outcome — a value or an
error — *and* a state, also when it fails.

Failing ends the rest of a sequence but keeps the state (`run_bind`). Nothing in the realm catches a
failure and goes on.
-/

set_option autoImplicit false

namespace Realm

/-- An operation on a state `σ` that yields a `β` or fails with an `ε`. -/
def Attempt (σ ε β : Type) : Type := σ → Except ε β × σ

namespace Attempt

variable {σ τ ε δ β γ : Type}

/-- Runs an attempt from a state. -/
def run (attempt : Attempt σ ε β) (state : σ) : Except ε β × σ := attempt state

/-- The state after an attempt, however it ended. -/
def after (attempt : Attempt σ ε β) (state : σ) : σ := (attempt state).2

/-- How an attempt ended. -/
def outcome (attempt : Attempt σ ε β) (state : σ) : Except ε β := (attempt state).1

/-- Goes on with the value, or ends where the error arose. -/
def andThen (attempt : Attempt σ ε β) (next : β → Attempt σ ε γ) : Attempt σ ε γ := fun state =>
  match attempt state with
  | (.ok value, state) => next value state
  | (.error error, state) => (.error error, state)

instance : Monad (Attempt σ ε) where
  pure value := fun state => (.ok value, state)
  bind := andThen

instance : MonadStateOf σ (Attempt σ ε) where
  get := fun state => (.ok state, state)
  set state := fun _ => (.ok ⟨⟩, state)
  modifyGet f := fun state => (.ok (f state).1, (f state).2)

/-- Fails. -/
def fail (error : ε) : Attempt σ ε β := fun state => (.error error, state)

/-- The outcome of a computation that needs no state. -/
def ofExcept (outcome : Except ε β) : Attempt σ ε β := fun state => (outcome, state)

/-- The value, or a failure if there is none. -/
def ofOption (error : ε) : Option β → Attempt σ ε β
  | some value => pure value
  | none => fail error

/-- Gives the error of an attempt another form. -/
def mapError (f : ε → δ) (attempt : Attempt σ ε β) : Attempt σ δ β := fun state =>
  ((attempt state).1.mapError f, (attempt state).2)

/-- Works on a part of the state. -/
def within (part : σ → τ) (replace : σ → τ → σ) (attempt : Attempt τ ε β) : Attempt σ ε β :=
  fun state => ((attempt (part state)).1, replace state (attempt (part state)).2)

/-- Makes an attempt `n` times, as long as it succeeds. -/
def times : Nat → Attempt σ ε Unit → Attempt σ ε Unit
  | 0, _ => pure ()
  | n + 1, attempt => do
    attempt
    times n attempt

@[simp] theorem run_pure (value : β) (state : σ) :
    (pure value : Attempt σ ε β).run state = (.ok value, state) := rfl

theorem run_bind (attempt : Attempt σ ε β) (next : β → Attempt σ ε γ) (state : σ) :
    (attempt >>= next).run state =
      match attempt.run state with
      | (.ok value, state) => (next value).run state
      | (.error error, state) => (.error error, state) := rfl

@[simp] theorem run_fail (error : ε) (state : σ) :
    (fail error : Attempt σ ε β).run state = (.error error, state) := rfl

instance : LawfulMonad (Attempt σ ε) :=
  LawfulMonad.mk' _
    (fun attempt => by
      funext state
      show andThen attempt _ state = attempt state
      unfold andThen
      rcases attempt state with ⟨_ | _, _⟩ <;> rfl)
    (fun _ _ => rfl)
    (fun attempt f g => by
      funext state
      show andThen (andThen attempt f) g state = andThen attempt (fun x => andThen (f x) g) state
      unfold andThen
      rcases attempt state with ⟨_ | _, _⟩ <;> rfl)

end Attempt

end Realm
