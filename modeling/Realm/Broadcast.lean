import Realm.Session.Action
import Realm.Session.Turn

/-!
# Broadcasts

A session that others watch. Operations go through `Broadcast.enqueue`, one at a time, and after
each of them a new issue of the snapshot is published, whether the operation succeeded or not. Who
watches sees the latest issue and never a session in the middle of an operation.
-/

set_option autoImplicit false

namespace Realm

/-- A session and what has been published of it. -/
structure Broadcast (α : Type) where
  session : Session α
  /-- The latest issue. -/
  latest : SessionSnapshot α
  /-- How many issues there have been. -/
  issue : Nat := 1

/-- An operation on a session that is watched. -/
abbrev BroadcastAttempt (α β : Type) := Attempt (Broadcast α) (SessionError α) β

namespace Broadcast

variable {α : Type}

/-- Publishes the first issue. -/
def ofSession (session : Session α) : Broadcast α := { session, latest := session.snapshot }

/-- Carries out an operation and publishes the next issue. -/
def enqueue {β : Type} (operation : SessionAttempt α β) : BroadcastAttempt α β :=
  operation.within (·.session) fun broadcast session =>
    { session, latest := session.snapshot, issue := broadcast.issue + 1 }

end Broadcast

end Realm
