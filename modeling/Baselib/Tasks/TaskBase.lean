/-
Baselib.Tasks.TaskBase — the life of a task of `tasks/TaskBase.h`,
`TaskBaseT`: it is scheduled, notified, cancelled and scheduled again.

A label is a section under the task lock, or a ready callback which is
invoked after the lock is released. The two virtual members which a
notification calls, and the outcome of `scheduleTask`, belong to the derived
class: a label carries what they answer. Notifications come from anywhere
and at any time once the task has been scheduled. Schedules are counted from
one, and a callback is named by the schedule which brought it.

What the notifications do to the log, and the exceptions they enhance for
it, is left out, and with it whether an exception is expected.
-/
import Baselib.Tasks.ExecutionQueue

namespace Baselib.Tasks.TaskBase

open Lib
open ExecutionQueue (TaskState)

variable {ε : Type}

/-! ## The task -/

/-- `scheduleTaskFinishContinuation`; it postpones the completion by
answering true. -/
inductive FinishContinuation (ε : Type) where
  | postpones
  | proceeds
  | throws (eptr : ε)

/-- What the derived class does in a notification. -/
structure Hooks (ε : Type) where
  scheduleTaskFinishContinuation : Option ε → FinishContinuation ε
  onTaskStoppedNothrow : Option ε → Option ε

/-- The arguments of `notifyReadyImpl`. -/
structure Notification (ε : Type) where
  allowFinishContinuations : Bool
  eptr : Option ε

/-- `scheduleEvenIfAlreadyCanceled`, and the exception a task ends with when
it was cancelled before it was scheduled. -/
structure Config (ε : Type) where
  scheduleEvenIfAlreadyCanceled : Bool
  operationAborted : ε

structure State (ε : Type) where
  state : TaskState
  exception : Option ε
  cbReady : Option Nat
  notifyCalled : Bool
  cancelRequested : Bool
  /-- The notifications `scheduleNothrow` has posted. -/
  posted : List ε
  /-- The callbacks which were swapped out and not called yet. -/
  completing : List Nat
  schedules : Nat
  invoked : List Nat
  /-- The runs whose finish continuation was called, call by call. -/
  finishes : List Nat
  /-- The runs whose `onTaskStoppedNothrow` was called, call by call. -/
  stops : List Nat

def State.create : State ε where
  state := .created
  exception := none
  cbReady := none
  notifyCalled := false
  cancelRequested := false
  posted := []
  completing := []
  schedules := 0
  invoked := []
  finishes := []
  stops := []

/-! ## The members -/

/-- What the first part of `notifyReadyImpl` makes of the exception; `none`
where the notification is postponed. -/
def finishContinuation (n : Notification ε) (hooks : Hooks ε) (s : State ε) :
    State ε × Option (Option ε) :=
  if n.allowFinishContinuations then
    let s := { s with finishes := s.finishes ++ [s.schedules] }
    match hooks.scheduleTaskFinishContinuation n.eptr with
    | .postpones => (s, none)
    | .proceeds => (s, some n.eptr)
    | .throws eptr => ({ s with exception := some eptr }, some (some eptr))
  else (s, some n.eptr)

/-- The part of `notifyReadyImpl` behind the guard. -/
def complete (eptr : Option ε) (s : State ε) : State ε :=
  { s with
    exception := s.exception.or eptr
    cbReady := none
    completing := s.completing ++ s.cbReady.toList
    state := .pendingCompletion
    notifyCalled := true }

def notifyReadyImpl (n : Notification ε) (hooks : Hooks ε) (s : State ε) : State ε :=
  let finished := finishContinuation n hooks s
  match finished.2 with
  | none => finished.1
  | some eptr =>
    let s := { finished.1 with stops := finished.1.stops ++ [s.schedules] }
    if s.notifyCalled then s else complete (hooks.onTaskStoppedNothrow eptr) s

/-- `scheduleTask` is what the call of the member throws. -/
def scheduleNothrow (cfg : Config ε) (scheduleTask : Option ε) (s : State ε) : State ε :=
  let s := if s.state = .created then s
    else { s with exception := none, notifyCalled := false, cancelRequested := false }
  let s := { s with
    cbReady := some (s.schedules + 1)
    schedules := s.schedules + 1
    state := .running }
  { s with
    posted := s.posted ++
      (if s.cancelRequested && !cfg.scheduleEvenIfAlreadyCanceled then some cfg.operationAborted
        else scheduleTask).toList }

/-- The `cancelTask` of a running task belongs to the environment. -/
def requestCancel (s : State ε) : State ε := { s with cancelRequested := true }

/-! ## Runs -/

inductive Label (ε : Type) where
  | scheduleNothrow (scheduleTask : Option ε)
  | notifyReady (eptr : Option ε) (hooks : Hooks ε)
  /-- A posted notification, which does not allow finish continuations. -/
  | posted (i : Nat) (hooks : Hooks ε)
  | requestCancel
  | exception (eptr : Option ε)
  | setCompletedState
  | invoke (i : Nat)

/-- A task which runs is not scheduled; the queue marks a task completed
when it has been called back. -/
def step (cfg : Config ε) (s : State ε) : Label ε → Option (State ε)
  | .scheduleNothrow scheduleTask =>
    if s.state = .running then none else some (scheduleNothrow cfg scheduleTask s)
  | .notifyReady eptr hooks =>
    if s.schedules = 0 then none else some (notifyReadyImpl ⟨true, eptr⟩ hooks s)
  | .posted i hooks =>
    s.posted[i]?.map fun eptr =>
      notifyReadyImpl ⟨false, some eptr⟩ hooks { s with posted := s.posted.eraseIdx i }
  | .requestCancel => some (requestCancel s)
  | .exception eptr => some { s with exception := eptr }
  | .setCompletedState =>
    if s.state = .pendingCompletion then some { s with state := .completed } else none
  | .invoke i =>
    s.completing[i]?.map fun callback =>
      { s with
        completing := s.completing.eraseIdx i
        invoked := s.invoked ++ [callback] }

end Baselib.Tasks.TaskBase
