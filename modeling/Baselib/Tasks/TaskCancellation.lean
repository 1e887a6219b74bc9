/-
Baselib.Tasks.TaskCancellation — a task in an execution queue and the
requests to cancel it: `TaskBaseT` and the wrappers of `tasks/TaskBase.h`,
and what `tasks/ExecutionQueueImpl.h` does with one task between its push
and its last completion.

A wrapper forwards every call to the task it wraps, and a wrapper of
wrappers to the innermost one: `target` is the task which is reached. The
queue admits a pending task when its limits allow it, so a schedule can come
at any time; a request takes the lock of the task only, so it can come
between any two other steps. What a task has for a continuation is up to the
environment, and so is the task a wrapper takes in.
-/
import Baselib.Tasks.TaskBase

namespace Baselib.Tasks.TaskCancellation

open Lib
open ExecutionQueue (OwnerQueue TaskState)

variable {ε : Type}

/-- `latched` is whether the wrapper remembers a request itself and looks at
it before it takes in another task, as `RetryableWrapperTaskT` does. -/
structure Config (ε : Type) extends TaskBase.Config ε where
  latched : Bool

structure State (ε : Type) where
  /-- `none` when the queue does not hold the task any more. -/
  owner : Option OwnerQueue
  target : TaskBase.State ε
  /-- The `m_cancelRequested` of the wrapper. -/
  cancelRequested : Bool
  /-- `requestCancel` was called before the last completion. -/
  requested : Bool

/-- A task which was pushed. -/
def State.push (target : TaskBase.State ε) : State ε := ⟨some .pending, target, false, false⟩

/-- What `continuationTask` does. -/
inductive Continuation (ε : Type) where
  /-- It returns null, or another task, which goes its own way. -/
  | completes
  /-- The target is its own continuation. -/
  | self
  /-- `handleContinuationForward` takes in the continuation of the target. -/
  | forwards (target : TaskBase.State ε)
  /-- The wrapper takes in a task of its own choice. -/
  | continues (target : TaskBase.State ε)

/-! ## The members -/

/-- `requestCancel` of the pushed task. -/
def requestCancel (s : State ε) : State ε :=
  { s with
    target := TaskBase.requestCancel s.target
    cancelRequested := true
    requested := s.requested || s.owner == some .pending || s.owner == some .executing }

/-- The end of the task in `onReady`. -/
def completeTask (s : State ε) : State ε :=
  { s with
    owner := some .ready
    target := { s.target with state := .completed } }

/-- The part of `onReady` for a task which is its own continuation. -/
def continueTask (target : TaskBase.State ε) (s : State ε) : State ε :=
  { s with owner := some .pending, target := target }

/-- The wrapper which was cancelled keeps the exception of the target, or
completes it as aborted. -/
def abort (cfg : Config ε) (s : State ε) : State ε :=
  { s with target :=
    { s.target with exception := s.target.exception.or (some cfg.operationAborted) } }

/-- A task which is taken in does not run. -/
def onReady (cfg : Config ε) (continuation : Continuation ε) (s : State ε) : Option (State ε) :=
  match continuation with
  | .completes => some (completeTask s)
  | .self => some (continueTask s.target s)
  | .forwards target => if target.state = .running then none else some (continueTask target s)
  | .continues target =>
    if cfg.latched && s.cancelRequested then some (completeTask (abort cfg s))
    else if target.state = .running then none
    else some (continueTask target s)

/-! ## Runs -/

inductive Label (ε : Type) where
  /-- `padExecutingQueueNothrow` admits the task. -/
  | schedule (scheduleTask : Option ε)
  | notifyReady (eptr : Option ε) (hooks : TaskBase.Hooks ε)
  | posted (i : Nat) (hooks : TaskBase.Hooks ε)
  /-- The ready callback, which is the `onReady` of the queue. -/
  | onReady (i : Nat) (continuation : Continuation ε)
  | requestCancel
  /-- `cancel` of the queue, without a wait. -/
  | cancel
  /-- `cancelAll`, and the waits which cancel. -/
  | cancelAll

/-- A pending task is taken out of the queue when it is cancelled there. -/
def step (cfg : Config ε) (s : State ε) : Label ε → Option (State ε)
  | .schedule scheduleTask =>
    if s.owner = some .pending then
      (TaskBase.step cfg.toConfig s.target (.scheduleNothrow scheduleTask)).map fun target =>
        { s with owner := some .executing, target := target }
    else none
  | .notifyReady eptr hooks =>
    (TaskBase.step cfg.toConfig s.target (.notifyReady eptr hooks)).map fun target =>
      { s with target := target }
  | .posted i hooks =>
    (TaskBase.step cfg.toConfig s.target (.posted i hooks)).map fun target =>
      { s with target := target }
  | .onReady i continuation =>
    if s.owner = some .executing ∧ s.target.state = .pendingCompletion then
      (TaskBase.step cfg.toConfig s.target (.invoke i)).bind fun target =>
        onReady cfg continuation { s with target := target }
    else none
  | .requestCancel => some (requestCancel s)
  | .cancel => some (if s.owner = some .pending then { s with owner := none } else s)
  | .cancelAll =>
    some
      (if s.owner = some .pending then { s with owner := none }
      else if s.owner = some .executing then requestCancel s
      else s)

end Baselib.Tasks.TaskCancellation
