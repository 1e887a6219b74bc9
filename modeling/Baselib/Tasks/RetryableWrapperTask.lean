/-
Baselib.Tasks.RetryableWrapperTask — a work task which is made again until
it succeeds: `RetryableWrapperTaskT` of `tasks/TaskBase.h`.

The wrapper runs a work task, then a sleep timer, then another work task.
The queue schedules what is wrapped and asks for a continuation when that
has completed; the wrapper answers with itself as long as it goes on. A
label is a section under the lock of the wrapper, or the one store which is
made outside of it: `requestCancel` sets the latch first and takes the lock
to forward the request afterwards. The part of `continuationTask` behind the
forward holds the lock, yet the latch can be set in the middle of it, so the
look at the latch and the decision are two labels.

What the tasks do is up to the environment: whether a completed task has a
continuation of its own, with which exception it completes, and the verdict
of the callback. A factory or a callback which throws is left out, and what a
forwarded request does to the wrapped task is in its exception.
-/
import Baselib.Lib.Transition

namespace Baselib.Tasks.RetryableWrapperTask

open Lib

variable {ε : Type}

/-! ## The wrapper -/

inductive Wrapped where
  | work
  | sleep
  deriving DecidableEq, Repr

/-- How far the wrapped task has come, and the wrapper with it. -/
inductive Phase where
  | created
  | running
  | completed
  /-- The task has no continuation of its own. -/
  | continuing
  /-- The latch was not set, and the wrapper holds its lock. -/
  | deciding
  /-- There is no continuation. -/
  | ended
  deriving DecidableEq, Repr

/-- `hasVerification` is whether there is an `m_verificationCallback`. -/
structure Config (ε : Type) where
  maxRetryCount : Nat
  hasVerification : Bool
  operationAborted : ε

structure State (ε : Type) where
  wrapped : Wrapped
  phase : Phase
  /-- The exception of the wrapped task, which is the one of the wrapper. -/
  exception : Option ε
  currentRetryCount : Nat
  retrying : Bool
  cancelRequested : Bool
  /-- How many tasks the factory has made. -/
  workTasks : Nat
  /-- What the last work task, with its continuations, has completed with. -/
  lastAttempt : Option ε
  /-- What the last sleep has completed with. -/
  lastSleep : Option ε
  /-- What `isTaskOk` has answered so far. -/
  verdicts : List Bool
  deriving DecidableEq

/-- The constructor makes the first work task. -/
def State.create : State ε where
  wrapped := .work
  phase := .created
  exception := none
  currentRetryCount := 0
  retrying := false
  cancelRequested := false
  workTasks := 1
  lastAttempt := none
  lastSleep := none
  verdicts := []

/-! ## The members -/

/-- The wrapped task completes. -/
def complete (eptr : Option ε) (s : State ε) : State ε :=
  { s with
    phase := .completed
    exception := eptr
    lastAttempt := if s.wrapped = .work then eptr else s.lastAttempt
    lastSleep := if s.wrapped = .sleep then eptr else s.lastSleep }

/-- `handleContinuationForward`; the timer is made without a continuation. -/
def handleContinuationForward (continuation : Bool) (s : State ε) : Option (State ε) :=
  if continuation then
    if s.wrapped = .work then some { s with phase := .created, exception := none } else none
  else some { s with phase := .continuing }

/-- The first branch of `continuationTask`. -/
def checkCancel (cfg : Config ε) (s : State ε) : State ε :=
  if s.cancelRequested then
    { s with phase := .ended, exception := s.exception.or (some cfg.operationAborted) }
  else { s with phase := .deciding }

def isTaskOk (cfg : Config ε) (verdict : Bool) (s : State ε) : Bool :=
  if cfg.hasVerification then verdict else s.exception.isNone

/-- The other branches of `continuationTask`. -/
def decideContinuation (cfg : Config ε) (verdict : Bool) (s : State ε) : State ε :=
  if !s.retrying then
    let ok := isTaskOk cfg verdict s
    let s := { s with
      currentRetryCount := s.currentRetryCount + 1
      verdicts := s.verdicts ++ [ok] }
    if ok ∨ s.currentRetryCount ≥ cfg.maxRetryCount then { s with phase := .ended }
    else
      { s with
        retrying := true
        wrapped := .sleep
        phase := .created
        exception := none }
  else if s.exception.isSome then { s with phase := .ended }
  else
    { s with
      retrying := false
      wrapped := .work
      phase := .created
      exception := none
      workTasks := s.workTasks + 1 }

/-! ## Runs -/

inductive Label (ε : Type) where
  | scheduleNothrow
  | complete (eptr : Option ε)
  | forward (continuation : Bool)
  | checkCancel
  | decideContinuation (verdict : Bool)
  /-- The first statement of `requestCancel`. -/
  | latch
  /-- The second one, of a call which has set the latch. -/
  | requestCancel

def step (cfg : Config ε) (s : State ε) : Label ε → Option (State ε)
  | .scheduleNothrow => if s.phase = .created then some { s with phase := .running } else none
  | .complete eptr => if s.phase = .running then some (complete eptr s) else none
  | .forward continuation =>
    if s.phase = .completed then handleContinuationForward continuation s else none
  | .checkCancel => if s.phase = .continuing then some (checkCancel cfg s) else none
  | .decideContinuation verdict =>
    if s.phase = .deciding then some (decideContinuation cfg verdict s) else none
  | .latch => some { s with cancelRequested := true }
  | .requestCancel => if s.phase ≠ .deciding ∧ s.cancelRequested then some s else none

end Baselib.Tasks.RetryableWrapperTask
