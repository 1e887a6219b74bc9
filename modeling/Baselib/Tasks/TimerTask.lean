/-
Baselib.Tasks.TimerTask — timer tasks, which run between waits:
`TimerTaskBaseT` of `tasks/TaskBase.h`, over the model of `TaskBaseT`.

The members and the handler of the wait hold the lock of the task, so each of
them is a label. A handler leaves the lock when `run` has finished the task
or has thrown, and notifies the task afterwards, which is another label. A
wait the timer was given is armed until it expires or is cancelled; then its
handler is ready and is called once, at any time. The handler of a cancelled
wait is called like any other.

What `run` returns belongs to the derived class, as does
`onTaskStoppedNothrow`; a special duration finishes the task. The timer and
the waits are made without an exception, and no timer task overrides
`scheduleTaskFinishContinuation`.
-/
import Baselib.Tasks.TaskBase

namespace Baselib.Tasks.TimerTask

open Lib
open ExecutionQueue (TaskState)

variable {ε : Type}

/-! ## The timer -/

inductive Wait where
  /-- `afterCancel` is whether `run` has asked for the wait of a task which
  was cancelled. -/
  | armed (duration : Int) (afterCancel : Bool)
  | ready (aborted : Bool)
  deriving DecidableEq, Repr

def Wait.cancel : Wait → Wait
  | .armed _ _ => .ready true
  | .ready aborted => .ready aborted

def Wait.expire : Wait → Option Wait
  | .armed _ _ => some (.ready false)
  | .ready _ => none

/-- What a call of `run` does. -/
inductive RunResult (ε : Type) where
  | again (duration : Int)
  /-- It returns a special duration. -/
  | finished
  | throws (eptr : ε)
  deriving DecidableEq

structure State (ε : Type) where
  base : TaskBase.State ε
  /-- `m_timer` is not null. -/
  hasTimer : Bool
  /-- The waits whose handlers were not called yet. -/
  waits : List Wait
  /-- The exceptions of the handlers which are to notify the task. -/
  finishing : List (Option ε)
  /-- How often `run` was called. -/
  runs : Nat

def State.create : State ε where
  base := .create
  hasTimer := false
  waits := []
  finishing := []
  runs := 0

/-- Timer tasks are scheduled even if they are cancelled already. -/
def config (operationAborted : ε) : TaskBase.Config ε := ⟨true, operationAborted⟩

/-! ## The members -/

/-- `m_timer -> cancel()`. -/
def cancelTimer (s : State ε) : State ε := { s with waits := s.waits.map Wait.cancel }

/-- The timer which is replaced cancels its waits. -/
def resetTimer (s : State ε) : State ε := { cancelTimer s with hasTimer := true }

/-- `expires_from_now` cancels the waits there are. -/
def scheduleTimerInternal (fromNow : Int) (afterCancel : Bool) (s : State ε) : State ε :=
  { s with waits := (cancelTimer s).waits ++ [.armed fromNow afterCancel] }

def cancelTask (s : State ε) : State ε := if s.hasTimer then cancelTimer s else s

def scheduleTask (initDelay : Int) (s : State ε) : State ε :=
  let s := scheduleTimerInternal initDelay false (resetTimer s)
  if s.base.cancelRequested then cancelTask s else s

def scheduleNothrow (operationAborted : ε) (initDelay : Int) (s : State ε) : State ε :=
  scheduleTask initDelay
    { s with base := TaskBase.scheduleNothrow (config operationAborted) none s.base }

/-- `requestCancelInternal`. -/
def requestCancel (s : State ε) : State ε :=
  if s.base.cancelRequested then s
  else
    let s := { s with base := TaskBase.requestCancel s.base }
    if s.base.state = .running then cancelTask s else s

def runNow (s : State ε) : State ε :=
  if s.base.state = .running ∧ s.hasTimer then cancelTimer s else s

def wakeUp (s : State ε) : State ε := runNow s

def onTimer (result : RunResult ε) (s : State ε) : State ε :=
  let s := { s with runs := s.runs + 1 }
  match result with
  | .again duration => scheduleTimerInternal duration s.base.cancelRequested s
  | .finished => { s with finishing := s.finishing ++ [none] }
  | .throws eptr => { s with finishing := s.finishing ++ [some eptr] }

/-! ## Runs -/

inductive Label (ε : Type) where
  | scheduleNothrow (initDelay : Int)
  | requestCancel
  | wakeUp
  | expire (i : Nat)
  /-- The handler of a wait, until it leaves the lock. -/
  | onTimer (i : Nat) (result : RunResult ε)
  | notifyReady (i : Nat) (onTaskStoppedNothrow : Option ε → Option ε)
  | invoke (i : Nat)
  | setCompletedState

def step (operationAborted : ε) (s : State ε) : Label ε → Option (State ε)
  | .scheduleNothrow initDelay =>
    if s.base.state = .running then none else some (scheduleNothrow operationAborted initDelay s)
  | .requestCancel => some (requestCancel s)
  | .wakeUp => some (wakeUp s)
  | .expire i =>
    (s.waits[i]?.bind Wait.expire).map fun wait => { s with waits := s.waits.set i wait }
  | .onTimer i result =>
    match s.waits[i]? with
    | some (.ready _) => some (onTimer result { s with waits := s.waits.eraseIdx i })
    | _ => none
  | .notifyReady i onTaskStoppedNothrow =>
    s.finishing[i]?.map fun eptr =>
      { s with
        base := TaskBase.notifyReadyImpl ⟨true, eptr⟩ ⟨fun _ => .proceeds, onTaskStoppedNothrow⟩
          s.base
        finishing := s.finishing.eraseIdx i }
  | .invoke i =>
    (TaskBase.step (config operationAborted) s.base (.invoke i)).map fun base =>
      { s with base := base }
  | .setCompletedState =>
    (TaskBase.step (config operationAborted) s.base .setCompletedState).map fun base =>
      { s with base := base }

end Baselib.Tasks.TimerTask
