/-
Baselib.Async.ExecutorTask — the task of the async executor which serves
one operation at a time: `ExecutorTaskT` of `async/AsyncExecutorImpl.h`.

Every member runs under the lock of the task, except for the part of
`onExecute` which only `m_executeLock` guards: where the thread in there
stands is part of the state. The callbacks given to the completion queue all
call `onExecute`, so they are counted. `BL_ASSERT` is compiled out of a
release build and stops nothing here; a null operation state which is used,
an empty callback which is called and an exception inside a `NOEXCEPT` block
end the process, so such a call has no result.
-/
import Mathlib.Data.List.Basic

namespace Baselib.Async.AsyncExecutor

abbrev TaskId := Nat
abbrev OperationId := Nat

/-- A callback, by its identity. -/
abbrev Callback := Nat

/-- `AsyncOperation::Result`. -/
inductive Result where
  | success
  | operationAborted
  | exception
  deriving DecidableEq

/-- A task the operation state has modelled its execution as. -/
structure OperationTask where
  /-- The argument bound into its ready callback. -/
  newCall : Bool
  completed : Bool
  /-- It carries an exception. -/
  failed : Bool
  deriving DecidableEq

/-- What `createTask` of the operation state does. -/
inductive Created where
  | null
  | task
  | exception
  deriving DecidableEq

/-- How an operation state task ends. -/
inductive Outcome where
  /-- It has a continuation task, which is scheduled in its place. -/
  | continuation
  | success
  | exception
  deriving DecidableEq

/-- The thread which holds `m_executeLock`. -/
inductive OnExecute where
  | idle
  /-- It has left the task lock with a callback to serve. -/
  | executing (callback : Callback) (stopped : Bool) (task : Option OperationTask)
  /-- `m_remainingToExecute` is lowered. -/
  | calling (callback : Callback) (result : Result)
  /-- The callback has been entered. -/
  | called (callback : Callback) (result : Result)
  /-- It has left the task lock with `taskReady`. -/
  | terminating
  deriving DecidableEq

/-- Where the queue of the workers has the task. -/
inductive WorkerState where
  /-- Taken by `asyncBegin` and not pushed yet. -/
  | assigned
  | pending
  | executing
  | ready
  deriving DecidableEq

structure ExecutorTask where
  /-- The operation whose state it holds. -/
  operationState : Option OperationId
  callsExpected : Nat
  remainingToExecute : Nat
  stopped : Bool
  cancelPending : Bool
  callback : Option Callback
  operationStateTaskInProgress : Option OperationTask
  onExecute : OnExecute
  /-- The calls of `onExecute` in the completion queue. -/
  posted : Nat
  worker : WorkerState
  deriving DecidableEq

namespace ExecutorTask

/-! ## The members -/

/-- A task object after its construction, and one which is out of use. -/
def resetState (t : ExecutorTask) : ExecutorTask :=
  { t with
    operationState := none
    stopped := false
    cancelPending := false
    callsExpected := 2
    remainingToExecute := 1
    operationStateTaskInProgress := none
    callback := none }

def createInstance : ExecutorTask :=
  resetState ⟨none, 0, 0, false, false, none, none, .idle, 0, .ready⟩

def scheduleAsyncCall (increment : Bool) (t : ExecutorTask) : ExecutorTask :=
  { t with
    callsExpected := t.callsExpected + increment.toNat
    remainingToExecute := t.remainingToExecute + increment.toNat
    posted := t.posted + 1 }

/-- `m_operationStateTaskInProgress` after `createTask` or the scheduling has
thrown: a completed task carries the exception, unless there was one. -/
def failedTask (newCall : Bool) (t : ExecutorTask) : OperationTask :=
  match t.operationStateTaskInProgress with
  | some task => { task with failed := true }
  | none => ⟨newCall, true, true⟩

def scheduleCall (newCall : Bool) (created : Created) (t : ExecutorTask) : Option ExecutorTask :=
  if t.stopped then some (t.scheduleAsyncCall newCall)
  else if t.operationState = none then none
  else
    match created with
    | .null => some (scheduleAsyncCall newCall { t with operationStateTaskInProgress := none })
    | .task => some { t with operationStateTaskInProgress := some ⟨newCall, false, false⟩ }
    | .exception =>
      some (scheduleAsyncCall newCall
        { t with operationStateTaskInProgress := some (t.failedTask newCall) })

def scheduleTask (created : Created) (t : ExecutorTask) : Option ExecutorTask :=
  if t.worker = .pending then scheduleCall false created { t with worker := .executing } else none

/-- The ready callback of the operation state task. -/
def onOperationTaskReady (outcome : Outcome) (t : ExecutorTask) : Option ExecutorTask :=
  match t.operationStateTaskInProgress with
  | none => none
  | some task =>
    if task.completed then none
    else
      match outcome with
      | .continuation => some t
      | .success =>
        some (scheduleAsyncCall task.newCall
          { t with operationStateTaskInProgress := some { task with completed := true } })
      | .exception =>
        some (scheduleAsyncCall task.newCall
          { t with operationStateTaskInProgress := some ⟨task.newCall, true, true⟩ })

def requestCancel (t : ExecutorTask) : ExecutorTask :=
  if t.stopped then t
  else if t.operationStateTaskInProgress.isSome then { t with cancelPending := true }
  else scheduleAsyncCall false { t with stopped := true }

/-- Whether `ensureNoCallsPending` passes. -/
def ensureNoCallsPending (t : ExecutorTask) : Bool := t.remainingToExecute == 0

/-- The exception of `ensureNoCallsPending` would end the process here. -/
def requestNewAsyncCall (callback : Callback) (created : Created) (t : ExecutorTask) :
    Option ExecutorTask :=
  if t.ensureNoCallsPending then scheduleCall true created { t with callback := some callback }
  else none

/-! ## `onExecute` -/

/-- A cancellation which was requested while the operation state task was in
progress. -/
def scheduleTermination (t : ExecutorTask) : ExecutorTask :=
  if t.cancelPending then scheduleAsyncCall false { t with cancelPending := false, stopped := true }
  else t

/-- The section under the task lock, when it has a call to serve. -/
def takeCall (callback : Callback) (t : ExecutorTask) : ExecutorTask :=
  scheduleTermination
    { t with
      callback := none
      operationStateTaskInProgress := none
      onExecute := .executing callback t.stopped t.operationStateTaskInProgress }

/-- The section under the task lock. -/
def enterExecute (t : ExecutorTask) : Option ExecutorTask :=
  if t.onExecute = .idle ∧ t.posted ≠ 0 then
    let t := { t with posted := t.posted - 1, callsExpected := t.callsExpected - 1 }
    if t.callsExpected = 0 then some { t with onExecute := .terminating }
    else t.callback.map t.takeCall
  else none

/-- What is passed to the callback; `executed` is what `executeOperation`
does. -/
def callResult (stopped : Bool) (task : Option OperationTask) (executed : Result) : Result :=
  if stopped then .operationAborted
  else
    match task with
    | some task => if task.failed then .exception else .success
    | none => executed

/-- The call itself, up to `--m_remainingToExecute`. -/
def executeCall (executed : Result) (t : ExecutorTask) : Option ExecutorTask :=
  match t.onExecute with
  | .executing callback stopped task =>
    if stopped = false ∧ task = none ∧ t.operationState = none then none
    else
      some { t with
        remainingToExecute := t.remainingToExecute - 1
        onExecute := .calling callback (callResult stopped task executed) }
  | _ => none

def enterCallback (t : ExecutorTask) : Option ExecutorTask :=
  match t.onExecute with
  | .calling callback result => some { t with onExecute := .called callback result }
  | _ => none

def leaveCallback (t : ExecutorTask) : Option ExecutorTask :=
  match t.onExecute with
  | .called _ _ => some { t with onExecute := .idle }
  | _ => none

/-- `releaseResources` of the operation state, and `notifyReady`. -/
def terminate (t : ExecutorTask) : Option ExecutorTask :=
  if t.onExecute = .terminating ∧ t.operationState ≠ none then
    some { t with operationState := none, onExecute := .idle, worker := .ready }
  else none

end ExecutorTask

end Baselib.Async.AsyncExecutor
