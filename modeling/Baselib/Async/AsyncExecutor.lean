/-
Baselib.Async.AsyncExecutor — the async executor: `AsyncExecutorImplT` of
`async/AsyncExecutorImpl.h`, its operations and the tasks which serve them.

`m_lock` is held for the whole of `asyncBegin` and `releaseOperation`, but
neither the lock of an operation nor the lock of a task is, so the tasks and
`cancel` go on in between: what the holder has done so far is part of the
state. A callback of the caller is code of the caller, and what it begins or
cancels are labels of their own. An operation object of the pool is as good
as a new one, so every `createOperation` has one of its own.
-/
import Baselib.Async.ExecutorTask

namespace Baselib.Async.AsyncExecutor

/-- What happens to the calls of an operation. -/
inductive Event where
  | started (callback : Callback)
  | called (callback : Callback)
  | returned (callback : Callback)
  | resourcesReleased
  | ready
  deriving DecidableEq

/-- `ExecutorAsyncOperationT`. -/
structure Operation where
  active : Bool
  freed : Bool
  /-- Whether `m_operationState` is set. -/
  operationState : Bool
  task : Option TaskId
  /-- The calls accepted so far, and what has happened to them. -/
  accepted : List Callback
  log : List Event
  deriving DecidableEq

/-- The thread which holds `m_lock`. -/
inductive Lock where
  | free
  /-- `asyncBeginImpl` has copied the task pointer. -/
  | copied (operation : OperationId) (callback : Callback) (existingTask : Option TaskId)
  /-- It has given the operation state to a task. -/
  | assigned (operation : OperationId) (task : TaskId)
  /-- It has given the task to the operation. -/
  | installed (operation : OperationId) (task : TaskId)
  /-- `releaseOperation` has made sure that no calls are pending. -/
  | releasing (operation : OperationId)
  deriving DecidableEq

structure Executor where
  operations : OperationId → Operation
  operationsCount : Nat
  tasks : TaskId → ExecutorTask
  tasksCount : Nat
  /-- The ready queue of the workers. -/
  ready : List TaskId
  outstandingCalls : Nat
  lock : Lock

inductive Error where
  | releasedObject
  | anotherCallInProgress
  deriving DecidableEq

def Operation.none : Operation := ⟨false, false, false, Option.none, [], []⟩

def Executor.createInstance : Executor :=
  ⟨fun _ => .none, 0, fun _ => .createInstance, 0, [], 0, .free⟩

namespace Executor

/-! ## Updates -/

def setTask (t : TaskId) (task : ExecutorTask) (s : Executor) : Executor :=
  { s with tasks := Function.update s.tasks t task }

def setOperation (o : OperationId) (operation : Operation) (s : Executor) : Executor :=
  { s with operations := Function.update s.operations o operation }

/-- The call is accepted. -/
def accept (o : OperationId) (callback : Callback) (s : Executor) : Executor :=
  s.setOperation o
    { s.operations o with accepted := (s.operations o).accepted ++ [callback] }

/-- What the task of an operation has done. -/
def record (operation : Option OperationId) (events : List Event) (s : Executor) : Executor :=
  match operation with
  | none => s
  | some o => s.setOperation o { s.operations o with log := (s.operations o).log ++ events }

/-! ## Operations -/

def createOperation (s : Executor) : Executor :=
  { s.setOperation s.operationsCount ⟨true, false, true, none, [], []⟩ with
    operationsCount := s.operationsCount + 1
    outstandingCalls := s.outstandingCalls + 1 }

/-- `resetState` of the operation, which is its `cancel` too. -/
def resetOperation (o : OperationId) (s : Executor) : Executor :=
  let operation := s.operations o
  let s := match operation.task with
    | none => s
    | some t => s.setTask t (s.tasks t).requestCancel
  { s.setOperation o { operation with active := false, operationState := false, task := none } with
    outstandingCalls := s.outstandingCalls - operation.active.toNat }

/-- `releaseOperation` up to `ensureNoCallsPending`. -/
def releaseOperation (o : OperationId) (s : Executor) : Option Error × Executor :=
  match (s.operations o).task with
  | none => (none, { s with lock := .releasing o })
  | some t =>
    if (s.tasks t).ensureNoCallsPending then (none, { s with lock := .releasing o })
    else (some .anotherCallInProgress, s)

/-- The rest of it. -/
def finishRelease (o : OperationId) (s : Executor) : Executor :=
  let s := s.resetOperation o
  { s.setOperation o { s.operations o with freed := true } with lock := .free }

/-! ## Calls -/

/-- `asyncBeginImpl` up to the copy of the task pointer, and the first
`ensureNoCallsPending`. -/
def asyncBegin (o : OperationId) (callback : Callback) (s : Executor) :
    Option Error × Executor :=
  if (s.operations o).freed then (some .releasedObject, s)
  else
    match (s.operations o).task with
    | none => (none, { s with lock := .copied o callback none })
    | some t =>
      if (s.tasks t).ensureNoCallsPending then
        (none, { s with lock := .copied o callback (some t) })
      else (some .anotherCallInProgress, s)

/-- A call on the existing task. -/
def requestNewAsyncCall (created : Created) (s : Executor) : Option Executor :=
  match s.lock with
  | .copied o callback (some t) =>
    ((s.tasks t).requestNewAsyncCall callback created).map fun task =>
      { (s.setTask t task).accept o callback with lock := .free }
  | _ => none

/-- The task which `asyncBeginImpl` takes: the top of the ready queue, or a
new one. -/
def topTask (s : Executor) : TaskId × Executor :=
  match s.ready with
  | [] => (s.tasksCount, { s with tasksCount := s.tasksCount + 1 })
  | t :: ready => (t, { s with ready := ready })

/-- The first call of an operation gets a task and gives it the callback and
the operation state. -/
def assignTask (s : Executor) : Option Executor :=
  match s.lock with
  | .copied o callback none =>
    let t := s.topTask.1
    let task := { (s.tasks t).resetState with
      callback := some callback
      operationState := if (s.operations o).operationState then some o else none
      worker := .assigned }
    some { (s.topTask.2.setTask t task).accept o callback with lock := .assigned o t }
  | _ => none

/-- `operationImpl -> task( ... )`. -/
def installTask (s : Executor) : Option Executor :=
  match s.lock with
  | .assigned o t =>
    some { s.setOperation o { s.operations o with task := some t } with lock := .installed o t }
  | _ => none

/-- `m_workers -> push_back( ... )`. -/
def pushTask (s : Executor) : Option Executor :=
  match s.lock with
  | .installed _ t =>
    some { s.setTask t { s.tasks t with worker := .pending } with lock := .free }
  | _ => none

/-! ## The tasks -/

/-- A member of task `t`, and what it does to the calls of its operation. -/
def onTask (t : TaskId) (member : ExecutorTask → Option ExecutorTask)
    (events : ExecutorTask → List Event) (s : Executor) : Option Executor :=
  (member (s.tasks t)).map fun task =>
    (s.setTask t task).record (s.tasks t).operationState (events task)

/-- A call is started when the thread leaves the task lock with it. -/
def startedEvents (t : ExecutorTask) : List Event :=
  match t.onExecute with
  | .executing callback _ _ => [.started callback]
  | _ => []

def calledEvents (t : ExecutorTask) : List Event :=
  match t.onExecute with
  | .called callback _ => [.called callback]
  | _ => []

/-- The callback which is returning. -/
def returnedEvents (t : ExecutorTask) : List Event :=
  match t.onExecute with
  | .called callback _ => [.returned callback]
  | _ => []

/-- The task goes to the ready queue. -/
def notifyReady (t : TaskId) (s : Executor) : Option Executor :=
  (s.onTask t ExecutorTask.terminate fun _ => [.resourcesReleased, .ready]).map fun s =>
    { s with ready := s.ready ++ [t] }

end Executor

/-! ## Runs -/

inductive Label where
  | createOperation
  | cancel (operation : OperationId)
  | releaseOperation (operation : OperationId)
  | finishRelease (operation : OperationId)
  | asyncBegin (operation : OperationId) (callback : Callback)
  | requestNewAsyncCall (created : Created)
  | assignTask
  | installTask
  | pushTask
  /-- The queue of the workers schedules the task. -/
  | scheduleTask (task : TaskId) (created : Created)
  | onOperationTaskReady (task : TaskId) (outcome : Outcome)
  /-- A posted `onExecute` gets both locks. -/
  | onExecute (task : TaskId)
  | executeCall (task : TaskId) (executed : Result)
  | enterCallback (task : TaskId)
  | leaveCallback (task : TaskId)
  | notifyReady (task : TaskId)
  deriving DecidableEq

/-- A caller which is refused gets an exception; one which releases an
operation in vain ends the process. -/
def step (s : Executor) : Label → Option Executor
  | .createOperation => if s.lock = .free then some s.createOperation else none
  | .cancel o =>
    if o < s.operationsCount ∧ (s.operations o).freed = false then some (s.resetOperation o)
    else none
  | .releaseOperation o =>
    if s.lock = .free ∧ o < s.operationsCount ∧ (s.operations o).freed = false
      ∧ (s.releaseOperation o).1 = none then some (s.releaseOperation o).2
    else none
  | .finishRelease o => if s.lock = .releasing o then some (s.finishRelease o) else none
  | .asyncBegin o callback =>
    if s.lock = .free ∧ o < s.operationsCount then some (s.asyncBegin o callback).2 else none
  | .requestNewAsyncCall created => s.requestNewAsyncCall created
  | .assignTask => s.assignTask
  | .installTask => s.installTask
  | .pushTask => s.pushTask
  | .scheduleTask t created => s.onTask t (ExecutorTask.scheduleTask created) fun _ => []
  | .onOperationTaskReady t outcome =>
    s.onTask t (ExecutorTask.onOperationTaskReady outcome) fun _ => []
  | .onExecute t => s.onTask t ExecutorTask.enterExecute Executor.startedEvents
  | .executeCall t executed => s.onTask t (ExecutorTask.executeCall executed) fun _ => []
  | .enterCallback t => s.onTask t ExecutorTask.enterCallback Executor.calledEvents
  | .leaveCallback t => s.onTask t ExecutorTask.leaveCallback fun _ =>
    Executor.returnedEvents (s.tasks t)
  | .notifyReady t => s.notifyReady t

end Baselib.Async.AsyncExecutor
