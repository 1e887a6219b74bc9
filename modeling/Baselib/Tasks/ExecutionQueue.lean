/-
Baselib.Tasks.ExecutionQueue — the execution queue of
`tasks/ExecutionQueueImpl.h` as a machine whose steps are its lock
sections.

Everything the queue does to its own state it does while it holds
`m_lock`, so an interleaving of its callers and of the completing tasks
is a sequence of lock sections. A call which waits on `m_cvReady` is two
kinds of section: the one up to the point where it releases the lock to
wait, and one for each time it wakes up. `onReady` is two sections as
well, with user code between them.

* The intrusive lists are `List`s of tasks; `unlink` takes a task out of
  whichever of the three lists it is linked in.
* `m_allTasks` maps a task to the owner tag of its `TaskInfo`.
* Counters and generations are natural numbers.
* What the environment decides (the outcome of a task, its continuation,
  the limit an observer reports) is carried by the label of the section.
-/
import Baselib.Lib.Transition

namespace Baselib.Tasks.ExecutionQueue

open Lib

/-! ## Data -/

/-- `TaskInfo::OwnerQueue`; a task without a `TaskInfo` has no tag. -/
inductive OwnerQueue
  | pending
  | executing
  | ready
  deriving DecidableEq, Repr

/-- `Task::State`. -/
inductive TaskState
  | created
  | running
  | pendingCompletion
  | completed
  deriving DecidableEq, Repr

/-- What the queue reads and writes of a task. -/
structure TaskData where
  state : TaskState := .created
  hasException : Bool := false
  cancelRequested : Bool := false
  deriving DecidableEq, Repr

/-- What a blocked thread does on `m_cvReady`, with the arguments its
call needs after the wait. -/
inductive Waiter (τ : Type*)
  | flush (nothrowIfFailed discardReady : Bool)
  | ready (remove : Bool)
  | task (t : τ)
  deriving DecidableEq, Repr

/-- A thread inside `m_cvReady.wait`; `signalled` from the first
`notify_all` since it went to sleep. -/
structure Waiting (τ : Type*) where
  waiter : Waiter τ
  signalled : Bool
  deriving DecidableEq, Repr

/-- The callbacks the queue hands out; the generation of
`allTasksCompleted` is the one it was published for. -/
inductive Event (τ : Type*)
  | taskReady (t : τ)
  | taskDiscarded (t : τ)
  | allTasksCompleted (generation : Nat)
  deriving DecidableEq, Repr

def optionKeepSuccessful : Nat := 1
def optionKeepFailed : Nat := 2
def optionKeepCanceled : Nat := 4

def eventTaskReady : Nat := 1
def eventTaskDiscarded : Nat := 2
def eventAllTasksCompleted : Nat := 4

structure State (τ θ : Type*) where
  maxExecuting : Nat
  maxReadyOrExecuting : Nat
  options : Nat
  executingCount : Nat
  readyCount : Nat
  activeWorkGeneration : Nat
  lastPublishedGeneration : Nat
  lastCandidateGeneration : Nat
  pending : List τ
  executing : List τ
  ready : List τ
  allTasks : τ → Option OwnerQueue
  /-- An observer is registered and its proxy is connected. -/
  notifyCB : Bool
  eventsMask : Nat
  task : τ → TaskData
  waiting : θ → Option (Waiting τ)
  /-- The candidate generations of the `onReady` calls between their two
  lock sections. -/
  candidates : List Nat
  events : List (Event τ)

variable {τ θ : Type*}

/-- A queue nothing was pushed in, over tasks in any state. -/
def State.init (options maxExecuting : Nat) (task : τ → TaskData) : State τ θ where
  maxExecuting := maxExecuting
  maxReadyOrExecuting := 0
  options := options
  executingCount := 0
  readyCount := 0
  activeWorkGeneration := 0
  lastPublishedGeneration := 0
  lastCandidateGeneration := 0
  pending := []
  executing := []
  ready := []
  allTasks := fun _ => none
  notifyCB := false
  eventsMask := 0
  task := task
  waiting := fun _ => none
  candidates := []
  events := []

/-- What a lock section gives its caller. -/
inductive Outcome (τ : Type*)
  | done
  | flag (b : Bool)
  | task (t : Option τ)
  | blocked
  | taskException (t : τ)
  | notInQueue
  deriving DecidableEq, Repr

/-! ## Tasks -/

/-- `TaskBase::isFailed`. -/
def TaskData.isFailed (d : TaskData) : Bool :=
  (d.state == .pendingCompletion || d.state == .completed) && d.hasException

/-- `TaskBase::scheduleNothrow`: a task which ran before starts clean. -/
def TaskData.scheduleNothrow (d : TaskData) : TaskData :=
  if d.state = .created then { d with state := .running }
  else { state := .running, hasException := false, cancelRequested := false }

section Sections

variable [DecidableEq τ] [DecidableEq θ]

def State.updateTask (t : τ) (f : TaskData → TaskData) (s : State τ θ) : State τ θ :=
  { s with task := Function.update s.task t (f (s.task t)) }

def requestCancel (t : τ) : State τ θ → State τ θ :=
  State.updateTask t fun d => { d with cancelRequested := true }

def State.hasOption (option : Nat) (s : State τ θ) : Bool := s.options &&& option != 0

/-- `keepTask`. -/
def keepTask (t : τ) (s : State τ θ) : Bool :=
  if (s.task t).isFailed then s.hasOption optionKeepFailed else s.hasOption optionKeepSuccessful

/-! ## Lists -/

/-- `isBack` selects `push_back`. -/
def insertTask (isBack : Bool) (t : τ) (l : List τ) : List τ :=
  if isBack then l ++ [t] else t :: l

def setOwnerQueue (t : τ) (owner : Option OwnerQueue) (s : State τ θ) : State τ θ :=
  { s with allTasks := Function.update s.allTasks t owner }

def unlink (t : τ) (s : State τ θ) : State τ θ :=
  { s with
    pending := s.pending.erase t
    executing := s.executing.erase t
    ready := s.ready.erase t }

def unlinkAndDestroy (t : τ) (s : State τ θ) : State τ θ :=
  setOwnerQueue t none (unlink t s)

def moveTaskToReadyQueue (t : τ) (s : State τ θ) : State τ θ :=
  let s := setOwnerQueue t (some .ready) (unlink t s)
  { s with ready := s.ready ++ [t], readyCount := s.readyCount + 1 }

def moveExecutingTaskToPendingQueue (t : τ) (s : State τ θ) : State τ θ :=
  let s := setOwnerQueue t (some .pending) (unlink t s)
  { s with pending := s.pending ++ [t], executingCount := s.executingCount - 1 }

/-- A ready task taken out for good. -/
def destroyReady (t : τ) (s : State τ θ) : State τ θ :=
  let s := unlinkAndDestroy t s
  { s with readyCount := s.readyCount - 1 }

def clearPending (s : State τ θ) : State τ θ :=
  s.pending.foldl (fun s t => unlinkAndDestroy t s) s

def clearReady (s : State τ θ) : State τ θ :=
  s.ready.foldl (fun s t => destroyReady t s) s

def hasPendingOrExecuting (s : State τ θ) : Bool :=
  !s.pending.isEmpty || !s.executing.isEmpty

def isEmptyInternal (s : State τ θ) : Bool :=
  s.pending.isEmpty && s.executing.isEmpty && s.ready.isEmpty

/-! ## Notifications -/

def State.observes (eventId : Nat) (s : State τ θ) : Bool :=
  s.notifyCB && s.eventsMask &&& eventId != 0

/-- `getEventNotifyCB`: the event is handed out when an observer of its
kind is registered. -/
def notifyEvent (eventId : Nat) (e : Event τ) (s : State τ θ) : State τ θ :=
  if s.observes eventId then { s with events := s.events ++ [e] } else s

/-- `m_cvReady.notify_all()`. -/
def notifyAll (s : State τ θ) : State τ θ :=
  { s with waiting := fun th => (s.waiting th).map fun w => { w with signalled := true } }

/-- The thread goes to sleep and the lock is released. -/
def block (th : θ) (w : Waiter τ) (s : State τ θ) : State τ θ × Outcome τ :=
  ({ s with waiting := Function.update s.waiting th (some ⟨w, false⟩) }, .blocked)

def unblock (th : θ) (s : State τ θ) : State τ θ :=
  { s with waiting := Function.update s.waiting th none }

/-! ## Throttling -/

def getReadyOrExecuting (s : State τ θ) : Nat := s.readyCount + s.executingCount

/-- One of the throttle limits is reached. -/
def throttled (s : State τ θ) : Bool :=
  (s.maxExecuting != 0 && decide (s.executingCount ≥ s.maxExecuting)) ||
    (s.maxReadyOrExecuting != 0 && decide (getReadyOrExecuting s ≥ s.maxReadyOrExecuting))

/-- The head of the pending list goes to the executing list. -/
def admitFront (t : τ) (rest : List τ) (s : State τ θ) : State τ θ :=
  let s := setOwnerQueue t (some .executing) (s.updateTask t TaskData.scheduleNothrow)
  { s with
    pending := rest
    executing := s.executing ++ [t]
    executingCount := s.executingCount + 1 }

/-- The loop of `padExecutingQueueNothrow`, with the number of rounds it
may take. -/
def padLoop : Nat → State τ θ → State τ θ
  | 0, s => s
  | n + 1, s =>
    match s.pending with
    | [] => s
    | t :: rest => if throttled s then s else padLoop n (admitFront t rest s)

/-- Every round takes a task off the pending list. -/
def padExecutingQueueNothrow (s : State τ θ) : State τ θ := padLoop s.pending.length s

/-! ## Lock sections -/

def pushInternalNoLock (isBack : Bool) (t : τ) (dontSchedule : Bool) (s : State τ θ) :
    State τ θ :=
  match s.allTasks t with
  | some _ =>
    padExecutingQueueNothrow <|
      if dontSchedule then s
      else
        let s := setOwnerQueue t (some .pending) (unlink t s)
        { s with
          pending := insertTask isBack t s.pending
          readyCount := s.readyCount - 1
          activeWorkGeneration := s.activeWorkGeneration + 1 }
  | none =>
    padExecutingQueueNothrow <|
      if dontSchedule then
        let s := setOwnerQueue t (some .ready) s
        { s with ready := insertTask isBack t s.ready, readyCount := s.readyCount + 1 }
      else
        let s := setOwnerQueue t (some .pending) s
        { s with
          pending := insertTask isBack t s.pending
          activeWorkGeneration := s.activeWorkGeneration + 1 }

/-- `getFirstReady` once it does not wait any more. -/
def takeFirstReady (remove : Bool) (s : State τ θ) : State τ θ × Outcome τ :=
  match s.ready with
  | [] => (s, .task none)
  | t :: _ => (if remove then destroyReady t s else s, .task (some t))

/-- The wait of `getFirstReady` and what follows it. -/
def waitFirstReady (th : θ) (remove : Bool) (s : State τ θ) : State τ θ × Outcome τ :=
  if s.ready.isEmpty && !isEmptyInternal s then block th (.ready remove) s
  else takeFirstReady remove s

def getFirstReady (th : θ) (wait remove : Bool) (s : State τ θ) : State τ θ × Outcome τ :=
  let s := padExecutingQueueNothrow s
  if wait then waitFirstReady th remove s else takeFirstReady remove s

/-- The wait of `waitInternal`, whose callback pads the queue, and what
follows it. -/
def waitTask (th : θ) (t : τ) (s : State τ θ) : State τ θ × Outcome τ :=
  let s := padExecutingQueueNothrow s
  match s.allTasks t with
  | none => (s, .done)
  | some .ready => (destroyReady t s, .done)
  | some _ => block th (.task t) s

/-- A pending task moves to the head of its list. -/
def moveToFront (t : τ) (s : State τ θ) : State τ θ :=
  let s := unlink t s
  { s with pending := t :: s.pending }

def waitInternal (th : θ) (t : τ) (prioritize cancel : Bool) (s : State τ θ) :
    State τ θ × Outcome τ :=
  let s := padExecutingQueueNothrow s
  match s.allTasks t with
  | none => (s, if (s.task t).state = .completed then .done else .notInQueue)
  | some owner =>
    if owner = .ready then (destroyReady t s, .done)
    else if owner = .pending ∧ cancel then (unlinkAndDestroy t s, .done)
    else
      let s := if prioritize ∧ owner = .pending then moveToFront t s else s
      let s := if cancel then requestCancel t s else s
      waitTask th t s

def prioritize (t : τ) (s : State τ θ) : State τ θ × Outcome τ :=
  match s.allTasks t with
  | none => (s, .notInQueue)
  | some .pending => (moveToFront t s, .flag true)
  | some _ => (s, .flag false)

/-- `flushInternal` after its wait. -/
def finishFlush (nothrowIfFailed discardReady : Bool) (s : State τ θ) : State τ θ × Outcome τ :=
  match if nothrowIfFailed then none else s.ready.find? fun t => (s.task t).isFailed with
  | some t => (clearReady s, .taskException t)
  | none => (if discardReady then clearReady s else s, .done)

/-- The wait of `flushInternal` and what follows it. -/
def waitFlush (th : θ) (nothrowIfFailed discardReady : Bool) (s : State τ θ) :
    State τ θ × Outcome τ :=
  if hasPendingOrExecuting s then block th (.flush nothrowIfFailed discardReady) s
  else finishFlush nothrowIfFailed discardReady s

def cancelTasks (l : List τ) (s : State τ θ) : State τ θ :=
  l.foldl (fun s t => requestCancel t s) s

def flushInternal (th : θ) (wait discardPending nothrowIfFailed discardReady cancelExecuting : Bool)
    (s : State τ θ) : State τ θ × Outcome τ :=
  let s := if discardPending then s else padExecutingQueueNothrow s
  if isEmptyInternal s then (s, .done)
  else
    let s := if discardPending then clearPending s else s
    let s := if cancelExecuting then cancelTasks s.executing s else s
    if wait then waitFlush th nothrowIfFailed discardReady s
    else finishFlush nothrowIfFailed discardReady s

/-- `cancel` with `wait = false`; with `wait = true` it is `waitInternal`. -/
def cancel (t : τ) (s : State τ θ) : State τ θ × Outcome τ :=
  match s.allTasks t with
  | some .pending =>
    (if s.hasOption optionKeepCanceled then moveTaskToReadyQueue t s else unlinkAndDestroy t s,
      .flag true)
  | _ => (s, .flag false)

def setThrottleLimit (maxExecuting : Nat) (s : State τ θ) : State τ θ :=
  padExecutingQueueNothrow { s with maxExecuting := maxExecuting }

/-- `observer` is the limit the connected observer reports. -/
def setNotifyCallback (observer : Option Nat) (eventsMask : Nat) (s : State τ θ) : State τ θ :=
  padExecutingQueueNothrow
    { s with
      notifyCB := observer.isSome
      eventsMask := eventsMask
      maxReadyOrExecuting := observer.getD 0 }

/-- What `continuationTask` of a completing task gives. -/
inductive Continuation (τ : Type*)
  | none
  | task (t : τ)
  | throws
  deriving DecidableEq, Repr

/-- The part of `onReady` for a task which does not continue as itself. -/
def completeTask (t : τ) (s : State τ θ) : State τ θ :=
  let s := { s with executingCount := s.executingCount - 1 }
  let s := s.updateTask t fun d => { d with state := .completed }
  let s :=
    if keepTask t s then notifyEvent eventTaskReady (.taskReady t) (moveTaskToReadyQueue t s)
    else notifyEvent eventTaskDiscarded (.taskDiscarded t) (unlinkAndDestroy t s)
  notifyAll (padExecutingQueueNothrow s)

/-- The part of `onReady` for a task which is its own continuation. -/
def continueTask (t : τ) (s : State τ θ) : State τ θ :=
  let s := moveExecutingTaskToPendingQueue t s
  padExecutingQueueNothrow { s with activeWorkGeneration := s.activeWorkGeneration + 1 }

/-- The end of the first lock section of `onReady`. -/
def formCandidate (s : State τ θ) : State τ θ :=
  if s.pending.isEmpty && s.executing.isEmpty then
    { s with
      candidates := s.candidates ++ [s.activeWorkGeneration]
      lastCandidateGeneration := s.activeWorkGeneration }
  else s

/-- The task's own part of its completion, before the queue hears of it. -/
def notifyReady (t : τ) (failed : Bool) : State τ θ → State τ θ :=
  State.updateTask t fun d => { d with state := .pendingCompletion, hasException := failed }

/-- The first lock section of `onReady`. -/
def onReady (t : τ) (failed : Bool) (continuation : Continuation τ) (s : State τ θ) : State τ θ :=
  let s := notifyReady t failed s
  formCandidate <|
    match continuation with
    | .none => completeTask t s
    | .throws => completeTask t (s.updateTask t fun d => { d with hasException := true })
    | .task c =>
      if c = t then continueTask t s
      else completeTask t (pushInternalNoLock false c false s)

/-- The second lock section of `onReady`, for its candidate. -/
def validateCandidate (generation : Nat) (s : State τ θ) : State τ θ :=
  let s := { s with candidates := s.candidates.erase generation }
  if s.pending.isEmpty && s.executing.isEmpty && s.lastCandidateGeneration == generation &&
      decide (s.lastPublishedGeneration < generation) then
    notifyEvent eventAllTasksCompleted (.allTasksCompleted generation)
      { s with lastPublishedGeneration := generation }
  else s

/-- A blocked thread wakes up, spuriously or not, and goes on. -/
def resume (th : θ) (s : State τ θ) : State τ θ × Outcome τ :=
  match s.waiting th with
  | none => (s, .done)
  | some w =>
    match w.waiter with
    | .flush nothrowIfFailed discardReady =>
      waitFlush th nothrowIfFailed discardReady (unblock th s)
    | .ready remove => waitFirstReady th remove (unblock th s)
    | .task t => waitTask th t (unblock th s)

/-! ## The machine -/

/-- The lock sections of the queue. -/
inductive Label (τ θ : Type*)
  | push (isBack dontSchedule : Bool) (t : τ)
  | getFirstReady (th : θ) (wait remove : Bool)
  | wait (th : θ) (t : τ) (prioritize cancel : Bool)
  | prioritize (t : τ)
  | flush (th : θ) (wait discardPending nothrowIfFailed discardReady cancelExecuting : Bool)
  | cancel (t : τ)
  | setOptions (options : Nat)
  | setThrottleLimit (maxExecuting : Nat)
  | setNotifyCallback (observer : Option Nat) (eventsMask : Nat)
  | disconnectObserver
  | onReady (t : τ) (failed : Bool) (continuation : Continuation τ)
  | validateCandidate (generation : Nat)
  | resume (th : θ)
  deriving DecidableEq, Repr

/-- `cancelAll` and `forceFlushNoThrow`. -/
def Label.cancelAll (th : θ) (wait : Bool) : Label τ θ := .flush th wait true true true true

/-- What `pushInternalNoLock` asserts of a task. -/
def pushable (t : τ) (s : State τ θ) : Bool :=
  s.allTasks t == none || s.allTasks t == some .ready

/-- A section can run: its thread is not asleep, a pushed task is new or
ready, and only a task which executes completes. Of the public operations
only those which discard what is pending flush without waiting. -/
def enabled (s : State τ θ) : Label τ θ → Bool
  | .push _ _ t => pushable t s
  | .getFirstReady th _ _ => (s.waiting th).isNone
  | .wait th _ _ _ => (s.waiting th).isNone
  | .flush th wait discardPending _ _ _ => (s.waiting th).isNone && (wait || discardPending)
  | .onReady t _ (.task c) =>
    s.allTasks t == some .executing && (c == t || pushable c s)
  | .onReady t _ _ => s.allTasks t == some .executing
  | .validateCandidate generation => s.candidates.contains generation
  | .resume th => (s.waiting th).isSome
  | _ => true

def lockSection (s : State τ θ) : Label τ θ → State τ θ × Outcome τ
  | .push isBack dontSchedule t => (pushInternalNoLock isBack t dontSchedule s, .done)
  | .getFirstReady th wait remove => getFirstReady th wait remove s
  | .wait th t prioritize cancel => waitInternal th t prioritize cancel s
  | .prioritize t => prioritize t s
  | .flush th wait discardPending nothrowIfFailed discardReady cancelExecuting =>
    flushInternal th wait discardPending nothrowIfFailed discardReady cancelExecuting s
  | .cancel t => cancel t s
  | .setOptions options => ({ s with options := options }, .done)
  | .setThrottleLimit maxExecuting => (setThrottleLimit maxExecuting s, .done)
  | .setNotifyCallback observer eventsMask => (setNotifyCallback observer eventsMask s, .done)
  | .disconnectObserver => ({ s with notifyCB := false }, .done)
  | .onReady t failed continuation => (onReady t failed continuation s, .done)
  | .validateCandidate generation => (validateCandidate generation s, .done)
  | .resume th => resume th s

def step (s : State τ θ) (l : Label τ θ) : Option (State τ θ) :=
  if enabled s l then some (lockSection s l).1 else none

/-- The states any interleaving leads to. -/
def Reachable (s : State τ θ) : Prop :=
  Transition.Reachable step (fun s₀ => ∃ options maxExecuting task,
    s₀ = State.init options maxExecuting task) s

end Sections

end Baselib.Tasks.ExecutionQueue
