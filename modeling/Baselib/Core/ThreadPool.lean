/-
Baselib.Core.ThreadPool — the threads of a pool and its I/O service:
`core/ThreadPoolImpl.h`.

A label is one section of a call or of a worker thread: what is done under the
lock, a thread which is joined, or what a worker does outside of the lock. The
constructor and the destructor are phases of the pool, since no call is made
before the one has returned and none is under way when the other begins. A
worker may return from `run()` at any time, and every exception it has is
handled: otherwise the process ends, as it does when a thread cannot be joined
in time.

Services are numbered as they are created; `joined` records the threads which
were joined.
-/
import Baselib.Lib.Slots
import Baselib.Lib.Transition

namespace Baselib.Core.ThreadPool

open Lib

def THREADS_COUNT_MAX : Nat := 1024

def limitThreadCount (threadCount : Nat) : Nat := min threadCount THREADS_COUNT_MAX

inductive Worker where
  /-- Its first section is still to come. -/
  | starting
  /-- It has left the lock and has not returned from `run()` of the service. -/
  | running (service : Nat)
  /-- It handles an exception. -/
  | thrown
  | finished
  deriving DecidableEq

def Worker.isStarted : Worker → Bool
  | .starting => false
  | _ => true

/-- What is left of a call of a client. -/
inductive Call where
  /-- `resize` has found the pool not to be shutting down. -/
  | checked (threadCount : Nat)
  | creating (threadCount : Nat)
  | waiting (threadCount : Nat)
  | resized (threadCount : Nat)
  /-- `disposeInternal`, with the threads it has still to join. -/
  | joining (threads : List Nat)
  | done
  deriving DecidableEq

def Call.threads : Call → List Nat
  | .joining threads => threads
  | _ => []

inductive Phase where
  /-- The constructor is to create the threads. -/
  | creating (threadCount : Nat)
  | waiting (threadCount : Nat)
  /-- The constructor has caught an exception. -/
  | failed
  | alive
  /-- `disposeInternal` of the destructor or of the constructor. -/
  | joining (threads : List Nat)
  | gone
  deriving DecidableEq

def Phase.threads : Phase → List Nat
  | .joining threads => threads
  | _ => []

structure State where
  phase : Phase
  calls : List Call
  /-- Every worker there has been. -/
  workers : List Worker
  /-- `m_threads` -/
  threads : List Nat
  service : Option Nat
  services : Nat
  work : Bool
  threadsReady : Nat
  shuttingDown : Bool
  joined : List Nat
  deriving DecidableEq

def State.create (threadCount : Nat) : State where
  phase := .creating (limitThreadCount threadCount)
  calls := []
  workers := []
  threads := []
  service := none
  services := 0
  work := false
  threadsReady := 0
  shuttingDown := false
  joined := []

inductive Label where
  /-- `createThreads` of the constructor; a thread may fail to start. -/
  | construct (failsAfter : Option Nat)
  | constructed
  | unwind
  | resize (threadCount : Nat)
  | size (i : Nat)
  | createThreads (i : Nat) (failsAfter : Option Nat)
  | wait (i : Nat)
  | returns (i : Nat)
  | dispose
  | join (i : Nat)
  | reset (i : Nat)
  | destroy
  | destroyJoin
  | destroyReset
  /-- The lock section of a worker; making the service may throw. -/
  | enter (w : Nat) (fails : Bool)
  | runReturns (w : Nat)
  | runThrows (w : Nat)
  deriving DecidableEq

/-! ## Sections -/

def State.setCall (s : State) (i : Nat) (call : Call) : State :=
  { s with calls := s.calls.set i call }

def State.pushThreads (s : State) (count : Nat) : State :=
  { s with
    workers := s.workers ++ List.replicate count .starting
    threads := s.threads ++ (List.range count).map (s.workers.length + ·) }

/-- How many of the threads a call needs are started. -/
inductive Created where
  /-- There are enough threads. -/
  | enough
  | all (count : Nat)
  | some (count : Nat)

/-- `createThreads` up to its wait. -/
def created (s : State) (threadCount : Nat) (failsAfter : Option Nat) : Created :=
  if s.threads.length < threadCount then
    match failsAfter with
    | none => .all (threadCount - s.threads.length)
    | some k => .some (min k (threadCount - s.threads.length - 1))
  else .enough

/-- The first section of `disposeInternal`, which leaves the threads to it. -/
def State.shutDown (s : State) : State :=
  { s with shuttingDown := true, work := false, threads := [] }

/-- The threads which are left to join after the first one. -/
def joinFirst (s : State) : List Nat → Option (Nat × List Nat)
  | [] => none
  | w :: rest => if s.workers[w]? = some .finished then some (w, rest) else none

/-- Makes the service unless there is one. -/
def State.ensureService (s : State) : State :=
  if s.service = none ∨ s.work = false then
    { s with service := some s.services, services := s.services + 1, work := true }
  else s

/-- The lock section of a worker. -/
def State.enter (s : State) (w : Nat) (isFirstRun fails : Bool) : State :=
  if s.shuttingDown then
    { s with
      workers := s.workers.set w .finished
      threadsReady := if isFirstRun then s.threadsReady + 1 else s.threadsReady }
  else if (s.service = none ∨ s.work = false) ∧ fails then s
  else
    let s := s.ensureService
    match s.service with
    | none => s
    | some service =>
      { s with
        workers := s.workers.set w (.running service)
        threadsReady := if isFirstRun then s.threadsReady + 1 else s.threadsReady }

def step (s : State) : Label → Option State
  | .construct failsAfter =>
    match s.phase with
    | .creating threadCount =>
      match created s threadCount failsAfter with
      | .enough => some { s with phase := .alive }
      | .all count => some { s.pushThreads count with phase := .waiting threadCount }
      | .some count => some { s.pushThreads count with phase := .failed }
    | _ => none
  | .constructed =>
    match s.phase with
    | .waiting threadCount =>
      if threadCount ≤ s.threadsReady then some { s with phase := .alive } else none
    | _ => none
  | .unwind =>
    if s.phase = .failed then some { s.shutDown with phase := .joining s.threads } else none
  | .resize threadCount =>
    if s.phase = .alive then
      if s.shuttingDown then some s
      else some { s with calls := s.calls ++ [.checked threadCount] }
    else none
  | .size i =>
    match s.calls[i]? with
    | some (.checked threadCount) =>
      if s.threads.length < threadCount then
        some (s.setCall i (.creating (limitThreadCount threadCount)))
      else some (s.setCall i (.resized (limitThreadCount threadCount)))
    | _ => none
  | .createThreads i failsAfter =>
    match s.calls[i]? with
    | some (.creating threadCount) =>
      match created s threadCount failsAfter with
      | .enough => some (s.setCall i (.resized threadCount))
      | .all count => some ((s.pushThreads count).setCall i (.waiting threadCount))
      | .some count => some ((s.pushThreads count).setCall i .done)
    | _ => none
  | .wait i =>
    match s.calls[i]? with
    | some (.waiting threadCount) =>
      if threadCount ≤ s.threadsReady then some (s.setCall i (.resized threadCount)) else none
    | _ => none
  | .returns i =>
    match s.calls[i]? with
    | some (.resized _) => some (s.setCall i .done)
    | _ => none
  | .dispose =>
    if s.phase = .alive then
      some { s.shutDown with calls := s.calls ++ [.joining s.threads] }
    else none
  | .join i =>
    match s.calls[i]? with
    | some (.joining threads) =>
      match joinFirst s threads with
      | some (w, rest) =>
        some { s.setCall i (.joining rest) with joined := s.joined ++ [w] }
      | none => none
    | _ => none
  | .reset i =>
    if s.calls[i]? = some (.joining []) then
      some { s.setCall i .done with service := none }
    else none
  | .destroy =>
    if s.phase = .alive ∧ ∀ call ∈ s.calls, call = .done then
      some { s.shutDown with phase := .joining s.threads }
    else none
  | .destroyJoin =>
    match s.phase with
    | .joining threads =>
      match joinFirst s threads with
      | some (w, rest) => some { s with phase := .joining rest, joined := s.joined ++ [w] }
      | none => none
    | _ => none
  | .destroyReset =>
    if s.phase = .joining [] then some { s with phase := .gone, service := none } else none
  | .enter w fails =>
    match s.workers[w]? with
    | some .starting => some (s.enter w true fails)
    | some .thrown => some (s.enter w false fails)
    | _ => none
  | .runReturns w =>
    match s.workers[w]? with
    | some (.running _) => some { s with workers := s.workers.set w .finished }
    | _ => none
  | .runThrows w =>
    match s.workers[w]? with
    | some (.running _) => some { s with workers := s.workers.set w .thrown }
    | _ => none

end Baselib.Core.ThreadPool
