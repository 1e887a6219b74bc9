/-
Baselib.Tasks.ExecuteQueue — `executeQueueAndCancelOnFailure` of
`tasks/TasksUtils.h`: the loop which drains a queue while the tasks of
the queue run and push further ones.

The loop is the only consumer of the queue. Its steps are the calls it
makes, each one lock section of the queue (two for a `pop` which waits),
and the test of the task it popped, which takes the lock of the task.
Between any two of them tasks complete, and a task which executes pushes
any task but the one the loop is looking at.
-/
import Baselib.Tasks.ExecutionQueue

namespace Baselib.Tasks.ExecuteQueue

open Lib
open ExecutionQueue
  (State Outcome Continuation isEmptyInternal lockSection optionKeepSuccessful optionKeepFailed)

/-! ## Data -/

/-- What the loop does next; in `wait` it is asleep inside `pop`. -/
inductive Phase (τ : Type*)
  | isEmpty
  | pop
  | wait
  | popped (task : Option τ)
  | cancelAll
  | returned
  deriving DecidableEq, Repr

/-- The queue and the locals of the function; `eptr` names the task whose
exception it holds. -/
structure Drain (τ θ : Type*) where
  queue : State τ θ
  phase : Phase τ
  cancelled : Bool
  eptr : Option τ
  /-- The tasks `pop` gave so far, each with its `isFailed` at that time. -/
  history : List (τ × Bool)

/-- How the function ends. -/
inductive Result (τ : Type*)
  | returns
  | throws (task : τ)
  deriving DecidableEq, Repr

/-- What happens next: a step of the loop, a spurious wake-up of it, or a
step of the tasks; `push` names the task which pushes. -/
inductive Label (τ : Type*)
  | loop
  | spuriousWakeup
  | onReady (t : τ) (failed : Bool) (continuation : Continuation τ)
  | push (pusher : τ) (isBack dontSchedule : Bool) (t : τ)
  | validateCandidate (generation : Nat)
  deriving DecidableEq, Repr

variable {τ θ : Type*}

def start (queue : State τ θ) : Drain τ θ where
  queue := queue
  phase := .isEmpty
  cancelled := false
  eptr := none
  history := []

/-- The end of the function, which rethrows what it holds. -/
def Drain.result (d : Drain τ θ) : Option (Result τ) :=
  match d.phase with
  | .returned => some (match d.eptr with
      | none => .returns
      | some t => .throws t)
  | _ => none

/-- The loop has popped `t` and not looked at it yet. -/
def Drain.holds (t : τ) (d : Drain τ θ) : Prop := d.phase = .popped (some t)

section Steps

variable [DecidableEq τ] [DecidableEq θ]

instance (t : τ) (d : Drain τ θ) : Decidable (d.holds t) :=
  inferInstanceAs (Decidable (d.phase = _))

/-! ## The loop -/

/-- What `pop` gives, once it does not sleep. -/
def receive (d : Drain τ θ) : State τ θ × Outcome τ → Drain τ θ
  | (queue, .task task) =>
    { d with
      queue := queue
      phase := .popped task
      history := d.history ++ task.toList.map fun t => (t, (queue.task t).isFailed) }
  | (queue, _) => { d with queue := queue, phase := .wait }

/-- `cancelAll( false )`, and the loop starts over. -/
def cancelRest (th : θ) (d : Drain τ θ) : Drain τ θ :=
  { d with
    queue := (lockSection d.queue (.cancelAll th false)).1
    phase := .isEmpty }

/-- The test of a popped task. -/
def examine (task : Option τ) (d : Drain τ θ) : Drain τ θ :=
  match task with
  | none => { d with phase := .isEmpty }
  | some t =>
    if (d.queue.task t).isFailed then { d with eptr := some t, phase := .cancelAll }
    else { d with phase := .isEmpty }

/-- One step of `executeQueueAndCancelOnFailure`. -/
def loop (th : θ) (d : Drain τ θ) : Drain τ θ :=
  match d.phase with
  | .isEmpty => { d with phase := if isEmptyInternal d.queue then .returned else .pop }
  | .pop => receive d (lockSection d.queue (.getFirstReady th true true))
  | .wait => receive d (lockSection d.queue (.resume th))
  | .popped task => if d.cancelled then cancelRest th d else examine task d
  | .cancelAll => { cancelRest th d with cancelled := true }
  | .returned => d

/-! ## The machine -/

def signalled (th : θ) (s : State τ θ) : Bool := ((s.waiting th).map (·.signalled)).getD false

/-- A step can happen: the loop goes on when it is not asleep or was
signalled, and only a task which executes completes or pushes. -/
def enabled (th : θ) (d : Drain τ θ) : Label τ → Bool
  | .loop => d.phase != .returned && (d.phase != .wait || signalled th d.queue)
  | .spuriousWakeup => d.phase == .wait && !signalled th d.queue
  | .onReady t failed continuation =>
    ExecutionQueue.enabled d.queue (.onReady t failed continuation) &&
      match continuation with
      | .task c => !decide (d.holds c)
      | _ => true
  | .push pusher isBack dontSchedule t =>
    d.queue.allTasks pusher == some .executing &&
      ExecutionQueue.enabled d.queue (.push isBack dontSchedule t) && !decide (d.holds t)
  | .validateCandidate generation =>
    ExecutionQueue.enabled d.queue (.validateCandidate generation)

/-- The section of the queue a step of the tasks is. -/
def Label.queueLabel : Label τ → Option (ExecutionQueue.Label τ θ)
  | .loop | .spuriousWakeup => none
  | .onReady t failed continuation => some (.onReady t failed continuation)
  | .push _ isBack dontSchedule t => some (.push isBack dontSchedule t)
  | .validateCandidate generation => some (.validateCandidate generation)

def next (th : θ) (d : Drain τ θ) (l : Label τ) : Drain τ θ :=
  match l.queueLabel with
  | none => loop th d
  | some l => { d with queue := (lockSection d.queue l).1 }

def step (th : θ) (d : Drain τ θ) (l : Label τ) : Option (Drain τ θ) :=
  if enabled th d l then some (next th d l) else none

end Steps

/-! ## What a run is judged by -/

/-- `OptionKeepSuccessful` and `OptionKeepFailed` are set. -/
def keepsAll (s : State τ θ) : Prop :=
  s.hasOption optionKeepSuccessful = true ∧ s.hasOption optionKeepFailed = true

/-- The first task which was failed when it was popped. -/
def firstFailed (history : List (τ × Bool)) : Option τ :=
  (history.find? (·.2)).map (·.1)

/-- The task is to run, or runs. -/
def scheduled (s : State τ θ) (t : τ) : Prop :=
  s.allTasks t = some .pending ∨ s.allTasks t = some .executing

/-- More work comes in: a push, or a task which goes on. -/
def Label.adds : Label τ → Bool
  | .push _ _ _ _ => true
  | .onReady _ _ (.task _) => true
  | _ => false

/-- A task pushed as ready. -/
def Label.retains : Label τ → Bool
  | .push _ _ dontSchedule _ => dontSchedule
  | _ => false

/-- A step which brings the drain closer to its end. -/
def Label.productive : Label τ → Bool
  | .spuriousWakeup => false
  | l => !l.adds

end Baselib.Tasks.ExecuteQueue
