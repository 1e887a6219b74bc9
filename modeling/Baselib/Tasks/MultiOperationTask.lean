/-
Baselib.Tasks.MultiOperationTask — `tasks/MultiOperationTask.h`, the
accounting of a task with several asynchronous operations in flight.

`onOperationCompleted` decides under the accounting lock and carries its
decision out after releasing it, so the two are sections of their own: a
completed operation leaves its decision with its thread, and the threads
go on in any order. `inFlight` counts the operations which have been
begun and have not got to the epilog of their handler; it belongs to the
environment, `pendingOperations` to the code.

Operations are begun by `scheduleTask`, whose task lock keeps the handlers
out until it is done, and while one is in flight (the rule in the comment
at the class). A `scheduleTask` which throws completes the task past the
accounting and is left out, as is what the base class does with
`notifyReady`.
-/
import Baselib.Lib.Transition

namespace Baselib.Tasks.MultiOperationTask

open Lib

variable {ε : Type}

/-! ## The accounting -/

/-- The members under the accounting lock. -/
structure Accounting (ε : Type) where
  pendingOperations : Nat
  closing : Bool
  closeInitiated : Bool
  terminalTaken : Bool
  firstError : Option ε
  firstErrorIsExpected : Bool
  deriving DecidableEq

/-- The initial values, to which `scheduleNothrow` returns. -/
def Accounting.initial : Accounting ε := ⟨0, false, false, false, none, false⟩

/-- `takeTerminalNoLock`. -/
def Accounting.takeTerminalNoLock (a : Accounting ε) : Bool × Accounting ε :=
  if a.terminalTaken || !a.closing || a.pendingOperations != 0 then (false, a)
  else (true, { a with terminalTaken := true })

/-- The arguments of `applyDecision`, and the run they were decided in. -/
structure Decision (ε : Type) where
  run : Nat
  close : Bool
  terminal : Bool
  firstError : Option ε
  firstErrorIsExpected : Bool
  deriving DecidableEq

/-- The count and the first error of `onOperationCompleted`. -/
def Accounting.account (a : Accounting ε) (eptr : Option ε) (isExpectedException : Bool) :
    Accounting ε :=
  let a := if a.pendingOperations ≠ 0 then
    { a with pendingOperations := a.pendingOperations - 1 } else a
  if eptr.isSome && a.firstError.isNone then
    { a with firstError := eptr, firstErrorIsExpected := isExpectedException, closing := true }
  else a

/-- The block of `onOperationCompleted` under the lock. -/
def Accounting.onOperationCompleted (a : Accounting ε) (run : Nat) (eptr : Option ε)
    (isExpectedException : Bool) : Decision ε × Accounting ε :=
  let a := a.account eptr isExpectedException
  let close := a.closing && !a.closeInitiated
  let a := if close then { a with closeInitiated := true } else a
  let (terminal, a) := a.takeTerminalNoLock
  (⟨run, close, terminal, a.firstError, a.firstErrorIsExpected⟩, a)

/-! ## The task over its runs -/

/-- What happens, with the run it happens for. -/
inductive Event (ε : Type) where
  | completed (run : Nat) (eptr : Option ε) (isExpectedException : Bool)
  | initiateClose (run : Nat)
  | notifyReady (run : Nat) (eptr : Option ε) (isExpectedException : Bool)
  deriving DecidableEq

/-- `runs` counts the calls of `scheduleNothrow`, and is the number of the
current run; `running` until it is reported ready. `deciding` are the
threads in `applyDecision`. -/
structure State (ε : Type) where
  accounting : Accounting ε
  runs : Nat
  running : Bool
  inFlight : Nat
  deciding : List (Decision ε)
  log : List (Event ε)
  deriving DecidableEq

/-- The task as it is created. -/
def State.initial : State ε := ⟨.initial, 0, false, 0, [], []⟩

/-- A section: the task is scheduled and begins its first operations; an
operation begins another; a close is requested; an operation completes;
a thread goes on in `applyDecision`, to close, to notify, or to return. -/
inductive Label (ε : Type) where
  | scheduleNothrow (operations : Nat)
  | beginOperation
  | beginClose
  | operationCompleted (eptr : Option ε) (isExpectedException : Bool)
  | initiateClose (thread : Nat)
  | notifyReady (thread : Nat)
  | applied (thread : Nat)
  deriving DecidableEq

/-- `scheduleNothrow`; the accounting is per run. -/
def State.scheduleNothrow (s : State ε) (operations : Nat) : State ε :=
  { s with
    accounting := { Accounting.initial with pendingOperations := operations }
    runs := s.runs + 1
    running := true
    inFlight := operations }

def State.beginOperation (s : State ε) : State ε :=
  { s with
    accounting :=
      { s.accounting with pendingOperations := s.accounting.pendingOperations + 1 }
    inFlight := s.inFlight + 1 }

def State.beginClose (s : State ε) : State ε :=
  { s with accounting := { s.accounting with closing := true } }

def State.onOperationCompleted (s : State ε) (eptr : Option ε) (isExpectedException : Bool) :
    State ε :=
  let (decision, accounting) :=
    s.accounting.onOperationCompleted s.runs eptr isExpectedException
  { s with
    accounting := accounting
    inFlight := s.inFlight - 1
    deciding := s.deciding ++ [decision]
    log := s.log ++ [.completed s.runs eptr isExpectedException] }

/-- `applyDecision`, the close. -/
def State.initiateClose (s : State ε) (thread : Nat) (d : Decision ε) : State ε :=
  { s with
    deciding := s.deciding.set thread { d with close := false }
    log := s.log ++ [.initiateClose d.run] }

/-- `applyDecision`, the terminal path. -/
def State.notifyReady (s : State ε) (thread : Nat) (d : Decision ε) : State ε :=
  { s with
    running := false
    deciding := s.deciding.set thread { d with terminal := false }
    log := s.log ++ [.notifyReady d.run d.firstError d.firstErrorIsExpected] }

def step (s : State ε) : Label ε → Option (State ε)
  | .scheduleNothrow operations =>
    if s.running then none else some (s.scheduleNothrow operations)
  | .beginOperation => if s.inFlight = 0 then none else some s.beginOperation
  | .beginClose => some s.beginClose
  | .operationCompleted eptr isExpectedException =>
    if s.inFlight = 0 then none else some (s.onOperationCompleted eptr isExpectedException)
  | .initiateClose thread =>
    s.deciding[thread]?.bind fun d =>
      if d.close then some (s.initiateClose thread d) else none
  | .notifyReady thread =>
    s.deciding[thread]?.bind fun d =>
      if !d.close && d.terminal then some (s.notifyReady thread d) else none
  | .applied thread =>
    s.deciding[thread]?.bind fun d =>
      if !d.close && !d.terminal then some { s with deciding := s.deciding.eraseIdx thread }
      else none

end Baselib.Tasks.MultiOperationTask
