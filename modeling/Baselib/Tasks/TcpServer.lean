/-
Baselib.Tasks.TcpServer — the connections of a TCP server, `TcpServerBase`
of `tasks/TcpBaseTasks.h` over the acceptor.

A connection which needs a protocol handshake is admitted with a handshake
task; when that has left the queue, its event brings the connection in again
as a configured one. The queue keeps no task, and hands out the event of a
task when it removes it, if the callback is connected then. Events are
handled concurrently, so at any time and in any order.

The tasks of the queue end by themselves; that they are cancelled makes no
difference here and is left out, and so are the host services, the control
token and the logs. The supporting tasks are counted.
-/
import Baselib.Tasks.TcpAcceptor

namespace Baselib.Tasks.TcpServer

open TcpAcceptor (ErrorCode Hooks)

variable {σ : Type}

/-! ## The configuration -/

def maxConnectionsCeiling : Nat := 4096

/-- A limit which is zero is not known. -/
def getDerivedMaxConnections (memoryFootprint physicalMemorySize fileDescriptorSoftLimit : Nat) :
    Nat :=
  let result := maxConnectionsCeiling
  let result := if fileDescriptorSoftLimit ≠ 0 then min result (fileDescriptorSoftLimit / 2)
    else result
  let result := if physicalMemorySize ≠ 0 ∧ memoryFootprint ≠ 0 then
    min result (physicalMemorySize / 10 * 8 / memoryFootprint) else result
  if result = 0 then 1 else result

/-- `maxConnections` is unset, or zero for any number of connections. -/
structure Parameters where
  isProtocolHandshakeNeeded : Bool
  maxConnections : Option Nat
  connectionMemoryFootprint : Nat
  physicalMemorySize : Nat
  fileDescriptorSoftLimit : Nat

/-- `m_effectiveMaxConnections`. -/
def Parameters.effectiveMaxConnections (p : Parameters) : Nat :=
  p.maxConnections.getD
    (getDerivedMaxConnections p.connectionMemoryFootprint p.physicalMemorySize
      p.fileDescriptorSoftLimit)

/-! ## The connections -/

/-- A task of `m_eqConnections`. -/
structure Connection (σ : Type) where
  task : Nat
  isHandshake : Bool
  stream : σ
  deriving DecidableEq

/-- A task which was discarded, and the stream it holds still: the one of a
handshake which has not failed. -/
structure Discarded (σ : Type) where
  task : Nat
  isFailed : Bool
  stream : Option σ
  deriving DecidableEq

/-- `refused` are the streams which were refused, with the number of
connections there were in the queue. -/
structure State (σ : Type) where
  connections : List (Connection σ)
  supportingTasks : Nat
  handshakeTasks : List Nat
  activeEndpoints : List Nat
  shuttingDown : Bool
  notifyCB : Bool
  executionServices : Bool
  /-- `m_timer` is waited for. -/
  timer : Bool
  events : List (Discarded σ)
  nextTask : Nat
  closed : List σ
  refused : List (σ × Nat)
  deriving DecidableEq

def State.create : State σ where
  connections := []
  supportingTasks := 0
  handshakeTasks := []
  activeEndpoints := []
  shuttingDown := false
  notifyCB := true
  executionServices := true
  timer := false
  events := []
  nextTask := 0
  closed := []
  refused := []

/-- What the calls of a connection come to: whether the task of a handshake
is created, a task is pushed, the remote endpoint is known, and a connection
is created. -/
structure Answers where
  createProtocolHandshakeTask : Bool
  pushBack : Bool
  remoteEndpoint : Bool
  createConnection : Bool
  deriving DecidableEq, Inhabited

def State.close (stream : Option σ) (d : State σ) : State σ :=
  { d with closed := d.closed ++ stream.toList }

/-- `push_back`; a task which is not pushed is destroyed with its stream. -/
def State.pushBack (pushes isHandshake : Bool) (stream : σ) (d : State σ) : State σ :=
  if pushes then
    { d with
      connections := d.connections ++ [⟨d.nextTask, isHandshake, stream⟩]
      nextTask := d.nextTask + 1 }
  else { d.close (some stream) with nextTask := d.nextTask + 1 }

/-- A task which cannot be pushed is taken out of the map again. -/
def processConfiguredConnection (answers : Answers) (stream : σ) (d : State σ) : State σ :=
  if !answers.remoteEndpoint || !answers.createConnection then d.close (some stream)
  else
    let pushed := d.pushBack answers.pushBack false stream
    if answers.pushBack then { pushed with activeEndpoints := d.nextTask :: d.activeEndpoints }
    else pushed

def processIncomingConnection (p : Parameters) (answers : Answers) (stream : σ) (d : State σ) :
    State σ :=
  if p.effectiveMaxConnections ≠ 0 ∧ p.effectiveMaxConnections ≤ d.connections.length then
    { d.close (some stream) with refused := d.refused ++ [(stream, d.connections.length)] }
  else if p.isProtocolHandshakeNeeded then
    if !answers.createProtocolHandshakeTask then d.close (some stream)
    else
      let pushed := d.pushBack answers.pushBack true stream
      if answers.pushBack then { pushed with handshakeTasks := d.nextTask :: d.handshakeTasks }
      else pushed
  else processConfiguredConnection answers stream d

/-- The maps are cleared with the callback. -/
def State.disconnect (d : State σ) : State σ :=
  { d with shuttingDown := true, notifyCB := false, activeEndpoints := [], handshakeTasks := [] }

def State.isDrained (d : State σ) : Bool := d.connections.isEmpty && d.supportingTasks == 0

def continueAfterStoppedAccepting (d : State σ) : Bool × State σ :=
  let d := { d with shuttingDown := true, executionServices := false }
  if d.isDrained then (false, d.disconnect) else (true, { d with timer := true })

/-- Without an exception everything has been shut down already. -/
def onTaskStoppedNothrow (eptr : Option ErrorCode) (d : State σ) : State σ :=
  if eptr.isSome then { d with executionServices := false, notifyCB := false } else d

def hooks (p : Parameters) : Hooks (State σ) σ Answers where
  processIncomingConnection := processIncomingConnection p
  continueAfterStoppedAccepting := continueAfterStoppedAccepting
  onTaskStoppedNothrow := onTaskStoppedNothrow

/-! ## The events -/

/-- The queue discards a task which has completed. -/
def discard (c : Connection σ) (isFailed : Bool) (d : State σ) : State σ :=
  let stream := if c.isHandshake && !isFailed then some c.stream else none
  let d := if stream.isSome then d else d.close (some c.stream)
  if d.notifyCB then { d with events := d.events ++ [⟨c.task, isFailed, stream⟩] }
  else d.close stream

/-- `onEvent` with `TaskDiscarded`; a task which is not gone on with is
destroyed with its stream. -/
def onEvent (answers : Answers) (event : Discarded σ) (d : State σ) : State σ :=
  if event.task ∈ d.activeEndpoints then
    { d.close event.stream with activeEndpoints := d.activeEndpoints.erase event.task }
  else if event.task ∈ d.handshakeTasks then
    let d := { d with handshakeTasks := d.handshakeTasks.erase event.task }
    if d.shuttingDown || event.isFailed then d.close event.stream
    else
      match event.stream with
      | some stream => processConfiguredConnection answers stream d
      | none => d
  else d.close event.stream

/-- `onTimer`, and whether it leaves with the notification. -/
def onTimer (d : State σ) : Bool × State σ :=
  if d.isDrained then (true, { d.disconnect with timer := false }) else (false, d)

/-! ## Runs -/

inductive Label (σ : Type) where
  | acceptor (l : TcpAcceptor.Label (State σ) σ Answers)
  | completes (i : Nat) (isFailed : Bool)
  | onEvent (i : Nat) (answers : Answers)
  | onTimer
  | pushSupportingTask
  | supportingTaskCompletes

/-- The acceptor of the server. -/
abbrev Server (σ : Type) := TcpAcceptor.State (State σ) σ

def Server.create : Server σ := TcpAcceptor.State.create State.create

/-- A section of the server on its own state. -/
def Server.derive (p : Parameters) (s : Server σ) (d : State σ)
    (notification : Option (Option ErrorCode)) : Option (Server σ) :=
  TcpAcceptor.step (hooks p) s (.derived d notification)

def step (p : Parameters) (s : Server σ) : Label σ → Option (Server σ)
  | .acceptor (.derived ..) => none
  | .acceptor l => TcpAcceptor.step (hooks p) s l
  | .completes i isFailed =>
    s.derived.connections[i]?.bind fun c =>
      Server.derive p s
        (discard c isFailed
          { s.derived with connections := s.derived.connections.eraseIdx i }) none
  | .onEvent i answers =>
    s.derived.events[i]?.bind fun event =>
      Server.derive p s
        (onEvent answers event { s.derived with events := s.derived.events.eraseIdx i }) none
  | .onTimer =>
    if s.derived.timer then
      let result := onTimer s.derived
      Server.derive p s result.2 (if result.1 then some s.errorCode else none)
    else none
  | .pushSupportingTask =>
    if s.derived.executionServices then
      Server.derive p s { s.derived with supportingTasks := s.derived.supportingTasks + 1 } none
    else none
  | .supportingTaskCompletes =>
    if s.derived.supportingTasks ≠ 0 then
      Server.derive p s { s.derived with supportingTasks := s.derived.supportingTasks - 1 } none
    else none

end Baselib.Tasks.TcpServer
