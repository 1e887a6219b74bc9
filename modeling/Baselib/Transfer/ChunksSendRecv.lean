/-
Baselib.Transfer.ChunksSendRecv — the units which send, receive and delete
chunks over a fixed pool of connections: `transfer/ChunksSendRecvBase.h`
with `ChunksTransmitter.h`, `ChunksReceiverDeleterBase.h`,
`ChunksReceiver.h` and `ChunksDeleter.h`, over the loop of
`reactive/FanoutTasksObservable.h`, `FixedWorkerPoolUnitBase.h` and
`ObservableBase.h`.

A unit is a timer task whose `run()` holds the task lock, and so does every
other call that changes its state; the tasks of its two queues complete on
other threads. `run` is one iteration of the loops inside `run()`: tasks can
complete before the next one, and every iteration tests again what `run()`
tests on its way in. An executing task which was asked to cancel ends like
any other, as the environment decides.

How the remote, the endpoint iterator and the subscribers answer is part of
the labels. The messages, the statistics, the endpoint ids, the stream
itself and a scheduler task which fails are left out, and so are the
assertions. The context has its authentication block, or none, from the
start. `accepted`, `acknowledged`, `delivered`, `flushes`, `finalizedAt` and
a transfer's `streamAuthenticated` record what has happened; the code does
not keep them.
-/
import Baselib.Lib.Transition

namespace Baselib.Transfer.ChunksSendRecv

/-! ## Transfer tasks -/

inductive Kind where
  | transmitter
  | receiver
  | deleter
  deriving DecidableEq

inductive CommandId where
  | noCommand
  | sendChunk
  | receiveChunk
  | removeChunk
  | flushPeerSessions
  deriving DecidableEq

inductive BlockType where
  | normal
  | authentication
  deriving DecidableEq

/-- `uuids::nil()`, `BlockTransferDefs::chunkIdDefault()` and the ids of
chunks. -/
inductive ChunkId (χ : Type) where
  | nil
  | default
  | chunk (id : χ)
  deriving DecidableEq

/-- What a data block holds: the authentication data of the context, the
data of a chunk, or the rest of a receive which has failed. -/
inductive Data (χ : Type) where
  | authentication
  | content (chunkId : ChunkId χ)
  | incomplete
  deriving DecidableEq

/-- `systemError` is any `eh::system_error` but the cancellation;
`noConnection` is the `ServerNoConnectionException` of a reconnect that was
given up. -/
inductive Exception where
  | serverError
  | operationAborted
  | systemError
  | noConnection
  | other
  deriving DecidableEq

/-- `BlockTransferConnection`; `streamAuthenticated` tells whether an
authentication command has completed since its stream was attached. -/
structure TransferTask (χ : Type) where
  commandId : CommandId
  chunkId : ChunkId χ
  blockType : BlockType
  chunkData : Option (Data χ)
  exception : Option Exception
  isCompleted : Bool
  isBootstrapped : Bool
  isAuthenticated : Bool
  streamAuthenticated : Bool
  deriving DecidableEq

variable {χ : Type}

namespace TransferTask

/-- A new task with the stream of a connector attached. -/
def create : TransferTask χ where
  commandId := .noCommand
  chunkId := .nil
  blockType := .normal
  chunkData := none
  exception := none
  isCompleted := false
  isBootstrapped := false
  isAuthenticated := false
  streamAuthenticated := false

def setCommandInfoStateInternal [DecidableEq χ] (commandId : CommandId) (chunkId : ChunkId χ)
    (blockType : BlockType) (t : TransferTask χ) : TransferTask χ :=
  { t with
    commandId := commandId
    blockType := blockType
    chunkId :=
      if commandId = .noCommand ∨ commandId = .flushPeerSessions then .nil
      else if blockType = .normal then if chunkId = .default then .nil else chunkId
      else .default }

def setCommandInfo [DecidableEq χ] (commandId : CommandId) (chunkId : ChunkId χ)
    (chunkData : Option (Data χ)) (blockType : BlockType) (t : TransferTask χ) : TransferTask χ :=
  { t.setCommandInfoStateInternal commandId chunkId blockType with chunkData := chunkData }

def setChunkId [DecidableEq χ] (chunkId : ChunkId χ) (t : TransferTask χ) : TransferTask χ :=
  t.setCommandInfoStateInternal t.commandId chunkId t.blockType

def setCommandId [DecidableEq χ] (commandId : CommandId) (t : TransferTask χ) : TransferTask χ :=
  t.setCommandInfoStateInternal commandId t.chunkId t.blockType

def detachChunkData (t : TransferTask χ) : TransferTask χ := { t with chunkData := none }

/-- Scheduling a task starts it anew. -/
def scheduled (t : TransferTask χ) : TransferTask χ := { t with exception := none, isCompleted := false }

def markCompleted (exception : Option Exception) (t : TransferTask χ) : TransferTask χ :=
  { t with exception := exception, isCompleted := true }

/-- `attachStream`. -/
def attachStream (t : TransferTask χ) : TransferTask χ := { t with streamAuthenticated := false }

end TransferTask

/-- How a command ends; one that fails can leave a block behind which it
has received a part of. -/
inductive Completion where
  | succeeded
  | failed (exception : Exception) (leavesBlock : Bool)
  deriving DecidableEq

/-- The task when its command has ended; `onTaskStoppedNothrow` resets the
command in any case. -/
def TransferTask.completed (completion : Completion) (t : TransferTask χ) : TransferTask χ :=
  match completion with
  | .failed exception leavesBlock =>
    { t with
      commandId := .noCommand
      exception := some exception
      isCompleted := true
      chunkData :=
        if t.commandId = .receiveChunk ∧ leavesBlock then some .incomplete else t.chunkData }
  | .succeeded =>
    let authenticates := t.commandId = .sendChunk ∧ t.blockType = .authentication
    { t with
      commandId := .noCommand
      exception := none
      isCompleted := true
      chunkData := if t.commandId = .receiveChunk then some (.content t.chunkId) else t.chunkData
      isAuthenticated := t.isAuthenticated || decide authenticates
      streamAuthenticated := t.streamAuthenticated || decide authenticates }

/-! ## The unit -/

structure Config (χ : Type) where
  kind : Kind
  /-- `enablePeerSessionsTracking()` was called. -/
  peerSessions : Bool
  /-- The context has an authentication block. -/
  authenticationRequired : Bool
  tasksPoolSize : Nat
  /-- What `queryAllChunks()` lists. -/
  chunks : List χ

namespace Config

/-- `getCommandId`. -/
def commandId (cfg : Config χ) : CommandId :=
  match cfg.kind with
  | .transmitter => .sendChunk
  | .receiver => .receiveChunk
  | .deleter => .removeChunk

def isSafeToReconnect (cfg : Config χ) : Bool :=
  match cfg.kind with
  | .transmitter => !cfg.peerSessions
  | .receiver | .deleter => true

/-- Whether `unwindWorkerTasks` requests a flush of the sessions. -/
def flushesSessions (cfg : Config χ) : Bool :=
  match cfg.kind with
  | .transmitter => cfg.peerSessions
  | .receiver | .deleter => true

/-- The block that goes with a command for a chunk. -/
def sentData (cfg : Config χ) (chunkData : Option (Data χ)) : Option (Data χ) :=
  match cfg.kind with
  | .transmitter => chunkData
  | .receiver | .deleter => none

end Config

/-- The tasks of `m_eqChildTasks`: the connectors of
`startConnectingTasks`, `m_reconnectTask` and `m_scheduler`. -/
inductive ChildTask where
  | connector
  | reconnector
  | scheduler
  deriving DecidableEq

/-- `m_notifyCB` exists while the unit is processing. -/
inductive Phase where
  | created
  | processing
  | disconnected
  deriving DecidableEq

/-- A chunk id with the block that goes with it. -/
abbrev Item (χ : Type) := ChunkId χ × Option (Data χ)

/-- The state of the unit when it finalizes its metadata. -/
structure Commit (χ : Type) where
  stopRequested : Bool
  exception : Option Exception
  dispatchedException : Option Exception
  inputDisconnected : Bool
  accepted : List χ
  acknowledged : List (Item χ)

/-- `ready` and `executing` are the tasks of `m_eqWorkerTasks`,
`childReady` and `childExecuting` those of `m_eqChildTasks`; `reconnecting`
is whether there is an `m_reconnectTask`. -/
structure State (χ : Type) where
  phase : Phase
  ready : List (TransferTask χ)
  executing : List (TransferTask χ)
  childReady : List (ChildTask × Option Exception)
  childExecuting : List ChildTask
  reconnecting : Bool
  isDroppedConnection : Bool
  connectionsScheduled : Bool
  sessionsFlushRequested : Bool
  inputDisconnected : Bool
  postponedDataChunks : List (Item χ)
  /-- `m_endpointIterator` of the scheduler. -/
  schedulerConnects : Bool
  schedulerCanceled : Bool
  chunksIterator : Option (List χ)
  chunksQueue : List χ
  stopRequested : Bool
  completed : Bool
  notifyCompleteOnError : Bool
  exception : Option Exception
  dispatchedException : Option Exception
  /-- The exception the task has ended with, once it has ended. -/
  finished : Option (Option Exception)
  accepted : List χ
  acknowledged : List (Item χ)
  delivered : List (Item χ)
  /-- The flush commands completed since the last chunk command. -/
  flushes : Nat
  finalizedAt : Option (Commit χ)

def State.create : State χ where
  phase := .created
  ready := []
  executing := []
  childReady := []
  childExecuting := []
  reconnecting := false
  isDroppedConnection := false
  connectionsScheduled := false
  sessionsFlushRequested := false
  inputDisconnected := false
  postponedDataChunks := []
  schedulerConnects := true
  schedulerCanceled := false
  chunksIterator := none
  chunksQueue := []
  stopRequested := false
  completed := false
  notifyCompleteOnError := false
  exception := none
  dispatchedException := none
  finished := none
  accepted := []
  acknowledged := []
  delivered := []
  flushes := 0
  finalizedAt := none

/-- The answers of the endpoint iterator and the connection pool to a
reconnect. -/
inductive Retry where
  | exhausted
  | later
  | now (pooled : Bool)
  deriving DecidableEq

inductive Notification where
  | accepted
  | refused
  | thrown (exception : Exception)
  deriving DecidableEq

/-- What the environment decides in an iteration: what
`checkSubscribersQueues` and `notifyOnComplete` throw, the answers to a
reconnect and to `notifyOnNext`, and whether all events are flushed. -/
structure Turn where
  subscribers : Option Exception
  retry : Retry
  notifyOnNext : Notification
  notifyOnComplete : Option Exception
  areAllEventsFlushed : Bool
  deriving DecidableEq

/-- How an iteration of the loop ends: it goes on or waits, it has nothing
left to do, or it throws. -/
inductive Progress where
  | waits
  | done
  | thrown (exception : Exception)

namespace State

def isShuttingDown (s : State χ) : Bool :=
  s.stopRequested || s.completed || s.exception.isSome

def isWaitingExternalInput (s : State χ) : Bool :=
  s.exception.isNone && !s.inputDisconnected

/-- `m_eqWorkerTasks -> isEmpty()`. -/
def workersEmpty (s : State χ) : Bool := s.ready.isEmpty && s.executing.isEmpty

/-- `m_eqChildTasks -> isEmpty()`. -/
def childrenEmpty (s : State χ) : Bool := s.childReady.isEmpty && s.childExecuting.isEmpty

/-- `m_eqWorkerTasks -> cancelAll( false )`: the ready tasks are removed. -/
def cancelWorkers (s : State χ) : State χ := { s with ready := [] }

/-- `m_eqChildTasks -> cancelAll( false )`. -/
def cancelChildren (s : State χ) : State χ :=
  { s with
    childReady := []
    schedulerCanceled := s.schedulerCanceled || s.childExecuting.contains .scheduler }

/-- `requestStop` with `tryStopObservable`. -/
def requestStop (s : State χ) : State χ :=
  { s with stopRequested := true }.cancelWorkers.cancelChildren

/-- `m_eqWorkerTasks -> push_back( taskTransfer )`. -/
def pushBack (t : TransferTask χ) (s : State χ) : State χ :=
  { s with executing := s.executing ++ [t.scheduled] }

end State

/-! ## Connecting -/

/-- `startConnection`: a pooled stream makes the connector ready at once. -/
def startConnection (task : ChildTask) (pooled : Bool) (s : State χ) : State χ :=
  if pooled then { s with childReady := s.childReady ++ [(task, none)] }
  else { s with childExecuting := s.childExecuting ++ [task] }

/-- `pooled` tells for each connection whether the pool has it. -/
def startConnectingTasks : Nat → List Bool → State χ → State χ
  | 0, _, s => s
  | n + 1, pooled, s =>
    startConnectingTasks n pooled.tail (startConnection .connector (pooled.headD false) s)

def chk2BeginConnecting (cfg : Config χ) (pooled : List Bool) (s : State χ) : State χ :=
  if s.connectionsScheduled then s
  else { startConnectingTasks cfg.tasksPoolSize pooled s with connectionsScheduled := true }

/-- Whether `getSuccessfulTopTask` takes a failure for a lost connection. -/
def isRetried (cfg : Config χ) : Exception → Bool
  | .systemError => cfg.isSafeToReconnect
  | _ => false

/-- `getSuccessfulTopTask( false )`: the top task unless there is none or
it is waiting for its reconnect. -/
def getSuccessfulTopTask (cfg : Config χ) (retry : Retry) (s : State χ) :
    State χ × Except Exception (Option (TransferTask χ)) :=
  match s.ready with
  | [] => (s, .ok none)
  | top :: rest =>
    if s.stopRequested then (s, .error .operationAborted)
    else
      match top.exception with
      | none => (s, .ok (some top))
      | some exception =>
        if s.reconnecting then (s, .ok none)
        else if !s.isDroppedConnection && !isRetried cfg exception then (s, .error exception)
        else
          match retry with
          | .exhausted => ({ s with isDroppedConnection := true }, .error .noConnection)
          | .later => ({ s with isDroppedConnection := true }, .ok none)
          | .now pooled =>
            (startConnection .reconnector pooled
              { s with
                isDroppedConnection := true
                reconnecting := true
                ready := { top with isAuthenticated := false } :: rest }, .ok none)

/-! ## Ready transfer tasks -/

section

variable [DecidableEq χ]

/-- `handleReadyTaskImpl`: the task with what it has handed on, or `none`
when the next unit does not take it. -/
def handleReadyTaskImpl (cfg : Config χ) (notifyOnNext : Notification)
    (sessionsFlushRequested : Bool) (t : TransferTask χ) :
    Except Exception (Option (TransferTask χ × List (Item χ))) :=
  match cfg.kind with
  | .transmitter => .ok (some (t, []))
  | .receiver =>
    if t.chunkData.isSome then
      match notifyOnNext with
      | .thrown exception => .error exception
      | .refused => .ok none
      | .accepted => .ok (some (t.detachChunkData.setChunkId .nil, [(t.chunkId, t.chunkData)]))
    else .ok (some (t, []))
  | .deleter =>
    if t.chunkId ≠ .nil ∧ t.isCompleted = true ∧ sessionsFlushRequested = false then
      match notifyOnNext with
      | .thrown exception => .error exception
      | .refused => .ok none
      | .accepted => .ok (some (t.setChunkId .nil, [(t.chunkId, none)]))
    else .ok (some (t, []))

/-- `handleReadyTask`; all that the transmitter does with a ready task is
`chk2ReturnChunkInThePool`. -/
def handleReadyTask (cfg : Config χ) (notifyOnNext : Notification)
    (sessionsFlushRequested : Bool) (t : TransferTask χ) :
    Except Exception (Option (TransferTask χ × List (Item χ))) :=
  if cfg.kind = .transmitter ∨ t.blockType = .authentication then
    .ok (some (t.detachChunkData, []))
  else handleReadyTaskImpl cfg notifyOnNext sessionsFlushRequested t

/-- `waitForReadyTask( false )`: the top task, which can take a command. -/
def waitForReadyTask (cfg : Config χ) (turn : Turn) (s : State χ) :
    State χ × Except Exception (Option (TransferTask χ)) :=
  match getSuccessfulTopTask cfg turn.retry s with
  | (s, .ok (some top)) =>
    match handleReadyTask cfg turn.notifyOnNext s.sessionsFlushRequested top with
    | .error exception => (s, .error exception)
    | .ok none => (s, .ok none)
    | .ok (some (t, items)) =>
      ({ s with ready := t :: s.ready.tail, delivered := s.delivered ++ items }, .ok (some t))
  | (s, result) => (s, result)

/-- The end of `chk2ScheduleBlockForTransfer` and of
`chk2ScheduleChunkForDownload`: a postponed chunk goes before the new one. -/
def scheduleChunk (cfg : Config χ) (chunkId : ChunkId χ) (chunkData : Option (Data χ))
    (t : TransferTask χ) (s : State χ) : State χ × Bool :=
  match s.postponedDataChunks with
  | [] =>
    ({ s with ready := s.ready.tail }.pushBack
      (t.setCommandInfo cfg.commandId chunkId chunkData .normal), true)
  | (failedId, failedData) :: postponed =>
    ({ s with ready := s.ready.tail, postponedDataChunks := postponed }.pushBack
      (t.setCommandInfo cfg.commandId failedId (cfg.sentData failedData) .normal), false)

/-- `chk2ScheduleBlockForTransfer` with a value and
`chk2ScheduleChunkForDownload`. -/
def chk2ScheduleChunk (cfg : Config χ) (turn : Turn) (chunkId : ChunkId χ)
    (chunkData : Option (Data χ)) (s : State χ) : State χ × Except Exception Bool :=
  match waitForReadyTask cfg turn s with
  | (s, .error exception) => (s, .error exception)
  | (s, .ok none) => (s, .ok false)
  | (s, .ok (some t)) =>
    let (s, result) := scheduleChunk cfg chunkId chunkData t s
    (s, .ok result)

/-- The task with the block of the context in it. The chunk it was to
transfer, if any, is kept for later. -/
def scheduleAuthenticationTask (t : TransferTask χ) (s : State χ) : State χ :=
  State.pushBack (t.setCommandInfo .sendChunk .nil (some .authentication) .authentication)
    (if t.chunkId = .nil then s
    else { s with postponedDataChunks := s.postponedDataChunks ++ [(t.chunkId, t.chunkData)] })

/-- `tidyUpTaskOnFailure`; only a receiver has data to discard. -/
def tidyUpTaskOnFailure (cfg : Config χ) (sessionsFlushRequested : Bool) (t : TransferTask χ) :
    TransferTask χ :=
  (if cfg.commandId = .receiveChunk then t.detachChunkData else t).setCommandId
    (if sessionsFlushRequested then .flushPeerSessions else cfg.commandId)

def tidyUpTransferTaskOnFailure (cfg : Config χ) (sessionsFlushRequested : Bool)
    (t : TransferTask χ) : TransferTask χ :=
  if t.blockType = .authentication then t.setChunkId .nil
  else tidyUpTaskOnFailure cfg sessionsFlushRequested t

/-! ## Ready child tasks -/

/-- `pushReadyTask` of `m_reconnectTask` when it has succeeded. A task whose
first connect had failed has no command to repeat. -/
def reconnected (cfg : Config χ) (s : State χ) : State χ :=
  match s.ready with
  | [] => s
  | top :: rest =>
    if top.isBootstrapped then
      let t := tidyUpTransferTaskOnFailure cfg s.sessionsFlushRequested top.attachStream
      if cfg.authenticationRequired then scheduleAuthenticationTask t { s with ready := rest }
      else { s with ready := rest }.pushBack t
    else
      { s with
        ready := { top.attachStream.markCompleted none with isBootstrapped := true } :: rest }

/-- `pushReadyTask` of a connector: a new transfer task takes its stream. -/
def connected (cfg : Config χ) (result : Option Exception) (s : State χ) : State χ :=
  match result with
  | some exception =>
    { s with ready := s.ready ++ [TransferTask.create.markCompleted (some exception)] }
  | none =>
    if cfg.authenticationRequired then
      scheduleAuthenticationTask { TransferTask.create with isBootstrapped := true } s
    else { s with ready := s.ready ++ [{ TransferTask.create with isBootstrapped := true }] }

/-- `hasMoreWork` of the scheduler. -/
def hasMoreWork (s : State χ) : Bool :=
  match s.chunksIterator with
  | none => true
  | some rest => !rest.isEmpty || !s.chunksQueue.isEmpty

/-- `pushReadyTask` of the scheduler when no chunk can be scheduled now. -/
def rescheduleScheduler (s : State χ) : State χ :=
  if hasMoreWork s then
    { s with
      childReady := s.childReady.tail
      childExecuting := s.childExecuting ++ [.scheduler] }
  else { s with childReady := s.childReady.tail, inputDisconnected := true }

/-- `pushReadyTask` of the scheduler, one chunk at a time: while chunks can
be scheduled it stays the top task. -/
def pushScheduler (cfg : Config χ) (turn : Turn) (s : State χ) : State χ × Progress :=
  if s.schedulerCanceled then ({ s with childReady := s.childReady.tail }, .waits)
  else
    match s.chunksQueue with
    | [] => (rescheduleScheduler s, .waits)
    | chunkId :: queue =>
      match chk2ScheduleChunk cfg turn (.chunk chunkId) none s with
      | (s, .error exception) => (s, .thrown exception)
      | (s, .ok false) => (rescheduleScheduler s, .waits)
      | (s, .ok true) => ({ s with chunksQueue := queue }, .waits)

/-- `pushReadyTask` of a top task, which is popped unless it is the
scheduler. -/
def pushReadyTask (cfg : Config χ) (turn : Turn) (task : ChildTask) (result : Option Exception)
    (s : State χ) : State χ × Progress :=
  match task, result with
  | .scheduler, _ => pushScheduler cfg turn s
  | .reconnector, none =>
    ({ reconnected cfg s with
      childReady := s.childReady.tail, reconnecting := false, isDroppedConnection := false },
      .waits)
  | .reconnector, some _ =>
    ({ s with childReady := s.childReady.tail, reconnecting := false }, .waits)
  | .connector, result =>
    ({ connected cfg result s with childReady := s.childReady.tail }, .waits)

/-! ## Unwinding -/

/-- `m_fsmd -> finalize()`. -/
def finalize (s : State χ) : State χ :=
  { s with
    finalizedAt := some
      { stopRequested := s.stopRequested
        exception := s.exception
        dispatchedException := s.dispatchedException
        inputDisconnected := s.inputDisconnected
        accepted := s.accepted
        acknowledged := s.acknowledged } }

/-- What the transmitter does at the end of an unforced
`unwindWorkerTasks`. -/
def chk2Finalize (cfg : Config χ) (s : State χ) : State χ :=
  if cfg.kind = .transmitter ∧ s.workersEmpty = true ∧ s.postponedDataChunks.isEmpty = true ∧
      s.finalizedAt.isNone = true then finalize s
  else s

/-- The body of the loop of an unforced `unwindWorkerTasks` for the top
task: it takes a postponed chunk (`tryRearmPostponedChunk`), it flushes the
sessions when it is the last one, or its connection goes back to the pool. -/
def unwindTask (cfg : Config χ) (t : TransferTask χ) (s : State χ) : State χ :=
  match s.postponedDataChunks with
  | (chunkId, chunkData) :: postponed =>
    { s with ready := s.ready.tail, postponedDataChunks := postponed }.pushBack
      (t.detachChunkData.setCommandInfo cfg.commandId chunkId chunkData .normal)
  | [] =>
    if cfg.flushesSessions && s.ready.tail.isEmpty && s.executing.isEmpty &&
        !s.sessionsFlushRequested then
      { s with ready := s.ready.tail, sessionsFlushRequested := true }.pushBack
        (t.setCommandInfo .flushPeerSessions .nil none .normal)
    else { s with ready := s.ready.tail }

/-- `flushAllPendingTasks` with `unwindWorkerTasks`, which is forced when
the unit is failing. -/
def flushAllPendingTasks (cfg : Config χ) (turn : Turn) (s : State χ) : State χ × Progress :=
  if s.exception.isSome then
    (s.cancelWorkers, if s.cancelWorkers.workersEmpty then .done else .waits)
  else
    match waitForReadyTask cfg turn s with
    | (s, .error exception) => (s, .thrown exception)
    | (s, .ok (some t)) => (unwindTask cfg t s, .waits)
    | (s, .ok none) =>
      (chk2Finalize cfg s, if (chk2Finalize cfg s).workersEmpty then .done else .waits)

/-! ## The loop -/

/-- `chk2LoopUntilDoneInternal`, from where there is no child task to
push. -/
def chk2Disconnect (cfg : Config χ) (turn : Turn) (s : State χ) : State χ × Progress :=
  if s.childrenEmpty && (s.isShuttingDown || !s.isWaitingExternalInput) then
    match flushAllPendingTasks cfg turn s with
    | (s, .done) => ({ s with phase := .disconnected }, .done)
    | (s, progress) => (s, progress)
  else (s, .waits)

def chk2LoopUntilDoneInternal (cfg : Config χ) (turn : Turn) (s : State χ) :
    State χ × Progress :=
  if s.phase ≠ .processing then (s, .done)
  else if s.stopRequested || s.exception.isSome then chk2Disconnect cfg turn s.cancelChildren
  else
    match s.childReady with
    | (task, result) :: _ => pushReadyTask cfg turn task result s
    | [] => chk2Disconnect cfg turn s

/-- `chk2InitAndBeginProcessing`; the transmitter has no seeding task. -/
def chk2InitAndBeginProcessing (cfg : Config χ) (s : State χ) : State χ :=
  if s.phase = .created then
    { s with
      phase := .processing
      childExecuting := if cfg.kind = .transmitter then [] else [.scheduler] }
  else s

/-- The end of `run()` for an error: `setExceptionInternal`, `requestStop`
and `m_notifyCompleteOnError`. -/
def failWith (exception : Exception) (s : State χ) : State χ :=
  { s with exception := some exception, notifyCompleteOnError := true }.requestStop

/-- `notifyOnComplete`. -/
def notifyOnComplete (turn : Turn) (s : State χ) : State χ :=
  match turn.notifyOnComplete with
  | some exception => failWith exception { s with completed := true }
  | none => { s with completed := true }

/-- `run()` of a unit which is not completed nor failing. -/
def process (cfg : Config χ) (turn : Turn) (s : State χ) : State χ :=
  match chk2LoopUntilDoneInternal cfg turn (chk2InitAndBeginProcessing cfg s) with
  | (s, .waits) => s
  | (s, .thrown exception) => failWith exception s
  | (s, .done) =>
    match s.exception with
    | some exception => failWith exception s
    | none => notifyOnComplete turn s

def chk2WaitAllEvents2Flush (cfg : Config χ) (turn : Turn) (s : State χ) : State χ :=
  match chk2LoopUntilDoneInternal cfg turn
      (if s.exception.isSome then s.cancelWorkers else s) with
  | (s, .done) =>
    let exception := s.exception <|> turn.subscribers
    let s := { s with exception := exception }
    if turn.areAllEventsFlushed then
      { s with
        finished := some
          (exception <|> if s.stopRequested then some .operationAborted else none) }
    else s
  | (s, _) => s

def run (cfg : Config χ) (turn : Turn) (s : State χ) : State χ :=
  if s.completed then chk2WaitAllEvents2Flush cfg turn s
  else if s.notifyCompleteOnError then { s with completed := true }
  else
    match s.dispatchedException, turn.subscribers with
    | some exception, _ => failWith exception { s with dispatchedException := none }
    | none, some exception => failWith exception s
    | none, none => process cfg turn s

/-! ## The other threads -/

/-- `MAX_CHILD_TASKS_PENDING`. -/
def maxChildTasksPending : Nat := 32 * 1024

/-- `verifyInputInternal`, as far as it does not throw. -/
def verifyInputInternal (s : State χ) : Bool :=
  s.phase ≠ .created && decide (s.childReady.length + s.childExecuting.length <
    maxChildTasksPending)

/-- `onChunkArrived`; what it throws is the caller's. -/
def onChunkArrived (cfg : Config χ) (turn : Turn) (pooled : List Bool) (chunk : χ)
    (s : State χ) : State χ :=
  if s.exception.isSome || s.stopRequested then s
  else if !verifyInputInternal s then s
  else
    match chk2ScheduleChunk cfg turn (.chunk chunk) (some (.content (.chunk chunk)))
        (chk2BeginConnecting cfg pooled s) with
    | (s, .ok true) => { s with accepted := s.accepted ++ [chunk] }
    | (s, _) => s

/-- What a transfer task that ends has achieved. -/
def recordCompletion (t : TransferTask χ) (completion : Completion) (s : State χ) : State χ :=
  match t.commandId, t.blockType with
  | .noCommand, _ | _, .authentication => s
  | .flushPeerSessions, .normal =>
    match completion with
    | .succeeded => { s with flushes := s.flushes + 1 }
    | .failed _ _ => s
  | _, .normal =>
    match completion with
    | .succeeded =>
      { s with
        acknowledged := s.acknowledged ++ [(t.chunkId, (t.completed .succeeded).chunkData)]
        flushes := 0 }
    | .failed _ _ => { s with flushes := 0 }

/-- `MAX_CHUNKS_QUEUE_SIZE`. -/
def maxChunksQueueSize : Nat := 10 * 1024

/-- `onExecute` of the scheduler. -/
def onExecute (cfg : Config χ) (pooled : List Bool) (s : State χ) : State χ :=
  if s.schedulerCanceled then s
  else if s.schedulerConnects then
    startConnectingTasks cfg.tasksPoolSize pooled { s with schedulerConnects := false }
  else
    let chunks := s.chunksIterator.getD cfg.chunks
    let room := maxChunksQueueSize - s.chunksQueue.length
    { s with
      chunksIterator := some (chunks.drop room)
      chunksQueue := s.chunksQueue ++ chunks.take room }

/-- The iterations of `run()`, the calls which other units and the owner of
the unit make, and the tasks of the two queues as they complete. -/
inductive Label (χ : Type) where
  | run (turn : Turn)
  | onChunkArrived (turn : Turn) (pooled : List Bool) (chunk : χ)
  | onInputCompleted
  | dispatchException (exception : Exception)
  | requestCancel
  | workerCompleted (i : Nat) (completion : Completion)
  | childCompleted (i : Nat) (result : Option Exception) (pooled : List Bool)
  deriving DecidableEq

/-- A unit which has ended takes no step. Chunks arrive at a transmitter
only, and before its input is completed. -/
def step (cfg : Config χ) (s : State χ) (label : Label χ) : Option (State χ) :=
  if s.finished.isSome then none
  else
    match label with
    | .run turn => some (run cfg turn s)
    | .onChunkArrived turn pooled chunk =>
      if cfg.kind = .transmitter ∧ s.inputDisconnected = false then
        some (onChunkArrived cfg turn pooled chunk s)
      else none
    | .onInputCompleted =>
      if cfg.kind = .transmitter then some { s with inputDisconnected := true } else none
    | .dispatchException exception =>
      some { s with dispatchedException := s.dispatchedException <|> some exception }
    | .requestCancel => some s.requestStop
    | .workerCompleted i completion =>
      s.executing[i]?.map fun t =>
        recordCompletion t completion
          { s with
            executing := s.executing.eraseIdx i
            ready := s.ready ++ [t.completed completion] }
    | .childCompleted i result pooled =>
      s.childExecuting[i]?.map fun task =>
        match task with
        | .scheduler =>
          let s := onExecute cfg pooled s
          { s with
            childExecuting := s.childExecuting.eraseIdx i
            childReady := s.childReady ++ [(task, none)] }
        | .connector | .reconnector =>
          { s with
            childExecuting := s.childExecuting.eraseIdx i
            childReady := s.childReady ++ [(task, result)] }

end

end Baselib.Transfer.ChunksSendRecv
