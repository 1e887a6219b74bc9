/-
Baselib.Messaging.AutoPushConnection — the connection which pushes the
blocks of its queue to the remote,
`TcpBlockTransferClientAutoPushConnectionT` of
`messaging/TcpBlockTransferClient.h`.

The task wraps its connection task or its heartbeat timer. How a run of the
wrapped task ends is decided by the environment: a connection task with a
block in its command ends without an exception when it has read the
remote's acknowledgment of the block, one without a command when the
remote has answered with its peer id. `continuationTask` is cut where it
releases the task lock: its locked section (`completed`), each registry
notification (`notified`), each completion callback (`callback`) and its
return (`resume`). A call of another thread is one section and can come
between any two of these. Completion callbacks do not throw; the time of
the last heartbeat, the log and allocation failures are left out.

`accepted`, `acknowledged` and `completed` record what has happened; the
code does not keep them. A callback is named by the number of blocks
accepted before its own.
-/
import Baselib.Lib.Transition
import Baselib.Messaging.OutgoingBackendState

namespace Baselib.Messaging.AutoPushConnection

open Lib

/-! ## Exceptions -/

/-- An `eh::error_code`. -/
structure ErrorCode where
  isGeneric : Bool
  value : Nat
  deriving DecidableEq

namespace BrokerErrorCodes

def authorizationFailed : Nat := 13
def protocolValidationFailed : Nat := 22
def targetPeerNotFound : Nat := 99
def targetPeerQueueFull : Nat := 105

def isExpectedErrorCode (ec : ErrorCode) : Bool :=
  ec.isGeneric && [authorizationFailed, protocolValidationFailed, targetPeerNotFound,
    targetPeerQueueFull].contains ec.value

end BrokerErrorCodes

/-- What `chkProtocolDataSize` throws. -/
inductive ProtocolDataFailure where
  | tooLarge
  | outsideBlock
  deriving DecidableEq

def ProtocolDataFailure.message : ProtocolDataFailure → Octets
  | .tooLarge => octets "The value of protocolDataOffset does not fit into std::uint32_t"
  | .outsideBlock => octets "The value of protocolDataOffset is larger than the data block size"

/-- The exceptions a run of the task can end with; `serverError` is a
`ServerErrorException` with the error code it holds, if any. -/
inductive Exception (π : Type) where
  | serverError (code : Option ErrorCode)
  | operationAborted
  | protocolData (failure : ProtocolDataFailure)
  | registry (failure : OutgoingBackendState.Failure π)
  | other
  deriving DecidableEq

/-- `BrokerErrorCodes::isExpectedException`. -/
def Exception.isExpected {π : Type} : Exception π → Bool
  | .serverError (some code) => BrokerErrorCodes.isExpectedErrorCode code
  | _ => false

/-- What `tryScheduleBlock` throws once the task is terminated. -/
inductive NotConnectedToBroker where
  | mk
  deriving DecidableEq

def NotConnectedToBroker.message : NotConnectedToBroker → Octets
  | .mk => octets "Messaging client is not connected to messaging broker"

/-! ## The task -/

structure DataBlock where
  size : Nat
  offset1 : Nat
  deriving DecidableEq

def chkProtocolDataSize (dataBlock : DataBlock) : Option ProtocolDataFailure :=
  if 2 ^ 32 ≤ dataBlock.offset1 then some .tooLarge
  else if dataBlock.offset1 ≠ 0 ∧ dataBlock.size < dataBlock.offset1 then some .outsideBlock
  else none

structure DataBlockInfo (π : Type) where
  targetPeerId : π
  dataBlock : DataBlock
  callback : Nat
  deriving DecidableEq

inductive NotifyEventId where
  | register
  | confirm
  | unregister
  deriving DecidableEq

inductive WrappedTask where
  | connectionTask
  | heartbeatTask
  deriving DecidableEq

/-- What `continuationTask` has left to do after its locked section. -/
structure Dispatch (π : Type) where
  notifyEvents : List NotifyEventId
  callbacks : List Nat
  exception : Option (Exception π)
  safeToContinue : Bool
  deriving DecidableEq

/-- `finished` holds the exception that `continuationTask` was left with,
if it was. -/
inductive Phase (π : Type) where
  | created
  | executing
  | dispatching (dispatch : Dispatch π)
  | finished (thrown : Option (Exception π))
  deriving DecidableEq

/-- `dataRawPtr` is the block of the command, if it has one; `notifies` is
whether there is a notify callback. -/
structure Connection (π : Type) where
  peerId : π
  remotePeerId : π
  targetPeerId : π
  notifies : Bool
  pendingQueue : List (DataBlockInfo π)
  wrappedTask : WrappedTask
  dataRawPtr : Option DataBlock
  stopWasRequested : Bool
  heartbeatWasRequested : Bool
  activated : Bool
  originalException : Option (Exception π)
  taskTerminated : Bool
  protocolShutdownInProgress : Bool
  phase : Phase π
  accepted : Nat
  acknowledged : List (Nat × Bool)
  completed : List (Nat × Option (Exception π))
  deriving DecidableEq

/-- `BLOCK_QUEUE_SIZE`. -/
def blockQueueSize : Nat := 128

section

variable {π : Type}

/-- The constructor. -/
def Connection.create (nil peerId : π) (notifies : Bool) : Connection π where
  peerId := peerId
  remotePeerId := nil
  targetPeerId := nil
  notifies := notifies
  pendingQueue := []
  wrappedTask := .connectionTask
  dataRawPtr := none
  stopWasRequested := false
  heartbeatWasRequested := false
  activated := false
  originalException := none
  taskTerminated := false
  protocolShutdownInProgress := false
  phase := .created
  accepted := 0
  acknowledged := []
  completed := []

/-! ## Calls of other threads -/

def tryScheduleBlock (targetPeerId : π) (dataBlock : DataBlock) (c : Connection π) :
    Except NotConnectedToBroker Bool × Connection π :=
  if c.taskTerminated then (.error .mk, c)
  else if blockQueueSize ≤ c.pendingQueue.length then (.ok false, c)
  else
    (.ok true,
      { c with
        pendingQueue := c.pendingQueue ++ [⟨targetPeerId, dataBlock, c.accepted⟩]
        accepted := c.accepted + 1 })

def requestHeartbeat (c : Connection π) : Connection π := { c with heartbeatWasRequested := true }

def requestCancel (c : Connection π) : Connection π := { c with stopWasRequested := true }

/-! ## The run of the wrapped task -/

/-- `scheduleNothrow`; a terminated task is only scheduled for its protocol
shutdown. -/
def scheduleNothrow (c : Connection π) : Option (Connection π) :=
  if c.protocolShutdownInProgress then
    some { c with protocolShutdownInProgress := false, phase := .executing }
  else if c.taskTerminated then none
  else some { c with phase := .executing }

/-- The run renegotiates the version and does nothing else. -/
def Connection.sendsHeartbeat (c : Connection π) : Bool :=
  c.wrappedTask == .connectionTask && c.dataRawPtr.isNone && c.originalException.isNone

/-- The run sends the first block of the queue. -/
def Connection.sendsBlock (c : Connection π) : Bool :=
  c.wrappedTask == .connectionTask && c.dataRawPtr.isSome

/-- How a run can end. That a heartbeat is never answered with an expected
error is asserted in `continuationTask`. -/
def Connection.admits (c : Connection π) (declaredPeerId : Option π)
    (exception : Option (Exception π)) : Bool :=
  if c.sendsHeartbeat then
    (declaredPeerId.isSome || exception.isSome) &&
      (c.stopWasRequested || exception.all fun e => !e.isExpected)
  else declaredPeerId.isNone

section

variable [DecidableEq π]

def isNonNullAndSame (nil uuid1 uuid2 : π) : Bool := uuid1 != nil && uuid1 == uuid2

/-- The part of `handleAckPacket` about the peer id of the remote. -/
def Connection.handleAckPacket (nil : π) (c : Connection π) : Option π → Connection π
  | none => c
  | some peerId =>
    if peerId != c.remotePeerId && !isNonNullAndSame nil peerId c.peerId &&
        !isNonNullAndSame nil peerId c.targetPeerId then
      { c with remotePeerId := peerId }
    else c

end

/-- The remote's acknowledgment of the first block, and whether a stop had
been requested by then. -/
def Connection.acknowledge (c : Connection π) (exception : Option (Exception π)) :
    Connection π :=
  if c.sendsBlock && exception.isNone then
    { c with
      acknowledged := c.acknowledged ++
        (c.pendingQueue.head?.map fun info => (info.callback, c.stopWasRequested)).toList }
  else c

/-! ## `continuationTask` -/

/-- The run is the last one but for the protocol shutdown. -/
def Connection.decidesTermination (c : Connection π) : Option (Exception π) → Bool
  | none => c.stopWasRequested
  | some exception => c.stopWasRequested || !exception.isExpected

/-- The branch of a task which terminates. -/
def Connection.terminate (c : Connection π) (exception : Exception π) (isShutdownNeeded : Bool) :
    Connection π :=
  let notifyEvents := if c.activated && c.notifies then [.unregister] else []
  if isShutdownNeeded then
    { c with
      targetPeerId := c.remotePeerId
      wrappedTask := .connectionTask
      dataRawPtr := none
      activated := false
      originalException := some exception
      taskTerminated := true
      protocolShutdownInProgress := true
      phase := .dispatching ⟨notifyEvents, [], some exception, true⟩ }
  else
    { c with
      pendingQueue := []
      activated := false
      taskTerminated := true
      phase := .dispatching
        ⟨notifyEvents, c.pendingQueue.map (·.callback), some exception, false⟩ }

/-- The events of a run which succeeded. -/
def Connection.notifyEvents (c : Connection π) (exception : Option (Exception π)) :
    List NotifyEventId :=
  if c.wrappedTask == .connectionTask && exception.isNone && c.notifies then
    (if c.activated then [] else [.register]) ++
      (if c.heartbeatWasRequested then [.confirm] else [])
  else []

/-- The callback of the block that was sent. -/
def Connection.sentCallback (c : Connection π) : List Nat :=
  if c.sendsBlock then (c.pendingQueue.head?.map (·.callback)).toList else []

/-- The queue without the block that was sent. -/
def Connection.popSent (c : Connection π) : Connection π :=
  if c.sendsBlock then { c with pendingQueue := c.pendingQueue.tail } else c

def Connection.activate (c : Connection π) (exception : Option (Exception π)) : Connection π :=
  if c.wrappedTask == .connectionTask && exception.isNone then
    { c with activated := true, heartbeatWasRequested := false }
  else c

/-- The command of the next run. -/
def Connection.setCommandInfo (c : Connection π) : Except ProtocolDataFailure (Connection π) :=
  match c.pendingQueue with
  | [] =>
    .ok { c with
      targetPeerId := c.remotePeerId
      dataRawPtr := none
      wrappedTask :=
        if c.wrappedTask = .connectionTask then .heartbeatTask else .connectionTask }
  | info :: _ =>
    match chkProtocolDataSize info.dataBlock with
    | some failure => .error failure
    | none =>
      .ok { c with
        targetPeerId := info.targetPeerId
        dataRawPtr := some info.dataBlock
        wrappedTask := .connectionTask }

/-- The branch of a task which goes on. -/
def Connection.proceed (c : Connection π) (exception : Option (Exception π)) : Connection π :=
  let handled := c.popSent.activate exception
  match handled.setCommandInfo with
  | .error failure => { handled with phase := .finished (some (.protocolData failure)) }
  | .ok next =>
    { next with
      phase := .dispatching ⟨c.notifyEvents exception, c.sentCallback, exception, true⟩ }

/-- The locked section of `continuationTask`, after a run which ended with
the exception. -/
def Connection.continuationTask (c : Connection π) (exception : Option (Exception π))
    (isShutdownNeeded : Bool) : Connection π :=
  let exception := c.originalException <|> exception
  if c.decidesTermination exception then
    c.terminate (exception.getD .operationAborted) isShutdownNeeded
  else c.proceed exception

/-! ## Steps -/

inductive Label (π : Type) where
  | start
  | tryScheduleBlock (targetPeerId : π) (dataBlock : DataBlock)
  | requestHeartbeat
  | requestCancel
  | completed (declaredPeerId : Option π) (exception : Option (Exception π))
      (isShutdownNeeded : Bool)
  | notified (thrown : Option (Exception π))
  | callback
  | resume
  deriving DecidableEq

def Connection.notified (c : Connection π) (dispatch : Dispatch π) :
    Option (Exception π) → Option (Connection π)
  | some exception =>
    match dispatch.notifyEvents with
    | [] => none
    | _ :: _ => some { c with phase := .finished (some exception) }
  | none =>
    match dispatch.notifyEvents with
    | [] => none
    | _ :: events => some { c with phase := .dispatching { dispatch with notifyEvents := events } }

def Connection.callback (c : Connection π) (dispatch : Dispatch π) : Option (Connection π) :=
  match dispatch.notifyEvents, dispatch.callbacks with
  | [], callback :: callbacks =>
    some { c with
      completed := c.completed ++ [(callback, dispatch.exception)]
      phase := .dispatching { dispatch with callbacks := callbacks } }
  | _, _ => none

def Connection.resume (c : Connection π) (dispatch : Dispatch π) : Option (Connection π) :=
  match dispatch.notifyEvents, dispatch.callbacks with
  | [], [] =>
    if dispatch.safeToContinue then scheduleNothrow c
    else some { c with phase := .finished none }
  | _, _ => none

def step [DecidableEq π] (nil : π) (c : Connection π) : Label π → Option (Connection π)
  | .tryScheduleBlock targetPeerId dataBlock => some (tryScheduleBlock targetPeerId dataBlock c).2
  | .requestHeartbeat => some (requestHeartbeat c)
  | .requestCancel => some (requestCancel c)
  | .start =>
    match c.phase with
    | .created => scheduleNothrow c
    | _ => none
  | .completed declaredPeerId exception isShutdownNeeded =>
    match c.phase with
    | .executing =>
      if c.admits declaredPeerId exception then
        some (((c.handleAckPacket nil declaredPeerId).acknowledge exception).continuationTask
          exception isShutdownNeeded)
      else none
    | _ => none
  | .notified thrown =>
    match c.phase with
    | .dispatching dispatch => c.notified dispatch thrown
    | _ => none
  | .callback =>
    match c.phase with
    | .dispatching dispatch => c.callback dispatch
    | _ => none
  | .resume =>
    match c.phase with
    | .dispatching dispatch => c.resume dispatch
    | _ => none

end

end Baselib.Messaging.AutoPushConnection
