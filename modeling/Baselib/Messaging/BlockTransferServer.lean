/-
Baselib.Messaging.BlockTransferServer — the commands of a connection to
the block server, `TcpBlockTransferServerConnection` of
`messaging/TcpBlockTransferServer.h`.

`onCommandRead` serves one command block, from the read of the block to
the read of the next, and gives what goes over the stream meanwhile. The
operations of the backend it waits for are decided by the environment
(`Backend`). An exception that leaves a handler ends the connection, and
with it the run. A command block is what it is after `network2Host` on a
little endian host, where the low half of `reserved1` is `blockInfo.flags`
and all of it is `version.value`; the fields which are only sent back are
left out. `loadedFor` is what the backend has loaded a data block for; the
code does not keep it.
-/
import Baselib.Lib.Octets
import Baselib.Lib.Transition

namespace Baselib.Messaging.BlockTransferServer

open Lib

/-! ## Command blocks -/

namespace BlockType

def normal : UInt16 := 0
def authentication : UInt16 := 1
def serverState : UInt16 := 2
def transferOnly : UInt16 := 3
def count : UInt16 := 4

end BlockType

namespace CntrlCode

def getProtocolVersion : UInt16 := 1
def setProtocolVersion : UInt16 := 2
def getDataBlockSize : UInt16 := 3
def getDataBlock : UInt16 := 4
def putDataBlock : UInt16 := 5
def removeDataBlock : UInt16 := 6
def peerSessionsDataFlushRequest : UInt16 := 7

end CntrlCode

/-- `BLOB_TRANSFER_PROTOCOL_SERVER_VERSION`. -/
def serverVersion : UInt32 := 2

def ackBit : UInt16 := 1
def errBit : UInt16 := 2
def ignoreIfNotFound : UInt16 := 1

/-- `CommandBlock`, with `data` seen as `reserved`. -/
structure CommandBlock (υ : Type) where
  cntrlCode : UInt16
  flags : UInt16
  errorCode : UInt32
  peerId : υ
  chunkId : υ
  chunkSize : UInt32
  reserved1 : UInt32
  protocolDataOffset : UInt32
  blockType : UInt16
  deriving DecidableEq

section

variable {υ : Type}

/-- `data.blockInfo.flags`. -/
def CommandBlock.blockFlags (command : CommandBlock υ) : UInt16 := command.reserved1.toUInt16

/-- `data.blockInfo.unused`. -/
def CommandBlock.unused (command : CommandBlock υ) : UInt16 := (command.reserved1 >>> 16).toUInt16

def CommandBlock.isError (command : CommandBlock υ) : Bool := command.flags &&& errBit != 0

def CommandBlock.isVersion (command : CommandBlock υ) : Bool :=
  command.cntrlCode == CntrlCode.getProtocolVersion ||
    command.cntrlCode == CntrlCode.setProtocolVersion

/-- `setErrorCode`. -/
def CommandBlock.setErrorCode (command : CommandBlock υ) (errorCode : UInt32) : CommandBlock υ :=
  { command with errorCode := errorCode, flags := command.flags ||| errBit }

/-- The exceptions which end the connection; `asyncOperation` is one that
an operation of the backend has failed with. -/
inductive Failure (υ : Type) where
  | unusedNotZero (unused : UInt16)
  | invalidChunkSize
  | noDataBlock
  | largerThanCapacity (size : UInt32)
  | blockSize (size capacity offset1 : Nat)
  | unexpectedSize (size : Nat) (chunkId : υ) (chunkSizeExpected : UInt32)
  | blockOffset (offset1 size : Nat)
  | invalidBlockType
  | asyncOperation
  deriving DecidableEq

/-- A `DataBlock`; its memory is as long as its capacity. -/
structure DataBlock (υ : Type) where
  memory : Octets
  size : Nat
  offset1 : Nat
  loadedFor : Option (υ × UInt16)
  size_le : size ≤ memory.length
  deriving DecidableEq

def DataBlock.capacity (data : DataBlock υ) : Nat := data.memory.length

/-- What `begin()` and `size()` delimit. -/
def DataBlock.octets (data : DataBlock υ) : Octets := data.memory.take data.size

def DataBlock.setSizeChecked (data : DataBlock υ) (size : Nat) :
    Except (Failure υ) (DataBlock υ) :=
  if h : size ≤ data.memory.length ∧ data.offset1 ≤ size then
    .ok { data with size := size, size_le := h.1 }
  else .error (.blockSize size data.capacity data.offset1)

def DataBlock.setOffset1Checked (data : DataBlock υ) (offset1 : Nat) :
    Except (Failure υ) (DataBlock υ) :=
  if offset1 ≤ data.size then .ok { data with offset1 := offset1 }
  else .error (.blockOffset offset1 data.size)

/-! ## The connection -/

/-- How an operation of the backend completes: `serverError` is a
`ServerErrorException` with the error it carries, by `errinfo_errno` or as
an error code of the generic category. -/
inductive AsyncResult where
  | completed
  | serverError (errorNo genericErrorCode : Option Int)
  | failed
  deriving DecidableEq

/-- What the environment decides while a command is served: the results of
`Alloc` or `SecureAlloc`, of `Get` or `GetServerState`, each with the data
block there is afterwards, of the commands, and of the operation on the
data of a `PutDataBlock`. -/
structure Backend (υ : Type) where
  alloc : AsyncResult × Option (DataBlock υ)
  load : AsyncResult × Option (DataBlock υ)
  command : AsyncResult
  put : AsyncResult
  deriving DecidableEq

structure Parameters (υ : Type) where
  nil : υ
  peerId : υ
  isAuthenticationRequired : Option (UInt16 → UInt16 → Bool)
  authenticationCallback : Bool

/-- The operation and its state. -/
structure Operation (υ : Type) where
  chunkId : υ
  blockType : UInt16
  protocolDataSize : UInt32
  data : Option (DataBlock υ)
  deriving DecidableEq

/-- What goes over the stream between two commands. -/
inductive Transfer (υ : Type) where
  | acknowledgement (block : CommandBlock υ)
  | sent (data : DataBlock υ)
  | received (octets : Nat)
  deriving DecidableEq

/-- `log` are the commands and what has been transferred for each. -/
structure State (υ : Type) where
  operation : Option (Operation υ)
  operationDataValid : Bool
  chunkId : υ
  remotePeerId : υ
  clientProtocolVersion : UInt32
  isClientAuthenticated : Bool
  noOfBlocksTransferred : Nat
  log : List (CommandBlock υ × List (Transfer υ))
  deriving DecidableEq

/-- The connection when its task is scheduled. -/
def State.initial (p : Parameters υ) : State υ := ⟨none, false, p.nil, p.nil, 0, false, 0, []⟩

/-- What a handler comes to: an exception, or what has been transferred and
the connection before the next command is read. -/
abbrev Served (υ : Type) : Type := Except (Failure υ) (List (Transfer υ) × State υ)

variable [DecidableEq υ]

/-! ## Operations and responses -/

def State.releaseOperation (s : State υ) : State υ :=
  { s with
    operation := none
    operationDataValid := if s.operation.isSome then false else s.operationDataValid }

/-- The operation which is created for a command. -/
def CommandBlock.operation (command : CommandBlock υ) (chunkId : υ) : Operation υ :=
  ⟨chunkId, command.blockType, command.protocolDataOffset, none⟩

/-- `createOperation`. -/
def State.createOperation (s : State υ) (operation : Operation υ) : State υ :=
  { s.releaseOperation with operation := some operation, operationDataValid := false }

/-- The block `scheduleResponseCommand` writes. -/
def response (p : Parameters υ) (command : CommandBlock υ) (s : State υ) : CommandBlock υ :=
  { command with
    flags := command.flags ||| ackBit
    peerId := if command.isVersion then p.peerId else s.remotePeerId }

/-- `scheduleReadCommand`, without the read. -/
def State.readCommand (s : State υ) (newCommand : Bool) : State υ :=
  if newCommand then s.releaseOperation else s

/-- `scheduleResponseCommand` with `onTransferCompleted`. -/
def scheduleResponseCommand (p : Parameters υ) (newCommand : Bool) (command : CommandBlock υ)
    (s : State υ) : Served υ :=
  .ok ([.acknowledgement (response p command s)], s.readCommand newCommand)

/-- `errorValue` of `chk4ServerErrors`, before any error is ignored. -/
def errorValue (errorNo genericErrorCode : Option Int) : UInt32 :=
  let errorValue := (errorNo.map UInt32.ofInt).getD 0
  if errorValue = 0 then (genericErrorCode.map UInt32.ofInt).getD 0 else errorValue

/-- `no_such_file_or_directory`. -/
def noSuchFileOrDirectory : UInt32 := 2

def chk4ServerErrors (command : CommandBlock υ) :
    AsyncResult → Except (Failure υ) (CommandBlock υ)
  | .completed => .ok command
  | .failed => .error .asyncOperation
  | .serverError errorNo genericErrorCode =>
    let errorValue := errorValue errorNo genericErrorCode
    if errorValue = 0 || command.cntrlCode == CntrlCode.removeDataBlock &&
        command.blockFlags &&& ignoreIfNotFound != 0 && errorValue == noSuchFileOrDirectory then
      .ok command
    else .ok (command.setErrorCode errorValue)

/-- `chkAsyncResult`, and what follows it when it answers true. -/
def chkAsyncResult (p : Parameters υ) (result : AsyncResult) (command : CommandBlock υ)
    (s : State υ) (proceed : CommandBlock υ → Served υ) : Served υ :=
  match chk4ServerErrors command result with
  | .error failure => .error failure
  | .ok command =>
    if command.isError then scheduleResponseCommand p true command s else proceed command

/-- `onAsyncCommandCompleted`. -/
def onAsyncCommandCompleted (p : Parameters υ) (result : AsyncResult) (command : CommandBlock υ)
    (s : State υ) : Served υ :=
  chkAsyncResult p result command s fun command => scheduleResponseCommand p true command s

/-- The size an allocated block is given. -/
def allocatedSize (operation : Operation υ) (size : UInt32) (data : DataBlock υ) :
    Except (Failure υ) (DataBlock υ) :=
  if operation.blockType == BlockType.transferOnly && size == 0 then
    .ok { data with size := data.memory.length, size_le := le_refl _ }
  else data.setSizeChecked size.toNat

def onChunkAllocated (p : Parameters υ) (size : UInt32) (result : AsyncResult)
    (allocated : Option (DataBlock υ)) (command : CommandBlock υ) (operation : Operation υ)
    (s : State υ) (postAllocCallback : CommandBlock υ → DataBlock υ → Served υ) : Served υ :=
  chkAsyncResult p result command s fun command =>
    match allocated with
    | none => .error .noDataBlock
    | some data =>
      if data.capacity < size.toNat then .error (.largerThanCapacity size)
      else
        match allocatedSize operation size data with
        | .error failure => .error failure
        | .ok data => postAllocCallback command data

/-! ## Loading a chunk -/

/-- The data block after the operation which is to load it. -/
def DataBlock.loadedBy (data : DataBlock υ) (result : AsyncResult) (operation : Operation υ) :
    DataBlock υ :=
  { data with
    loadedFor :=
      if result = .completed then some (operation.chunkId, operation.blockType) else none }

def respond2GetSize (p : Parameters υ) (command : CommandBlock υ) (s : State υ) : Served υ :=
  let size :=
    match s.operation.bind Operation.data with
    | some data => if s.operationDataValid && !command.isError then data.size else 0
    | none => 0
  scheduleResponseCommand p false { command with chunkSize := UInt32.ofNat size } s

/-- The response to a `GetDataBlock` and `onGetDataAck`. -/
def respond2Get (p : Parameters υ) (command : CommandBlock υ) (data : DataBlock υ)
    (s : State υ) : Served υ :=
  .ok ([.acknowledgement (response p command s), .sent data], s.readCommand true)

def handleChunkLoaded (p : Parameters υ) (chunkSizeExpected : UInt32) (result : AsyncResult)
    (loaded : Option (DataBlock υ)) (command : CommandBlock υ) (operation : Operation υ)
    (s : State υ) : Served υ :=
  chkAsyncResult p result command s fun command =>
    match loaded with
    | none => .error .invalidChunkSize
    | some data =>
      if data.size = 0 then .error .invalidChunkSize
      else
        let s :=
          { s with
            operation := some { operation with data := some data }
            chunkId := command.chunkId
            operationDataValid := true }
        if chunkSizeExpected ≠ 0 then
          if chunkSizeExpected.toNat = data.size then respond2Get p command data s
          else .error (.unexpectedSize data.size command.chunkId chunkSizeExpected)
        else respond2GetSize p command s

/-- The last chunk is still there, for the same chunk id. -/
def State.isLoaded (s : State υ) (command : CommandBlock υ) : Bool :=
  command.chunkId == s.chunkId && s.operationDataValid

/-- `chk2LoadChunk`, when the chunk has to be loaded. -/
def loadChunk (p : Parameters υ) (backend : Backend υ) (chunkSizeExpected : UInt32)
    (command : CommandBlock υ) (s : State υ) : Served υ :=
  let operation := command.operation command.chunkId
  let s := s.createOperation operation
  onChunkAllocated p 0 backend.alloc.1 backend.alloc.2 command operation s fun command data =>
    if command.blockType == BlockType.transferOnly then
      handleChunkLoaded p chunkSizeExpected .completed
        (some (data.loadedBy backend.alloc.1 operation)) command operation s
    else
      handleChunkLoaded p chunkSizeExpected backend.load.1
        (backend.load.2.map fun data => data.loadedBy backend.load.1 operation) command operation s

/-! ## The commands -/

/-- The version of `scheduleGetSetProtocolVersion`, set or answered. -/
def State.negotiate (s : State υ) (command : CommandBlock υ) : CommandBlock υ × State υ :=
  if command.cntrlCode == CntrlCode.setProtocolVersion then
    -- `protocol_not_supported`
    if serverVersion < command.reserved1 then (command.setErrorCode 93, s)
    else (command, { s with clientProtocolVersion := command.reserved1 })
  else ({ command with reserved1 := serverVersion }, s)

/-- The peer id the remote declares, unless it is the server's own. -/
def State.learnPeerId (s : State υ) (p : Parameters υ) (command : CommandBlock υ) : State υ :=
  if !command.isError && command.peerId ≠ s.remotePeerId &&
      !(command.peerId ≠ p.nil && command.peerId = p.peerId) then
    { s with remotePeerId := command.peerId }
  else s

def scheduleGetSetProtocolVersion (p : Parameters υ) (command : CommandBlock υ) (s : State υ) :
    Served υ :=
  let (command, s) := s.negotiate command
  scheduleResponseCommand p true command (s.learnPeerId p command)

def scheduleGetSizeorRemoveRequest (p : Parameters υ) (backend : Backend υ)
    (command : CommandBlock υ) (s : State υ) : Served υ :=
  if command.cntrlCode == CntrlCode.removeDataBlock then
    if command.blockType == BlockType.transferOnly then scheduleResponseCommand p true command s
    else
      onAsyncCommandCompleted p backend.command command
        (s.createOperation (command.operation command.chunkId))
  else if s.isLoaded command then respond2GetSize p command s
  else loadChunk p backend 0 command s

def scheduleGetRequest (p : Parameters υ) (backend : Backend υ) (command : CommandBlock υ)
    (s : State υ) : Served υ :=
  if s.isLoaded command then
    match s.operation.bind Operation.data with
    | some data => respond2Get p command data s
    | none => .error .noDataBlock
  else loadChunk p backend command.chunkSize command s

/-- `onChunkDataProcessed`; `command` is the block as it was acknowledged. -/
def onChunkDataProcessed (p : Parameters υ) (result : AsyncResult) (command : CommandBlock υ)
    (operation : Operation υ) (s : State υ) : Served υ :=
  let isAuthentication := operation.blockType == BlockType.authentication
  match chk4ServerErrors command result with
  | .error failure => .error failure
  | .ok command =>
    if command.isError then
      scheduleResponseCommand p true command
        { s with isClientAuthenticated := !isAuthentication && s.isClientAuthenticated }
    else
      .ok ([.acknowledgement { command with peerId := s.remotePeerId }],
        State.readCommand
          { s with
            isClientAuthenticated := isAuthentication || s.isClientAuthenticated
            noOfBlocksTransferred := s.noOfBlocksTransferred + 1 } true)

/-- `onChunkReceived`, which picks the operation on the data. -/
def onChunkReceived (p : Parameters υ) (backend : Backend υ) (command : CommandBlock υ)
    (operation : Operation υ) (data : DataBlock υ) (s : State υ) : Served υ :=
  if operation.blockType == BlockType.normal then
    match data.setOffset1Checked operation.protocolDataSize.toNat with
    | .error failure => .error failure
    | .ok data =>
      onChunkDataProcessed p backend.put command operation
        { s with operation := some { operation with data := some data } }
  else if operation.blockType == BlockType.authentication ||
      operation.blockType == BlockType.transferOnly then
    onChunkDataProcessed p backend.put command operation s
  else .error .invalidBlockType

/-- `onPutDataAck`: the data is read after the acknowledgment. -/
def onPutDataAck (p : Parameters υ) (backend : Backend υ) (command : CommandBlock υ)
    (operation : Operation υ) (data : DataBlock υ) (s : State υ) : Served υ :=
  if command.isError then .ok ([.acknowledgement command], s.readCommand true)
  else
    match onChunkReceived p backend command operation data s with
    | .error failure => .error failure
    | .ok (transfers, s) =>
      .ok (.acknowledgement command :: .received data.octets.length :: transfers, s)

def schedulePutRequest (p : Parameters υ) (backend : Backend υ) (command : CommandBlock υ)
    (s : State υ) : Served υ :=
  if command.chunkSize = 0 then .error .invalidChunkSize
  else
    let operation := command.operation command.chunkId
    let s := { s with chunkId := command.chunkId }.createOperation operation
    onChunkAllocated p command.chunkSize backend.alloc.1 backend.alloc.2 command operation s
      fun command data =>
        onPutDataAck p backend (response p command s) operation data
          { s with operation := some { operation with data := some data } }

def clientSessionsDataFlush (p : Parameters υ) (backend : Backend υ) (command : CommandBlock υ)
    (s : State υ) : Served υ :=
  if command.blockType == BlockType.transferOnly then scheduleResponseCommand p true command s
  else
    onAsyncCommandCompleted p backend.command command
      (s.createOperation (command.operation p.nil))

/-! ## Reading commands -/

/-- Why a command is turned away without being scheduled. -/
inductive Refusal where
  | protocolNotSupported
  | permissionDenied
  | authenticationNotSupported
  | invalidArgument
  deriving DecidableEq

/-- The error code of the response. -/
def Refusal.errorCode : Refusal → UInt32
  | .protocolNotSupported => 93
  | .permissionDenied => 13
  | .authenticationNotSupported => 38
  | .invalidArgument => 22

def CommandBlock.isDataBlock (command : CommandBlock υ) : Bool :=
  command.cntrlCode == CntrlCode.getDataBlockSize ||
    command.cntrlCode == CntrlCode.getDataBlock ||
    command.cntrlCode == CntrlCode.putDataBlock ||
    command.cntrlCode == CntrlCode.removeDataBlock

/-- The validation of a data block command. -/
def dataBlockRefusal (p : Parameters υ) (command : CommandBlock υ) : Option Refusal :=
  if BlockType.count ≤ command.blockType then some .invalidArgument
  else if command.blockType == BlockType.normal then
    if command.chunkId = p.nil then some .invalidArgument else none
  else if command.blockType == BlockType.authentication then
    if command.cntrlCode != CntrlCode.putDataBlock then some .invalidArgument
    else if !p.authenticationCallback then some .authenticationNotSupported
    else none
  else if command.blockType == BlockType.serverState then
    if command.cntrlCode != CntrlCode.getDataBlockSize &&
        command.cntrlCode != CntrlCode.getDataBlock then
      some .invalidArgument
    else none
  else none

/-- The checks of `onCommandRead`. -/
def refusal (p : Parameters υ) (command : CommandBlock υ) (s : State υ) : Option Refusal :=
  if s.clientProtocolVersion == 0 && !command.isVersion then some .protocolNotSupported
  else if (p.isAuthenticationRequired.any fun callback =>
      callback command.blockType command.cntrlCode) && !s.isClientAuthenticated then
    some .permissionDenied
  else if command.isDataBlock then dataBlockRefusal p command
  else if command.isVersion || command.cntrlCode == CntrlCode.peerSessionsDataFlushRequest then
    none
  else some .invalidArgument

def scheduleErrorResponse (p : Parameters υ) (r : Refusal) (command : CommandBlock υ)
    (s : State υ) : Served υ :=
  scheduleResponseCommand p true (command.setErrorCode r.errorCode)
    { s with
      isClientAuthenticated := r ≠ .authenticationNotSupported && s.isClientAuthenticated }

/-- The commands, for one which has passed the checks. -/
def schedule (p : Parameters υ) (backend : Backend υ) (command : CommandBlock υ) (s : State υ) :
    Served υ :=
  if command.isVersion then scheduleGetSetProtocolVersion p command s
  else if command.cntrlCode == CntrlCode.removeDataBlock ||
      command.cntrlCode == CntrlCode.getDataBlockSize then
    scheduleGetSizeorRemoveRequest p backend command s
  else if command.cntrlCode == CntrlCode.getDataBlock then
    scheduleGetRequest p backend command s
  else if command.cntrlCode == CntrlCode.putDataBlock then schedulePutRequest p backend command s
  else clientSessionsDataFlush p backend command s

def onCommandRead (p : Parameters υ) (backend : Backend υ) (command : CommandBlock υ)
    (s : State υ) : Served υ :=
  -- `network2Host` throws
  if command.unused ≠ 0 then .error (.unusedNotZero command.unused)
  else
    match refusal p command s with
    | some r => scheduleErrorResponse p r command s
    | none => schedule p backend command s

/-! ## Runs -/

structure Label (υ : Type) where
  command : CommandBlock υ
  backend : Backend υ
  deriving DecidableEq

/-- A command which does not end the connection. -/
def step (p : Parameters υ) (s : State υ) (l : Label υ) : Option (State υ) :=
  match onCommandRead p l.backend l.command s with
  | .error _ => none
  | .ok (transfers, s') => some { s' with log := s.log ++ [(l.command, transfers)] }

end

end Baselib.Messaging.BlockTransferServer
