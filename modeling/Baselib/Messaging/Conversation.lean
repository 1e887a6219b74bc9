/-
Baselib.Messaging.Conversation — a conversation of asynchronous remote
calls, `ConversationProcessingBaseImpl` of
`messaging/asyncrpc/ConversationProcessingBaseImpl.h`.

Every member gives the exception it throws, if it does, and the
conversation afterwards. `pushMessage` and `onProcessing` are sections of
the object's lock, `tryPopProcessingTask` and `retryProcessingTask` run
while no `onProcessing` does, so a run is a list of them. The label of a
section carries what it reads from outside: the clock, once; the ids of
the messages it creates; and what `processCurrentMessage`, which belongs
to the derived class, does with the members it is offered.

`MessageInfo` without a protocol part is `none`. The type of a message is
read when it is queued, and can be read again later. The payload of a pushed
message arrives as a base object and is cast (`castToPayload`). Times are
microseconds. The authentication token, the data passed through and the
target peer of a message are not read here and left out.
-/
import Baselib.Core.StringUtils
import Baselib.Lib.Transition

namespace Baselib.Messaging.Conversation

open Lib
open Core.Str (quoteString)

/-! ## Messages -/

inductive MessageType where
  | asyncRpcDispatch
  | asyncRpcAcknowledgment
  | asyncNotification
  | backendAssociateTargetPeerId
  | backendDissociateTargetPeerId
  deriving DecidableEq

def MessageType.toString : MessageType → Octets
  | .asyncRpcDispatch => octets "AsyncRpcDispatch"
  | .asyncRpcAcknowledgment => octets "AsyncRpcAcknowledgment"
  | .asyncNotification => octets "AsyncNotification"
  | .backendAssociateTargetPeerId => octets "BackendAssociateTargetPeerId"
  | .backendDissociateTargetPeerId => octets "BackendDissociateTargetPeerId"

def MessageType.tryToEnum (s : Octets) : Option MessageType :=
  [asyncRpcDispatch, asyncRpcAcknowledgment, asyncNotification, backendAssociateTargetPeerId,
    backendDissociateTargetPeerId].find? fun messageType => messageType.toString == s

/-- The uuids and their texts. -/
structure Uuids (υ : Type) where
  nil : υ
  uuid2string : υ → Octets
  string2uuid : Octets → Option υ
  string2uuid_uuid2string : ∀ uuid, string2uuid (uuid2string uuid) = some uuid

/-- `SecurityPrincipal`, of which only the presence matters here. -/
structure SecurityPrincipal where
  sid : Octets
  deriving DecidableEq

structure PrincipalIdentityInfo where
  securityPrincipal : Option SecurityPrincipal
  deriving DecidableEq

structure BrokerProtocol where
  messageType : Octets
  messageId : Octets
  conversationId : Octets
  sourcePeerId : Octets
  principalIdentityInfo : Option PrincipalIdentityInfo
  deriving DecidableEq

structure AsyncRpcPayload (ρ σ : Type) where
  asyncRpcRequest : Option ρ
  asyncRpcResponse : Option σ
  deriving DecidableEq

structure MessageInfo (ρ σ : Type) where
  brokerProtocol : BrokerProtocol
  payload : Option (AsyncRpcPayload ρ σ)
  deriving DecidableEq

section

variable {υ β ρ σ : Type}

def isRequestPayload : Option (AsyncRpcPayload ρ σ) → Bool
  | some payload => payload.asyncRpcRequest.isSome
  | none => false

def isResponsePayload : Option (AsyncRpcPayload ρ σ) → Bool
  | some payload => payload.asyncRpcResponse.isSome
  | none => false

/-- `createBrokerProtocolMessage` without a token. -/
def createBrokerProtocolMessage (uuids : Uuids υ) (messageType : MessageType)
    (conversationId messageId : υ) : BrokerProtocol where
  messageType := messageType.toString
  messageId := uuids.uuid2string messageId
  conversationId := uuids.uuid2string conversationId
  sourcePeerId := []
  principalIdentityInfo := none

def createAcknowledgmentMessage (uuids : Uuids υ) (conversationId messageId : υ) :
    BrokerProtocol :=
  createBrokerProtocolMessage uuids .asyncRpcAcknowledgment conversationId messageId

def createResponseProtocolMessage (uuids : Uuids υ) (conversationId messageId : υ) :
    BrokerProtocol :=
  createBrokerProtocolMessage uuids .asyncRpcDispatch conversationId messageId

end

/-! ## The conversation -/

def blockQueueSize : Nat := 32

def maxMessageDeliveryAttempts : Nat := 5

/-- What a conversation is created with. `permissionDenied` is the error
response to a request which is not authenticated. -/
structure Parameters (υ β ρ σ : Type) where
  uuids : Uuids υ
  peerId : υ
  targetPeerId : υ
  conversationId : υ
  ackTimeout : Int
  msgTimeout : Int
  castToPayload : β → Option (AsyncRpcPayload ρ σ)
  permissionDenied : (message : Octets) → σ

/-- `processed` are the messages `processCurrentMessage` has been called
for; the code does not keep them. -/
structure State (υ ρ σ : Type) where
  seedMessage : Option (MessageInfo ρ σ)
  pendingQueue : List (MessageInfo ρ σ)
  lastUnacknowledgedMessageSent : Option Int
  lastMessageReceived : Int
  isFinished : Bool
  wasLastMessageSent : Bool
  isAckExpected : Bool
  lastSentMessageId : υ
  currentMessage : Option (MessageInfo ρ σ)
  processingTask : Option (MessageInfo ρ σ)
  retryCount : Nat
  retryMessage : Option (MessageInfo ρ σ)
  outboundQueue : List (MessageInfo ρ σ)
  processed : List (MessageInfo ρ σ)
  deriving DecidableEq

/-- The exceptions; the last is one of the derived class. -/
inductive Failure (υ : Type) where
  | unexpectedTarget (targetPeerId peerId : υ)
  | pendingQueueFull (conversationId : υ)
  | outboundQueueFull (conversationId : υ)
  | invalidMessageType (messageType : Octets)
  | invalidSource (sourcePeerId : Octets)
  | unexpectedSource (sourcePeerId : Octets) (targetPeerId : υ)
  | invalidUuid (value : Octets)
  | invalidPayload
  | ackTimeout (interval : Int)
  | unexpectedAcknowledgment
  | afterEnd (conversationId : υ)
  | msgTimeout (interval : Int)
  | responseExpected
  | processing
  deriving DecidableEq

/-- The message of an exception of the conversation's own. -/
def Failure.message {υ : Type} (uuids : Uuids υ) (interval2string : Int → Octets) :
    Failure υ → Option Octets
  | .unexpectedTarget targetPeerId peerId =>
    octets "The target peer id " ++ quoteString (uuids.uuid2string targetPeerId) ++
      octets " does not match the expected peer id " ++ quoteString (uuids.uuid2string peerId)
  | .pendingQueueFull conversationId =>
    octets "The task with conversation id " ++ quoteString (uuids.uuid2string conversationId) ++
      octets " has its queue full and can't receive messages"
  | .outboundQueueFull conversationId =>
    octets "The task with conversation id " ++ quoteString (uuids.uuid2string conversationId) ++
      octets " has its outbound queue full and can't send messages"
  | .invalidMessageType messageType =>
    octets "MessageType has invalid string value '" ++ messageType ++ octets "'"
  | .invalidSource sourcePeerId =>
    octets "Invalid source peer id " ++ quoteString sourcePeerId
  | .unexpectedSource sourcePeerId targetPeerId =>
    octets "The source peer id " ++ quoteString sourcePeerId ++
      octets " does not match the expected peer id " ++
      quoteString (uuids.uuid2string targetPeerId)
  | .ackTimeout interval =>
    octets "Messaging client did not receive acknowledgment within the specified interval " ++
      interval2string interval
  | .unexpectedAcknowledgment =>
    octets ("Acknowledgment message is expected but a different " ++
      "one was received or the message id does not match")
  | .afterEnd conversationId =>
    octets "Message was received for conversation " ++
      quoteString (uuids.uuid2string conversationId) ++ octets " after it has ended"
  | .msgTimeout interval =>
    octets "Messaging client did not receive response within the specified interval " ++
      interval2string interval
  | .invalidUuid _ | .invalidPayload | .responseExpected | .processing => none

section

variable {υ β ρ σ : Type} [DecidableEq υ]

/-- A new conversation, at the time `now`. -/
def State.initial (p : Parameters υ β ρ σ) (seedMessage : Option (MessageInfo ρ σ)) (now : Int) :
    State υ ρ σ where
  seedMessage := seedMessage
  pendingQueue := []
  lastUnacknowledgedMessageSent := none
  lastMessageReceived := now
  isFinished := false
  wasLastMessageSent := false
  isAckExpected := false
  lastSentMessageId := p.uuids.nil
  currentMessage := none
  processingTask := none
  retryCount := 0
  retryMessage := none
  outboundQueue := []
  processed := []

/-! ## Sending -/

def MessageInfo.isAcknowledgment (m : MessageInfo ρ σ) : Bool :=
  MessageType.tryToEnum m.brokerProtocol.messageType == some .asyncRpcAcknowledgment

/-- `enqueueOutboundMessage`: acknowledgments go ahead of the rest. -/
def enqueueOutboundMessage (p : Parameters υ β ρ σ) (isAckMessage : Bool) (m : MessageInfo ρ σ)
    (s : State υ ρ σ) : Option (Failure υ) × State υ ρ σ :=
  if blockQueueSize ≤ s.outboundQueue.length then
    (some (.outboundQueueFull p.conversationId), s)
  else if isAckMessage then
    (none,
      { s with
        outboundQueue := s.outboundQueue.takeWhile MessageInfo.isAcknowledgment ++
          m :: s.outboundQueue.dropWhile MessageInfo.isAcknowledgment })
  else (none, { s with outboundQueue := s.outboundQueue ++ [m] })

def sendMessage (p : Parameters υ β ρ σ) (now : Int) (isLastMessage : Bool)
    (m : MessageInfo ρ σ) (s : State υ ρ σ) : Option (Failure υ) × State υ ρ σ :=
  match MessageType.tryToEnum m.brokerProtocol.messageType with
  | none => (some (.invalidMessageType m.brokerProtocol.messageType), s)
  | some messageType =>
    let isAckMessage := messageType == .asyncRpcAcknowledgment
    match enqueueOutboundMessage p isAckMessage m s with
    | (some failure, s) => (some failure, s)
    | (none, s) =>
      if isAckMessage then (none, s)
      else
        match p.uuids.string2uuid m.brokerProtocol.messageId with
        | none => (some (.invalidUuid m.brokerProtocol.messageId), s)
        | some messageId =>
          (none,
            { s with
              lastSentMessageId := messageId
              lastUnacknowledgedMessageSent := some now
              isAckExpected := true
              wasLastMessageSent := isLastMessage })

/-- `sendErrorResponse` with `permission_denied`. -/
def sendErrorResponse (p : Parameters υ β ρ σ) (now : Int) (messageId : υ) (message : Octets)
    (s : State υ ρ σ) : Option (Failure υ) × State υ ρ σ :=
  sendMessage p now true
    { brokerProtocol := createResponseProtocolMessage p.uuids p.conversationId messageId
      payload := some ⟨none, some (p.permissionDenied message)⟩ } s

/-- `tryPopProcessingTask`. -/
def tryPopProcessingTask (s : State υ ρ σ) : Option (MessageInfo ρ σ) × State υ ρ σ :=
  match s.processingTask, s.outboundQueue with
  | none, m :: rest =>
    (some m, { s with retryCount := 0, retryMessage := some m, outboundQueue := rest })
  | processingTask, _ => (processingTask, { s with processingTask := none })

/-- `retryProcessingTask`, when the error is a retryable one or not. -/
def retryProcessingTask (isRetryable : Bool) (s : State υ ρ σ) : Bool × State υ ρ σ :=
  let s := { s with retryCount := s.retryCount + 1 }
  if maxMessageDeliveryAttempts ≤ s.retryCount || s.retryMessage.isNone then (false, s)
  else if isRetryable then (true, { s with processingTask := s.retryMessage })
  else (false, s)

/-! ## Processing -/

/-- What `processCurrentMessage` may do, one thing after the other: send a
message, answer the request by `defaultProcessRequest`, take the response
by `defaultProcessResponse`, empty the current message, finish, throw. -/
inductive Action (υ ρ σ : Type) where
  | sendMessage (isLastMessage : Bool) (m : MessageInfo ρ σ)
  | defaultProcessRequest (messageId : υ) (asyncRpcResponse : σ)
  | defaultProcessResponse
  | emptyCurrentMessage
  | finish
  | throw
  deriving DecidableEq

/-- `defaultProcessRequest`. The response is that of `processRequestImpl`,
or the error it has come to, which is also the one of a payload without a
request. -/
def defaultProcessRequest (p : Parameters υ β ρ σ) (now : Int) (messageId : υ)
    (asyncRpcResponse : σ) (current : MessageInfo ρ σ) (s : State υ ρ σ) :
    Option (Failure υ) × State υ ρ σ :=
  match p.uuids.string2uuid current.brokerProtocol.conversationId with
  | none => (some (.invalidUuid current.brokerProtocol.conversationId), s)
  | some conversationId =>
    Conversation.sendMessage p now true
      { brokerProtocol := createResponseProtocolMessage p.uuids conversationId messageId
        payload := some ⟨none, some asyncRpcResponse⟩ } s

def Action.execute (p : Parameters υ β ρ σ) (now : Int) (current : MessageInfo ρ σ) :
    Action υ ρ σ → State υ ρ σ → Option (Failure υ) × State υ ρ σ
  | .sendMessage isLastMessage m, s => Conversation.sendMessage p now isLastMessage m s
  | .defaultProcessRequest messageId asyncRpcResponse, s =>
    Conversation.defaultProcessRequest p now messageId asyncRpcResponse current s
  | .defaultProcessResponse, s =>
    if isResponsePayload current.payload then (none, { s with isFinished := true })
    else (some .responseExpected, s)
  | .emptyCurrentMessage, s => (none, { s with currentMessage := none })
  | .finish, s => (none, { s with isFinished := true })
  | .throw, s => (some .processing, s)

/-- `processCurrentMessage` for the current message. -/
def processCurrentMessage (p : Parameters υ β ρ σ) (now : Int) (current : MessageInfo ρ σ) :
    List (Action υ ρ σ) → State υ ρ σ → Option (Failure υ) × State υ ρ σ
  | [], s => (none, s)
  | action :: actions, s =>
    match action.execute p now current s with
    | (some failure, s) => (some failure, s)
    | (none, s) => processCurrentMessage p now current actions s

/-- The wait for the acknowledgment; `none` when it goes on. -/
def awaitAcknowledgment (p : Parameters υ β ρ σ) (now : Int) (s : State υ ρ σ) :
    Except (Failure υ) (Option (State υ ρ σ)) :=
  if !s.isAckExpected then .ok (some s)
  else if s.lastUnacknowledgedMessageSent.any fun sent => p.ackTimeout ≤ now - sent then
    .error (.ackTimeout p.ackTimeout)
  else
    match s.pendingQueue with
    | [] => .ok none
    | m :: rest =>
      if m.payload.isSome || !m.isAcknowledgment then .error .unexpectedAcknowledgment
      else
        match p.uuids.string2uuid m.brokerProtocol.messageId with
        | none => .error (.invalidUuid m.brokerProtocol.messageId)
        | some messageId =>
          if s.lastSentMessageId = messageId then
            .ok (some { s with
              lastSentMessageId := p.uuids.nil
              pendingQueue := rest
              lastUnacknowledgedMessageSent := none
              isAckExpected := false })
          else .error .unexpectedAcknowledgment

/-- The protocol part carries a security principal. -/
def BrokerProtocol.isAuthenticated (brokerProtocol : BrokerProtocol) : Bool :=
  match brokerProtocol.principalIdentityInfo with
  | some identityInfo => identityInfo.securityPrincipal.isSome
  | none => false

/-- The call of `processCurrentMessage` at the end of `onProcessing`, or
the check that the wait for a message is not over. -/
def processOrWait (p : Parameters υ β ρ σ) (now : Int) (actions : List (Action υ ρ σ))
    (s : State υ ρ σ) : Option (Failure υ) × State υ ρ σ :=
  match s.currentMessage with
  | some current =>
    processCurrentMessage p now current actions { s with processed := s.processed ++ [current] }
  | none =>
    if p.msgTimeout ≤ now - s.lastMessageReceived then (some (.msgTimeout p.msgTimeout), s)
    else (none, s)

/-- The rest of `onProcessing`, for a message which has been taken off the
pending queue and is the current one. -/
def processTaken (p : Parameters υ β ρ σ) (now : Int) (messageId : υ)
    (actions : List (Action υ ρ σ)) (m : MessageInfo ρ σ) (s : State υ ρ σ) :
    Option (Failure υ) × State υ ρ σ :=
  match MessageType.tryToEnum m.brokerProtocol.messageType with
  | none => (some (.invalidMessageType m.brokerProtocol.messageType), s)
  | some messageType =>
    if messageType == .asyncRpcDispatch && isRequestPayload m.payload &&
        !m.brokerProtocol.isAuthenticated then
      match sendErrorResponse p now messageId (octets "Request messages must be authenticated")
          s with
      | (some failure, s) => (some failure, s)
      | (none, s) => (none, { s with currentMessage := none })
    else processOrWait p now actions { s with lastMessageReceived := now }

/-- The rest of `onProcessing`, when no acknowledgment is waited for. -/
def proceed (p : Parameters υ β ρ σ) (now : Int) (messageId : υ) (actions : List (Action υ ρ σ))
    (s : State υ ρ σ) : Option (Failure υ) × State υ ρ σ :=
  if s.wasLastMessageSent then
    if s.pendingQueue.isEmpty then (none, { s with isFinished := true })
    else (some (.afterEnd p.conversationId), s)
  else
    match s.seedMessage with
    | some seedMessage =>
      match sendMessage p now false seedMessage s with
      | (some failure, s) => (some failure, s)
      | (none, s) => (none, { s with seedMessage := none })
    | none =>
      match s.currentMessage, s.pendingQueue with
      | none, m :: rest =>
        processTaken p now messageId actions m
          { s with currentMessage := some m, pendingQueue := rest }
      | _, _ => processOrWait p now actions s

def onProcessing (p : Parameters υ β ρ σ) (now : Int) (messageId : υ)
    (actions : List (Action υ ρ σ)) (s : State υ ρ σ) : Option (Failure υ) × State υ ρ σ :=
  if s.isFinished || s.processingTask.isSome || !s.outboundQueue.isEmpty then (none, s)
  else
    match awaitAcknowledgment p now s with
    | .error failure => (some failure, s)
    | .ok none => (none, s)
    | .ok (some s) => proceed p now messageId actions s

/-! ## Messages of the remote peer -/

/-- The checks of `pushMessage` and the acknowledgment it sends back. -/
def acknowledge (p : Parameters υ β ρ σ) (now : Int) (brokerProtocol : BrokerProtocol)
    (s : State υ ρ σ) : Option (Failure υ) × State υ ρ σ :=
  if brokerProtocol.sourcePeerId.isEmpty then
    (some (.invalidSource brokerProtocol.sourcePeerId), s)
  else
    match p.uuids.string2uuid brokerProtocol.sourcePeerId with
    | none => (some (.invalidUuid brokerProtocol.sourcePeerId), s)
    | some sourcePeerId =>
      if sourcePeerId = p.targetPeerId then
        match p.uuids.string2uuid brokerProtocol.messageId with
        | none => (some (.invalidUuid brokerProtocol.messageId), s)
        | some messageId =>
          sendMessage p now false
            { brokerProtocol := createAcknowledgmentMessage p.uuids p.conversationId messageId
              payload := none } s
      else (some (.unexpectedSource brokerProtocol.sourcePeerId p.targetPeerId), s)

def pushMessage (p : Parameters υ β ρ σ) (now : Int) (targetPeerId : υ)
    (brokerProtocol : BrokerProtocol) (payload : Option β) (s : State υ ρ σ) :
    Option (Failure υ) × State υ ρ σ :=
  if targetPeerId ≠ p.peerId then (some (.unexpectedTarget targetPeerId p.peerId), s)
  else if blockQueueSize ≤ s.pendingQueue.length then
    (some (.pendingQueueFull p.conversationId), s)
  else
    match MessageType.tryToEnum brokerProtocol.messageType with
    | none => (some (.invalidMessageType brokerProtocol.messageType), s)
    | some messageType =>
      match
        if messageType == .asyncRpcAcknowledgment then (none, s)
        else acknowledge p now brokerProtocol s with
      | (some failure, s) => (some failure, s)
      | (none, s) =>
        match payload with
        | none => (none, { s with pendingQueue := s.pendingQueue ++ [⟨brokerProtocol, none⟩] })
        | some payload =>
          match p.castToPayload payload with
          | none => (some .invalidPayload, s)
          | some payload =>
            (none,
              { s with
                pendingQueue := s.pendingQueue ++ [⟨brokerProtocol, some payload⟩] })

/-! ## Runs -/

inductive Label (υ β ρ σ : Type) where
  | pushMessage (now : Int) (targetPeerId : υ) (brokerProtocol : BrokerProtocol)
      (payload : Option β)
  | onProcessing (now : Int) (messageId : υ) (actions : List (Action υ ρ σ))
  | tryPopProcessingTask
  | retryProcessingTask (isRetryable : Bool)

/-- A section always comes to an end, by returning or by throwing. -/
def step (p : Parameters υ β ρ σ) (s : State υ ρ σ) : Label υ β ρ σ → Option (State υ ρ σ)
  | .pushMessage now targetPeerId brokerProtocol payload =>
    some (pushMessage p now targetPeerId brokerProtocol payload s).2
  | .onProcessing now messageId actions => some (onProcessing p now messageId actions s).2
  | .tryPopProcessingTask => some (tryPopProcessingTask s).2
  | .retryProcessingTask isRetryable => some (retryProcessingTask isRetryable s).2

end

end Baselib.Messaging.Conversation
