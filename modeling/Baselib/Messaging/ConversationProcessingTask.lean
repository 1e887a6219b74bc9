/-
Baselib.Messaging.ConversationProcessingTask — a conversation with the task
which drives it, `messaging/asyncrpc/ConversationProcessingTask.h`, the
dispatcher it sends through and a peer which acknowledges what it receives.

The wrapped task is the processing of the conversation, the timer or a
message on its way to the dispatcher; when it has completed,
`continuationTask` chooses the next one. A message which is dispatched
successfully is in the channel to the peer, and one whose delivery fails is
not. Nothing is lost and nothing is overtaken: an acknowledgment which cannot
be pushed stays where it is. A request to stop is left out.
-/
import Baselib.Messaging.Conversation

namespace Baselib.Messaging.ConversationProcessingTask

open Conversation

variable {υ β ρ σ : Type}

inductive WrappedTask (ρ σ : Type) where
  | processing
  | timer
  /-- The `ExternalCompletionTask` of `createProcessingTask`. -/
  | sending (m : MessageInfo ρ σ)

def WrappedTask.isProcessing : WrappedTask ρ σ → Bool
  | .processing => true
  | _ => false

def WrappedTask.isTimer : WrappedTask ρ σ → Bool
  | .timer => true
  | _ => false

/-- What the wrapped task has completed with. -/
inductive TaskException (υ : Type) where
  | processing (failure : Failure υ) (isRetryable : Bool)
  | delivery (isRetryable : Bool)
  deriving DecidableEq

/-- `isRetryableMessagingBrokerError`. -/
def TaskException.isRetryable : TaskException υ → Bool
  | .processing _ isRetryable | .delivery isRetryable => isRetryable

/-- No exception of the conversation's own is retryable; one of the derived
class may be. -/
def isRetryableFailure (isRetryable : Bool) : Failure υ → Bool
  | .processing => isRetryable
  | _ => false

/-- `requested`, `dispatched` and `acknowledged` are what has been put into the
outbound queue, what has been dispatched successfully, and the messages whose
acknowledgments have been taken; the code does not keep them. -/
structure State (υ ρ σ : Type) where
  conversation : Conversation.State υ ρ σ
  wrappedTask : WrappedTask ρ σ
  /-- `none` while the wrapped task is executing. -/
  completed : Option (Option (TaskException υ))
  /-- `continuationTask` has returned null. -/
  isOver : Bool
  /-- The messages on their way to the peer. -/
  channel : List (MessageInfo ρ σ)
  /-- The ids in the acknowledgments on their way back. -/
  acknowledgments : List υ
  requested : List (MessageInfo ρ σ)
  dispatched : List (MessageInfo ρ σ)
  acknowledged : List υ

variable [DecidableEq υ]

def State.initial (p : Parameters υ β ρ σ) (seedMessage : Option (MessageInfo ρ σ)) (now : Int) :
    State υ ρ σ :=
  ⟨.initial p seedMessage now, .processing, none, false, [], [], [], [], []⟩

/-! ## The task -/

/-- The acknowledgment which `onProcessing` takes off the pending queue. -/
def takenAcknowledgment (p : Parameters υ β ρ σ) (now : Int) (s : Conversation.State υ ρ σ) :
    List υ :=
  if s.isFinished || s.processingTask.isSome || !s.outboundQueue.isEmpty || !s.isAckExpected then
    []
  else
    match awaitAcknowledgment p now s with
    | .ok (some _) => [s.lastSentMessageId]
    | _ => []

/-- The processing task. It does nothing while the outbound queue is not
empty. -/
def onProcessing (p : Parameters υ β ρ σ) (now : Int) (messageId : υ)
    (actions : List (Action υ ρ σ)) (isRetryable : Bool) (s : State υ ρ σ) : State υ ρ σ :=
  let result := Conversation.onProcessing p now messageId actions s.conversation
  { s with
    conversation := result.2
    completed := some (result.1.map fun failure =>
      .processing failure (isRetryableFailure isRetryable failure))
    requested := s.requested ++
      if s.conversation.outboundQueue.isEmpty then result.2.outboundQueue else []
    acknowledged := s.acknowledged ++ takenAcknowledgment p now s.conversation }

/-- How the dispatcher completes a delivery. -/
inductive Delivery where
  | delivered
  | failed (isRetryable : Bool)
  deriving DecidableEq

/-- The completion of a message which is being sent. -/
def onDelivery (m : MessageInfo ρ σ) (delivery : Delivery) (s : State υ ρ σ) : State υ ρ σ :=
  match delivery with
  | .delivered =>
    { s with
      completed := some none
      channel := s.channel ++ [m]
      dispatched := s.dispatched ++ [m] }
  | .failed isRetryable => { s with completed := some (some (.delivery isRetryable)) }

/-- The end of `continuationTask`: the message which is to be sent next, or
the processing task and the timer in turn. -/
def alternate (s : State υ ρ σ) : State υ ρ σ :=
  match tryPopProcessingTask s.conversation with
  | (some m, conversation) =>
    { s with conversation := conversation, wrappedTask := .sending m, completed := none }
  | (none, conversation) =>
    { s with
      conversation := conversation
      wrappedTask := if s.wrappedTask.isProcessing then .timer else .processing
      completed := none }

def continuationTask (exception : Option (TaskException υ)) (s : State υ ρ σ) : State υ ρ σ :=
  if s.conversation.isFinished then { s with isOver := true }
  else
    match exception with
    | none => alternate s
    | some exception =>
      match retryProcessingTask exception.isRetryable s.conversation with
      | (false, conversation) => { s with conversation := conversation, isOver := true }
      | (true, conversation) => alternate { s with conversation := conversation }

/-! ## The peer -/

/-- The peer takes a message and acknowledges it, unless it is an
acknowledgment. -/
def receive (p : Parameters υ β ρ σ) (m : MessageInfo ρ σ) (s : State υ ρ σ) : State υ ρ σ :=
  if m.isAcknowledgment then s
  else
    match p.uuids.string2uuid m.brokerProtocol.messageId with
    | none => s
    | some messageId => { s with acknowledgments := s.acknowledgments ++ [messageId] }

/-- The acknowledgment which is sent for a message of the peer. -/
def acknowledgmentFor (p : Parameters υ β ρ σ) (brokerProtocol : BrokerProtocol) :
    List (MessageInfo ρ σ) :=
  match p.uuids.string2uuid brokerProtocol.messageId with
  | none => []
  | some messageId => [⟨createAcknowledgmentMessage p.uuids p.conversationId messageId, none⟩]

/-- A message of the peer's own. -/
def pushMessage (p : Parameters υ β ρ σ) (now : Int) (brokerProtocol : BrokerProtocol)
    (payload : Option β) (s : State υ ρ σ) : State υ ρ σ :=
  let conversation := (Conversation.pushMessage p now p.peerId brokerProtocol payload
    s.conversation).2
  { s with
    conversation := conversation
    requested := s.requested ++
      if s.conversation.outboundQueue.length < conversation.outboundQueue.length then
        acknowledgmentFor p brokerProtocol
      else [] }

/-- An acknowledgment which is refused stays on its way. -/
def pushAcknowledgment (p : Parameters υ β ρ σ) (now : Int) (s : State υ ρ σ) :
    Option (State υ ρ σ) :=
  match s.acknowledgments with
  | [] => none
  | messageId :: acknowledgments =>
    match Conversation.pushMessage p now p.peerId
      (createAcknowledgmentMessage p.uuids p.conversationId messageId) none s.conversation with
    | (some _, _) => none
    | (none, conversation) =>
      some { s with conversation := conversation, acknowledgments := acknowledgments }

/-! ## Runs -/

inductive Label (υ β ρ σ : Type) where
  | onProcessing (now : Int) (messageId : υ) (actions : List (Action υ ρ σ)) (isRetryable : Bool)
  | onTimer
  | onDelivery (delivery : Delivery)
  | continuationTask
  | receive
  | pushAcknowledgment (now : Int)
  | pushMessage (now : Int) (brokerProtocol : BrokerProtocol) (payload : Option β)

/-- The task executes what it wraps until it is over; the peer goes on. -/
def step (p : Parameters υ β ρ σ) (s : State υ ρ σ) : Label υ β ρ σ → Option (State υ ρ σ)
  | .onProcessing now messageId actions isRetryable =>
    if s.isOver = false ∧ s.completed = none ∧ s.wrappedTask.isProcessing = true then
      some (onProcessing p now messageId actions isRetryable s)
    else none
  | .onTimer =>
    if s.isOver = false ∧ s.completed = none ∧ s.wrappedTask.isTimer = true then
      some { s with completed := some none }
    else none
  | .onDelivery delivery =>
    if s.isOver = false ∧ s.completed = none then
      match s.wrappedTask with
      | .sending m => some (onDelivery m delivery s)
      | _ => none
    else none
  | .continuationTask =>
    if s.isOver = false then s.completed.map fun exception => continuationTask exception s
    else none
  | .receive =>
    match s.channel with
    | [] => none
    | m :: channel => some (receive p m { s with channel := channel })
  | .pushAcknowledgment now => pushAcknowledgment p now s
  | .pushMessage now brokerProtocol payload => some (pushMessage p now brokerProtocol payload s)

end Baselib.Messaging.ConversationProcessingTask
