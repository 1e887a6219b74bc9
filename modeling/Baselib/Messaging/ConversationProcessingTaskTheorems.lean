/-
Baselib.Messaging.ConversationProcessingTaskTheorems — the messages of a
conversation and their acknowledgments.

While no more than one message is sent before its acknowledgment has been
taken, that message is in exactly one place: queued, being sent, in the
channel, on the way back as an acknowledgment, or pending as one.
-/
import Baselib.Messaging.ConversationProcessingTask
import Baselib.Messaging.ConversationSending

namespace Baselib.Messaging.ConversationProcessingTask

open Lib List
open Conversation

variable {υ β ρ σ : Type} {p : Parameters υ β ρ σ} {s s' : State υ ρ σ} {now : Int}

/-! ## The invariant -/

/-- The message which the wrapped task has not delivered yet. -/
def State.undelivered (s : State υ ρ σ) : List (MessageInfo ρ σ) :=
  match s.wrappedTask, s.completed with
  | .sending _, some none => []
  | .sending m, _ => [m]
  | _, _ => []

/-- The conversation has failed, or is over. -/
def Failing (s : State υ ρ σ) : Prop :=
  s.isOver = true ∨
    ∃ failure isRetryable, s.completed = some (some (.processing failure isRetryable))

/-- The ids whose acknowledgments have not been taken, in the order in which
the acknowledgments arrive. -/
def unacknowledged (p : Parameters υ β ρ σ) (s : State υ ρ σ) : List (Option υ) :=
  (acks s.conversation.pendingQueue).map (messageId? p) ++ s.acknowledgments.map some ++
    messageIds p s.channel ++ messageIds p s.undelivered ++
      messageIds p s.conversation.outboundQueue

/-- The bookkeeping of a conversation which goes on. -/
structure InStep (p : Parameters υ β ρ σ) (s : State υ ρ σ) : Prop where
  processingTask : s.conversation.processingTask = none
  sending : ∀ m, s.wrappedTask = .sending m → s.conversation.retryMessage = some m
  delivery : ∀ isRetryable, s.completed = some (some (.delivery isRetryable)) →
    ∃ m, s.wrappedTask = .sending m
  receptive : Receptive s.conversation
  unacknowledged : unacknowledged p s = expected s.conversation
  acknowledged : messageIds p s.requested = s.acknowledged.map some ++ expected s.conversation

structure Inv (p : Parameters υ β ρ σ) (s : State υ ρ σ) : Prop where
  acksFirst : AcksFirst s.conversation.outboundQueue
  acks : acks s.requested =
    acks s.dispatched ++ acks s.undelivered ++ acks s.conversation.outboundQueue
  nonAcks : nonAcks s.requested =
    nonAcks s.dispatched ++ nonAcks s.undelivered ++ nonAcks s.conversation.outboundQueue
  failure : ∀ failure isRetryable,
    s.completed = some (some (.processing failure isRetryable)) → failure.isUnexpected = false
  retries : ∀ failure,
    s.completed = some (some (.processing failure true)) → s.conversation.retryMessage = none
  processed : NoAcksProcessed s.conversation
  finished : s.conversation.isFinished = true → s.conversation.outboundQueue = [] ∧
    s.undelivered = [] ∧ messageIds p s.requested = s.acknowledged.map some
  inStep : ¬Failing s → InStep p s

/-- Every message is dispatched once, in the order of the requests, and every
acknowledgment of the peer is the expected one; a conversation which has
finished has been acknowledged everything. -/
structure Delivered (p : Parameters υ β ρ σ) (s : State υ ρ σ) : Prop where
  failure : ∀ failure isRetryable,
    s.completed = some (some (.processing failure isRetryable)) → failure.isUnexpected = false
  processed : NoAcksProcessed s.conversation
  acks : Conversation.acks s.requested = Conversation.acks s.dispatched ++
    Conversation.acks s.undelivered ++ Conversation.acks s.conversation.outboundQueue
  nonAcks : Conversation.nonAcks s.requested = Conversation.nonAcks s.dispatched ++
    Conversation.nonAcks s.undelivered ++ Conversation.nonAcks s.conversation.outboundQueue
  finished : s.conversation.isFinished = true →
    Conversation.acks s.requested = Conversation.acks s.dispatched ∧
    Conversation.nonAcks s.requested = Conversation.nonAcks s.dispatched ∧
    messageIds p s.requested = s.acknowledged.map some

theorem Inv.delivered (h : Inv p s) : Delivered p s :=
  { h with
    finished hfinished := by
      obtain ⟨houtbound, hundelivered, hids⟩ := h.finished hfinished
      refine ⟨?_, ?_, hids⟩
      · rw [h.acks, houtbound, hundelivered, acks_nil, append_nil, append_nil]
      · rw [h.nonAcks, houtbound, hundelivered, nonAcks_nil, append_nil, append_nil] }

theorem Inv.initial (p : Parameters υ β ρ σ) (seedMessage : Option (MessageInfo ρ σ))
    (now : Int) : Inv p (State.initial p seedMessage now) where
  acksFirst := rfl
  acks := rfl
  nonAcks := rfl
  failure := nofun
  retries := nofun
  processed := nofun
  finished := nofun
  inStep _ := ⟨rfl, nofun, nofun, ⟨nofun, .inl rfl, nofun⟩, rfl, rfl⟩

/-! ## The task -/

theorem not_failing (hover : s.isOver = false)
    (hcompleted : ∀ failure isRetryable,
      s.completed ≠ some (some (.processing failure isRetryable))) : ¬Failing s := by
  rintro (h | ⟨failure, isRetryable, h⟩)
  · simp [hover] at h
  · exact hcompleted failure isRetryable h

/-- A completion which leaves the undelivered message as it is. -/
theorem Inv.complete {exception : Option (TaskException υ)} (h : Inv p s) (hgoing : ¬Failing s)
    (hundelivered : ({ s with completed := some exception } : State υ ρ σ).undelivered =
      s.undelivered)
    (hprocessing : ∀ failure isRetryable, exception ≠ some (.processing failure isRetryable))
    (hdelivery : ∀ isRetryable, exception = some (.delivery isRetryable) →
      ∃ m, s.wrappedTask = .sending m) :
    Inv p { s with completed := some exception } where
  acksFirst := h.acksFirst
  acks := by rw [hundelivered]; exact h.acks
  nonAcks := by rw [hundelivered]; exact h.nonAcks
  failure failure isRetryable heq := (hprocessing failure isRetryable (Option.some.inj heq)).elim
  retries failure heq := (hprocessing failure true (Option.some.inj heq)).elim
  processed := h.processed
  finished := by rw [hundelivered]; exact h.finished
  inStep _ :=
    { h.inStep hgoing with
      delivery := fun isRetryable heq => hdelivery isRetryable (Option.some.inj heq)
      unacknowledged := by
        rw [unacknowledged, hundelivered]
        exact (h.inStep hgoing).unacknowledged }

theorem onTimer_inv (h : Inv p s) (hover : s.isOver = false) (hcompleted : s.completed = none)
    (htimer : s.wrappedTask.isTimer = true) : Inv p { s with completed := some none } := by
  refine h.complete (not_failing hover (hcompleted ▸ nofun)) ?_ nofun nofun
  rw [State.undelivered, State.undelivered]
  cases hwrapped : s.wrappedTask with
  | timer => rfl
  | processing => rfl
  | sending m =>
    rw [hwrapped] at htimer
    cases htimer

theorem onDelivery_inv {m : MessageInfo ρ σ} {delivery : Delivery} (h : Inv p s)
    (hover : s.isOver = false) (hcompleted : s.completed = none)
    (hwrapped : s.wrappedTask = .sending m) : Inv p (onDelivery m delivery s) := by
  have hgoing : ¬Failing s := not_failing hover (hcompleted ▸ nofun)
  have hstep := h.inStep hgoing
  have hundelivered : s.undelivered = [m] := by rw [State.undelivered, hwrapped, hcompleted]
  cases delivery with
  | delivered =>
    have hundelivered' : (onDelivery m .delivered s).undelivered = [] := by
      rw [State.undelivered, onDelivery, hwrapped]
    rw [onDelivery] at hundelivered' ⊢
    refine { h with
      acks := ?_, nonAcks := ?_, failure := nofun, retries := nofun, finished := ?_,
      inStep := fun _ => { hstep with delivery := nofun, unacknowledged := ?_ } }
    · rw [hundelivered', h.acks, hundelivered, acks_append, acks_nil, append_nil]
    · rw [hundelivered', h.nonAcks, hundelivered, nonAcks_append, nonAcks_nil, append_nil]
    · intro hfinished
      have hnil := (h.finished hfinished).2.1
      simp [hundelivered] at hnil
    · rw [← hstep.unacknowledged, unacknowledged, unacknowledged, hundelivered', hundelivered]
      simp only [messageIds_append, messageIds_nil, append_nil, append_assoc]
  | failed isRetryable =>
    refine h.complete hgoing ?_ nofun fun _ _ => ⟨m, hwrapped⟩
    rw [hundelivered, State.undelivered, hwrapped]

/-- Another attempt is made for a retryable error, when there is a message
to send. -/
theorem retryProcessingTask_cases (isRetryable : Bool) (c : Conversation.State υ ρ σ) :
    retryProcessingTask isRetryable c = (false, { c with retryCount := c.retryCount + 1 }) ∨
    (isRetryable = true ∧ ∃ m, c.retryMessage = some m ∧ retryProcessingTask isRetryable c =
      (true, { c with retryCount := c.retryCount + 1, processingTask := some m })) := by
  rw [retryProcessingTask]
  cases hretry : c.retryMessage with
  | none => simp
  | some m =>
    split
    · exact .inl rfl
    · cases isRetryable with
      | false => exact .inl rfl
      | true => exact .inr ⟨rfl, m, rfl, rfl⟩

def WrappedTask.messages : WrappedTask ρ σ → List (MessageInfo ρ σ)
  | .sending m => [m]
  | _ => []

theorem undelivered_of_executing (h : s.completed = none) :
    s.undelivered = s.wrappedTask.messages := by
  rw [State.undelivered, h]
  cases s.wrappedTask with
  | processing => rfl
  | timer => rfl
  | sending m => rfl

/-- The next wrapped task takes its message from the queue, or is given the
undelivered one again. -/
theorem Inv.resume {retryCount : Nat} {retryMessage : Option (MessageInfo ρ σ)}
    {outboundQueue : List (MessageInfo ρ σ)} {wrappedTask : WrappedTask ρ σ} (h : Inv p s)
    (hgoing : ¬Failing s) (hfinished : s.conversation.isFinished = false)
    (hfirst : AcksFirst outboundQueue)
    (hmoved : s.undelivered ++ s.conversation.outboundQueue =
      wrappedTask.messages ++ outboundQueue)
    (hsending : ∀ m, wrappedTask = .sending m → retryMessage = some m) :
    Inv p { s with
      conversation := { s.conversation with
        processingTask := none, retryCount, retryMessage, outboundQueue }
      wrappedTask, completed := none } := by
  have hundelivered := @undelivered_of_executing υ ρ σ { s with
      conversation := { s.conversation with
        processingTask := none, retryCount, retryMessage, outboundQueue }
      wrappedTask, completed := none } rfl
  refine ⟨hfirst, ?_, ?_, nofun, nofun, h.processed, ?_, fun _ => ?_⟩
  · have hacks := congrArg Conversation.acks hmoved
    rw [acks_append, acks_append] at hacks
    rw [h.acks, hundelivered, append_assoc, append_assoc, hacks]
  · have hnonAcks := congrArg Conversation.nonAcks hmoved
    rw [nonAcks_append, nonAcks_append] at hnonAcks
    rw [h.nonAcks, hundelivered, append_assoc, append_assoc, hnonAcks]
  · intro hfinished'
    simp [hfinished] at hfinished'
  · have hstep := h.inStep hgoing
    obtain ⟨hpayload, hwaiting, hcurrent⟩ := hstep.receptive
    refine ⟨rfl, hsending, nofun, ⟨hpayload, ?_, hcurrent⟩, ?_, hstep.acknowledged⟩
    · exact hwaiting.imp_right (And.imp_right fun hopen => { hopen with })
    · refine Eq.trans ?_ hstep.unacknowledged
      have hids := congrArg (messageIds p) hmoved
      rw [messageIds_append, messageIds_append] at hids
      rw [unacknowledged, unacknowledged, hundelivered, append_assoc, append_assoc _ _
        (messageIds p s.conversation.outboundQueue), hids]

theorem alternate_inv (h : Inv p s) (hover : s.isOver = false)
    (hcompleted : s.completed = some none) (hfinished : s.conversation.isFinished = false) :
    Inv p (alternate s) := by
  have hgoing : ¬Failing s := not_failing hover (hcompleted ▸ nofun)
  have hundelivered : s.undelivered = [] := by
    rw [State.undelivered, hcompleted]
    cases s.wrappedTask with
    | processing => rfl
    | timer => rfl
    | sending m => rfl
  have hfirst := h.acksFirst
  rw [alternate, tryPopProcessingTask, (h.inStep hgoing).processingTask]
  cases houtbound : s.conversation.outboundQueue with
  | nil =>
    refine h.resume hgoing hfinished (by rfl) ?_ ?_
    · rw [hundelivered, houtbound]
      split <;> rfl
    · intro m hm
      split at hm <;> cases hm
  | cons m rest =>
    rw [houtbound] at hfirst
    refine h.resume hgoing hfinished hfirst.tail ?_ ?_
    · rw [hundelivered, houtbound]
      rfl
    · intro m' hm'
      cases hm'
      rfl

theorem continuationTask_inv {exception : Option (TaskException υ)} (h : Inv p s)
    (hover : s.isOver = false) (hcompleted : s.completed = some exception) :
    Inv p (continuationTask exception s) := by
  have hend : ∀ retryCount, Inv p { s with
      conversation := { s.conversation with retryCount }, isOver := true } := fun _ =>
    { h with inStep := fun hgoing => (hgoing (.inl rfl)).elim }
  unfold continuationTask
  cases hfinished : s.conversation.isFinished with
  | true =>
    rw [if_pos rfl]
    exact hend s.conversation.retryCount
  | false =>
    rw [if_neg Bool.false_ne_true]
    cases exception with
    | none => exact alternate_inv h hover hcompleted hfinished
    | some exception =>
      dsimp only
      obtain heq | ⟨hretryable, m, hretry, heq⟩ :=
        retryProcessingTask_cases exception.isRetryable s.conversation
      · rw [heq]
        exact hend _
      rw [heq]
      cases exception with
      | processing failure isRetryable =>
        rw [show isRetryable = true from hretryable] at hcompleted
        rw [h.retries failure hcompleted] at hretry
        cases hretry
      | delivery isRetryable =>
        have hgoing : ¬Failing s := not_failing hover (hcompleted ▸ nofun)
        have hstep := h.inStep hgoing
        obtain ⟨m', hwrapped⟩ := hstep.delivery isRetryable hcompleted
        obtain rfl : m' = m := Option.some.inj ((hstep.sending m' hwrapped).symm.trans hretry)
        have hundelivered : s.undelivered = [m'] := by
          rw [State.undelivered, hwrapped, hcompleted]
        refine h.resume hgoing hfinished h.acksFirst ?_ ?_
        · rw [hundelivered]
          rfl
        · intro m hm
          cases hm
          exact hretry

theorem isRetryableFailure_eq_true {isRetryable : Bool} {failure : Failure υ}
    (h : isRetryableFailure isRetryable failure = true) : isRetryable = true := by
  cases failure with
  | processing => exact h
  | _ => cases h

/-- The processing task fails before it does anything. -/
theorem Inv.fail {failure : Failure υ} {isRetryable : Bool} (h : Inv p s)
    (hprocessing : s.wrappedTask = .processing) (hfailure : failure.isUnexpected = false)
    (hretries : isRetryable = true → s.conversation.retryMessage = none) :
    Inv p { s with completed := some (some (.processing failure isRetryable)) } := by
  have hundelivered : s.undelivered = [] := by rw [State.undelivered, hprocessing]
  have hundelivered' : ({ s with completed := some (some (.processing failure isRetryable)) } :
      State υ ρ σ).undelivered = [] := by rw [State.undelivered, hprocessing]
  refine { h with
    acks := ?_, nonAcks := ?_, finished := ?_, failure := ?_, retries := ?_,
    inStep := fun hgoing => (hgoing (.inr ⟨failure, isRetryable, rfl⟩)).elim }
  · rw [hundelivered', h.acks, hundelivered]
  · rw [hundelivered', h.nonAcks, hundelivered]
  · intro failure' isRetryable' heq
    cases heq
    exact hfailure
  · intro failure' heq
    cases heq
    exact hretries rfl
  · exact fun hfinished => (h.finished hfinished).imp_right (.imp_left fun _ => hundelivered')

/-- What the processing task leaves when it had everything acknowledged. -/
theorem Inv.proceed {result : Option (Failure υ) × Conversation.State υ ρ σ}
    {c : Conversation.State υ ρ σ} {taken : List υ} {isRetryable : Bool} (h : Inv p s)
    (hgoing : ¬Failing s) (hprocessing : s.wrappedTask = .processing)
    (houtbound : s.conversation.outboundQueue = [])
    (hretries : isRetryable = true → s.conversation.retryMessage = none)
    (hexpected : (Conversation.acks s.conversation.pendingQueue).map (messageId? p) = expected s.conversation)
    (htaken : expected s.conversation = taken.map some)
    (hawaited : Awaited s.conversation c) (hproceeded : Proceeded p c result) :
    Inv p { s with
      conversation := result.2
      completed := some (result.1.map fun failure =>
        .processing failure (isRetryableFailure isRetryable failure))
      requested := s.requested ++ result.2.outboundQueue
      acknowledged := s.acknowledged ++ taken } := by
  obtain ⟨hfailure, hfirst, hretry, hfinished, hprocessed, hcurrent, hpending, hsent⟩ := hproceeded
  have hstep := h.inStep hgoing
  have hundelivered : s.undelivered = [] := by rw [State.undelivered, hprocessing]
  have hundelivered' : ({ s with
      conversation := result.2
      completed := some (result.1.map fun failure =>
        .processing failure (isRetryableFailure isRetryable failure))
      requested := s.requested ++ result.2.outboundQueue
      acknowledged := s.acknowledged ++ taken } : State υ ρ σ).undelivered = [] := by
    rw [State.undelivered, hprocessing]
  have hrequested : messageIds p s.requested = (s.acknowledged ++ taken).map some := by
    rw [hstep.acknowledged, htaken, map_append]
  refine ⟨hfirst, ?_, ?_, ?_, ?_, hprocessed, ?_, fun hgoing' => ?_⟩
  · rw [acks_append, h.acks, hundelivered, hundelivered', houtbound]
    simp only [acks_nil, append_nil]
  · rw [nonAcks_append, h.nonAcks, hundelivered, hundelivered', houtbound]
    simp only [nonAcks_nil, append_nil]
  · intro failure isRetryable' heq
    obtain ⟨failure', hsome, heq⟩ := Option.map_eq_some_iff.mp (Option.some.inj heq)
    cases heq
    exact hfailure failure hsome
  · intro failure heq
    obtain ⟨failure', hsome, heq⟩ := Option.map_eq_some_iff.mp (Option.some.inj heq)
    injection heq with _ hretryable
    rw [hretry, hawaited.retryMessage]
    exact hretries (isRetryableFailure_eq_true hretryable)
  · intro hend
    have hempty := (hfinished hend).1
    refine ⟨hempty, hundelivered', ?_⟩
    rwa [hempty, append_nil]
  · have hnone : result.1 = none := by
      cases hresult : result.1 with
      | none => rfl
      | some failure =>
        refine (hgoing' (.inr ⟨failure, isRetryableFailure isRetryable failure, ?_⟩)).elim
        rw [hresult]
        rfl
    have hnil := hpending hnone
    obtain ⟨htask, hsent⟩ := hsent hnone
    have hrest := hstep.unacknowledged
    rw [unacknowledged, hexpected, houtbound] at hrest
    simp only [append_assoc, append_right_eq_self, append_eq_nil_iff] at hrest
    obtain ⟨hacknowledgments, hchannel, -, -⟩ := hrest
    refine ⟨htask, ?_, ?_, ⟨?_, ?_, hcurrent⟩, ?_, ?_⟩
    · intro m hm
      simp [hprocessing] at hm
    · intro isRetryable' heq
      simp [hnone] at heq
    · rw [hnil]
      exact nofun
    · rw [hnil]
      exact .inl rfl
    · rwa [unacknowledged, hundelivered', hnil, hacknowledgments, hchannel]
    · rw [messageIds_append, hrequested, hsent]

/-! ## The peer -/

theorem receive_inv {m : MessageInfo ρ σ} {channel : List (MessageInfo ρ σ)} (h : Inv p s)
    (hchannel : s.channel = m :: channel) : Inv p (receive p m { s with channel := channel }) := by
  rw [receive]
  cases hm : m.isAcknowledgment with
  | true =>
    rw [if_pos rfl]
    refine { h with inStep := fun hfailing => ?_ }
    have hstep := h.inStep hfailing
    refine { hstep with unacknowledged := ?_ }
    rw [← hstep.unacknowledged, unacknowledged, unacknowledged, hchannel, messageIds_cons, hm]
    rfl
  | false =>
    rw [if_neg Bool.false_ne_true]
    cases hid : p.uuids.string2uuid m.brokerProtocol.messageId with
    | none =>
      refine { h with inStep := fun hfailing => ?_ }
      have hstep := h.inStep hfailing
      refine absurd ?_ (none_notMem_expected s.conversation)
      rw [← hstep.unacknowledged, unacknowledged, hchannel, messageIds_cons, hm]
      simp [messageId?, hid]
    | some messageId =>
      refine { h with inStep := fun hfailing => ?_ }
      have hstep := h.inStep hfailing
      refine { hstep with unacknowledged := ?_ }
      rw [← hstep.unacknowledged, unacknowledged, unacknowledged, hchannel, messageIds_cons, hm]
      simp [messageId?, hid, State.undelivered]

variable [DecidableEq υ]

theorem pushAcknowledgment_inv (h : Inv p s) (hpush : pushAcknowledgment p now s = some s') :
    Inv p s' := by
  rw [pushAcknowledgment] at hpush
  split at hpush
  · cases hpush
  rename_i messageId acknowledgments hacks
  obtain ⟨failure, heq⟩ | heq := pushMessage_acknowledgment p now messageId s.conversation
  · simp [heq] at hpush
  rw [heq] at hpush
  cases hpush
  have hack := createAcknowledgmentMessage_isAcknowledgment p p.conversationId messageId none
  refine { h with inStep := fun hfailing => ?_ }
  have hstep := h.inStep hfailing
  refine { hstep with receptive := ?_, unacknowledged := ?_ }
  · exact hstep.receptive.acknowledgment hack rfl
  · refine Eq.trans ?_ hstep.unacknowledged
    rw [unacknowledged, unacknowledged, hacks]
    simp [acks_cons, hack, createAcknowledgmentMessage_messageId, State.undelivered]

/-- The conversation waits for a message of the peer. -/
def Quiet (c : Conversation.State υ ρ σ) : Prop :=
  c.seedMessage.isNone ∧ c.currentMessage.isNone ∧ c.pendingQueue.isEmpty ∧
    c.isAckExpected = false ∧ c.wasLastMessageSent = false ∧ c.isFinished = false

theorem pushMessage_inv {brokerProtocol : BrokerProtocol} {payload : Option β} (h : Inv p s)
    (htype : MessageType.tryToEnum brokerProtocol.messageType ≠ some .asyncRpcAcknowledgment)
    (hquiet : Quiet s.conversation) :
    Inv p (pushMessage p now brokerProtocol payload s) := by
  rw [pushMessage]
  obtain heq | ⟨messageId, ms, hid, hms, heq⟩ :=
    pushMessage_message htype p now payload s.conversation
  · rwa [heq, if_neg (Nat.lt_irrefl _), append_nil]
  have hack := createAcknowledgmentMessage_isAcknowledgment p p.conversationId messageId none
  have hmessage : ∀ payload, (MessageInfo.mk (ρ := ρ) (σ := σ) brokerProtocol
      payload).isAcknowledgment = false := fun _ => beq_eq_false_iff_ne.mpr htype
  have hacks : acks ms = [] := by
    obtain rfl | ⟨payload, rfl⟩ := hms
    · rfl
    · rw [acks_cons, hmessage]
      rfl
  rw [heq, length_insertAck, if_pos (Nat.lt_succ_self _), acknowledgmentFor, hid]
  refine { h with
    acksFirst := h.acksFirst.insertAck hack, acks := ?_, nonAcks := ?_, finished := ?_,
    inStep := fun hfailing => ?_ }
  · rw [acks_append, h.acks, h.acksFirst.acks_insertAck hack, acks_cons, if_pos hack]
    simp only [acks_nil, append_assoc]
    rfl
  · rw [nonAcks_append, h.nonAcks, nonAcks_insertAck hack, nonAcks_cons, if_pos hack, nonAcks_nil,
      append_nil]
    rfl
  · intro hfinished
    simp [hquiet.2.2.2.2.2] at hfinished
  · have hstep := h.inStep hfailing
    refine { hstep with receptive := ?_, unacknowledged := ?_, acknowledged := ?_ }
    · obtain ⟨hseed, hcurrent, hpending, hexpected, hlast, -⟩ := hquiet
      have hopen : Open s.conversation :=
        ⟨Option.isNone_iff_eq_none.mp hseed, Option.isNone_iff_eq_none.mp hcurrent, hexpected, hlast⟩
      exact hopen.receptive (isEmpty_iff.mp hpending)
        (hms.imp_right fun ⟨payload, heq⟩ => ⟨_, hmessage payload, heq⟩)
    · refine Eq.trans ?_ hstep.unacknowledged
      rw [unacknowledged, unacknowledged, acks_append, hacks, append_nil,
        messageIds_insertAck hack]
      rfl
    · rw [messageIds_append, messageIds_cons, if_pos hack, messageIds_nil, append_nil]
      exact hstep.acknowledged

/-! ## Processing -/

theorem takenAcknowledgment_of_idle {c : Conversation.State υ ρ σ}
    (h : (c.isFinished || c.processingTask.isSome || !c.outboundQueue.isEmpty) = false) :
    takenAcknowledgment p now c =
      match awaitAcknowledgment p now c with
      | .ok (some _) => if c.isAckExpected then [c.lastSentMessageId] else []
      | _ => [] := by
  rw [takenAcknowledgment, h]
  cases hexpected : c.isAckExpected with
  | true => rfl
  | false =>
    rw [awaitAcknowledgment, hexpected]
    rfl

theorem onProcessing_inv {messageId : υ} {actions : List (Action υ ρ σ)} {isRetryable : Bool}
    (h : Inv p s) (hover : s.isOver = false) (hcompleted : s.completed = none)
    (hprocessing : s.wrappedTask.isProcessing = true) (hcount : sentCount actions ≤ 1)
    (halone : FinishesAlone actions)
    (hretries : isRetryable = true → s.conversation.retryMessage = none) :
    Inv p (onProcessing p now messageId actions isRetryable s) := by
  have hgoing : ¬Failing s := not_failing hover (hcompleted ▸ nofun)
  have hstep := h.inStep hgoing
  have hwrapped : s.wrappedTask = .processing := by
    cases hwrapped : s.wrappedTask with
    | processing => rfl
    | timer | sending _ =>
      rw [hwrapped] at hprocessing
      cases hprocessing
  have hids : (acks s.conversation.pendingQueue).map (messageId? p) <+: expected s.conversation := by
    rw [← hstep.unacknowledged, unacknowledged, append_assoc, append_assoc,
      append_assoc]
    exact prefix_append _ _
  have hwait : Inv p { s with completed := some none } := by
    refine h.complete hgoing ?_ nofun nofun
    rw [State.undelivered, State.undelivered, hwrapped]
  rw [onProcessing, Conversation.onProcessing]
  cases hbusy : s.conversation.isFinished || s.conversation.processingTask.isSome ||
      !s.conversation.outboundQueue.isEmpty with
  | true =>
    have hnone : (if s.conversation.outboundQueue.isEmpty = true then
        s.conversation.outboundQueue else []) = [] := by
      split
      · rename_i hempty
        exact isEmpty_iff.mp hempty
      · rfl
    rw [takenAcknowledgment, hbusy, if_pos rfl, Bool.true_or, if_pos rfl]
    rwa [hnone, append_nil, append_nil]
  | false =>
    rw [takenAcknowledgment_of_idle hbusy, if_neg Bool.false_ne_true]
    simp only [Bool.or_eq_false_iff, Bool.not_eq_false', List.isEmpty_iff] at hbusy
    obtain ⟨⟨hfinished, -⟩, houtbound⟩ := hbusy
    obtain ⟨failure, hfailure, heq⟩ | heq | ⟨hexpected, c, heq, hawaited⟩ :=
      awaitAcknowledgment_cases now hstep.receptive hids
    · simp only [heq, houtbound, List.append_nil, ite_self]
      exact h.fail hwrapped hfailure fun hretryable =>
        hretries (isRetryableFailure_eq_true hretryable)
    · simp only [heq, houtbound, List.append_nil, ite_self]
      exact hwait
    · simp only [heq, houtbound, List.isEmpty_nil, if_true]
      refine h.proceed hgoing hwrapped houtbound hretries hexpected ?_ hawaited ?_
      · rw [expected]
        cases s.conversation.isAckExpected with
        | true => rfl
        | false => rfl
      · have hsettled : Settled c :=
          ⟨hawaited.outboundQueue.trans houtbound, hawaited.isAckExpected,
            hawaited.processingTask.trans hstep.processingTask,
            hawaited.isFinished.trans hfinished, hawaited.acks⟩
        refine proceed_proceeded messageId hsettled hawaited.receptive ?_ hcount halone
        exact fun m hm => h.processed m (hawaited.processed ▸ hm)

/-! ## Runs -/

/-- A step which finishes the conversation sends nothing, and the peer sends
a message of its own only while the conversation waits for one. -/
def Orderly (s : State υ ρ σ) : Label υ β ρ σ → Prop
  | .onProcessing _ _ actions _ => FinishesAlone actions
  | .pushMessage _ brokerProtocol _ =>
    MessageType.tryToEnum brokerProtocol.messageType ≠ some .asyncRpcAcknowledgment ∧
      Quiet s.conversation
  | _ => True

/-- A processing step sends one message at most, and its failure is not
retryable once a message has been dispatched. -/
def SendsOne (s : State υ ρ σ) : Label υ β ρ σ → Prop
  | .onProcessing _ _ actions isRetryable =>
    sentCount actions ≤ 1 ∧ (isRetryable = true → s.conversation.retryMessage = none)
  | _ => True

theorem step_inv {l : Label υ β ρ σ} (h : Inv p s) (horderly : Orderly s l)
    (hone : SendsOne s l) (hstep : step p s l = some s') : Inv p s' := by
  cases l with
  | onProcessing now messageId actions isRetryable =>
    obtain ⟨⟨hover, hcompleted, hprocessing⟩, rfl⟩ := Option.ite_some_none_eq_some.mp hstep
    exact onProcessing_inv h hover hcompleted hprocessing hone.1 horderly hone.2
  | onTimer =>
    obtain ⟨⟨hover, hcompleted, htimer⟩, rfl⟩ := Option.ite_some_none_eq_some.mp hstep
    exact onTimer_inv h hover hcompleted htimer
  | onDelivery delivery =>
    obtain ⟨⟨hover, hcompleted⟩, hstep⟩ := Option.ite_none_right_eq_some.mp hstep
    cases hwrapped : s.wrappedTask with
    | processing | timer =>
      rw [hwrapped] at hstep
      cases hstep
    | sending m =>
      rw [hwrapped] at hstep
      cases hstep
      exact onDelivery_inv h hover hcompleted hwrapped
  | continuationTask =>
    obtain ⟨hover, hstep⟩ := Option.ite_none_right_eq_some.mp hstep
    obtain ⟨exception, hcompleted, rfl⟩ := Option.map_eq_some_iff.mp hstep
    exact continuationTask_inv h hover hcompleted
  | receive =>
    cases hchannel : s.channel with
    | nil =>
      rw [step, hchannel] at hstep
      cases hstep
    | cons m channel =>
      rw [step, hchannel] at hstep
      cases hstep
      exact receive_inv h hchannel
  | pushAcknowledgment now => exact pushAcknowledgment_inv h hstep
  | pushMessage now brokerProtocol payload =>
    cases hstep
    exact pushMessage_inv h horderly.1 horderly.2

/-- In every run whose processing steps send one message at most, the
messages are dispatched and acknowledged as they are requested. -/
theorem run_delivered (p : Parameters υ β ρ σ) (seedMessage : Option (MessageInfo ρ σ))
    (now : Int) {ls : List (Label υ β ρ σ)} {s : State υ ρ σ}
    (hrun : Transition.run (step p) (.initial p seedMessage now) ls = some s)
    (horderly : Transition.Along (step p) Orderly (.initial p seedMessage now) ls)
    (hone : Transition.Along (step p) SendsOne (.initial p seedMessage now) ls) :
    Delivered p s :=
  (Transition.run_invariant (C := fun s l => Orderly s l ∧ SendsOne s l)
    (fun _ _ _ h hC hstep => step_inv h hC.1 hC.2 hstep) (Inv.initial p seedMessage now)
    (horderly.and hone) hrun).delivered

/-! ## One message and two -/

instance (actions : List (Action υ ρ σ)) : Decidable (FinishesAlone actions) :=
  inferInstanceAs (Decidable (_ → _))

instance : ∀ (s : State υ ρ σ) (l : Label υ β ρ σ), Decidable (Orderly s l)
  | _, .onProcessing _ _ actions _ => inferInstanceAs (Decidable (FinishesAlone actions))
  | _, .pushMessage _ _ _ => inferInstanceAs (Decidable (_ ∧ _ ∧ _ ∧ _ ∧ _ ∧ _ ∧ _))
  | _, .onTimer | _, .onDelivery _ | _, .continuationTask | _, .receive
  | _, .pushAcknowledgment _ => inferInstanceAs (Decidable True)

instance : ∀ (s : State υ ρ σ) (l : Label υ β ρ σ), Decidable (SendsOne s l)
  | s, .onProcessing _ _ _ _ =>
    have : Decidable (s.conversation.retryMessage = none) := Option.decidableEqNone _
    inferInstanceAs (Decidable (_ ∧ (_ → _)))
  | _, .pushMessage _ _ _ | _, .onTimer | _, .onDelivery _ | _, .continuationTask | _, .receive
  | _, .pushAcknowledgment _ => inferInstanceAs (Decidable True)

abbrev TextLabel : Type := Label Octets (AsyncRpcPayload Octets Octets) Octets Octets

def notification (messageId : Octets) : MessageInfo Octets Octets where
  brokerProtocol :=
    { requestProtocol .asyncNotification none with messageId := messageId, sourcePeerId := [] }
  payload := none

def notificationId : Octets := octets "66666666-6666-6666-6666-666666666666"

/-- A message of the peer is pushed and its acknowledgment is dispatched. -/
def pushedMessage : List TextLabel :=
  [.pushMessage 1 (requestProtocol .asyncNotification none) (some ⟨some (octets "request"), none⟩),
    .onProcessing 2 (octets "5") [] false, .continuationTask, .onDelivery .delivered,
    .continuationTask, .receive]

/-- One message is sent, which is delivered at the second attempt. -/
def oneMessage : List TextLabel :=
  pushedMessage ++
    [.onProcessing 3 (octets "5") [.sendMessage true (notification notificationId)] false,
      .continuationTask, .onDelivery (.failed true), .continuationTask, .onDelivery .delivered,
      .continuationTask, .receive, .pushAcknowledgment 4, .onProcessing 5 (octets "5") [] false]

theorem run_delivered_oneMessage :
    ∃ s, Transition.run (step textParameters) (.initial textParameters none 0) oneMessage =
      some s ∧ s.conversation.isFinished = true ∧ Delivered textParameters s :=
  ⟨_, rfl, rfl, @run_delivered Octets (AsyncRpcPayload Octets Octets) Octets Octets _
    textParameters none 0 oneMessage _ rfl (by decide) (by decide)⟩

/-- Two messages are sent in one step, the last of them flagged as such. -/
def twoMessages : List TextLabel :=
  pushedMessage ++
    [.onProcessing 3 (octets "5") [.sendMessage false (notification (octets "6")),
        .sendMessage true (notification notificationId)] false,
      .continuationTask, .onDelivery .delivered, .continuationTask, .onDelivery .delivered,
      .continuationTask, .receive, .receive, .pushAcknowledgment 4,
      .onProcessing 5 (octets "5") [] false]

/-- The acknowledgment of the first message is taken for one of the second. -/
theorem run_delivered_twoMessages :
    ∃ s, Transition.run (step textParameters) (.initial textParameters none 0) twoMessages =
        some s ∧
      Transition.Along (step textParameters) Orderly (.initial textParameters none 0) twoMessages ∧
      s.completed = some (some (.processing .unexpectedAcknowledgment false)) ∧
      ¬Delivered textParameters s :=
  ⟨_, rfl, by decide, rfl, fun h => Bool.noConfusion (h.failure _ _ rfl)⟩

end Baselib.Messaging.ConversationProcessingTask
