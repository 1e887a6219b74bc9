/-
Baselib.Messaging.ConversationSending — the messages which a section of a
conversation sends. A conversation remembers the id of one message only, so
the one whose acknowledgment is waited for is the one which has been sent
when a section sends one message at most.
-/
import Baselib.Messaging.ConversationTheorems

namespace Baselib.Messaging.Conversation

open Lib List

variable {υ β ρ σ : Type} {p : Parameters υ β ρ σ} {s s' : State υ ρ σ}
variable {now : Int} {m : MessageInfo ρ σ} {ms ms' : List (MessageInfo ρ σ)}
variable {result : Option (Failure υ) × State υ ρ σ} {actions : List (Action υ ρ σ)}

/-! ## Acknowledgments and other messages -/

def nonAcks (ms : List (MessageInfo ρ σ)) : List (MessageInfo ρ σ) :=
  ms.filter fun m => !m.isAcknowledgment

def acks (ms : List (MessageInfo ρ σ)) : List (MessageInfo ρ σ) :=
  ms.filter MessageInfo.isAcknowledgment

@[simp] theorem nonAcks_nil : nonAcks ([] : List (MessageInfo ρ σ)) = [] := rfl

@[simp] theorem acks_nil : acks ([] : List (MessageInfo ρ σ)) = [] := rfl

@[simp] theorem nonAcks_append : nonAcks (ms ++ ms') = nonAcks ms ++ nonAcks ms' :=
  filter_append ..

@[simp] theorem acks_append : acks (ms ++ ms') = acks ms ++ acks ms' :=
  filter_append ..

theorem nonAcks_cons (m : MessageInfo ρ σ) (ms : List (MessageInfo ρ σ)) :
    nonAcks (m :: ms) = if m.isAcknowledgment then nonAcks ms else m :: nonAcks ms := by
  cases h : m.isAcknowledgment <;> simp [nonAcks, h]

theorem acks_cons (m : MessageInfo ρ σ) (ms : List (MessageInfo ρ σ)) :
    acks (m :: ms) = if m.isAcknowledgment then m :: acks ms else acks ms := by
  cases h : m.isAcknowledgment <;> simp [acks, h]

/-- The acknowledgments stand ahead of the rest. -/
def AcksFirst (ms : List (MessageInfo ρ σ)) : Prop := ms = acks ms ++ nonAcks ms

theorem AcksFirst.takeWhile (h : AcksFirst ms) :
    ms.takeWhile MessageInfo.isAcknowledgment = acks ms ∧
      ms.dropWhile MessageInfo.isAcknowledgment = nonAcks ms := by
  have hacks : ∀ m ∈ acks ms, m.isAcknowledgment = true := fun m hm => (mem_filter.mp hm).2
  have hnon : ∀ m ∈ nonAcks ms, m.isAcknowledgment = false := fun m hm => by
    simpa using (mem_filter.mp hm).2
  unfold AcksFirst at h
  generalize acks ms = as at *
  generalize nonAcks ms = ns at *
  subst h
  rw [takeWhile_append_of_pos hacks, dropWhile_append_of_pos hacks]
  cases ns with
  | nil => simp
  | cons n ns => simp [hnon n mem_cons_self]

/-- The queue with an acknowledgment put behind the ones ahead. -/
def insertAck (m : MessageInfo ρ σ) (ms : List (MessageInfo ρ σ)) : List (MessageInfo ρ σ) :=
  ms.takeWhile MessageInfo.isAcknowledgment ++
    m :: ms.dropWhile MessageInfo.isAcknowledgment

theorem length_insertAck (m : MessageInfo ρ σ) (ms : List (MessageInfo ρ σ)) :
    (insertAck m ms).length = ms.length + 1 := by
  have h := congrArg List.length
    (takeWhile_append_dropWhile (p := MessageInfo.isAcknowledgment) (l := ms))
  rw [length_append] at h
  rw [insertAck, length_append, length_cons]
  omega

theorem nonAcks_insertAck (hm : m.isAcknowledgment = true) :
    nonAcks (insertAck m ms) = nonAcks ms := by
  rw [insertAck, nonAcks_append, nonAcks_cons, if_pos hm, ← nonAcks_append,
    takeWhile_append_dropWhile]

theorem acks_nonAcks (ms : List (MessageInfo ρ σ)) : acks (nonAcks ms) = [] := by
  simp [nonAcks, acks, filter_filter]

theorem acks_acks (ms : List (MessageInfo ρ σ)) : acks (acks ms) = acks ms := by
  simp [acks, filter_filter]

theorem AcksFirst.acks_insertAck (h : AcksFirst ms) (hm : m.isAcknowledgment = true) :
    acks (insertAck m ms) = acks ms ++ [m] := by
  rw [insertAck, h.takeWhile.1, h.takeWhile.2, acks_append, acks_cons, if_pos hm, acks_nonAcks,
    acks_acks]

theorem AcksFirst.insertAck (h : AcksFirst ms) (hm : m.isAcknowledgment = true) :
    AcksFirst (insertAck m ms) := by
  rw [AcksFirst, h.acks_insertAck hm, nonAcks_insertAck hm, Conversation.insertAck,
    h.takeWhile.1, h.takeWhile.2, append_assoc, singleton_append]

theorem AcksFirst.concat (h : AcksFirst ms) (hm : m.isAcknowledgment = false) :
    AcksFirst (ms ++ [m]) := by
  rw [AcksFirst, acks_append, nonAcks_append, acks_cons, nonAcks_cons, hm]
  conv_lhs => rw [h]
  simp

theorem AcksFirst.tail (h : AcksFirst (m :: ms)) : AcksFirst ms := by
  rw [AcksFirst, acks_cons, nonAcks_cons] at h
  cases hm : m.isAcknowledgment with
  | true =>
    simp only [hm, if_true, cons_append, List.cons.injEq, true_and] at h
    exact h
  | false =>
    rw [hm] at h
    cases hacks : acks ms with
    | nil => simpa [AcksFirst, hacks] using h
    | cons a as =>
      have ha : a ∈ acks ms := by simp [hacks]
      simp only [hacks, Bool.false_eq_true, if_false, cons_append, List.cons.injEq] at h
      rw [h.1, (mem_filter.mp ha).2] at hm
      cases hm

/-! ## Sending -/

/-- The id of a message. -/
def messageId? (p : Parameters υ β ρ σ) (m : MessageInfo ρ σ) : Option υ :=
  p.uuids.string2uuid m.brokerProtocol.messageId

/-- The failures which say that a message of the peer has not been expected. -/
def Failure.isUnexpected : Failure υ → Bool
  | .unexpectedAcknowledgment | .afterEnd _ => true
  | _ => false

theorem sendMessage_cases (p : Parameters υ β ρ σ) (now : Int) (isLastMessage : Bool)
    (m : MessageInfo ρ σ) (s : State υ ρ σ) :
    (∃ failure, failure.isUnexpected = false ∧
      sendMessage p now isLastMessage m s = (some failure, s)) ∨
    (m.isAcknowledgment = true ∧ sendMessage p now isLastMessage m s =
      (none, { s with outboundQueue := insertAck m s.outboundQueue })) ∨
    (m.isAcknowledgment = false ∧ ∃ failure, failure.isUnexpected = false ∧
      sendMessage p now isLastMessage m s =
        (some failure, { s with outboundQueue := s.outboundQueue ++ [m] })) ∨
    (m.isAcknowledgment = false ∧ ∃ messageId, messageId? p m = some messageId ∧
      sendMessage p now isLastMessage m s = (none, { s with
        outboundQueue := s.outboundQueue ++ [m]
        lastSentMessageId := messageId
        lastUnacknowledgedMessageSent := some now
        isAckExpected := true
        wasLastMessageSent := isLastMessage })) := by
  rw [sendMessage]
  cases htype : MessageType.tryToEnum m.brokerProtocol.messageType with
  | none => exact .inl ⟨_, rfl, rfl⟩
  | some messageType =>
    have hack : m.isAcknowledgment = (messageType == .asyncRpcAcknowledgment) := by
      rw [MessageInfo.isAcknowledgment, htype]
      rfl
    dsimp only
    rw [← hack, enqueueOutboundMessage]
    by_cases hfull : blockQueueSize ≤ s.outboundQueue.length
    · rw [if_pos hfull]
      exact .inl ⟨_, rfl, rfl⟩
    rw [if_neg hfull]
    cases hm : m.isAcknowledgment with
    | true => exact .inr (.inl ⟨rfl, rfl⟩)
    | false =>
      cases hid : p.uuids.string2uuid m.brokerProtocol.messageId with
      | none => exact .inr (.inr (.inl ⟨rfl, _, rfl, rfl⟩))
      | some messageId => exact .inr (.inr (.inr ⟨rfl, messageId, hid, rfl⟩))

/-- `ms` are the messages which were sent, other than acknowledgments; the
last of them is the one which is remembered. -/
structure Sent (p : Parameters υ β ρ σ) (s s' : State υ ρ σ) (ms : List (MessageInfo ρ σ)) :
    Prop where
  outbound : nonAcks s'.outboundQueue = nonAcks s.outboundQueue ++ ms
  none : ms = [] →
    s'.isAckExpected = s.isAckExpected ∧ s'.lastSentMessageId = s.lastSentMessageId
  last : ∀ m, ms.getLast? = some m →
    s'.isAckExpected = true ∧ messageId? p m = some s'.lastSentMessageId

theorem Sent.trans {s'' : State υ ρ σ} (h : Sent p s s' ms) (h' : Sent p s' s'' ms') :
    Sent p s s'' (ms ++ ms') where
  outbound := by rw [h'.outbound, h.outbound, append_assoc]
  none hnil := by
    obtain ⟨rfl, rfl⟩ := append_eq_nil_iff.mp hnil
    obtain ⟨hexpected, hid⟩ := h.none rfl
    obtain ⟨hexpected', hid'⟩ := h'.none rfl
    exact ⟨hexpected'.trans hexpected, hid'.trans hid⟩
  last m hm := by
    cases hms' : ms'.getLast? with
    | none =>
      obtain rfl := getLast?_eq_none_iff.mp hms'
      rw [append_nil] at hm
      obtain ⟨hexpected', hid'⟩ := h'.none rfl
      rw [hexpected', hid']
      exact h.last m hm
    | some m' =>
      rw [getLast?_append, hms', Option.some_or] at hm
      obtain rfl := Option.some.inj hm
      exact h'.last m' hms'

/-- What an execution comes to which sends at most `n` messages. -/
structure Outcome (p : Parameters υ β ρ σ) (s : State υ ρ σ) (n : Nat)
    (result : Option (Failure υ) × State υ ρ σ) : Prop where
  failure : ∀ failure, result.1 = some failure → failure.isUnexpected = false
  acksFirst : AcksFirst s.outboundQueue → AcksFirst result.2.outboundQueue
  processingTask : result.2.processingTask = s.processingTask
  retryMessage : result.2.retryMessage = s.retryMessage
  sent : result.1 = none → ∃ ms, ms.length ≤ n ∧ Sent p s result.2 ms

/-- Nothing which concerns sending is changed. -/
structure Unsent (s s' : State υ ρ σ) : Prop where
  outboundQueue : s'.outboundQueue = s.outboundQueue
  isAckExpected : s'.isAckExpected = s.isAckExpected
  lastSentMessageId : s'.lastSentMessageId = s.lastSentMessageId
  processingTask : s'.processingTask = s.processingTask
  retryMessage : s'.retryMessage = s.retryMessage

theorem Unsent.refl (s : State υ ρ σ) : Unsent s s := ⟨rfl, rfl, rfl, rfl, rfl⟩

theorem Outcome.none (h : Unsent s s') (n : Nat) : Outcome p s n (none, s') where
  failure := nofun
  acksFirst hfirst := by rwa [h.outboundQueue]
  processingTask := h.processingTask
  retryMessage := h.retryMessage
  sent _ := by
    refine ⟨[], Nat.zero_le n, ?_, fun _ => ⟨h.isAckExpected, h.lastSentMessageId⟩, nofun⟩
    rw [h.outboundQueue, append_nil]

theorem Outcome.some (failure : Failure υ) (h : failure.isUnexpected = false) (s : State υ ρ σ)
    (n : Nat) : Outcome p s n (some failure, s) where
  failure _ heq := Option.some.inj heq ▸ h
  acksFirst := id
  processingTask := rfl
  retryMessage := rfl
  sent := nofun

theorem Outcome.trans {n n' : Nat}
    (h : Outcome p s n (Option.none, s')) (h' : Outcome p s' n' result) :
    Outcome p s (n + n') result where
  failure := h'.failure
  acksFirst := h'.acksFirst ∘ h.acksFirst
  processingTask := h'.processingTask.trans h.processingTask
  retryMessage := h'.retryMessage.trans h.retryMessage
  sent hnone := by
    obtain ⟨ms, hms, hsent⟩ := h.sent rfl
    obtain ⟨ms', hms', hsent'⟩ := h'.sent hnone
    refine ⟨ms ++ ms', ?_, hsent.trans hsent'⟩
    rw [length_append]
    exact Nat.add_le_add hms hms'

theorem Outcome.stop {n n' : Nat} {failure : Failure υ}
    (h : Outcome p s n (Option.some failure, s')) : Outcome p s n' (Option.some failure, s') :=
  ⟨h.failure, h.acksFirst, h.processingTask, h.retryMessage, nofun⟩

theorem sendMessage_outcome (p : Parameters υ β ρ σ) (now : Int) (isLastMessage : Bool)
    (m : MessageInfo ρ σ) (s : State υ ρ σ) :
    Outcome p s (if m.isAcknowledgment then 0 else 1) (sendMessage p now isLastMessage m s) := by
  obtain ⟨failure, hfailure, heq⟩ | ⟨hm, heq⟩ | ⟨hm, failure, hfailure, heq⟩ |
    ⟨hm, messageId, hid, heq⟩ := sendMessage_cases p now isLastMessage m s
  · rw [heq]
    exact Outcome.some failure hfailure s _
  · rw [heq]
    refine ⟨nofun, fun h => h.insertAck hm, rfl, rfl, fun _ => ⟨[], Nat.zero_le _, ?_⟩⟩
    exact ⟨by simp [nonAcks_insertAck hm], fun _ => ⟨rfl, rfl⟩, nofun⟩
  · rw [heq]
    exact ⟨fun _ h => Option.some.inj h ▸ hfailure, fun h => h.concat hm, rfl, rfl, nofun⟩
  · rw [heq, hm]
    refine ⟨nofun, fun h => h.concat hm, rfl, rfl, fun _ => ⟨[m], Nat.le_refl 1, ?_⟩⟩
    refine ⟨by simp [nonAcks, hm], nofun, fun m' hm' => ?_⟩
    obtain rfl : m = m' := by simpa using hm'
    exact ⟨rfl, hid⟩

theorem createResponseProtocolMessage_isAcknowledgment (conversationId messageId : υ)
    (payload : Option (AsyncRpcPayload ρ σ)) :
    (MessageInfo.mk (createResponseProtocolMessage p.uuids conversationId messageId)
      payload).isAcknowledgment = false := by
  rw [MessageInfo.isAcknowledgment, createResponseProtocolMessage, createBrokerProtocolMessage,
    tryToEnum_toString]
  rfl

/-! ## What the derived class does -/

/-- A message is sent, an acknowledgment or not. -/
def Action.sends : Action υ ρ σ → Bool
  | .sendMessage _ _ | .defaultProcessRequest _ _ => true
  | _ => false

/-- A message is sent which is not an acknowledgment. -/
def Action.sendsMessage : Action υ ρ σ → Bool
  | .sendMessage _ m => !m.isAcknowledgment
  | .defaultProcessRequest _ _ => true
  | _ => false

def Action.finishes : Action υ ρ σ → Bool
  | .defaultProcessResponse | .finish => true
  | _ => false

/-- How many messages are sent, up to the first throw. -/
def sentCount : List (Action υ ρ σ) → Nat
  | [] => 0
  | .throw :: _ => 0
  | action :: actions => (if action.sendsMessage then 1 else 0) + sentCount actions

theorem Action.execute_outcome (action : Action υ ρ σ) :
    Outcome p s (if action.sendsMessage then 1 else 0) (action.execute p now m s) := by
  cases action with
  | sendMessage isLastMessage m =>
    have h := sendMessage_outcome p now isLastMessage m s
    cases hm : m.isAcknowledgment with
    | true | false => simpa [Action.sendsMessage, Action.execute, hm] using h
  | defaultProcessRequest messageId asyncRpcResponse =>
    rw [Action.execute, Conversation.defaultProcessRequest]
    cases p.uuids.string2uuid m.brokerProtocol.conversationId with
    | none => exact Outcome.some _ rfl s _
    | some conversationId =>
      have h := sendMessage_outcome p now true ⟨createResponseProtocolMessage p.uuids
        conversationId messageId, some ⟨none, some asyncRpcResponse⟩⟩ s
      rwa [createResponseProtocolMessage_isAcknowledgment] at h
  | defaultProcessResponse =>
    rw [Action.execute]
    by_cases hresponse : isResponsePayload m.payload = true
    · rw [if_pos hresponse]
      refine Outcome.none ?_ _
      exact ⟨rfl, rfl, rfl, rfl, rfl⟩
    · rw [if_neg hresponse]
      exact Outcome.some .responseExpected rfl s _
  | emptyCurrentMessage | finish =>
    rw [Action.execute]
    refine Outcome.none ?_ _
    exact ⟨rfl, rfl, rfl, rfl, rfl⟩
  | throw => exact Outcome.some _ rfl s _

theorem processCurrentMessage_outcome (actions : List (Action υ ρ σ)) :
    ∀ {s : State υ ρ σ},
      Outcome p s (sentCount actions) (processCurrentMessage p now m actions s) := by
  induction actions with
  | nil => exact fun {s} => Outcome.none (Unsent.refl s) 0
  | cons action actions ih =>
    intro s
    have haction := @Action.execute_outcome _ _ _ _ p s now m action
    rw [processCurrentMessage]
    split
    · rename_i failure s₁ heq
      rw [heq] at haction
      exact haction.stop
    · rename_i s₁ heq
      rw [heq] at haction
      cases action with
      | throw => cases heq
      | _ => exact haction.trans ih

/-- A step which finishes the conversation sends nothing. -/
def FinishesAlone (actions : List (Action υ ρ σ)) : Prop :=
  actions.any Action.finishes = true → actions.any Action.sends = false

theorem sendMessage_isFinished (p : Parameters υ β ρ σ) (now : Int) (isLastMessage : Bool)
    (m : MessageInfo ρ σ) (s : State υ ρ σ) :
    (sendMessage p now isLastMessage m s).2.isFinished = s.isFinished := by
  obtain ⟨_, _, heq⟩ | ⟨_, heq⟩ | ⟨_, _, _, heq⟩ | ⟨_, _, _, heq⟩ :=
    sendMessage_cases p now isLastMessage m s
  all_goals rw [heq]

theorem Action.execute_isFinished (action : Action υ ρ σ) (h : action.finishes = false) :
    (action.execute p now m s).2.isFinished = s.isFinished := by
  cases action with
  | sendMessage isLastMessage m => exact sendMessage_isFinished ..
  | defaultProcessRequest messageId asyncRpcResponse =>
    simp only [Action.execute, Conversation.defaultProcessRequest]
    split
    · rfl
    · exact sendMessage_isFinished ..
  | defaultProcessResponse => cases h
  | emptyCurrentMessage => rfl
  | finish => cases h
  | throw => rfl

theorem Action.execute_unsent (action : Action υ ρ σ) (h : action.sends = false) :
    Unsent s (action.execute p now m s).2 := by
  cases action with
  | sendMessage isLastMessage m => cases h
  | defaultProcessRequest messageId asyncRpcResponse => cases h
  | defaultProcessResponse =>
    simp only [Action.execute]
    split
    · exact ⟨rfl, rfl, rfl, rfl, rfl⟩
    · exact Unsent.refl s
  | emptyCurrentMessage | finish => exact ⟨rfl, rfl, rfl, rfl, rfl⟩
  | throw => exact Unsent.refl s

theorem Unsent.trans {s'' : State υ ρ σ} (h : Unsent s s') (h' : Unsent s' s'') :
    Unsent s s'' where
  outboundQueue := h'.outboundQueue.trans h.outboundQueue
  isAckExpected := h'.isAckExpected.trans h.isAckExpected
  lastSentMessageId := h'.lastSentMessageId.trans h.lastSentMessageId
  processingTask := h'.processingTask.trans h.processingTask
  retryMessage := h'.retryMessage.trans h.retryMessage

/-- A relation which every action keeps is kept by all of them. -/
theorem processCurrentMessage_induction {r : State υ ρ σ → State υ ρ σ → Prop}
    (hrefl : ∀ s, r s s) (htrans : ∀ {s s' s''}, r s s' → r s' s'' → r s s'')
    (actions : List (Action υ ρ σ)) :
    (∀ action ∈ actions, ∀ s, r s (action.execute p now m s).2) →
      ∀ s, r s (processCurrentMessage p now m actions s).2 := by
  induction actions with
  | nil => exact fun _ s => hrefl s
  | cons action actions ih =>
    intro h s
    have haction := h action mem_cons_self s
    rw [processCurrentMessage]
    split
    · rename_i failure s₁ heq
      rwa [heq] at haction
    · rename_i s₁ heq
      rw [heq] at haction
      exact htrans haction (ih (fun action hmem => h action (mem_cons_of_mem _ hmem)) s₁)

theorem processCurrentMessage_finished (halone : FinishesAlone actions) :
    (processCurrentMessage p now m actions s).2.isFinished = s.isFinished ∨
      Unsent s (processCurrentMessage p now m actions s).2 := by
  cases hfinishes : actions.any Action.finishes with
  | false =>
    refine .inl (processCurrentMessage_induction
      (r := fun s s' => s'.isFinished = s.isFinished) (fun _ => rfl) (fun h h' => h'.trans h)
      actions (fun action hmem s => action.execute_isFinished ?_) s)
    simpa using any_eq_false.mp hfinishes action hmem
  | true =>
    refine .inr (processCurrentMessage_induction Unsent.refl Unsent.trans actions
      (fun action hmem s => action.execute_unsent ?_) s)
    simpa using any_eq_false.mp (halone hfinishes) action hmem

/-! ## Processing -/

/-- The ids of the messages which are to be acknowledged. -/
def messageIds (p : Parameters υ β ρ σ) (ms : List (MessageInfo ρ σ)) : List (Option υ) :=
  (nonAcks ms).map (messageId? p)

@[simp] theorem messageIds_nil : messageIds p ([] : List (MessageInfo ρ σ)) = [] := rfl

@[simp] theorem messageIds_append (ms ms' : List (MessageInfo ρ σ)) :
    messageIds p (ms ++ ms') = messageIds p ms ++ messageIds p ms' := by
  simp [messageIds]

theorem messageIds_cons (m : MessageInfo ρ σ) (ms : List (MessageInfo ρ σ)) :
    messageIds p (m :: ms) =
      if m.isAcknowledgment then messageIds p ms else messageId? p m :: messageIds p ms := by
  rw [messageIds, nonAcks_cons]
  cases m.isAcknowledgment with
  | true => rfl
  | false => rfl

theorem messageIds_insertAck (hm : m.isAcknowledgment = true) :
    messageIds p (insertAck m ms) = messageIds p ms := by
  rw [messageIds, nonAcks_insertAck hm, messageIds]

/-- The id whose acknowledgment is waited for. -/
def expected (s : State υ ρ σ) : List (Option υ) :=
  if s.isAckExpected then [some s.lastSentMessageId] else []

theorem none_notMem_expected (s : State υ ρ σ) : none ∉ expected s := by
  unfold expected
  split <;> simp

/-- The conversation waits for a message of the peer and for nothing else. -/
structure Open (s : State υ ρ σ) : Prop where
  seedMessage : s.seedMessage = none
  currentMessage : s.currentMessage = none
  isAckExpected : s.isAckExpected = false
  wasLastMessageSent : s.wasLastMessageSent = false

/-- What the pending queue may hold. -/
structure Receptive (s : State υ ρ σ) : Prop where
  payload : ∀ m ∈ s.pendingQueue, m.isAcknowledgment = true → m.payload = none
  waiting : nonAcks s.pendingQueue = [] ∨ (nonAcks s.pendingQueue).length = 1 ∧ Open s
  current : ∀ m, s.currentMessage = some m → m.isAcknowledgment = false

/-- Everything which was sent has been acknowledged. -/
structure Settled (s : State υ ρ σ) : Prop where
  outboundQueue : s.outboundQueue = []
  isAckExpected : s.isAckExpected = false
  processingTask : s.processingTask = none
  isFinished : s.isFinished = false
  acks : acks s.pendingQueue = []

/-- No acknowledgment has been processed as a message. -/
def NoAcksProcessed (s : State υ ρ σ) : Prop :=
  ∀ m ∈ s.processed, m.isAcknowledgment = false

/-- What a section comes to which has found everything acknowledged. -/
structure Proceeded (p : Parameters υ β ρ σ) (s : State υ ρ σ)
    (result : Option (Failure υ) × State υ ρ σ) : Prop where
  failure : ∀ failure, result.1 = some failure → failure.isUnexpected = false
  acksFirst : AcksFirst result.2.outboundQueue
  retryMessage : result.2.retryMessage = s.retryMessage
  finished : result.2.isFinished = true →
    result.2.outboundQueue = [] ∧ result.2.isAckExpected = false
  processed : NoAcksProcessed result.2
  current : ∀ m, result.2.currentMessage = some m → m.isAcknowledgment = false
  pendingQueue : result.1 = none → result.2.pendingQueue = []
  sent : result.1 = none → result.2.processingTask = none ∧
    messageIds p result.2.outboundQueue = expected result.2

theorem Settled.proceeded (hsettled : Settled s) (houtcome : Outcome p s 1 result)
    (hfinished : result.2.isFinished = true →
      result.2.outboundQueue = [] ∧ result.2.isAckExpected = false)
    (hprocessed : NoAcksProcessed result.2)
    (hpending : result.1 = none → result.2.pendingQueue = [])
    (hcurrent : ∀ m, result.2.currentMessage = some m → m.isAcknowledgment = false) :
    Proceeded p s result where
  failure := houtcome.failure
  acksFirst := houtcome.acksFirst (by rw [hsettled.outboundQueue]; rfl)
  retryMessage := houtcome.retryMessage
  finished := hfinished
  processed := hprocessed
  current := hcurrent
  pendingQueue := hpending
  sent hnone := by
    obtain ⟨ms, hms, hsent⟩ := houtcome.sent hnone
    have houtbound : nonAcks result.2.outboundQueue = ms := by
      rw [hsent.outbound, hsettled.outboundQueue]
      rfl
    refine ⟨houtcome.processingTask.trans hsettled.processingTask, ?_⟩
    rw [messageIds, houtbound, expected]
    match ms, hms with
    | [], _ => rw [(hsent.none rfl).1, hsettled.isAckExpected]; rfl
    | [m], _ =>
      obtain ⟨hexpected, hid⟩ := hsent.last m rfl
      rw [hexpected]
      exact congrArg (fun id => [id]) hid

theorem Kept.nonAck (h : Kept s s')
    (hcurrent : ∀ m, s.currentMessage = some m → m.isAcknowledgment = false) :
    ∀ m, s'.currentMessage = some m → m.isAcknowledgment = false := by
  intro m hm
  obtain heq | heq := h.currentMessage
  · exact hcurrent m (heq ▸ hm)
  · rw [heq] at hm
    cases hm

/-- Only the retry message of the state before matters. -/
theorem Proceeded.congr (h : Proceeded p s' result) (hretry : s'.retryMessage = s.retryMessage) :
    Proceeded p s result :=
  { h with retryMessage := h.retryMessage.trans hretry }

/-- Emptying the seed message or the current one. -/
theorem Proceeded.cleared (h : Proceeded p s (none, s')) (seedMessage : Option (MessageInfo ρ σ))
    {currentMessage : Option (MessageInfo ρ σ)}
    (hcurrent : ∀ m, currentMessage = some m → m.isAcknowledgment = false) :
    Proceeded p s (none, { s' with seedMessage, currentMessage }) :=
  ⟨nofun, h.acksFirst, h.retryMessage, h.finished, h.processed, hcurrent, h.pendingQueue, h.sent⟩

theorem Settled.unchanged (hsettled : Settled s) (hpending : s.pendingQueue = [])
    (hprocessed : NoAcksProcessed s)
    (hcurrent : ∀ m, s.currentMessage = some m → m.isAcknowledgment = false)
    {failure : Option (Failure υ)} (h : ∀ f, failure = some f → f.isUnexpected = false) :
    Proceeded p s (failure, s) := by
  refine hsettled.proceeded ?_ ?_ hprocessed (fun _ => hpending) hcurrent
  · cases failure with
    | none => exact Outcome.none (Unsent.refl s) 1
    | some failure => exact Outcome.some failure (h failure rfl) s 1
  · intro hfinished
    rw [hsettled.isFinished] at hfinished
    cases hfinished

theorem Outcome.mono {n n' : Nat}
    (h : Outcome p s n result) (hn : n ≤ n') : Outcome p s n' result :=
  { h with
    sent := fun hnone => (h.sent hnone).imp fun _ => And.imp_left (Nat.le_trans · hn) }

theorem Settled.sendMessage (hsettled : Settled s) (hpending : s.pendingQueue = [])
    (hprocessed : NoAcksProcessed s)
    (hcurrent : ∀ m, s.currentMessage = some m → m.isAcknowledgment = false)
    (isLastMessage : Bool) (m : MessageInfo ρ σ) :
    Proceeded p s (sendMessage p now isLastMessage m s) := by
  have hkept := @sendMessage_kept _ _ _ _ p s now m isLastMessage
  have houtcome := sendMessage_outcome p now isLastMessage m s
  refine hsettled.proceeded (houtcome.mono ?_) ?_ ?_ (fun _ => hkept.pendingQueue.trans hpending) ?_
  · split
    · exact Nat.zero_le 1
    · exact Nat.le_refl 1
  · intro hfinished
    simp [sendMessage_isFinished, hsettled.isFinished] at hfinished
  · exact fun m hm => hprocessed m (hkept.processed ▸ hm)
  · exact hkept.nonAck hcurrent

theorem Settled.processCurrentMessage (hsettled : Settled s)
    (hpending : s.pendingQueue = []) (hprocessed : NoAcksProcessed s)
    (hcurrent : ∀ m, s.currentMessage = some m → m.isAcknowledgment = false)
    (hcount : sentCount actions ≤ 1) (halone : FinishesAlone actions) :
    Proceeded p s (processCurrentMessage p now m actions s) := by
  have houtcome := @processCurrentMessage_outcome _ _ _ _ p now m actions s
  have hkept := @processCurrentMessage_kept _ _ _ _ p now m actions s
  refine hsettled.proceeded ?_ ?_ ?_ (fun _ => hkept.pendingQueue.trans hpending) ?_
  · exact houtcome.mono hcount
  · intro hfinished
    obtain hsame | hunsent := @processCurrentMessage_finished _ _ _ _ p s now m actions halone
    · simp [hsame, hsettled.isFinished] at hfinished
    · exact ⟨hunsent.outboundQueue.trans hsettled.outboundQueue,
        hunsent.isAckExpected.trans hsettled.isAckExpected⟩
  · exact fun m hm => hprocessed m (hkept.processed ▸ hm)
  · exact hkept.nonAck hcurrent

theorem processOrWait_proceeded (hsettled : Settled s)
    (hpending : s.pendingQueue = []) (hprocessed : NoAcksProcessed s)
    (hcurrent : ∀ m, s.currentMessage = some m → m.isAcknowledgment = false)
    (hcount : sentCount actions ≤ 1) (halone : FinishesAlone actions) :
    Proceeded p s (processOrWait p now actions s) := by
  rw [processOrWait]
  cases hm : s.currentMessage with
  | none =>
    dsimp only
    split
    · exact hsettled.unchanged hpending hprocessed hcurrent fun _ h => Option.some.inj h ▸ rfl
    · exact hsettled.unchanged hpending hprocessed hcurrent fun _ h => by cases h
  | some current =>
    rw [hm] at hcurrent
    have hsettled' : Settled { s with
        currentMessage := some current
        processed := s.processed ++ [current] } := { hsettled with }
    refine (hsettled'.processCurrentMessage hpending ?_ hcurrent hcount halone).congr rfl
    intro m hmem
    obtain hmem | hmem := mem_append.mp hmem
    · exact hprocessed m hmem
    · rw [mem_singleton.mp hmem]
      exact hcurrent current rfl

/-- A message which has been taken off the queue. -/
theorem processTaken_proceeded (messageId : υ)
    (hsettled : Settled s) (hpending : s.pendingQueue = []) (hprocessed : NoAcksProcessed s)
    (hcurrent : ∀ m, s.currentMessage = some m → m.isAcknowledgment = false)
    (hcount : sentCount actions ≤ 1) (halone : FinishesAlone actions) :
    Proceeded p s (processTaken p now messageId actions m s) := by
  rw [processTaken]
  split
  · exact hsettled.unchanged hpending hprocessed hcurrent fun _ h => Option.some.inj h ▸ rfl
  split
  · have hsent : Proceeded p s (sendErrorResponse p now messageId
        (octets "Request messages must be authenticated") s) :=
      hsettled.sendMessage hpending hprocessed hcurrent true _
    split
    · rename_i failure s₁ heq
      rwa [heq] at hsent
    · rename_i s₁ heq
      rw [heq] at hsent
      exact hsent.cleared s₁.seedMessage fun _ h => by cases h
  · have hsettled' : Settled { s with lastMessageReceived := now } := { hsettled with }
    exact (processOrWait_proceeded hsettled' hpending hprocessed hcurrent hcount halone).congr rfl

theorem Settled.waiting (hsettled : Settled s) (h : Receptive s) :
    s.pendingQueue = [] ∨ s.pendingQueue.length = 1 ∧ Open s := by
  have hpending : nonAcks s.pendingQueue = s.pendingQueue := by
    refine filter_eq_self.mpr fun m hm => ?_
    have hack := filter_eq_nil_iff.mp hsettled.acks m hm
    simpa using hack
  have hwaiting := h.waiting
  rwa [hpending] at hwaiting

theorem proceed_proceeded (messageId : υ) (hsettled : Settled s)
    (h : Receptive s) (hprocessed : NoAcksProcessed s) (hcount : sentCount actions ≤ 1)
    (halone : FinishesAlone actions) :
    Proceeded p s (proceed p now messageId actions s) := by
  rw [proceed]
  obtain hpending | ⟨hlength, hopen⟩ := hsettled.waiting h
  · split
    · rw [hpending]
      refine hsettled.proceeded (Outcome.none ?_ 1) ?_ hprocessed (fun _ => rfl) h.current
      · exact ⟨rfl, rfl, rfl, rfl, rfl⟩
      · exact fun _ => ⟨hsettled.outboundQueue, hsettled.isAckExpected⟩
    split
    · rename_i seedMessage _
      have hsent := @Settled.sendMessage _ _ _ _ p s now hsettled hpending hprocessed h.current
        false seedMessage
      split
      · rename_i failure s₁ heq
        rwa [heq] at hsent
      · rename_i s₁ heq
        rw [heq] at hsent
        exact hsent.cleared none hsent.current
    · split
      · rename_i hm
        simp [hpending] at hm
      · exact processOrWait_proceeded hsettled hpending hprocessed h.current hcount halone
  · obtain ⟨m, hm⟩ := length_eq_one_iff.mp hlength
    have hack : m.isAcknowledgment = false := by
      have hfilter := filter_eq_nil_iff.mp hsettled.acks m (by rw [hm]; exact .head _)
      simpa using hfilter
    rw [hopen.wasLastMessageSent, hopen.seedMessage, hopen.currentMessage, hm]
    have hsettled' : Settled { s with
        seedMessage := none, wasLastMessageSent := false,
        currentMessage := some m, pendingQueue := [] } :=
      { hsettled with acks := rfl }
    refine (processTaken_proceeded messageId hsettled' rfl hprocessed ?_ hcount halone).congr rfl
    exact fun m' hm' => Option.some.inj hm' ▸ hack

/-! ## Messages of the peer -/

theorem createAcknowledgmentMessage_isAcknowledgment (p : Parameters υ β ρ σ)
    (conversationId messageId : υ) (payload : Option (AsyncRpcPayload ρ σ)) :
    (MessageInfo.mk (createAcknowledgmentMessage p.uuids conversationId messageId)
      payload).isAcknowledgment = true := by
  rw [MessageInfo.isAcknowledgment, createAcknowledgmentMessage, createBrokerProtocolMessage,
    tryToEnum_toString]
  rfl

theorem createAcknowledgmentMessage_messageId (p : Parameters υ β ρ σ)
    (conversationId messageId : υ) (payload : Option (AsyncRpcPayload ρ σ)) :
    messageId? p ⟨createAcknowledgmentMessage p.uuids conversationId messageId, payload⟩ =
      some messageId :=
  p.uuids.string2uuid_uuid2string messageId

theorem Receptive.acknowledgment (h : Receptive s) (hm : m.isAcknowledgment = true)
    (hpayload : m.payload = none) :
    Receptive { s with pendingQueue := s.pendingQueue ++ [m] } where
  payload m' hm' hack := by
    obtain hm' | hm' := mem_append.mp hm'
    · exact h.payload m' hm' hack
    · rw [mem_singleton.mp hm', hpayload]
  waiting := by
    have hsame : nonAcks (s.pendingQueue ++ [m]) = nonAcks s.pendingQueue := by
      rw [nonAcks_append, nonAcks_cons, if_pos hm, nonAcks_nil, append_nil]
    rw [hsame]
    exact h.waiting.imp_right fun ⟨hlength, hopen⟩ => ⟨hlength, { hopen with }⟩
  current := h.current

theorem Open.receptive (h : Open s) (hpending : s.pendingQueue = [])
    {outboundQueue : List (MessageInfo ρ σ)}
    (hms : ms = [] ∨ ∃ m, m.isAcknowledgment = false ∧ ms = [m]) :
    Receptive { s with outboundQueue, pendingQueue := s.pendingQueue ++ ms } where
  payload m hm hack := by
    obtain rfl | ⟨m', hm', rfl⟩ := hms
    · simp [hpending] at hm
    · rw [hpending] at hm
      simp [mem_singleton.mp hm, hm'] at hack
  waiting := by
    rw [hpending]
    obtain rfl | ⟨m', hm', rfl⟩ := hms
    · exact .inl rfl
    · refine .inr ⟨?_, { h with }⟩
      rw [nil_append, nonAcks_cons, hm']
      rfl
  current m hm := by
    rw [h.currentMessage] at hm
    cases hm

variable [DecidableEq υ]

/-- The acknowledgment has been taken which was waited for, if one was. -/
structure Awaited (s s' : State υ ρ σ) : Prop where
  outboundQueue : s'.outboundQueue = s.outboundQueue
  processingTask : s'.processingTask = s.processingTask
  isFinished : s'.isFinished = s.isFinished
  retryMessage : s'.retryMessage = s.retryMessage
  processed : s'.processed = s.processed
  isAckExpected : s'.isAckExpected = false
  acks : acks s'.pendingQueue = []
  receptive : Receptive s'

/-- An acknowledgment at the head of the pending queue is the expected one. -/
theorem awaitAcknowledgment_cases (now : Int) (h : Receptive s)
    (hids : (acks s.pendingQueue).map (messageId? p) <+: expected s) :
    (∃ failure, failure.isUnexpected = false ∧ awaitAcknowledgment p now s = .error failure) ∨
    awaitAcknowledgment p now s = .ok none ∨
    (acks s.pendingQueue).map (messageId? p) = expected s ∧
      ∃ s', awaitAcknowledgment p now s = .ok (some s') ∧ Awaited s s' := by
  rw [awaitAcknowledgment]
  cases hexpected : s.isAckExpected with
  | false =>
    rw [expected, hexpected] at hids
    have hnil := prefix_nil.mp hids
    refine .inr (.inr ⟨?_, s, rfl, ?_⟩)
    · rw [hnil, expected, hexpected]
      rfl
    · exact ⟨rfl, rfl, rfl, rfl, rfl, hexpected, map_eq_nil_iff.mp hnil, h⟩
  | true =>
    rw [if_neg (by simp)]
    split
    · exact .inl ⟨_, rfl, rfl⟩
    have hnonAcks : nonAcks s.pendingQueue = [] := by
      obtain hnil | ⟨_, hopen⟩ := h.waiting
      · exact hnil
      · simp [hopen.isAckExpected] at hexpected
    cases hpending : s.pendingQueue with
    | nil => exact .inr (.inl rfl)
    | cons m rest =>
      have hack : m.isAcknowledgment = true := by
        have hnone := filter_eq_nil_iff.mp hnonAcks m (by rw [hpending]; exact .head _)
        simpa using hnone
      rw [hpending, acks_cons, if_pos hack, map_cons, expected, if_pos hexpected,
        cons_prefix_cons, prefix_nil, map_eq_nil_iff] at hids
      obtain ⟨hid, hrest⟩ := hids
      have hpayload := h.payload m (by rw [hpending]; exact .head _) hack
      rw [messageId?] at hid
      refine .inr (.inr ⟨?_, _, by simp only [hpayload, hack, hid]; rfl, ?_⟩)
      · rw [acks_cons, if_pos hack, hrest, expected, if_pos hexpected, ← hid]
        rfl
      · rw [hpending, nonAcks_cons, if_pos hack] at hnonAcks
        refine ⟨rfl, rfl, rfl, rfl, rfl, rfl, hrest, ?_, .inl hnonAcks, h.current⟩
        exact fun m hm => h.payload m (by rw [hpending]; exact .tail _ hm)

/-- An acknowledgment is queued, unless the pending queue is full. -/
theorem pushMessage_acknowledgment (p : Parameters υ β ρ σ) (now : Int) (messageId : υ)
    (s : State υ ρ σ) :
    (∃ failure, pushMessage p now p.peerId
      (createAcknowledgmentMessage p.uuids p.conversationId messageId) none s =
        (some failure, s)) ∨
    pushMessage p now p.peerId
      (createAcknowledgmentMessage p.uuids p.conversationId messageId) none s =
        (none, { s with pendingQueue := s.pendingQueue ++
          [⟨createAcknowledgmentMessage p.uuids p.conversationId messageId, none⟩] }) := by
  rw [pushMessage, if_neg (not_not.mpr rfl)]
  by_cases hfull : blockQueueSize ≤ s.pendingQueue.length
  · rw [if_pos hfull]
    exact .inl ⟨_, rfl⟩
  · rw [if_neg hfull]
    simp only [createAcknowledgmentMessage, createBrokerProtocolMessage, tryToEnum_toString]
    exact .inr rfl

theorem acknowledge_cases (p : Parameters υ β ρ σ) (now : Int) (brokerProtocol : BrokerProtocol)
    (s : State υ ρ σ) :
    (∃ failure, acknowledge p now brokerProtocol s = (some failure, s)) ∨
    ∃ messageId, p.uuids.string2uuid brokerProtocol.messageId = some messageId ∧
      acknowledge p now brokerProtocol s = (none, { s with
        outboundQueue := insertAck
          ⟨createAcknowledgmentMessage p.uuids p.conversationId messageId, none⟩
          s.outboundQueue }) := by
  rw [acknowledge]
  split
  · exact .inl ⟨_, rfl⟩
  split
  · exact .inl ⟨_, rfl⟩
  split
  · cases hid : p.uuids.string2uuid brokerProtocol.messageId with
    | none => exact .inl ⟨_, rfl⟩
    | some messageId =>
      have hack := createAcknowledgmentMessage_isAcknowledgment p p.conversationId messageId none
      obtain ⟨failure, _, heq⟩ | ⟨_, heq⟩ | ⟨hm, _⟩ | ⟨hm, _⟩ := sendMessage_cases p now false
        ⟨createAcknowledgmentMessage p.uuids p.conversationId messageId, none⟩ s
      · exact .inl ⟨failure, heq⟩
      · exact .inr ⟨messageId, rfl, heq⟩
      · simp [hack] at hm
      · simp [hack] at hm
  · exact .inl ⟨_, rfl⟩

/-- A message of the peer is acknowledged and queued, or refused; a message
without a payload of the expected type is acknowledged only. -/
theorem pushMessage_message {brokerProtocol : BrokerProtocol}
    (htype : MessageType.tryToEnum brokerProtocol.messageType ≠ some .asyncRpcAcknowledgment)
    (p : Parameters υ β ρ σ) (now : Int) (payload : Option β) (s : State υ ρ σ) :
    (pushMessage p now p.peerId brokerProtocol payload s).2 = s ∨
    ∃ messageId ms, p.uuids.string2uuid brokerProtocol.messageId = some messageId ∧
      (ms = [] ∨ ∃ payload, ms = [⟨brokerProtocol, payload⟩]) ∧
      (pushMessage p now p.peerId brokerProtocol payload s).2 = { s with
        outboundQueue := insertAck
          ⟨createAcknowledgmentMessage p.uuids p.conversationId messageId, none⟩ s.outboundQueue
        pendingQueue := s.pendingQueue ++ ms } := by
  rw [pushMessage, if_neg (not_not.mpr rfl)]
  split
  · exact .inl rfl
  split
  · exact .inl rfl
  rename_i messageType heq
  have hmessageType : (messageType == .asyncRpcAcknowledgment) = false := by
    rw [beq_eq_false_iff_ne]
    exact fun hack => htype (hack ▸ heq)
  rw [hmessageType, if_neg Bool.false_ne_true]
  obtain ⟨failure, hacknowledge⟩ | ⟨messageId, hid, hacknowledge⟩ :=
    acknowledge_cases p now brokerProtocol s
  · rw [hacknowledge]
    exact .inl rfl
  · rw [hacknowledge]
    refine .inr ⟨messageId, ?_⟩
    cases payload with
    | none => exact ⟨[⟨brokerProtocol, none⟩], hid, .inr ⟨none, rfl⟩, rfl⟩
    | some payload =>
      dsimp only
      cases p.castToPayload payload with
      | none => exact ⟨[], hid, .inl rfl, by simp⟩
      | some payload => exact ⟨[⟨brokerProtocol, some payload⟩], hid, .inr ⟨payload, rfl⟩, rfl⟩

end Baselib.Messaging.Conversation
