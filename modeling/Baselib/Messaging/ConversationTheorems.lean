/-
Baselib.Messaging.ConversationTheorems — which messages of a conversation
are processed. The check that a request is authenticated looks at the
declared type of the message, and a request is told by its payload: a run
processes authenticated requests only exactly when no message which it
takes off the queue carries a request that the check does not look at.
-/
import Baselib.Messaging.Conversation

namespace Baselib.Messaging.Conversation

open Lib List

variable {υ β ρ σ : Type} {p : Parameters υ β ρ σ} {s s' : State υ ρ σ}
variable {now : Int} {m : MessageInfo ρ σ}

/-! ## What sending leaves alone -/

/-- Nothing is taken off the pending queue or processed; the current
message is the same or emptied. -/
structure Kept (s s' : State υ ρ σ) : Prop where
  processed : s'.processed = s.processed
  pendingQueue : s'.pendingQueue = s.pendingQueue
  currentMessage : s'.currentMessage = s.currentMessage ∨ s'.currentMessage = none

theorem Kept.refl (s : State υ ρ σ) : Kept s s := ⟨rfl, rfl, .inl rfl⟩

theorem Kept.trans {s'' : State υ ρ σ} (h : Kept s s') (h' : Kept s' s'') : Kept s s'' where
  processed := h'.processed.trans h.processed
  pendingQueue := h'.pendingQueue.trans h.pendingQueue
  currentMessage := by
    obtain heq | heq := h'.currentMessage
    · rw [heq]
      exact h.currentMessage
    · exact .inr heq

theorem enqueueOutboundMessage_kept (isAckMessage : Bool) :
    Kept s (enqueueOutboundMessage p isAckMessage m s).2 := by
  unfold enqueueOutboundMessage
  split
  · exact Kept.refl s
  · split <;> exact ⟨rfl, rfl, .inl rfl⟩

theorem sendMessage_kept (isLastMessage : Bool) :
    Kept s (sendMessage p now isLastMessage m s).2 := by
  unfold sendMessage
  split
  · exact Kept.refl s
  rename_i messageType hmessageType
  have hkept := @enqueueOutboundMessage_kept _ _ _ _ p s m
    (messageType == .asyncRpcAcknowledgment)
  dsimp only
  split
  · rename_i failure s₁ heq
    rwa [heq] at hkept
  · rename_i s₁ heq
    rw [heq] at hkept
    split
    · exact hkept
    · split
      · exact hkept
      · exact hkept.trans ⟨rfl, rfl, .inl rfl⟩

theorem tryPopProcessingTask_kept : Kept s (tryPopProcessingTask s).2 := by
  unfold tryPopProcessingTask
  split <;> exact ⟨rfl, rfl, .inl rfl⟩

theorem retryProcessingTask_kept {isRetryable : Bool} :
    Kept s (retryProcessingTask isRetryable s).2 := by
  unfold retryProcessingTask
  dsimp only
  split
  · exact ⟨rfl, rfl, .inl rfl⟩
  · split <;> exact ⟨rfl, rfl, .inl rfl⟩

theorem Action.execute_kept (action : Action υ ρ σ) :
    Kept s (action.execute p now m s).2 := by
  cases action with
  | sendMessage isLastMessage m => exact sendMessage_kept isLastMessage
  | defaultProcessRequest messageId asyncRpcResponse =>
    simp only [Action.execute, Conversation.defaultProcessRequest]
    split
    · exact Kept.refl s
    · exact sendMessage_kept true
  | defaultProcessResponse =>
    simp only [Action.execute]
    split
    · exact ⟨rfl, rfl, .inl rfl⟩
    · exact Kept.refl s
  | emptyCurrentMessage => exact ⟨rfl, rfl, .inr rfl⟩
  | finish => exact ⟨rfl, rfl, .inl rfl⟩
  | throw => exact Kept.refl s

theorem processCurrentMessage_kept (actions : List (Action υ ρ σ)) :
    ∀ {s : State υ ρ σ}, Kept s (processCurrentMessage p now m actions s).2 := by
  induction actions with
  | nil => exact fun {s} => Kept.refl s
  | cons action actions ih =>
    intro s
    have hkept := @Action.execute_kept _ _ _ _ p s now m action
    rw [processCurrentMessage]
    split
    · rename_i failure s₁ heq
      rwa [heq] at hkept
    · rename_i s₁ heq
      rw [heq] at hkept
      exact hkept.trans ih

/-- The call of `processCurrentMessage` is recorded; without a current
message nothing happens. -/
theorem processOrWait_some (actions : List (Action υ ρ σ)) (hm : s.currentMessage = some m) :
    Kept { s with processed := s.processed ++ [m] } (processOrWait p now actions s).2 := by
  rw [processOrWait, hm]
  exact processCurrentMessage_kept actions

theorem processOrWait_none (actions : List (Action υ ρ σ)) (h : s.currentMessage = none) :
    (processOrWait p now actions s).2 = s := by
  rw [processOrWait, h]
  dsimp only
  split <;> rfl

theorem tryToEnum_toString (messageType : MessageType) :
    MessageType.tryToEnum messageType.toString = some messageType := by
  cases messageType <;> decide

/-- An error response can be sent while nothing waits to be sent. -/
theorem sendErrorResponse_ok (messageId : υ) (message : Octets) (h : s.outboundQueue = []) :
    (sendErrorResponse p now messageId message s).1 = none := by
  simp [sendErrorResponse, Conversation.sendMessage, createResponseProtocolMessage,
    createBrokerProtocolMessage, tryToEnum_toString, enqueueOutboundMessage, h, blockQueueSize,
    p.uuids.string2uuid_uuid2string]

/-! ## What is taken off the queue -/

/-- The message which `proceed` takes off the pending queue. -/
def takenNext (s : State υ ρ σ) : Option (MessageInfo ρ σ) :=
  if s.wasLastMessageSent || s.seedMessage.isSome || s.currentMessage.isSome then none
  else s.pendingQueue.head?

/-- The check of `onProcessing` turns the message away. -/
def MessageInfo.isRefused (m : MessageInfo ρ σ) : Bool :=
  MessageType.tryToEnum m.brokerProtocol.messageType == some .asyncRpcDispatch &&
    isRequestPayload m.payload && !m.brokerProtocol.isAuthenticated

theorem processTaken_spec (messageId : υ) (actions : List (Action υ ρ σ))
    (htype : (MessageType.tryToEnum m.brokerProtocol.messageType).isSome)
    (hidle : s.outboundQueue = []) (hm : s.currentMessage = some m) :
    let s' := (processTaken p now messageId actions m s).2
    s'.pendingQueue = s.pendingQueue ∧
      if m.isRefused then s'.processed = s.processed ∧ s'.currentMessage = none
      else s'.processed = s.processed ++ [m] ∧
        (s'.currentMessage = some m ∨ s'.currentMessage = none) := by
  obtain ⟨messageType, htype⟩ := Option.isSome_iff_exists.mp htype
  have hrefused : (messageType == .asyncRpcDispatch && isRequestPayload m.payload &&
      !m.brokerProtocol.isAuthenticated) = m.isRefused := by
    simp [MessageInfo.isRefused, htype]
  simp only [processTaken, htype, hrefused]
  split
  · have hkept : Kept s (sendErrorResponse p now messageId
        (octets "Request messages must be authenticated") s).2 := sendMessage_kept true
    have hsent := @sendErrorResponse_ok _ _ _ _ p s now messageId
      (octets "Request messages must be authenticated") hidle
    split
    · rename_i failure s₁ heq
      simp [heq] at hsent
    · rename_i s₁ heq
      rw [heq] at hkept
      exact ⟨hkept.pendingQueue, hkept.processed, rfl⟩
  · have hkept := @processOrWait_some _ _ _ _ p { s with lastMessageReceived := now } now m
      actions hm
    exact ⟨hkept.pendingQueue, hkept.processed, hm ▸ hkept.currentMessage⟩

/-- What `proceed` does to the messages: it takes one off the queue which
is refused or processed, or it takes none and at most goes on with the
current one. -/
theorem proceed_cases (messageId : υ) (actions : List (Action υ ρ σ))
    (htypes : ∀ m ∈ s.pendingQueue,
      (MessageType.tryToEnum m.brokerProtocol.messageType).isSome)
    (hidle : s.outboundQueue = []) :
    let s' := (proceed p now messageId actions s).2
    s'.pendingQueue.Sublist s.pendingQueue ∧
      ((∃ m ∈ s.pendingQueue, takenNext s = some m ∧
          if m.isRefused then s'.processed = s.processed ∧ s'.currentMessage = none
          else s'.processed = s.processed ++ [m] ∧
            (s'.currentMessage = some m ∨ s'.currentMessage = none)) ∨
        takenNext s = none ∧
          (s'.currentMessage = s.currentMessage ∨ s'.currentMessage = none) ∧
          (s'.processed = s.processed ∨
            ∃ m, s.currentMessage = some m ∧ s'.processed = s.processed ++ [m])) := by
  unfold proceed takenNext
  split
  · rename_i hlast
    simp only [hlast, Bool.true_or, if_true]
    split <;> exact ⟨List.Sublist.refl _, .inr ⟨trivial, .inl rfl, .inl rfl⟩⟩
  rename_i hlast
  rw [Bool.not_eq_true] at hlast
  split
  · rename_i seedMessage hseed
    have hkept := @sendMessage_kept _ _ _ _ p s now seedMessage false
    simp only [hlast, hseed, Option.isSome_some, Bool.or_true, Bool.true_or, if_true]
    split
    · rename_i failure s₁ heq
      rw [heq] at hkept
      exact ⟨hkept.pendingQueue ▸ List.Sublist.refl _,
        .inr ⟨trivial, hkept.currentMessage, .inl hkept.processed⟩⟩
    · rename_i s₁ heq
      rw [heq] at hkept
      exact ⟨hkept.pendingQueue ▸ List.Sublist.refl _,
        .inr ⟨trivial, hkept.currentMessage, .inl hkept.processed⟩⟩
  · rename_i hseed
    split
    · rename_i m rest hcurrent hpending
      have hm : m ∈ s.pendingQueue := hpending ▸ mem_cons_self
      have hspec := @processTaken_spec _ _ _ _ p
        { s with currentMessage := some m, pendingQueue := rest } now m messageId actions
        (htypes m hm) hidle rfl
      refine ⟨?_, .inl ⟨m, hm, ?_, hspec.2⟩⟩
      · rw [hspec.1, hpending]
        exact sublist_cons_self m rest
      · simp [hlast, hseed, hcurrent, hpending]
    · rename_i hcase
      cases hcurrent : s.currentMessage with
      | some current =>
        have hkept := @processOrWait_some _ _ _ _ p s now current actions hcurrent
        refine ⟨hkept.pendingQueue ▸ List.Sublist.refl _, .inr ⟨?_, ?_, .inr ?_⟩⟩
        · simp
        · exact hcurrent ▸ hkept.currentMessage
        · exact ⟨current, rfl, hkept.processed⟩
      | none =>
        have hwait := @processOrWait_none _ _ _ _ p s now actions hcurrent
        have hpending : s.pendingQueue = [] := by
          cases hpending : s.pendingQueue with
          | nil => rfl
          | cons m rest => exact absurd hpending (hcase m rest hcurrent)
        rw [hwait]
        exact ⟨List.Sublist.refl _, .inr ⟨by simp [hpending], .inl hcurrent, .inl rfl⟩⟩

variable [DecidableEq υ]

/-- What the wait for the acknowledgment leaves alone; it takes the
acknowledgment off the pending queue. -/
theorem awaitAcknowledgment_kept {s₁ : State υ ρ σ}
    (h : awaitAcknowledgment p now s = .ok (some s₁)) :
    s₁.processed = s.processed ∧ s₁.currentMessage = s.currentMessage ∧
      s₁.outboundQueue = s.outboundQueue ∧ s₁.pendingQueue.Sublist s.pendingQueue := by
  unfold awaitAcknowledgment at h
  split at h
  · obtain rfl := Option.some.inj (Except.ok.inj h)
    exact ⟨rfl, rfl, rfl, List.Sublist.refl _⟩
  · split at h
    · cases h
    · split at h
      · cases h
      · rename_i m rest hqueue
        split at h
        · cases h
        · split at h
          · cases h
          · split at h
            · obtain rfl := Option.some.inj (Except.ok.inj h)
              exact ⟨rfl, rfl, rfl, hqueue ▸ sublist_cons_self m rest⟩
            · cases h

/-- The message which `onProcessing` takes off the pending queue to
process it. -/
def taken (p : Parameters υ β ρ σ) (now : Int) (s : State υ ρ σ) : Option (MessageInfo ρ σ) :=
  if s.isFinished || s.processingTask.isSome || !s.outboundQueue.isEmpty then none
  else
    match awaitAcknowledgment p now s with
    | .ok (some s) => takenNext s
    | _ => none

theorem onProcessing_cases (messageId : υ) (actions : List (Action υ ρ σ))
    (htypes : ∀ m ∈ s.pendingQueue,
      (MessageType.tryToEnum m.brokerProtocol.messageType).isSome) :
    let s' := (onProcessing p now messageId actions s).2
    s'.pendingQueue.Sublist s.pendingQueue ∧
      ((∃ m ∈ s.pendingQueue, taken p now s = some m ∧
          if m.isRefused then s'.processed = s.processed ∧ s'.currentMessage = none
          else s'.processed = s.processed ++ [m] ∧
            (s'.currentMessage = some m ∨ s'.currentMessage = none)) ∨
        taken p now s = none ∧
          (s'.currentMessage = s.currentMessage ∨ s'.currentMessage = none) ∧
          (s'.processed = s.processed ∨
            ∃ m, s.currentMessage = some m ∧ s'.processed = s.processed ++ [m])) := by
  unfold onProcessing taken
  split
  · exact ⟨List.Sublist.refl _, .inr ⟨rfl, .inl rfl, .inl rfl⟩⟩
  rename_i hbusy
  have hidle : s.outboundQueue = [] := by
    simp only [Bool.or_eq_true, not_or, Bool.not_eq_true', isEmpty_eq_false_iff,
      not_not] at hbusy
    exact hbusy.2
  cases hawait : awaitAcknowledgment p now s with
  | error failure => exact ⟨List.Sublist.refl _, .inr ⟨rfl, .inl rfl, .inl rfl⟩⟩
  | ok awaited =>
    cases awaited with
    | none => exact ⟨List.Sublist.refl _, .inr ⟨rfl, .inl rfl, .inl rfl⟩⟩
    | some s₁ =>
      obtain ⟨hprocessed, hcurrent, houtbound, hqueue⟩ := awaitAcknowledgment_kept hawait
      obtain ⟨hsublist, hcases⟩ := @proceed_cases _ _ _ _ p s₁ now messageId actions
        (fun m hm => htypes m (hqueue.mem hm)) (houtbound.trans hidle)
      rw [← hprocessed, ← hcurrent]
      exact ⟨hsublist.trans hqueue,
        hcases.imp_left fun ⟨m, hm, htaken⟩ => ⟨m, hqueue.mem hm, htaken⟩⟩

theorem acknowledge_kept (brokerProtocol : BrokerProtocol) :
    Kept s (acknowledge p now brokerProtocol s).2 := by
  unfold acknowledge
  split
  · exact Kept.refl s
  · split
    · exact Kept.refl s
    · split
      · split
        · exact Kept.refl s
        · exact sendMessage_kept false
      · exact Kept.refl s

/-- A pushed message is queued when its type can be read; the messages
being processed are left alone. -/
theorem pushMessage_cases (targetPeerId : υ) (brokerProtocol : BrokerProtocol)
    (payload : Option β) :
    ∃ s₁, Kept s s₁ ∧ ((pushMessage p now targetPeerId brokerProtocol payload s).2 = s₁ ∨
      ∃ cast, (MessageType.tryToEnum brokerProtocol.messageType).isSome ∧
        (pushMessage p now targetPeerId brokerProtocol payload s).2 =
          { s₁ with pendingQueue := s₁.pendingQueue ++ [⟨brokerProtocol, cast⟩] }) := by
  unfold pushMessage
  split
  · exact ⟨s, Kept.refl s, .inl rfl⟩
  split
  · exact ⟨s, Kept.refl s, .inl rfl⟩
  split
  · exact ⟨s, Kept.refl s, .inl rfl⟩
  rename_i messageType htype
  have hkept : Kept s (if messageType == .asyncRpcAcknowledgment then (none, s)
      else acknowledge p now brokerProtocol s).2 := by
    split
    · exact Kept.refl s
    · exact acknowledge_kept brokerProtocol
  split
  · rename_i failure s₁ heq
    rw [heq] at hkept
    exact ⟨s₁, hkept, .inl rfl⟩
  rename_i s₁ heq
  rw [heq] at hkept
  refine ⟨s₁, hkept, ?_⟩
  split
  · exact .inr ⟨none, by simp [htype], rfl⟩
  · split
    · exact .inl rfl
    · rename_i cast _
      exact .inr ⟨some cast, by simp [htype], rfl⟩

/-! ## Runs -/

/-- The current message has been processed, and the types of the queued
messages can be read. -/
structure Inv (s : State υ ρ σ) : Prop where
  current : ∀ m, s.currentMessage = some m → m ∈ s.processed
  types : ∀ m ∈ s.pendingQueue, (MessageType.tryToEnum m.brokerProtocol.messageType).isSome

omit [DecidableEq υ] in
theorem Inv.initial (seedMessage : Option (MessageInfo ρ σ)) :
    Inv (State.initial p seedMessage now) where
  current m h := by cases h
  types m h := by cases h

/-- What a section does: it takes a message off the queue which is refused
or processed, or it takes none and at most goes on with the current one. -/
theorem step_cases {l : Label υ β ρ σ} (h : Inv s) (hstep : step p s l = some s') :
    (∀ m ∈ s'.pendingQueue, (MessageType.tryToEnum m.brokerProtocol.messageType).isSome) ∧
      ((∃ now messageId actions m, l = .onProcessing now messageId actions ∧
          taken p now s = some m ∧
          if m.isRefused then s'.processed = s.processed ∧ s'.currentMessage = none
          else s'.processed = s.processed ++ [m] ∧
            (s'.currentMessage = some m ∨ s'.currentMessage = none)) ∨
        (∀ now messageId actions, l = .onProcessing now messageId actions →
          taken p now s = none) ∧
          (s'.currentMessage = s.currentMessage ∨ s'.currentMessage = none) ∧
          (s'.processed = s.processed ∨
            ∃ m, s.currentMessage = some m ∧ s'.processed = s.processed ++ [m])) := by
  cases l with
  | pushMessage now targetPeerId brokerProtocol payload =>
    cases hstep
    obtain ⟨s₁, hkept, heq | ⟨cast, htype, heq⟩⟩ :=
      @pushMessage_cases _ _ _ _ p s now _ targetPeerId brokerProtocol payload
    · rw [heq]
      refine ⟨fun m hm => h.types m (hkept.pendingQueue ▸ hm), .inr ⟨?_, hkept.currentMessage,
        .inl hkept.processed⟩⟩
      exact fun now messageId actions hl => by cases hl
    · rw [heq]
      refine ⟨fun m hm => ?_, .inr ⟨nofun, hkept.currentMessage, .inl hkept.processed⟩⟩
      obtain hm | hm := mem_append.mp hm
      · exact h.types m (hkept.pendingQueue ▸ hm)
      · obtain rfl := mem_singleton.mp hm
        exact htype
  | onProcessing now messageId actions =>
    cases hstep
    obtain ⟨hsublist, ⟨m, -, htaken, hm⟩ | ⟨htaken, hrest⟩⟩ :=
      @onProcessing_cases _ _ _ _ p s now _ messageId actions h.types
    · exact ⟨fun m hm => h.types m (hsublist.mem hm),
        .inl ⟨now, messageId, actions, m, rfl, htaken, hm⟩⟩
    · refine ⟨fun m hm => h.types m (hsublist.mem hm), .inr ⟨?_, hrest⟩⟩
      exact fun now' messageId' actions' hl => by
        cases hl
        exact htaken
  | tryPopProcessingTask =>
    cases hstep
    have hkept : Kept s (tryPopProcessingTask s).2 := tryPopProcessingTask_kept
    exact ⟨fun m hm => h.types m (hkept.pendingQueue ▸ hm), .inr ⟨nofun, hkept.currentMessage,
      .inl hkept.processed⟩⟩
  | retryProcessingTask isRetryable =>
    cases hstep
    have hkept : Kept s (retryProcessingTask isRetryable s).2 := retryProcessingTask_kept
    exact ⟨fun m hm => h.types m (hkept.pendingQueue ▸ hm), .inr ⟨nofun, hkept.currentMessage,
      .inl hkept.processed⟩⟩

theorem step_inv {l : Label υ β ρ σ} (h : Inv s) (hstep : step p s l = some s') : Inv s' := by
  obtain ⟨htypes, ⟨now, messageId, actions, m, -, -, hm⟩ | ⟨-, hcurrent, hprocessed⟩⟩ :=
    step_cases h hstep
  · refine ⟨fun m' hm' => ?_, htypes⟩
    split at hm
    · rw [hm.2] at hm'
      cases hm'
    · obtain hsame | hnone := hm.2
      · rw [hsame] at hm'
        cases hm'
        rw [hm.1]
        exact mem_append_right _ mem_cons_self
      · simp [hnone] at hm'
  · refine ⟨fun m hm => ?_, htypes⟩
    have hbefore : m ∈ s.processed := by
      obtain hsame | hnone := hcurrent
      · exact h.current m (hsame ▸ hm)
      · simp [hnone] at hm
    obtain heq | ⟨m', -, heq⟩ := hprocessed
    · rwa [heq]
    · rw [heq]
      exact mem_append_left _ hbefore

/-- Every request which has been processed carries a security principal. -/
def OnlyAuthenticated (s : State υ ρ σ) : Prop :=
  ∀ m ∈ s.processed, isRequestPayload m.payload = true →
    m.brokerProtocol.isAuthenticated = true

/-- The section takes no message off the queue which carries a request
without a principal and is not declared to be a dispatch. -/
def TakesDeclared (p : Parameters υ β ρ σ) (s : State υ ρ σ) : Label υ β ρ σ → Prop
  | .onProcessing now _ _ =>
    ∀ m, taken p now s = some m → isRequestPayload m.payload = true →
      m.brokerProtocol.isAuthenticated = true ∨
        MessageType.tryToEnum m.brokerProtocol.messageType = some .asyncRpcDispatch
  | _ => True

instance (p : Parameters υ β ρ σ) (s : State υ ρ σ) :
    ∀ l : Label υ β ρ σ, Decidable (TakesDeclared p s l)
  | .onProcessing now _ _ =>
    have : Decidable (∀ m, taken p now s = some m → isRequestPayload m.payload = true →
        m.brokerProtocol.isAuthenticated = true ∨
          MessageType.tryToEnum m.brokerProtocol.messageType = some .asyncRpcDispatch) :=
      match taken p now s with
      | none => isTrue nofun
      | some m =>
        decidable_of_iff (isRequestPayload m.payload = true →
          m.brokerProtocol.isAuthenticated = true ∨
            MessageType.tryToEnum m.brokerProtocol.messageType = some .asyncRpcDispatch)
          ⟨fun h _ hm => Option.some.inj hm ▸ h, fun h => h m rfl⟩
    this
  | .pushMessage _ _ _ _ => isTrue trivial
  | .tryPopProcessingTask => isTrue trivial
  | .retryProcessingTask _ => isTrue trivial

theorem step_onlyAuthenticated {l : Label υ β ρ σ} (hinv : Inv s) (h : OnlyAuthenticated s)
    (hstep : step p s l = some s') : OnlyAuthenticated s' ↔ TakesDeclared p s l := by
  obtain ⟨-, ⟨now, messageId, actions, m, rfl, htaken, hm⟩ | ⟨hnone, -, hprocessed⟩⟩ :=
    step_cases hinv hstep
  · have hcondition : TakesDeclared p s (.onProcessing now messageId actions) ↔
        (isRequestPayload m.payload = true → m.brokerProtocol.isAuthenticated = true ∨
          MessageType.tryToEnum m.brokerProtocol.messageType = some .asyncRpcDispatch) := by
      simp only [TakesDeclared, htaken, Option.some.injEq, forall_eq']
    rw [hcondition]
    split at hm
    · rename_i hrefused
      simp only [MessageInfo.isRefused, Bool.and_eq_true, beq_iff_eq] at hrefused
      rw [OnlyAuthenticated, hm.1]
      exact iff_of_true h fun _ => .inr hrefused.1.1
    · rename_i hrefused
      rw [OnlyAuthenticated, hm.1, forall_mem_append, forall_mem_singleton]
      refine ⟨fun hall hrequest => .inl (hall.2 hrequest), fun hdeclared => ⟨h, fun hrequest => ?_⟩⟩
      obtain hauth | htype := hdeclared hrequest
      · exact hauth
      · simpa [MessageInfo.isRefused, htype, hrequest] using hrefused
  · refine iff_of_true ?_ ?_
    · obtain heq | ⟨m, hm, heq⟩ := hprocessed
      · rwa [OnlyAuthenticated, heq]
      · rw [OnlyAuthenticated, heq, forall_mem_append, forall_mem_singleton]
        exact ⟨h, h m (hinv.current m hm)⟩
    · cases l with
      | onProcessing now messageId actions =>
        exact fun m hm => by
          rw [hnone now messageId actions rfl] at hm
          cases hm
      | pushMessage _ _ _ _ | tryPopProcessingTask | retryProcessingTask _ => trivial

/-- In every run of a conversation. -/
theorem run_onlyAuthenticated_iff (p : Parameters υ β ρ σ)
    (seedMessage : Option (MessageInfo ρ σ)) (now : Int) (ls : List (Label υ β ρ σ))
    (s : State υ ρ σ)
    (hrun : Transition.run (step p) (.initial p seedMessage now) ls = some s) :
    Transition.Throughout (step p) OnlyAuthenticated (.initial p seedMessage now) ls ↔
      Transition.Along (step p) (TakesDeclared p) (.initial p seedMessage now) ls :=
  Transition.throughout_iff_along (fun _ _ _ h hstep => step_inv h hstep)
    (fun _ _ _ hinv h hstep => step_onlyAuthenticated hinv h hstep) (Inv.initial seedMessage)
    (List.forall_mem_nil _) hrun

/-! ## A request which declares itself an acknowledgment -/

/-- Uuids as their texts. -/
def textUuids : Uuids Octets where
  nil := octets "00000000-0000-0000-0000-000000000000"
  uuid2string := id
  string2uuid := some
  string2uuid_uuid2string _ := rfl

def localPeerId : Octets := octets "11111111-1111-1111-1111-111111111111"

def remotePeerId : Octets := octets "22222222-2222-2222-2222-222222222222"

/-- A conversation whose requests and responses are texts. -/
def textParameters : Parameters Octets (AsyncRpcPayload Octets Octets) Octets Octets where
  uuids := textUuids
  peerId := localPeerId
  targetPeerId := remotePeerId
  conversationId := octets "33333333-3333-3333-3333-333333333333"
  ackTimeout := 30000000
  msgTimeout := 300000000
  castToPayload := some
  permissionDenied := id

def requestProtocol (messageType : MessageType) (identityInfo : Option PrincipalIdentityInfo) :
    BrokerProtocol where
  messageType := messageType.toString
  messageId := octets "44444444-4444-4444-4444-444444444444"
  conversationId := octets "33333333-3333-3333-3333-333333333333"
  sourcePeerId := remotePeerId
  principalIdentityInfo := identityInfo

/-- A request is pushed, its acknowledgment is sent, it is processed. -/
def requestRun (messageType : MessageType) (identityInfo : Option PrincipalIdentityInfo) :
    List (Label Octets (AsyncRpcPayload Octets Octets) Octets Octets) :=
  [.pushMessage 1 localPeerId (requestProtocol messageType identityInfo)
      (some ⟨some (octets "request"), none⟩),
    .tryPopProcessingTask,
    .onProcessing 2 (octets "55555555-5555-5555-5555-555555555555") []]

theorem run_onlyAuthenticated_dispatch :
    Transition.Throughout (step textParameters) OnlyAuthenticated
      (.initial textParameters none 0) (requestRun .asyncRpcDispatch none) := by
  obtain ⟨s, hs⟩ := Option.isSome_iff_exists.mp
    (show (Transition.run (step textParameters) (.initial textParameters none 0)
      (requestRun .asyncRpcDispatch none)).isSome = true by decide)
  exact (run_onlyAuthenticated_iff textParameters none 0 _ s hs).mpr (by decide)

/-- Neither its source nor its principal is looked at. -/
theorem run_onlyAuthenticated_acknowledgment :
    ∃ s m, Transition.run (step textParameters) (.initial textParameters none 0)
        (requestRun .asyncRpcAcknowledgment none) = some s ∧ s.processed = [m] ∧
      isRequestPayload m.payload = true ∧ m.brokerProtocol.isAuthenticated = false :=
  ⟨_, _, rfl, rfl, rfl, rfl⟩

end Baselib.Messaging.Conversation
