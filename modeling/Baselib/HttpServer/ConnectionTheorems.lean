/-
Baselib.HttpServer.ConnectionTheorems — every request of a connection is
answered once, unless the backend throws while the wrapped task is
exchanged.

Until the receive task has ended nothing is written. Then the connection
holds one exception or one request, and either its backend gets a task out
of it or a send task takes the stream. The one event a send task adds to the
trace before it closes the stream is its response.
-/
import Baselib.HttpServer.Connection

namespace Baselib.HttpServer.Connection

open Lib List

variable {τ β : Type} {cfg : Config} {backend : Backend τ β} {s s' : State τ β}

/-! ## What is asked of a connection -/

def Event.isWrite : Event β → Bool
  | .wrote _ => true
  | _ => false

def Received.eptr : Received → Option Exception
  | .parsed _ => none
  | .parseError eptr | .truncated eptr | .failed eptr => some eptr

/-- There is a request, or a parse error. -/
def Received.isAnswerable : Received → Bool
  | .parsed _ | .parseError _ => true
  | _ => false

def Received.isTruncated : Received → Bool
  | .truncated _ => true
  | _ => false

theorem Received.isAnswerable_of_isTruncated {received : Received}
    (h : received.isTruncated = true) : received.isAnswerable = false := by
  cases received with
  | truncated _ => rfl
  | parsed _ | parseError _ | failed _ => cases h

/-- The processing stage fails for the request. -/
def ProcessingFails (backend : Backend τ β) (trace : List (Event β)) (request : Request) : Prop :=
  (∃ eptr, backend.getProcessingTask request = .error eptr) ∨
    (∃ eptr, Event.processed (some eptr) ∈ trace) ∨
    ∃ task eptr, backend.getProcessingTask request = .ok task ∧
      backend.getResponse task = .error eptr

/-- The response is the one for what was received. -/
def Answers (backend : Backend τ β) (trace : List (Event β)) (response : β) : Received → Prop
  | .parsed request =>
    (∃ task, backend.getProcessingTask request = .ok task ∧ Event.processed none ∈ trace ∧
      backend.getResponse task = .ok response) ∨
    ProcessingFails backend trace request ∧ ∃ httpStatusCode eptr,
      500 ≤ httpStatusCode ∧ httpStatusCode < 600 ∧
        response = backend.getStdErrorResponse httpStatusCode eptr
  | .parseError _ =>
    ∃ httpStatusCode eptr, 400 ≤ httpStatusCode ∧ httpStatusCode < 500 ∧
      response = backend.getStdErrorResponse httpStatusCode eptr
  | _ => False

/-- One response is written, after what it answers and before the stream is
closed. -/
def AnsweredOnce (backend : Backend τ β) (trace : List (Event β)) (received : Received) : Prop :=
  ∃ before response after, trace = before ++ .wrote response :: after ∧
    (∀ e ∈ before, e.isWrite = false) ∧ (∀ e ∈ after, e.isWrite = false) ∧
    Event.received received true ∈ before ∧ Event.closed ∉ before ∧
    Answers backend before response received

structure Answered (backend : Backend τ β) (s : State τ β) : Prop where
  once : s.stage = .completed → ∀ received, Event.received received true ∈ s.trace →
    received.isAnswerable = true → AnsweredOnce backend s.trace received
  atMostOnce : s.trace.countP Event.isWrite ≤ 1
  truncated : ∀ eptr usable, Event.received (.truncated eptr) usable ∈ s.trace →
    ∀ e ∈ s.trace, e.isWrite = false

/-- The calls of the backend in a continuation do not throw. -/
def BackendReturns (backend : Backend τ β) (s : State τ β) : Label τ → Prop
  | .onReady continuation =>
    match s.state, continuation with
    | .receive, _ => s.exception = none → ∀ request ∈ s.request,
        ∃ task, backend.getProcessingTask request = .ok task
    | .process _, .throws _ => False
    | .process processingTask, .none => s.exception = none →
        ∃ response, backend.getResponse processingTask = .ok response
    | _, _ => True
  | _ => True

/-! ## The invariant -/

/-- The trace of a connection which has not received anything. -/
def closedTrace (s : State τ β) : List (Event β) := if s.isShutdown then [.closed] else []

/-- What `handleRead` has left behind. -/
structure Recorded (s : State τ β) : Prop where
  truncated : s.isStreamTruncationError = s.received.isTruncated
  parsed : ∀ request, s.received = .parsed request →
    s.parsingStatus.1 = .parsed ∧ s.request = some request

structure Receiving (s : State τ β) : Prop where
  wrappedTask : s.wrappedTask = .receive
  receiveStream : s.receiveStream = true
  cancelRequested : s.cancelRequested = s.isShutdown
  forced : s.wasSocketShutdownForcefully = s.isShutdown
  stage : match s.stage with
    | .pending | .running => s.trace = closedTrace s ∧ s.isStreamTruncationError = false
    | .handled eptr => s.trace = closedTrace s ∧ Recorded s ∧ eptr = s.received.eptr
    | .ready => s.trace = closedTrace s ++ [.received s.received !s.isShutdown] ∧ Recorded s ∧
        s.exception =
          if s.isShutdown then some (.systemError .operationAborted) else s.received.eptr
    | .completed => s.trace = closedTrace s ++ [.received s.received !s.isShutdown]

structure Processing (backend : Backend τ β) (task : τ) (request : Request) (s : State τ β) :
    Prop where
  wrappedTask : ∃ t, s.wrappedTask = .processing t
  receiveStream : s.receiveStream = true
  isShutdown : s.isShutdown = false
  getProcessingTask : backend.getProcessingTask request = .ok task
  stage : match s.stage with
    | .handled _ => False
    | .completed => ∃ eptr, s.trace = [.received (.parsed request) true, .processed eptr]
    | _ => s.trace = [.received (.parsed request) true]

/-- What has happened before the send task, which is to write `response`. -/
structure Prior (backend : Backend τ β) (before : List (Event β)) (usable : Bool) (response : β) :
    Prop where
  quiet : ∀ e ∈ before, e.isWrite = false
  received : ∀ r u, Event.received r u ∈ before → u = usable ∧ r.isTruncated = false
  unclosed : usable = true → Event.closed ∉ before
  answers : ∀ r, Event.received r true ∈ before → r.isAnswerable = true →
    Answers backend before response r

/-- The send task writes as soon as it is scheduled. -/
inductive Responding (backend : Backend τ β) (s : State τ β) : Prop
  | unusable {before : List (Event β)} {response : β}
      (prior : Prior backend before false response) (wrappedTask : s.wrappedTask = .send response)
      (sendStream : s.sendStream = true) (isShutdown : s.isShutdown = true)
      (trace : s.trace = before)
  | pending {before : List (Event β)} {response : β}
      (prior : Prior backend before true response) (wrappedTask : s.wrappedTask = .send response)
      (sendStream : s.sendStream = true) (isShutdown : s.isShutdown = false)
      (stage : s.stage = .pending) (trace : s.trace = before)
  | written {before after : List (Event β)} {response : β}
      (prior : Prior backend before true response) (wrappedTask : s.wrappedTask = .send response)
      (sendStream : s.sendStream = true) (stage : s.stage ≠ .pending)
      (trace : s.trace = before ++ .wrote response :: after) (after : ∀ e ∈ after, e = .closed)

inductive Inv (backend : Backend τ β) (s : State τ β) : Prop
  | receive (state : s.state = .receive) (receiving : Receiving s)
  | process {task : τ} {request : Request} (state : s.state = .process task)
      (processing : Processing backend task request s)
  | respond (state : s.state = .respond) (responding : Responding backend s)

theorem Inv.create : Inv backend State.create :=
  .receive rfl ⟨rfl, rfl, rfl, rfl, rfl, rfl⟩

/-! ## The invariant and the answers -/

/-- The connection has ended without the response it owes. -/
def Unanswered (s : State τ β) : Prop :=
  s.stage = .completed ∧ match s.state with
    | .receive => s.isShutdown = false ∧ s.received.isAnswerable = true
    | .process _ => True
    | .respond => False

/-- Without a write nothing which asks for one may have been received. -/
theorem answered_iff_of_quiet (hquiet : ∀ e ∈ s.trace, e.isWrite = false) :
    Answered backend s ↔ (s.stage = .completed → ∀ received,
      Event.received received true ∈ s.trace → received.isAnswerable = false) := by
  constructor
  · intro h hstage received hreceived
    by_contra hanswerable
    obtain ⟨before, response, after, htrace, -⟩ :=
      h.once hstage received hreceived (Bool.eq_true_of_not_eq_false hanswerable)
    have hwrite := hquiet (.wrote response) (htrace ▸ mem_append_right _ mem_cons_self)
    cases hwrite
  · intro h
    refine ⟨fun hstage received hreceived hanswerable => ?_, ?_, fun _ _ _ => hquiet⟩
    · simp [h hstage received hreceived] at hanswerable
    · rw [countP_eq_zero.mpr fun e he => by simp [hquiet e he]]
      exact Nat.zero_le 1

theorem closedTrace_quiet : ∀ e ∈ closedTrace s, e.isWrite = false := by
  intro e he
  rw [closedTrace] at he
  split at he
  · rw [mem_singleton.mp he]
    rfl
  · cases he

theorem received_notMem_closedTrace {r : Received} {usable : Bool} :
    Event.received r usable ∉ closedTrace s := by
  intro he
  rw [closedTrace] at he
  split at he
  · cases mem_singleton.mp he
  · cases he

theorem Receiving.answered_iff (h : Receiving s) (hstate : s.state = .receive) :
    Answered backend s ↔ ¬Unanswered s := by
  have hstage := h.stage
  have hquiet : ∀ e ∈ s.trace, e.isWrite = false := by
    intro e he
    cases hs : s.stage with
    | pending | running | handled _ => rw [hs] at hstage; exact closedTrace_quiet e (hstage.1 ▸ he)
    | ready =>
      rw [hs] at hstage
      obtain he | he := mem_append.mp (hstage.1 ▸ he)
      · exact closedTrace_quiet e he
      · rw [mem_singleton.mp he]; rfl
    | completed =>
      rw [hs] at hstage
      obtain he | he := mem_append.mp (hstage ▸ he)
      · exact closedTrace_quiet e he
      · rw [mem_singleton.mp he]; rfl
  rw [answered_iff_of_quiet hquiet, Unanswered, hstate, not_and]
  refine imp_congr_right fun hs => ?_
  rw [hs] at hstage
  rw [hstage]
  constructor
  · rintro hall ⟨hshutdown, hanswerable⟩
    have hmem : Event.received s.received true ∈
        closedTrace s ++ [Event.received s.received !s.isShutdown] := by
      rw [hshutdown]
      exact mem_append_right _ mem_cons_self
    simp [hall s.received hmem] at hanswerable
  · intro hnot received hmem
    obtain hmem | hmem := mem_append.mp hmem
    · exact absurd hmem received_notMem_closedTrace
    · obtain ⟨rfl, husable⟩ := Event.received.inj (mem_singleton.mp hmem)
      refine Bool.eq_false_of_not_eq_true fun hanswerable => hnot ⟨?_, hanswerable⟩
      simpa using husable.symm

theorem Processing.answered_iff {task : τ} {request : Request}
    (h : Processing backend task request s) (hstate : s.state = .process task) :
    Answered backend s ↔ ¬Unanswered s := by
  have hstage := h.stage
  have htrace : ∃ events, s.trace = .received (.parsed request) true :: events ∧
      ∀ e ∈ events, e.isWrite = false := by
    cases hs : s.stage with
    | pending | running | ready => rw [hs] at hstage; exact ⟨[], hstage, nofun⟩
    | handled eptr => rw [hs] at hstage; exact hstage.elim
    | completed =>
      rw [hs] at hstage
      obtain ⟨eptr, htrace⟩ := hstage
      refine ⟨_, htrace, fun e he => ?_⟩
      rw [mem_singleton.mp he]
      rfl
  obtain ⟨events, htrace, hevents⟩ := htrace
  have hquiet : ∀ e ∈ s.trace, e.isWrite = false := by
    intro e he
    rw [htrace] at he
    obtain rfl | he := mem_cons.mp he
    · rfl
    · exact hevents e he
  rw [answered_iff_of_quiet hquiet, Unanswered, hstate, not_and]
  refine imp_congr_right fun _ => ⟨fun hall _ => ?_, fun hnot => (hnot trivial).elim⟩
  have hanswerable := hall (.parsed request) (htrace ▸ mem_cons_self)
  cases hanswerable

theorem Responding.answered (h : Responding backend s) : Answered backend s := by
  cases h with
  | unusable prior _ _ _ htrace =>
    refine (answered_iff_of_quiet (htrace ▸ prior.quiet)).mpr fun _ received hmem => ?_
    cases (prior.received received true (htrace ▸ hmem)).1
  | pending prior _ _ _ hstage htrace =>
    refine (answered_iff_of_quiet (htrace ▸ prior.quiet)).mpr fun hcompleted => ?_
    rw [hstage] at hcompleted
    cases hcompleted
  | @written before after response prior _ _ _ htrace hafter =>
    have hquiet : ∀ e ∈ after, e.isWrite = false := fun e he => hafter e he ▸ rfl
    have hmem : ∀ {r : Received} {u : Bool}, Event.received r u ∈ s.trace →
        Event.received r u ∈ before := by
      intro r u hr
      rw [htrace] at hr
      obtain hr | hr := mem_append.mp hr
      · exact hr
      obtain hr | hr := mem_cons.mp hr
      · cases hr
      · cases hafter _ hr
    refine ⟨fun _ received hr hanswerable => ?_, ?_, fun eptr usable hr => ?_⟩
    · exact ⟨before, response, after, htrace, prior.quiet, hquiet, hmem hr,
        prior.unclosed rfl, prior.answers received (hmem hr) hanswerable⟩
    · rw [htrace, countP_append, countP_cons_of_pos rfl,
        countP_eq_zero.mpr fun e he => by simp [prior.quiet e he],
        countP_eq_zero.mpr fun e he => by simp [hquiet e he]]
    · cases (prior.received _ _ (hmem hr)).2

theorem Inv.answered_iff (h : Inv backend s) : Answered backend s ↔ ¬Unanswered s := by
  cases h with
  | receive hstate h | process hstate h => exact h.answered_iff hstate
  | respond hstate h =>
    refine iff_of_true h.answered fun hun => ?_
    rw [Unanswered, hstate] at hun
    exact hun.2

/-! ## The step of the invariant -/

theorem schedule_receive (hwrapped : s.wrappedTask = .receive) (hstream : s.receiveStream = true) :
    schedule cfg s = { s with stage := .running } := by
  simp [schedule, hwrapped, hstream]

theorem schedule_processing {t : τ} (hwrapped : s.wrappedTask = .processing t) :
    schedule cfg s = { s with stage := .running } := by
  simp [schedule, hwrapped]

theorem schedule_send {response : β} (hwrapped : s.wrappedTask = .send response)
    (hstream : s.sendStream = true) :
    schedule cfg s = { s with
      stage := .running
      trace := if s.isShutdown then s.trace else s.trace ++ [.wrote response] } := by
  simp [schedule, hwrapped, hstream]

theorem Inv.schedule (h : Inv backend s) (hpending : s.stage = .pending) :
    Inv backend (schedule cfg s) := by
  cases h with
  | receive hstate h =>
    have hstage := h.stage
    rw [hpending] at hstage
    rw [schedule_receive h.wrappedTask h.receiveStream]
    exact .receive hstate ⟨h.wrappedTask, h.receiveStream, h.cancelRequested, h.forced, hstage⟩
  | @process task request hstate h =>
    have hstage := h.stage
    rw [hpending] at hstage
    obtain ⟨t, hwrapped⟩ := h.wrappedTask
    rw [schedule_processing hwrapped]
    exact .process hstate ⟨⟨t, hwrapped⟩, h.receiveStream, h.isShutdown, h.getProcessingTask,
      hstage⟩
  | respond hstate h =>
    cases h with
    | unusable prior hwrapped hstream hshutdown htrace =>
      rw [schedule_send hwrapped hstream, if_pos hshutdown]
      exact .respond hstate (.unusable prior hwrapped hstream hshutdown htrace)
    | @pending before response prior hwrapped hstream hshutdown _ htrace =>
      rw [schedule_send hwrapped hstream, if_neg (by simp [hshutdown])]
      have htrace' : s.trace ++ [.wrote response] = before ++ .wrote response :: [] :=
        congrArg (· ++ _) htrace
      exact .respond hstate (.written prior hwrapped hstream nofun htrace'
        nofun)
    | written _ _ _ hstage => exact absurd hpending hstage

theorem Receiving.running (h : Receiving s) (hrunning : s.stage = .running) :
    s.trace = closedTrace s ∧ s.isStreamTruncationError = false := by
  have hstage := h.stage
  rwa [hrunning] at hstage

/-- The end of a handler of the receive task. -/
theorem Receiving.endReceive (h : Receiving s) (hrunning : s.stage = .running)
    {received : Received} {context : Context} {parsingStatus : ServerResult}
    {request : Option Request} {flag : Bool} (hflag : flag = received.isTruncated)
    (hparsed : ∀ r, received = .parsed r → parsingStatus.1 = .parsed ∧ request = some r) :
    Receiving (endReceive received
      { s with
        context := context
        parsingStatus := parsingStatus
        request := request
        isStreamTruncationError := flag }) := by
  refine ⟨h.wrappedTask, h.receiveStream, h.cancelRequested, h.forced, (h.running hrunning).1,
    ⟨hflag, hparsed⟩, ?_⟩
  cases received <;> rfl

theorem Receiving.handleOctets (h : Receiving s) (hrunning : s.stage = .running)
    (chunk : Octets) : Receiving (handleOctets chunk s) := by
  have hflag := (h.running hrunning).2
  rw [Connection.handleOctets]
  split
  · exact h.endReceive hrunning hflag nofun
  · refine ⟨h.wrappedTask, h.receiveStream, h.cancelRequested, h.forced, ?_⟩
    rw [hrunning]
    exact h.running hrunning
  · dsimp only
    split
    · refine h.endReceive hrunning hflag fun request h => ?_
      obtain rfl := Received.parsed.inj h
      exact ⟨rfl, rfl⟩
    · exact h.endReceive hrunning hflag nofun
  · exact h.endReceive hrunning hflag nofun

theorem Receiving.handleRead (h : Receiving s) (hrunning : s.stage = .running)
    (ec : Option ErrorCode) (chunk : Octets) : Receiving (handleRead cfg ec chunk s) := by
  have hflag := (h.running hrunning).2
  cases ec with
  | some code =>
    rw [Connection.handleRead]
    split
    · exact h.endReceive hrunning rfl nofun
    · exact h.endReceive hrunning hflag nofun
  | none =>
    rw [Connection.handleRead]
    split
    · exact h.endReceive hrunning hflag nofun
    · exact h.handleOctets hrunning chunk

/-- Whether the wrapped task runs with the stream in its hands. -/
def isCancelable (s : State τ β) : Bool :=
  match s.wrappedTask, s.stage with
  | .receive, .running | .receive, .handled _ | .send _, .running | .send _, .handled _ => true
  | _, _ => false

theorem onTimer_eq : onTimer s = if isCancelable s then requestCancelInternal s else s := by
  rw [onTimer, isCancelable]
  cases s.wrappedTask <;> cases s.stage <;> rfl

theorem requestCancelInternal_eq (hcancel : s.cancelRequested = false)
    (hshutdown : s.isShutdown = false) : requestCancelInternal s = { s with
      cancelRequested := true
      wasSocketShutdownForcefully := true
      isShutdown := true
      trace := s.trace ++ [.closed] } := by
  simp [requestCancelInternal, shutdownSocket, hcancel, hshutdown]

theorem Receiving.requestCancelInternal (h : Receiving s) (hcancelable : isCancelable s = true) :
    Receiving (requestCancelInternal s) := by
  have hstage := h.stage
  cases hshutdown : s.isShutdown with
  | true =>
    rwa [Connection.requestCancelInternal, if_pos (h.cancelRequested.trans hshutdown)]
  | false =>
    rw [requestCancelInternal_eq (h.cancelRequested.trans hshutdown) hshutdown]
    refine ⟨h.wrappedTask, h.receiveStream, rfl, rfl, ?_⟩
    have hclosed : s.trace = closedTrace s → s.trace ++ [.closed] = [.closed] := by
      intro htrace
      rw [htrace, closedTrace, hshutdown]
      rfl
    rw [isCancelable, h.wrappedTask] at hcancelable
    cases hs : s.stage with
    | running =>
      rw [hs] at hstage
      exact ⟨hclosed hstage.1, hstage.2⟩
    | handled eptr =>
      rw [hs] at hstage
      exact ⟨hclosed hstage.1, ⟨hstage.2.1.truncated, hstage.2.1.parsed⟩, hstage.2.2⟩
    | pending | ready | completed =>
      rw [hs] at hcancelable
      cases hcancelable

/-- A send task which runs and is shut down. -/
theorem Responding.shutdownSocket (h : Responding backend s) (hstage : s.stage ≠ .pending) :
    Responding backend (shutdownSocket s) := by
  rw [Connection.shutdownSocket]
  split
  · exact h
  next hopen =>
  cases h with
  | unusable _ _ _ hshutdown _ => exact absurd hshutdown hopen
  | pending _ _ _ _ hpending _ => exact absurd hpending hstage
  | @written before after response prior hwrapped hstream _ htrace hafter =>
    have htrace' : s.trace ++ [.closed] = before ++ .wrote response :: (after ++ [.closed]) := by
      rw [htrace, append_assoc]
      rfl
    refine .written prior hwrapped hstream hstage htrace' fun e he => ?_
    obtain he | he := mem_append.mp he
    · exact hafter e he
    · exact mem_singleton.mp he

/-- The other fields of a state with a send task do not matter. -/
theorem Responding.congr (h : Responding backend s) (hwrapped : s'.wrappedTask = s.wrappedTask)
    (hstream : s'.sendStream = s.sendStream) (hshutdown : s'.isShutdown = s.isShutdown)
    (hstage : s.stage ≠ .pending ∧ s'.stage ≠ .pending) (htrace : s'.trace = s.trace) :
    Responding backend s' := by
  cases h with
  | unusable prior h₁ h₂ h₃ h₄ =>
    exact .unusable prior (hwrapped.trans h₁) (hstream.trans h₂) (hshutdown.trans h₃)
      (htrace.trans h₄)
  | pending _ _ _ _ h => exact absurd h hstage.1
  | written prior h₁ h₂ _ h₄ hafter =>
    exact .written prior (hwrapped.trans h₁) (hstream.trans h₂) hstage.2 (htrace.trans h₄) hafter

/-- The exception of a task which `notifyReady` has stopped. -/
def stoppedException (eptr : Option Exception) (s : State τ β) : Option Exception :=
  if s.cancelRequested && s.wasSocketShutdownForcefully then some (.systemError .operationAborted)
  else eptr

theorem notifyReady_receive (hwrapped : s.wrappedTask = .receive) (eptr : Option Exception) :
    notifyReady eptr s = { s with
      trace := s.trace ++ [.received s.received !s.isShutdown]
      exception := stoppedException eptr s
      stage := .ready } := by
  simp [notifyReady, hwrapped, stoppedException]

theorem notifyReady_send {response : β} (hwrapped : s.wrappedTask = .send response)
    (hstream : s.sendStream = true) (eptr : Option Exception) :
    notifyReady eptr s = { shutdownSocket s with
      exception := stoppedException eptr (shutdownSocket s)
      stage := .ready } := by
  simp [notifyReady, hwrapped, hstream, stoppedException]

theorem shutdownSocket_state : (shutdownSocket s).state = s.state := by
  rw [shutdownSocket]
  split <;> rfl

theorem shutdownSocket_stage : (shutdownSocket s).stage = s.stage := by
  rw [shutdownSocket]
  split <;> rfl

theorem requestCancelInternal_state : (requestCancelInternal s).state = s.state := by
  rw [requestCancelInternal]
  split
  · rfl
  · exact shutdownSocket_state

theorem requestCancelInternal_stage : (requestCancelInternal s).stage = s.stage := by
  rw [requestCancelInternal]
  split
  · rfl
  · exact shutdownSocket_stage

theorem Inv.onTimer (h : Inv backend s) : Inv backend (onTimer s) := by
  rw [onTimer_eq]
  split
  next hcancelable =>
    cases h with
    | receive hstate h =>
      exact .receive (requestCancelInternal_state.trans hstate)
        (h.requestCancelInternal hcancelable)
    | process hstate h =>
      obtain ⟨t, hwrapped⟩ := h.wrappedTask
      rw [isCancelable, hwrapped] at hcancelable
      cases hcancelable
    | respond hstate h =>
      have hstage : s.stage ≠ .pending := by
        intro hpending
        rw [isCancelable, hpending] at hcancelable
        cases hwrapped : s.wrappedTask <;> rw [hwrapped] at hcancelable <;> cases hcancelable
      refine .respond (requestCancelInternal_state.trans hstate) ?_
      rw [requestCancelInternal]
      split
      · exact h
      · have hmarked : Responding backend
            { s with cancelRequested := true, wasSocketShutdownForcefully := true } :=
          h.congr rfl rfl rfl ⟨hstage, hstage⟩ rfl
        exact hmarked.shutdownSocket hstage
  · exact h

theorem Receiving.notifyReady (h : Receiving s) {eptr : Option Exception}
    (hhandled : s.stage = .handled eptr) : Receiving (notifyReady eptr s) := by
  have hstage := h.stage
  rw [hhandled] at hstage
  obtain ⟨htrace, hrecorded, rfl⟩ := hstage
  have hstopped : stoppedException s.received.eptr s =
      if s.isShutdown then some (.systemError .operationAborted) else s.received.eptr := by
    rw [stoppedException, h.cancelRequested, h.forced, Bool.and_self]
  rw [notifyReady_receive h.wrappedTask]
  exact ⟨h.wrappedTask, h.receiveStream, h.cancelRequested, h.forced,
    congrArg (· ++ _) htrace, ⟨hrecorded.truncated, hrecorded.parsed⟩, hstopped⟩

theorem Responding.exists_send (h : Responding backend s) :
    ∃ response, s.wrappedTask = .send response ∧ s.sendStream = true := by
  cases h with
  | unusable _ hwrapped hstream _ _ | pending _ hwrapped hstream _ _ _
  | written _ hwrapped hstream _ _ _ => exact ⟨_, hwrapped, hstream⟩

theorem Inv.notifyReady (h : Inv backend s) {eptr : Option Exception}
    (hhandled : s.stage = .handled eptr) : Inv backend (notifyReady eptr s) := by
  have hpending : s.stage ≠ .pending := by rw [hhandled]; exact nofun
  cases h with
  | receive hstate h =>
    refine .receive ?_ (h.notifyReady hhandled)
    rwa [notifyReady_receive h.wrappedTask]
  | process hstate h =>
    have hstage := h.stage
    rw [hhandled] at hstage
    exact hstage.elim
  | respond hstate h =>
    obtain ⟨response, hwrapped, hstream⟩ := h.exists_send
    rw [notifyReady_send hwrapped hstream]
    refine .respond (shutdownSocket_state.trans hstate) ?_
    refine (h.shutdownSocket hpending).congr rfl rfl rfl ⟨?_, nofun⟩ rfl
    rwa [shutdownSocket_stage]

theorem Inv.handleWrite (h : Inv backend s) {response : β}
    (hwrapped : s.wrappedTask = .send response) (hrunning : s.stage = .running)
    (ec : Option ErrorCode) : Inv backend (handleWrite ec s) := by
  have hpending : s.stage ≠ .pending := by rw [hrunning]; exact nofun
  cases h with
  | receive _ h => cases h.wrappedTask.symm.trans hwrapped
  | process _ h =>
    obtain ⟨t, ht⟩ := h.wrappedTask
    cases ht.symm.trans hwrapped
  | respond hstate h =>
    exact .respond hstate (h.congr rfl rfl rfl ⟨hpending, nofun⟩ rfl)

theorem Inv.processed (h : Inv backend s) {t : τ} (hwrapped : s.wrappedTask = .processing t)
    (hrunning : s.stage = .running) (eptr : Option Exception) :
    Inv backend { s with exception := eptr, stage := .ready } := by
  cases h with
  | receive _ h => cases h.wrappedTask.symm.trans hwrapped
  | process hstate h =>
    have hstage := h.stage
    rw [hrunning] at hstage
    exact .process hstate ⟨h.wrappedTask, h.receiveStream, h.isShutdown, h.getProcessingTask,
      hstage⟩
  | respond _ h =>
    obtain ⟨response, hsend, -⟩ := h.exists_send
    cases hsend.symm.trans hwrapped

/-! ## The continuation -/

theorem Responding.respond {before : List (Event β)} {response : β}
    (hprior : Prior backend before (!s.isShutdown) response) (htrace : s.trace = before)
    (hstream : s.receiveStream = true) : Responding backend (respond response s) := by
  cases hshutdown : s.isShutdown with
  | true =>
    rw [hshutdown] at hprior
    exact .unusable hprior rfl hstream hshutdown htrace
  | false =>
    rw [hshutdown] at hprior
    exact .pending hprior rfl hstream hshutdown rfl htrace

theorem Receiving.ready (h : Receiving s) (hready : s.stage = .ready) :
    s.trace = closedTrace s ++ [.received s.received !s.isShutdown] ∧ Recorded s ∧
      s.exception =
        if s.isShutdown then some (.systemError .operationAborted) else s.received.eptr := by
  have hstage := h.stage
  rwa [hready] at hstage

/-- The error response of a connection whose receive task has failed. -/
theorem Receiving.prior (h : Receiving s) (hready : s.stage = .ready) {eptr : Exception}
    (hexception : s.exception = some eptr) (hflag : s.isStreamTruncationError = false) :
    Prior backend s.trace (!s.isShutdown)
      (backend.getStdErrorResponse httpClientErrorBadRequest (some eptr)) := by
  obtain ⟨htrace, hrecorded, hstopped⟩ := h.ready hready
  have hmem : ∀ {e : Event β}, e ∈ s.trace →
      e ∈ closedTrace s ∨ e = .received s.received !s.isShutdown := by
    intro e he
    rw [htrace] at he
    exact (mem_append.mp he).imp_right mem_singleton.mp
  have hreceived : ∀ {r : Received} {u : Bool}, Event.received r u ∈ s.trace →
      r = s.received ∧ u = !s.isShutdown := by
    intro r u hr
    obtain hr | hr := hmem hr
    · exact absurd hr received_notMem_closedTrace
    · exact Event.received.inj hr
  refine ⟨fun e he => ?_, fun r u hr => ?_, fun husable he => ?_, fun r hr hanswerable => ?_⟩
  · obtain he | rfl := hmem he
    · exact closedTrace_quiet e he
    · rfl
  · obtain ⟨rfl, rfl⟩ := hreceived hr
    exact ⟨rfl, hrecorded.truncated.symm.trans hflag⟩
  · obtain he | he := hmem he
    · rw [closedTrace, if_neg (by simpa using husable)] at he
      cases he
    · cases he
  · obtain ⟨rfl, husable⟩ := hreceived hr
    have hopen : s.isShutdown = false := by simpa using husable.symm
    rw [hexception, if_neg (by simp [hopen])] at hstopped
    cases hr : s.received with
    | parseError _ => exact ⟨_, _, Nat.le_refl _, by decide, rfl⟩
    | parsed _ => rw [hr] at hstopped; cases hstopped
    | truncated _ | failed _ => rw [hr] at hanswerable; cases hanswerable

theorem backendReturns_receive (hstate : s.state = .receive) {continuation : Continuation τ} :
    BackendReturns backend s (.onReady continuation) ↔ (s.exception = none →
      ∀ request ∈ s.request, ∃ task, backend.getProcessingTask request = .ok task) := by
  simp only [BackendReturns, hstate]

theorem Inv.onReady_receive (hstate : s.state = .receive) (h : Receiving s)
    (hready : s.stage = .ready) : Inv backend (onReady backend .none s) ∧
      (Unanswered (onReady backend .none s) ↔ ¬BackendReturns backend s (.onReady .none)) := by
  obtain ⟨htrace, hrecorded, hstopped⟩ := h.ready hready
  rw [backendReturns_receive hstate]
  cases hexception : s.exception with
  | some eptr =>
    have hreturns : some eptr = none → ∀ request ∈ s.request,
        ∃ task, backend.getProcessingTask request = .ok task := nofun
    cases hflag : s.isStreamTruncationError with
    | true =>
      have hnext : onReady backend .none s = { s with stage := .completed } := by
        simp [onReady, recordProcessed, continuationTask, continueWrapped, hstate, hexception,
          hflag]
      rw [hnext]
      refine ⟨.receive hstate ⟨h.wrappedTask, h.receiveStream, h.cancelRequested, h.forced,
        htrace⟩, iff_of_false (fun hun => ?_) (not_not_intro hreturns)⟩
      have hanswerable : s.received.isAnswerable = true := by
        rw [Unanswered, hstate] at hun
        exact hun.2.2
      rw [Received.isAnswerable_of_isTruncated (hrecorded.truncated.symm.trans hflag)]
        at hanswerable
      cases hanswerable
    | false =>
      have hnext : onReady backend .none s =
          scheduleStdErrorResponse backend (some eptr) httpClientErrorBadRequest s := by
        simp [onReady, recordProcessed, continuationTask, continueWrapped, hstate, hexception,
          hflag]
      rw [hnext]
      exact ⟨.respond rfl (Responding.respond (h.prior hready hexception hflag) rfl
        h.receiveStream), iff_of_false (fun hun => by cases hun.1) (not_not_intro hreturns)⟩
  | none =>
    have hopen : s.isShutdown = false := by
      cases hshutdown : s.isShutdown with
      | false => rfl
      | true =>
        simp [hexception, hshutdown] at hstopped
    obtain ⟨request, hreceived⟩ : ∃ request, s.received = .parsed request := by
      rw [hexception, hopen] at hstopped
      cases hr : s.received with
      | parsed request => exact ⟨request, rfl⟩
      | parseError _ | truncated _ | failed _ => rw [hr] at hstopped; cases hstopped
    obtain ⟨hstatus, hrequest⟩ := hrecorded.parsed request hreceived
    obtain ⟨message, hparsed⟩ : ∃ message, s.parsingStatus = (.parsed, message) :=
      ⟨s.parsingStatus.2, Prod.ext hstatus rfl⟩
    have hreceivedTrace : s.trace = [.received (.parsed request) true] := by
      rw [htrace, closedTrace, hopen, hreceived]
      rfl
    cases htask : backend.getProcessingTask request with
    | error eptr =>
      have hnext : onReady backend .none s =
          { s with exception := some eptr, stage := .completed } := by
        simp only [onReady, recordProcessed, continuationTask, continueWrapped, hstate,
          hexception, hparsed, hrequest, htask]
        rfl
      rw [hnext]
      refine ⟨.receive hstate ⟨h.wrappedTask, h.receiveStream, h.cancelRequested, h.forced,
        htrace⟩, iff_of_true ?_ fun hreturns => ?_⟩
      · rw [Unanswered, hstate]
        exact ⟨rfl, hopen, congrArg Received.isAnswerable hreceived⟩
      · obtain ⟨task, hok⟩ := hreturns rfl request hrequest
        cases htask.symm.trans hok
    | ok task =>
      have hnext : onReady backend .none s =
          wrap (.processing task) { s with state := .process task } := by
        simp only [onReady, recordProcessed, continuationTask, continueWrapped, hstate,
          hexception, hparsed, hrequest, htask]
        rfl
      rw [hnext]
      refine ⟨.process rfl ⟨⟨task, rfl⟩, h.receiveStream, hopen, htask, hreceivedTrace⟩,
        iff_of_false (fun hun => by cases hun.1) (not_not_intro fun _ r hr => ?_)⟩
      obtain rfl := Option.some.inj (hrequest.symm.trans hr)
      exact ⟨task, htask⟩

/-! ## The end of the processing stage -/

theorem Processing.ready {task : τ} {request : Request}
    (h : Processing backend task request s) (hready : s.stage = .ready) :
    s.trace = [.received (.parsed request) true] := by
  have hstage := h.stage
  rwa [hready] at hstage

/-- The response of a processing stage which has ended. -/
theorem Processing.prior {task : τ} {request : Request}
    (h : Processing backend task request s) {eptr : Option Exception} {response : β}
    (hresponse : Answers backend [.received (.parsed request) true, .processed eptr] response
      (.parsed request)) :
    Prior backend [.received (.parsed request) true, .processed eptr] (!s.isShutdown) response := by
  rw [h.isShutdown]
  refine ⟨fun e he => ?_, fun r u hr => ?_, fun _ he => ?_, fun r hr _ => ?_⟩
  · simp only [mem_cons, not_mem_nil, or_false] at he
    obtain rfl | rfl := he <;> rfl
  · simp only [mem_cons, not_mem_nil, or_false, Event.received.injEq, reduceCtorEq] at hr
    obtain ⟨rfl, rfl⟩ := hr
    exact ⟨rfl, rfl⟩
  · simp at he
  · simp only [mem_cons, not_mem_nil, or_false, Event.received.injEq, reduceCtorEq] at hr
    obtain ⟨rfl, -⟩ := hr
    exact hresponse

theorem getProcessingErrorStatusCode_range (eptr : Exception) :
    500 ≤ getProcessingErrorStatusCode eptr ∧ getProcessingErrorStatusCode eptr < 600 := by
  unfold getProcessingErrorStatusCode
  split <;> decide

theorem Inv.onReady_process {task : τ} {request : Request} (hstate : s.state = .process task)
    (h : Processing backend task request s) (hready : s.stage = .ready)
    (continuation : Continuation τ) : Inv backend (onReady backend continuation s) ∧
      (Unanswered (onReady backend continuation s) ↔
        ¬BackendReturns backend s (.onReady continuation)) := by
  have htrace := h.ready hready
  have hended : ∀ (eptr exception : Option Exception), Processing backend task request { s with
      trace := s.trace ++ [.processed eptr], exception := exception, stage := .completed } := by
    intro eptr exception
    exact ⟨h.wrappedTask, h.receiveStream, h.isShutdown, h.getProcessingTask, eptr,
      congrArg (· ++ _) htrace⟩
  have hresponded : ∀ (eptr : Option Exception) (response : β),
      Answers backend [.received (.parsed request) true, .processed eptr] response
        (.parsed request) →
      Inv backend
        (Connection.respond response { s with trace := s.trace ++ [.processed eptr] }) :=
    fun eptr response hresponse => .respond rfl
      (Responding.respond (h.prior hresponse) (congrArg (· ++ _) htrace) h.receiveStream)
  cases continuation with
  | throws eptr =>
    have hnext : onReady backend (.throws eptr) s = { s with
        trace := s.trace ++ [.processed (some eptr)]
        exception := some eptr
        stage := .completed } := by
      simp [onReady, recordProcessed, continuationTask, hstate]
    rw [hnext]
    refine ⟨.process hstate (hended _ _), iff_of_true ?_ fun hreturns => ?_⟩
    · rw [Unanswered, hstate]
      exact ⟨rfl, trivial⟩
    · simp [BackendReturns, hstate] at hreturns
  | task t =>
    have hnext : onReady backend (.task t) s = wrap (.processing t) s := by
      simp [onReady, recordProcessed, continuationTask, hstate]
    rw [hnext]
    refine ⟨.process hstate ⟨⟨t, rfl⟩, h.receiveStream, h.isShutdown, h.getProcessingTask,
      htrace⟩, iff_of_false (fun hun => by cases hun.1) (not_not_intro ?_)⟩
    simp [BackendReturns, hstate]
  | none =>
    have hreturns : BackendReturns backend s (.onReady .none) ↔ (s.exception = none →
        ∃ response, backend.getResponse task = .ok response) := by
      simp only [BackendReturns, hstate]
    rw [hreturns]
    cases hexception : s.exception with
    | some eptr =>
      have hnext : onReady backend .none s = scheduleStdErrorResponse backend (some eptr)
          (getProcessingErrorStatusCode eptr)
          { s with trace := s.trace ++ [.processed (some eptr)] } := by
        simp [onReady, recordProcessed, continuationTask, continueWrapped, hstate, hexception]
      rw [hnext]
      refine ⟨hresponded _ _ (.inr ⟨?_, _, _, (getProcessingErrorStatusCode_range eptr).1,
        (getProcessingErrorStatusCode_range eptr).2, rfl⟩),
        iff_of_false (fun hun => by cases hun.1) (not_not_intro nofun)⟩
      exact .inr (.inl ⟨eptr, mem_cons_of_mem _ mem_cons_self⟩)
    | none =>
      cases hresponse : backend.getResponse task with
      | error eptr =>
        have hnext : onReady backend .none s = { s with
            trace := s.trace ++ [.processed none]
            exception := some eptr
            stage := .completed } := by
          simp only [onReady, recordProcessed, continuationTask, continueWrapped, hstate,
            hexception, hresponse]
          rfl
        rw [hnext]
        refine ⟨.process hstate (hended _ _), iff_of_true ?_ fun hok => ?_⟩
        · rw [Unanswered, hstate]
          exact ⟨rfl, trivial⟩
        · obtain ⟨response, hok⟩ := hok rfl
          cases hok
      | ok response =>
        have hnext : onReady backend .none s =
            Connection.respond response
              { s with trace := s.trace ++ [.processed none] } := by
          simp only [onReady, recordProcessed, continuationTask, continueWrapped, hstate,
            hexception, hresponse]
          rfl
        rw [hnext]
        refine ⟨hresponded _ _ (.inl ⟨task, h.getProcessingTask,
          mem_cons_of_mem _ mem_cons_self, hresponse⟩),
          iff_of_false (fun hun => by cases hun.1) (not_not_intro fun _ => ⟨response, rfl⟩)⟩

theorem Inv.onReady_respond (hstate : s.state = .respond) (h : Responding backend s)
    (hready : s.stage = .ready) : Inv backend (onReady backend .none s) ∧
      (Unanswered (onReady backend .none s) ↔ ¬BackendReturns backend s (.onReady .none)) := by
  have hnext : onReady backend .none s = { s with stage := .completed } := by
    cases hexception : s.exception <;>
      simp [onReady, recordProcessed, continuationTask, continueWrapped, hstate, hexception]
  rw [hnext]
  have hpending : s.stage ≠ .pending := by rw [hready]; exact nofun
  refine ⟨.respond hstate (h.congr rfl rfl rfl ⟨hpending, nofun⟩ rfl),
    iff_of_false (fun hun => ?_) (not_not_intro ?_)⟩
  · rw [Unanswered, hstate] at hun
    exact hun.2
  · simp [BackendReturns, hstate]

/-! ## Runs -/

theorem schedule_stage : (schedule cfg s).stage ≠ .completed := by
  rw [schedule]
  split
  · split <;> exact nofun
  · exact nofun
  · split <;> exact nofun

theorem handleOctets_stage (hrunning : s.stage = .running) (chunk : Octets) :
    (handleOctets chunk s).stage ≠ .completed := by
  rw [handleOctets]
  split
  · exact nofun
  · exact fun h => by cases hrunning.symm.trans h
  · dsimp only
    split <;> exact nofun
  · exact nofun

theorem handleRead_stage (hrunning : s.stage = .running) (ec : Option ErrorCode)
    (chunk : Octets) : (handleRead cfg ec chunk s).stage ≠ .completed := by
  cases ec with
  | some code =>
    rw [handleRead]
    split <;> exact nofun
  | none =>
    rw [handleRead]
    split
    · exact nofun
    · exact handleOctets_stage hrunning chunk

theorem handleRead_state {ec : Option ErrorCode} {chunk : Octets} :
    (handleRead cfg ec chunk s).state = s.state := by
  have hoctets : (handleOctets chunk s).state = s.state := by
    rw [handleOctets]
    split
    · rfl
    · rfl
    · dsimp only
      split <;> rfl
    · rfl
  cases ec with
  | some code => rw [handleRead]; split <;> rfl
  | none => rw [handleRead]; split; exacts [rfl, hoctets]

theorem onTimer_stage (hcompleted : (onTimer s).stage = .completed) : onTimer s = s := by
  rw [onTimer_eq] at hcompleted ⊢
  split at hcompleted
  next hcancelable =>
    rw [requestCancelInternal_stage] at hcompleted
    rw [isCancelable, hcompleted] at hcancelable
    cases hwrapped : s.wrappedTask <;> rw [hwrapped] at hcancelable <;> cases hcancelable
  next hcancelable => exact if_neg hcancelable

/-- A step which does not end the connection leaves nothing unanswered. -/
theorem answered_step {l : Label τ} (hreturns : BackendReturns backend s l)
    (hstage : s'.stage = .completed → s' = s) (hun : ¬Unanswered s) :
    ¬Unanswered s' ↔ BackendReturns backend s l :=
  iff_of_true (fun h => hun (hstage h.1 ▸ h)) hreturns

/-- The step law: the invariant is kept, and only a call of the backend which
throws ends the connection without the response it owes. -/
theorem step_inv {l : Label τ} (h : Inv backend s) (hstep : step cfg backend s l = some s') :
    Inv backend s' ∧ (¬Unanswered s → (¬Unanswered s' ↔ BackendReturns backend s l)) := by
  cases l with
  | schedule =>
    obtain ⟨hpending, rfl⟩ := Option.ite_some_none_eq_some.mp hstep
    exact ⟨h.schedule hpending, answered_step trivial fun hs => absurd hs schedule_stage⟩
  | handleRead ec chunk =>
    rw [step] at hstep
    split at hstep
    next hwrapped hrunning =>
      cases hstep
      refine ⟨?_, answered_step trivial fun hs => absurd hs (handleRead_stage hrunning ec chunk)⟩
      cases h with
      | receive hstate h =>
        exact .receive (handleRead_state.trans hstate) (h.handleRead hrunning ec chunk)
      | process _ h =>
        obtain ⟨t, ht⟩ := h.wrappedTask
        cases ht.symm.trans hwrapped
      | respond _ h =>
        obtain ⟨response, hsend, -⟩ := h.exists_send
        cases hsend.symm.trans hwrapped
    · cases hstep
  | processed eptr =>
    rw [step] at hstep
    split at hstep
    next hwrapped hrunning =>
      cases hstep
      exact ⟨h.processed hwrapped hrunning eptr, answered_step trivial nofun⟩
    · cases hstep
  | handleWrite ec =>
    rw [step] at hstep
    split at hstep
    next hwrapped hrunning =>
      cases hstep
      exact ⟨h.handleWrite hwrapped hrunning ec, answered_step trivial nofun⟩
    · cases hstep
  | onTimer =>
    cases hstep
    exact ⟨h.onTimer, answered_step trivial onTimer_stage⟩
  | notifyReady =>
    rw [step] at hstep
    split at hstep
    next hhandled =>
      cases hstep
      exact ⟨h.notifyReady hhandled, answered_step trivial nofun⟩
    · cases hstep
  | onReady continuation =>
    have hnext : s.stage = .ready ∧ s' = onReady backend continuation s ∧
        ((∃ t, s.wrappedTask = .processing t) ∨ continuation = .none) := by
      simp only [step] at hstep
      split at hstep
      next hready hwrapped => exact ⟨hready, (Option.some.inj hstep).symm, .inl ⟨_, hwrapped⟩⟩
      next hready _ => exact ⟨hready, (Option.some.inj hstep).symm, .inr rfl⟩
      · cases hstep
    obtain ⟨hready, rfl, hcontinuation⟩ := hnext
    have hone : Inv backend (onReady backend continuation s) ∧
        (Unanswered (onReady backend continuation s) ↔
          ¬BackendReturns backend s (.onReady continuation)) := by
      cases h with
      | receive hstate h =>
        obtain ⟨t, ht⟩ | rfl := hcontinuation
        · cases h.wrappedTask.symm.trans ht
        · exact Inv.onReady_receive hstate h hready
      | process hstate h => exact Inv.onReady_process hstate h hready continuation
      | respond hstate h =>
        obtain ⟨t, ht⟩ | rfl := hcontinuation
        · obtain ⟨response, hsend, -⟩ := h.exists_send
          cases hsend.symm.trans ht
        · exact Inv.onReady_respond hstate h hready
    exact ⟨hone.1, fun _ => (not_congr hone.2).trans not_not⟩

/-- In every run of a connection, what it has received is answered exactly
once in every state it passes through, when and only when no call of the
backend in a continuation throws. -/
theorem run_answered_iff (cfg : Config) (backend : Backend τ β) (labels : List (Label τ))
    (s : State τ β) (hrun : Transition.run (step cfg backend) State.create labels = some s) :
    Transition.Throughout (step cfg backend) (Answered backend) State.create labels ↔
      Transition.Along (step cfg backend) (BackendReturns backend) State.create labels := by
  refine Transition.throughout_iff_along (I := Inv backend)
    (fun s l s' h hstep => (step_inv h hstep).1) (fun s l s' h hanswered hstep => ?_) Inv.create
    (Inv.create.answered_iff.mpr fun h => by cases h.1) hrun
  obtain ⟨h', hiff⟩ := step_inv h hstep
  rw [h'.answered_iff]
  exact hiff (h.answered_iff.mp hanswered)

instance decidableIsOk {α : Type} : ∀ x : Except Exception α, Decidable (∃ a, x = .ok a)
  | .ok a => isTrue ⟨a, rfl⟩
  | .error _ => isFalse fun ⟨_, h⟩ => (by cases h)

instance decidableBackendReturns (backend : Backend τ β) (s : State τ β) :
    ∀ l, Decidable (BackendReturns backend s l)
  | .onReady continuation =>
    match hstate : s.state, continuation with
    | .receive, _ => decidable_of_iff _ (backendReturns_receive hstate).symm
    | .process _, .throws _ => isFalse fun h => by simp [BackendReturns, hstate] at h
    | .process _, .task _ => isTrue (by simp [BackendReturns, hstate])
    | .process processingTask, .none =>
      decidable_of_iff (s.exception = none →
        ∃ response, backend.getResponse processingTask = .ok response)
        (by simp only [BackendReturns, hstate])
    | .respond, _ => isTrue (by simp [BackendReturns, hstate])
  | .schedule | .handleRead .. | .processed _ | .handleWrite _ | .onTimer | .notifyReady =>
    isTrue trivial

/-- A connection whose request comes in at once. -/
def oneRequest : List (Label Unit) :=
  [.schedule, .handleRead none (octets "GET / HTTP/1.1\r\n\r\n"), .notifyReady, .onReady .none]

/-- A processing stage which succeeds, and its response. -/
def oneResponse : List (Label Unit) :=
  [.schedule, .processed none, .onReady .none, .schedule, .handleWrite none, .notifyReady,
    .onReady .none]

/-- A backend which answers with a status code. -/
def statusBackend (task : Except Exception Unit) (response : Except Exception Nat) :
    Backend Unit Nat where
  getProcessingTask _ := task
  getResponse _ := response
  getStdErrorResponse httpStatusCode _ := httpStatusCode

def plainConfig : Config := ⟨fun _ => false, .exception (octets "Socket was closed unexpectedly")⟩

theorem run_answered_oneRequest :
    ∃ s, Transition.run (step plainConfig (statusBackend (.ok ()) (.ok 200))) State.create
        (oneRequest ++ oneResponse) = some s ∧ s.stage = .completed ∧
      Transition.Throughout (step plainConfig (statusBackend (.ok ()) (.ok 200)))
        (Answered (statusBackend (.ok ()) (.ok 200))) State.create (oneRequest ++ oneResponse) :=
  ⟨_, rfl, rfl, (run_answered_iff plainConfig (statusBackend (.ok ()) (.ok 200))
    (oneRequest ++ oneResponse) _ rfl).mpr (by decide)⟩

/-- The backend throws when it is asked for the task, or for the response. -/
theorem run_unanswered :
    (∃ s, Transition.run (step plainConfig (statusBackend (.error (.exception [])) (.ok 200)))
        State.create oneRequest = some s ∧
      ¬Answered (statusBackend (.error (.exception [])) (.ok 200)) s) ∧
    ∃ s, Transition.run (step plainConfig (statusBackend (.ok ()) (.error (.exception []))))
        State.create (oneRequest ++ oneResponse.take 3) = some s ∧
      ¬Answered (statusBackend (.ok ()) (.error (.exception []))) s := by
  refine ⟨⟨_, rfl, fun h => ?_⟩, _, rfl, fun h => ?_⟩
  · cases (answered_iff_of_quiet (by decide)).mp h rfl _ List.mem_cons_self
  · cases (answered_iff_of_quiet (by decide)).mp h rfl _ List.mem_cons_self

end Baselib.HttpServer.Connection
