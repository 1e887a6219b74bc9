/-
Baselib.Tasks.TcpAcceptorTheorems — a cancelled acceptor waits for nobody.

The acceptor has one operation outstanding, or leaves with one notification,
or has stopped accepting. A request to cancel aborts the operation which has
not completed, and every handler which runs afterwards finds the request.
-/
import Baselib.Tasks.TcpAcceptor

namespace Baselib.Tasks.TcpAcceptor

open Lib List
open ExecutionQueue (TaskState)
open Option (map_eq_some_iff ite_some_none_eq_some)

variable {δ ι α : Type} {hooks : Hooks δ ι α} {s s' : State δ ι} {l : Label δ ι α}
variable {ec : Option ErrorCode}

/-! ## Where the acceptor stands -/

inductive Phase (s : State δ ι) : Prop where
  | created : s.state = .created → s.outstanding = [] → s.notifications = [] → s.ready = [] →
      s.stoppedAccepting = false → Phase s
  | waiting (o : Outstanding) : s.state = .running → s.outstanding = [o] →
      s.notifications = [] → s.ready = [] → s.stoppedAccepting = false →
      (o.operation ≠ .resolve → s.acceptor = some true) → Phase s
  | leaving (eptr : Option ErrorCode) : s.state = .running → s.outstanding = [] →
      s.notifications = [eptr] → s.ready = [] → s.stoppedAccepting = false → Phase s
  | stopped : s.outstanding = [] → s.stoppedAccepting = true →
      (s.state = .running ∧ s.ready = [] ∨
        s.state = .pendingCompletion ∧ s.ready.length = 1) → Phase s
  | completed : s.state = .pendingCompletion → s.outstanding = [] → s.notifications = [] →
      s.ready.length = 1 → s.stoppedAccepting = false → Phase s

structure Inv (s : State δ ι) : Prop where
  phase : Phase s
  socket : s.socket ≠ none → s.outstanding = [⟨.accept, some none⟩]
  cancelled : s.cancelRequested = true →
    s.socket = none ∧ ∀ o ∈ s.outstanding, o.result.isSome = true

/-- A handler has been taken and runs. -/
structure Handling (s : State δ ι) : Prop where
  state : s.state = .running
  outstanding : s.outstanding = []
  notifications : s.notifications = []
  ready : s.ready = []
  stoppedAccepting : s.stoppedAccepting = false

theorem Inv.create (derived : δ) : Inv (State.create derived : State δ ι) where
  phase := .created rfl rfl rfl rfl rfl
  socket h := absurd rfl h
  cancelled h := by cases h

/-- The operation whose handler can run is the only one. -/
theorem Inv.of_getElem? {i : Nat} {o : Outstanding} (h : Inv s) (ho : s.outstanding[i]? = some o) :
    i = 0 ∧ s.outstanding = [o] ∧ s.state = .running ∧ s.notifications = [] ∧ s.ready = [] ∧
      s.stoppedAccepting = false ∧ (o.operation ≠ .resolve → s.acceptor = some true) := by
  cases h.phase with
  | created _ hnone | leaving _ _ hnone | stopped hnone | completed _ hnone => simp [hnone] at ho
  | waiting o' hstate houtstanding hnotifications hready hstopped hacceptor =>
    rw [houtstanding] at ho ⊢
    obtain ⟨rfl, rfl⟩ : i = 0 ∧ o' = o := by
      cases i with
      | zero => exact ⟨rfl, by simpa using ho⟩
      | succ i => simp at ho
    exact ⟨rfl, rfl, hstate, hnotifications, hready, hstopped, hacceptor⟩

theorem take_eq_some {i : Nat} {operation : Operation} {r : Option ErrorCode × State δ ι} :
    s.take i operation = some r ↔ s.outstanding[i]? = some ⟨operation, some r.1⟩ ∧
      r.2 = { s with outstanding := s.outstanding.eraseIdx i } := by
  obtain ⟨ec, s'⟩ := r
  rw [State.take]
  split
  · rename_i o ec' heq
    rw [heq]
    split_ifs with ho
    · subst ho
      simp only [Option.some.injEq, Prod.mk.injEq, Outstanding.mk.injEq, true_and]
      exact and_congr_right fun _ => eq_comm
    · simp [ho]
  · rename_i hne
    constructor
    · nofun
    · intro h
      exact absurd h.1 (hne operation ec)

theorem Inv.handling {i : Nat} {operation : Operation}
    {s₁ : State δ ι} (h : Inv s) (hr : s.take i operation = some (ec, s₁)) :
    Handling s₁ ∧ s.outstanding = [⟨operation, some ec⟩] ∧
      s₁ = { s with outstanding := [] } ∧ (operation ≠ .resolve → s.acceptor = some true) := by
  obtain ⟨hget, rfl : s₁ = _⟩ := take_eq_some.mp hr
  obtain ⟨rfl, houtstanding, hstate, hnotifications, hready, hstopped, hacceptor⟩ :=
    h.of_getElem? hget
  rw [houtstanding]
  exact ⟨⟨hstate, rfl, hnotifications, hready, hstopped⟩, rfl, rfl, hacceptor⟩

/-- A connection is held only while the handler of its accept is waited for. -/
theorem Inv.socket_eq_none (h : Inv s) (hne : s.outstanding ≠ [⟨.accept, some none⟩]) :
    s.socket = none := by
  by_contra hsocket
  exact hne (h.socket hsocket)

/-- A completed operation is still the only one. -/
theorem Inv.complete {i : Nat} {operation : Operation} (h : Inv s)
    (hs : s.complete i operation ec = some s') :
    s' = { s with outstanding := [⟨operation, some ec⟩] } ∧ s.socket = none ∧ Inv s' := by
  obtain ⟨hget, rfl⟩ := ite_some_none_eq_some.mp hs
  obtain ⟨rfl, houtstanding, hstate, hnotifications, hready, hstopped, hacceptor⟩ :=
    h.of_getElem? hget
  have hsocket := h.socket_eq_none (by simp [houtstanding])
  rw [houtstanding]
  refine ⟨rfl, hsocket, ?_, fun hne => absurd hsocket hne, fun _ => ⟨hsocket, fun o ho => ?_⟩⟩
  · exact .waiting ⟨operation, some ec⟩ hstate rfl hnotifications hready hstopped hacceptor
  · rw [mem_singleton.mp ho]
    rfl

/-! ## What a handler leaves -/

theorem Handling.notify (h : Handling s) (hsocket : s.socket = none) (eptr : Option ErrorCode) :
    Inv (s.notify eptr) where
  phase := .leaving eptr h.state h.outstanding (by rw [State.notify, h.notifications]; rfl)
    h.ready h.stoppedAccepting
  socket hne := absurd hsocket hne
  cancelled _ := by
    refine ⟨hsocket, fun o ho => ?_⟩
    rw [State.notify, h.outstanding] at ho
    cases ho

theorem Handling.startAccept (h : Handling s) (hacceptor : s.acceptor = some true)
    (hcancel : s.cancelRequested = false) : Inv (startAccept s) where
  phase := by
    refine .waiting ⟨.accept, none⟩ h.state ?_ h.notifications h.ready h.stoppedAccepting
      fun _ => hacceptor
    simp [TcpAcceptor.startAccept, State.start, State.closeSocket, h.outstanding]
  socket hne := absurd rfl hne
  cancelled hc := by
    rw [show (TcpAcceptor.startAccept s).cancelRequested = s.cancelRequested from rfl, hcancel] at hc
    cases hc

theorem Handling.scheduleAcceptAfterBackOff (h : Handling s) (hsocket : s.socket = none)
    (hacceptor : s.acceptor = some true) (hcancel : s.cancelRequested = false) : Inv (scheduleAcceptAfterBackOff s) where
  phase := by
    refine .waiting ⟨.backOff, none⟩ h.state ?_ h.notifications h.ready h.stoppedAccepting
      fun _ => hacceptor
    simp [TcpAcceptor.scheduleAcceptAfterBackOff, State.start, h.outstanding]
  socket hne := absurd hsocket hne
  cancelled hc := by
    rw [show (TcpAcceptor.scheduleAcceptAfterBackOff s).cancelRequested = s.cancelRequested from rfl,
      hcancel] at hc
    cases hc

/-- What the handler of an accept comes to. -/
inductive AcceptOutcome (hooks : Hooks δ ι α) (answers : α) (ec : Option ErrorCode)
    (s : State δ ι) : State δ ι → Prop where
  | processed (connection : ι) : s.socket = some connection → s.cancelRequested = false →
      AcceptOutcome hooks answers ec s (startAccept { s with
        socket := none
        derived := hooks.processIncomingConnection answers connection s.derived })
  | empty : s.socket = none → s.cancelRequested = false →
      AcceptOutcome hooks answers ec s (startAccept s)
  | backsOff : ec ≠ none → s.cancelRequested = false →
      AcceptOutcome hooks answers ec s (scheduleAcceptAfterBackOff { s with errorCode := none })
  | continues (errorCode : Option ErrorCode) : (s.cancelRequested = true ∨ ec ≠ none) →
      (hooks.continueAfterStoppedAccepting s.derived).1 = true →
      AcceptOutcome hooks answers ec s { s with
        errorCode := errorCode
        derived := (hooks.continueAfterStoppedAccepting s.derived).2
        acceptor := none
        stoppedAccepting := true }
  | leaves (errorCode : Option ErrorCode) : (s.cancelRequested = true ∨ ec ≠ none) →
      (hooks.continueAfterStoppedAccepting s.derived).1 = false →
      AcceptOutcome hooks answers ec s (State.notify errorCode { s with
        errorCode := errorCode
        derived := (hooks.continueAfterStoppedAccepting s.derived).2 })

theorem onConnectionAccepted_outcome {answers : α} (hacceptor : s.acceptor = some true) :
    AcceptOutcome hooks answers ec s (onConnectionAccepted hooks answers ec s) := by
  -- The stop comes before the error code is looked at again.
  have hstops : ∀ errorCode, (s.cancelRequested = true ∨ ec ≠ none) →
      AcceptOutcome hooks answers ec s
        (if (hooks.continueAfterStoppedAccepting s.derived).1 = true then { s with
            errorCode := errorCode
            derived := (hooks.continueAfterStoppedAccepting s.derived).2
            acceptor := none
            stoppedAccepting := true }
          else State.notify errorCode { s with
            errorCode := errorCode
            derived := (hooks.continueAfterStoppedAccepting s.derived).2 }) := by
    intro errorCode hwhy
    cases hcontinues : (hooks.continueAfterStoppedAccepting s.derived).1 with
    | true => exact .continues errorCode hwhy hcontinues
    | false => exact .leaves errorCode hwhy hcontinues
  have hopen : (s.acceptor != some true) = false := by simp [hacceptor]
  rw [onConnectionAccepted]
  simp only [hopen, Bool.or_false, Bool.not_false, Bool.and_true]
  cases hcancel : s.cancelRequested with
  | true =>
    cases ec with
    | none => simpa [hcancel] using hstops s.errorCode (.inl hcancel)
    | some code =>
      cases code with
      | operationAborted => simpa [hcancel] using hstops s.errorCode (.inl hcancel)
      | other value => simpa [hcancel] using hstops (some (.other value)) (.inl hcancel)
  | false =>
    cases ec with
    | none =>
      cases hsocket : s.socket with
      | none => simpa [hcancel, hsocket] using AcceptOutcome.empty hsocket hcancel
      | some connection =>
        simpa [hcancel, hsocket] using AcceptOutcome.processed connection hsocket hcancel
    | some code =>
      cases code with
      | operationAborted => simpa [hcancel] using hstops s.errorCode (.inr (by simp))
      | other value =>
        have hbacksOff := @AcceptOutcome.backsOff _ _ _ hooks answers
          (some (.other value)) s (by simp) hcancel
        simpa [hcancel] using hbacksOff

/-- The handler of a completed accept. -/
theorem Handling.onConnectionAccepted (h : Handling s)
    (hacceptor : s.acceptor = some true) (hcancel : s.cancelRequested = true → s.socket = none)
    (hsocket : ec ≠ none → s.socket = none) (answers : α) :
    Inv (onConnectionAccepted hooks answers ec s) := by
  have houtcome := @onConnectionAccepted_outcome _ _ _ hooks s ec answers hacceptor
  generalize TcpAcceptor.onConnectionAccepted hooks answers ec s = s' at houtcome
  cases houtcome with
  | processed connection _ hrequested =>
    refine Handling.startAccept ?_ hacceptor hrequested
    exact { h with }
  | empty _ hrequested => exact h.startAccept hacceptor hrequested
  | backsOff hec hrequested =>
    refine Handling.scheduleAcceptAfterBackOff ?_ (hsocket hec) hacceptor hrequested
    exact { h with }
  | continues _ hwhy =>
    refine ⟨.stopped h.outstanding rfl (.inl ⟨h.state, h.ready⟩),
      fun hne => absurd (hwhy.elim hcancel hsocket) hne,
      fun _ => ⟨hwhy.elim hcancel hsocket, fun o ho => ?_⟩⟩
    rw [show _ = [] from h.outstanding] at ho
    cases ho
  | leaves _ hwhy =>
    refine Handling.notify ?_ ?_ _
    · exact { h with }
    · exact hwhy.elim hcancel hsocket

/-! ## The other sections -/

theorem Inv.requestCancel (h : Inv s) : Inv (requestCancel s) := by
  rw [TcpAcceptor.requestCancel]
  split
  · exact h
  dsimp only
  split_ifs with hrunning
  · cases h.phase with
    | created hcreated => simp [hcreated] at hrunning
    | waiting o hstate houtstanding hnotifications hready hstopped hacceptor =>
      have hmap : (cancelTask { s with cancelRequested := true }).outstanding = [o.abort] := by
        simp only [cancelTask, houtstanding, map_cons, map_nil]
        rw [if_neg fun hne => hne.2 (hacceptor (by rw [hne.1]; simp))]
      refine ⟨.waiting o.abort hstate hmap hnotifications hready hstopped hacceptor,
        fun hne => absurd rfl hne, fun _ => ⟨rfl, fun o' ho' => ?_⟩⟩
      rw [hmap, mem_singleton] at ho'
      rw [ho', Outstanding.abort]
      cases o.result with
      | none => rfl
      | some ec => rfl
    | leaving eptr hstate houtstanding hnotifications hready hstopped =>
      have hmap : (cancelTask { s with cancelRequested := true }).outstanding = [] := by
        simp [cancelTask, houtstanding]
      refine ⟨.leaving eptr hstate hmap hnotifications hready hstopped,
        fun hne => absurd rfl hne, fun _ => ⟨rfl, fun o' ho' => ?_⟩⟩
      rw [hmap] at ho'
      cases ho'
    | stopped houtstanding hstopped hready =>
      have hmap : (cancelTask { s with cancelRequested := true }).outstanding = [] := by
        simp [cancelTask, houtstanding]
      refine ⟨.stopped hmap hstopped hready,
        fun hne => absurd rfl hne, fun _ => ⟨rfl, fun o' ho' => ?_⟩⟩
      rw [hmap] at ho'
      cases ho'
    | completed hcompleted => simp [hcompleted] at hrunning
  · have hidle : s.outstanding = [] := by
      cases h.phase with
      | created _ houtstanding | leaving _ _ houtstanding | stopped houtstanding
      | completed _ houtstanding => exact houtstanding
      | waiting _ hstate => exact absurd hstate hrunning
    have hsocket := h.socket_eq_none (by simp [hidle])
    refine ⟨?_, h.socket, fun _ => ⟨hsocket, fun o ho => ?_⟩⟩
    · cases h.phase with
      | created h₁ h₂ h₃ h₄ h₅ => exact .created h₁ h₂ h₃ h₄ h₅
      | waiting _ hstate => exact absurd hstate hrunning
      | leaving eptr h₁ h₂ h₃ h₄ h₅ => exact .leaving eptr h₁ h₂ h₃ h₄ h₅
      | stopped h₁ h₂ h₃ => exact .stopped h₁ h₂ h₃
      | completed h₁ h₂ h₃ h₄ h₅ => exact .completed h₁ h₂ h₃ h₄ h₅
    · rw [show _ = [] from hidle] at ho
      cases ho

@[simp] theorem onTaskStoppedNothrow_state (eptr : Option ErrorCode) :
    (onTaskStoppedNothrow hooks eptr s).state = s.state := rfl

@[simp] theorem onTaskStoppedNothrow_notifications (eptr : Option ErrorCode) :
    (onTaskStoppedNothrow hooks eptr s).notifications = s.notifications := rfl

@[simp] theorem onTaskStoppedNothrow_ready (eptr : Option ErrorCode) :
    (onTaskStoppedNothrow hooks eptr s).ready = s.ready := rfl

theorem onTaskStoppedNothrow_outstanding {eptr : Option ErrorCode} (h : s.outstanding = []) :
    (onTaskStoppedNothrow hooks eptr s).outstanding = [] := by
  simp [onTaskStoppedNothrow, h]

theorem Inv.notifyReady {i : Nat} {eptr : Option ErrorCode} (h : Inv s)
    (heptr : s.notifications[i]? = some eptr) :
    Inv (notifyReady hooks eptr { s with notifications := s.notifications.eraseIdx i }) := by
  have houtstanding : s.outstanding = [] := by
    cases h.phase with
    | created _ houtstanding | leaving _ _ houtstanding | stopped houtstanding
    | completed _ houtstanding => exact houtstanding
    | waiting _ _ _ hnone => simp [hnone] at heptr
  set s₁ : State δ ι := { s with notifications := s.notifications.eraseIdx i }
  have hidle : (onTaskStoppedNothrow hooks eptr s₁).outstanding = [] :=
    onTaskStoppedNothrow_outstanding houtstanding
  have hinv : ∀ s' : State δ ι, s'.socket = none → s'.outstanding = [] → Phase s' → Inv s' := by
    refine fun s' hsocket hnone hphase =>
      ⟨hphase, fun hne => absurd hsocket hne, fun _ => ⟨hsocket, fun o ho => ?_⟩⟩
    simp [hnone] at ho
  rw [TcpAcceptor.notifyReady]
  cases h.phase with
  | created _ _ hnone | waiting _ _ _ hnone | completed _ _ hnone => simp [hnone] at heptr
  | leaving eptr' hstate _ hnotifications hready hstopped =>
    rw [if_pos (show (onTaskStoppedNothrow hooks eptr s₁).state = .running from hstate)]
    refine hinv _ rfl hidle (.completed rfl hidle ?_ (by simp [s₁, hready]) hstopped)
    rw [hnotifications] at heptr
    obtain rfl : i = 0 := by
      cases i with
      | zero => rfl
      | succ i => simp at heptr
    simp [s₁, hnotifications]
  | stopped _ hstopped hready =>
    obtain ⟨hstate, hready⟩ | ⟨hstate, hready⟩ := hready
    · rw [if_pos (show (onTaskStoppedNothrow hooks eptr s₁).state = .running from hstate)]
      exact hinv _ rfl hidle (.stopped hidle hstopped (.inr ⟨rfl, by simp [s₁, hready]⟩))
    · rw [if_neg (by simp [s₁, hstate])]
      exact hinv _ rfl hidle (.stopped hidle hstopped (.inr ⟨hstate, hready⟩))

theorem step_inv (h : Inv s) (hstep : step hooks s l = some s') : Inv s' := by
  cases l with
  | scheduleNothrow =>
    obtain ⟨hstate, rfl⟩ := ite_some_none_eq_some.mp hstep
    cases h.phase with
    | created _ houtstanding hnotifications hready hstopped =>
      have hsocket := h.socket_eq_none (by simp [houtstanding])
      rw [scheduleNothrow]
      split
      · refine Handling.notify ?_ ?_ _
        · exact ⟨rfl, houtstanding, hnotifications, hready, hstopped⟩
        · exact hsocket
      · rename_i hcancel
        refine ⟨.waiting ⟨.resolve, none⟩ rfl ?_ hnotifications hready hstopped
          fun hne => absurd rfl hne, fun hne => absurd hsocket hne, fun hc => absurd hc hcancel⟩
        simp [State.start, houtstanding]
    | waiting _ hrunning | leaving _ hrunning => simp [hrunning] at hstate
    | stopped _ _ hready => simp [hstate] at hready
    | completed hcompleted => simp [hcompleted] at hstate
  | requestCancel =>
    cases hstep
    exact h.requestCancel
  | resolved _ _ | acceptFails _ _ | expires _ => exact (h.complete hstep).2.2
  | accepted i connection =>
    obtain ⟨s₁, hs₁, rfl⟩ := map_eq_some_iff.mp hstep
    obtain ⟨rfl, -, hinv⟩ := h.complete hs₁
    refine ⟨?_, fun _ => rfl, fun hc => ?_⟩
    · cases hinv.phase with
      | created _ hnone | leaving _ _ hnone | stopped hnone | completed _ hnone => cases hnone
      | waiting o h₁ h₂ h₃ h₄ h₅ h₆ => exact .waiting o h₁ h₂ h₃ h₄ h₅ h₆
    · -- A cancelled acceptor has no accept which is still to complete.
      have hwaiting := (Option.ite_none_right_eq_some.mp hs₁).1
      have hsome := (h.cancelled hc).2 _ (mem_of_getElem? hwaiting)
      cases hsome
  | onResolved i listen =>
    obtain ⟨⟨ec, s₁⟩, hr, rfl⟩ := map_eq_some_iff.mp hstep
    obtain ⟨hhandling, houtstanding, rfl, -⟩ := h.handling hr
    have hsocket := h.socket_eq_none (by simp [houtstanding])
    rw [onResolved]
    split
    · exact hhandling.notify hsocket _
    split
    · exact hhandling.notify hsocket _
    rename_i hcancel
    split
    · refine Handling.notify ?_ ?_ _
      · exact { hhandling with }
      · exact hsocket
    · refine Handling.startAccept ?_ rfl (Bool.not_eq_true _ ▸ hcancel)
      exact { hhandling with }
  | onConnectionAccepted i answers =>
    obtain ⟨⟨ec, s₁⟩, hr, rfl⟩ := map_eq_some_iff.mp hstep
    obtain ⟨hhandling, houtstanding, rfl, hacceptor⟩ := h.handling hr
    exact hhandling.onConnectionAccepted (hacceptor (by simp)) (fun hc => (h.cancelled hc).1)
      (fun hec => h.socket_eq_none (by simpa [houtstanding] using hec)) answers
  | onAcceptBackOffExpired i =>
    obtain ⟨⟨ec, s₁⟩, hr, rfl⟩ := map_eq_some_iff.mp hstep
    obtain ⟨hhandling, houtstanding, rfl, hacceptor⟩ := h.handling hr
    have hsocket := h.socket_eq_none (by simp [houtstanding])
    rw [onAcceptBackOffExpired]
    split
    · exact hhandling.notify hsocket _
    split
    · exact hhandling.notify hsocket _
    rename_i hcancel
    exact hhandling.startAccept (hacceptor (by simp)) (Bool.not_eq_true _ ▸ hcancel)
  | notifyReady i =>
    obtain ⟨eptr, heptr, rfl⟩ := map_eq_some_iff.mp hstep
    exact h.notifyReady heptr
  | derived derived notification =>
    obtain ⟨hallowed, rfl⟩ := Transition.ite_none_some_eq_some.mp hstep
    refine ⟨?_, h.socket, h.cancelled⟩
    cases notification with
    | none =>
      cases h.phase with
      | created h₁ h₂ h₃ h₄ h₅ => exact .created h₁ h₂ (by simp [h₃]) h₄ h₅
      | waiting o h₁ h₂ h₃ h₄ h₅ h₆ => exact .waiting o h₁ h₂ (by simp [h₃]) h₄ h₅ h₆
      | leaving eptr h₁ h₂ h₃ h₄ h₅ => exact .leaving eptr h₁ h₂ (by simp [h₃]) h₄ h₅
      | stopped h₁ h₂ h₃ => exact .stopped h₁ h₂ h₃
      | completed h₁ h₂ h₃ h₄ h₅ => exact .completed h₁ h₂ (by simp [h₃]) h₄ h₅
    | some eptr =>
      have hstopped : s.stoppedAccepting = true := by simpa using hallowed
      cases h.phase with
      | created _ _ _ _ h₅ | waiting _ _ _ _ _ h₅ | leaving _ _ _ _ _ h₅ | completed _ _ _ _ h₅ =>
        simp [h₅] at hstopped
      | stopped h₁ h₂ h₃ => exact .stopped h₁ h₂ h₃

theorem run_inv {derived : δ} {ls : List (Label δ ι α)}
    (hrun : Transition.run (step hooks) (.create derived) ls = some s) : Inv s :=
  Transition.run_invariant (C := fun _ _ => True) (fun _ _ _ h _ hstep => step_inv h hstep)
    (Inv.create derived) Transition.along_true hrun

/-! ## The accepted connections -/

/-- The derived class keeps every connection it is given. -/
structure Accounting (hooks : Hooks δ ι α) (streams : δ → List ι) : Prop where
  processIncomingConnection : ∀ answers connection d,
    (streams (hooks.processIncomingConnection answers connection d)).Perm (connection :: streams d)
  continueAfterStoppedAccepting : ∀ d,
    streams (hooks.continueAfterStoppedAccepting d).2 = streams d
  onTaskStoppedNothrow : ∀ eptr d, streams (hooks.onTaskStoppedNothrow eptr d) = streams d

/-- Every connection which was accepted is the one of the socket, or has been
closed, or is the derived class's. -/
def Accounted (streams : δ → List ι) (s : State δ ι) : Prop :=
  s.accepted.Perm (s.socket.toList ++ s.closed ++ streams s.derived)

theorem Accounted.closeSocket {streams : δ → List ι} (h : Accounted streams s) :
    Accounted streams s.closeSocket :=
  h.trans (perm_append_comm.append_right _)

theorem step_accounted {streams : δ → List ι} (hkeeps : Accounting hooks streams) (h : Inv s)
    (haccounted : Accounted streams s) (hstep : step hooks s l = some s')
    (hderived : ∀ d notification, l = .derived d notification →
      (streams d).Perm (streams s.derived)) : Accounted streams s' := by
  cases l with
  | scheduleNothrow =>
    obtain ⟨-, rfl⟩ := ite_some_none_eq_some.mp hstep
    rw [scheduleNothrow]
    split <;> exact haccounted
  | requestCancel =>
    cases hstep
    rw [requestCancel]
    split
    · exact haccounted
    · dsimp only
      split
      · exact haccounted.closeSocket
      · exact haccounted
  | resolved _ _ | acceptFails _ _ | expires _ =>
    obtain ⟨rfl, -⟩ := h.complete hstep
    exact haccounted
  | accepted i connection =>
    obtain ⟨s₁, hs₁, rfl⟩ := map_eq_some_iff.mp hstep
    obtain ⟨rfl, hsocket, -⟩ := h.complete hs₁
    rw [Accounted, hsocket] at haccounted
    exact (haccounted.append_right [connection]).trans (perm_append_singleton _ _)
  | onResolved i listen =>
    obtain ⟨⟨ec, s₁⟩, hr, rfl⟩ := map_eq_some_iff.mp hstep
    obtain ⟨-, -, rfl, -⟩ := h.handling hr
    have hr' : Accounted streams { s with outstanding := [] } := haccounted
    rw [onResolved]
    split
    · exact hr'
    split
    · exact hr'
    split
    · exact hr'
    · exact hr'.closeSocket
  | onConnectionAccepted i answers =>
    obtain ⟨⟨ec, s₁⟩, hr, rfl⟩ := map_eq_some_iff.mp hstep
    obtain ⟨-, -, rfl, hacceptor⟩ := h.handling hr
    have hr' : Accounted streams { s with outstanding := [] } := haccounted
    have houtcome := @onConnectionAccepted_outcome _ _ _ hooks { s with outstanding := [] } ec
      answers (hacceptor (by simp))
    generalize onConnectionAccepted hooks answers _ _ = s' at houtcome
    cases houtcome with
    | processed connection hsocket =>
      have hprocessed : Accounted streams { s with
          outstanding := []
          socket := none
          derived := hooks.processIncomingConnection answers connection s.derived } := by
        rw [Accounted, hsocket] at hr'
        refine hr'.trans (perm_middle.symm.trans ?_)
        exact (hkeeps.processIncomingConnection answers connection _).symm.append_left _
      exact hprocessed.closeSocket
    | empty => exact hr'.closeSocket
    | backsOff => exact hr'
    | continues =>
      rwa [Accounted, hkeeps.continueAfterStoppedAccepting]
    | leaves =>
      rwa [Accounted, State.notify, hkeeps.continueAfterStoppedAccepting]
  | onAcceptBackOffExpired i =>
    obtain ⟨⟨ec, s₁⟩, hr, rfl⟩ := map_eq_some_iff.mp hstep
    obtain ⟨-, -, rfl, -⟩ := h.handling hr
    have hr' : Accounted streams { s with outstanding := [] } := haccounted
    rw [onAcceptBackOffExpired]
    split
    · exact hr'
    split
    · exact hr'
    · exact hr'.closeSocket
  | notifyReady i =>
    obtain ⟨eptr, -, rfl⟩ := map_eq_some_iff.mp hstep
    have hstopped : Accounted streams (onTaskStoppedNothrow hooks eptr
        { s with notifications := s.notifications.eraseIdx i }) := by
      rw [Accounted, onTaskStoppedNothrow, hkeeps.onTaskStoppedNothrow]
      exact haccounted.closeSocket
    rw [notifyReady]
    split <;> exact hstopped
  | derived derived notification =>
    obtain ⟨-, rfl⟩ := Transition.ite_none_some_eq_some.mp hstep
    exact haccounted.trans ((hderived derived notification rfl).symm.append_left _)

/-! ## The state of the derived class -/

/-- What a section of the acceptor does to the state of the derived class. -/
inductive Derives (hooks : Hooks δ ι α) (s : State δ ι) : Label δ ι α → δ → Prop where
  | same {l : Label δ ι α} : (∀ i answers, l = .onConnectionAccepted i answers → s.socket = none) →
      Derives hooks s l s.derived
  | processes (i : Nat) (answers : α) (connection : ι) : s.socket = some connection →
      Derives hooks s (.onConnectionAccepted i answers)
        (hooks.processIncomingConnection answers connection s.derived)
  | continues (i : Nat) (answers : α) : s.socket = none →
      Derives hooks s (.onConnectionAccepted i answers)
        (hooks.continueAfterStoppedAccepting s.derived).2
  | stops (i : Nat) (eptr : Option ErrorCode) :
      Derives hooks s (.notifyReady i) (hooks.onTaskStoppedNothrow eptr s.derived)
  | derived (d : δ) (n : Option (Option ErrorCode)) : Derives hooks s (.derived d n) d

theorem step_derives (h : Inv s) (hstep : step hooks s l = some s') :
    Derives hooks s l s'.derived := by
  cases l with
  | scheduleNothrow =>
    obtain ⟨-, rfl⟩ := ite_some_none_eq_some.mp hstep
    rw [scheduleNothrow]
    split <;> exact .same nofun
  | requestCancel =>
    cases hstep
    rw [requestCancel]
    split
    · exact .same nofun
    · dsimp only
      split <;> exact .same nofun
  | resolved _ _ | acceptFails _ _ | expires _ =>
    obtain ⟨rfl, -⟩ := h.complete hstep
    exact .same nofun
  | accepted i connection =>
    obtain ⟨s₁, hs₁, rfl⟩ := map_eq_some_iff.mp hstep
    obtain ⟨rfl, -⟩ := h.complete hs₁
    exact .same nofun
  | onResolved i listen =>
    obtain ⟨⟨ec, s₁⟩, hr, rfl⟩ := map_eq_some_iff.mp hstep
    obtain ⟨-, -, rfl, -⟩ := h.handling hr
    rw [onResolved]
    split_ifs <;> exact .same nofun
  | onConnectionAccepted i answers =>
    obtain ⟨⟨ec, s₁⟩, hr, rfl⟩ := map_eq_some_iff.mp hstep
    obtain ⟨-, houtstanding, rfl, hacceptor⟩ := h.handling hr
    have houtcome := @onConnectionAccepted_outcome _ _ _ hooks { s with outstanding := [] } ec
      answers (hacceptor (by simp))
    have hfails : ec ≠ none → s.socket = none :=
      fun hec => h.socket_eq_none (by simpa [houtstanding] using hec)
    generalize onConnectionAccepted hooks answers _ _ = s' at houtcome
    cases houtcome with
    | processed connection hconnection => exact .processes i answers connection hconnection
    | empty hempty => exact .same fun _ _ _ => hempty
    | backsOff hec => exact .same fun _ _ _ => hfails hec
    | continues _ hwhy | leaves _ hwhy =>
      exact .continues i answers (hwhy.elim (fun hc => (h.cancelled hc).1) hfails)
  | onAcceptBackOffExpired i =>
    obtain ⟨⟨ec, s₁⟩, hr, rfl⟩ := map_eq_some_iff.mp hstep
    obtain ⟨-, -, rfl, -⟩ := h.handling hr
    rw [onAcceptBackOffExpired]
    split_ifs <;> exact .same nofun
  | notifyReady i =>
    obtain ⟨eptr, -, rfl⟩ := map_eq_some_iff.mp hstep
    rw [notifyReady]
    split <;> exact .stops i eptr
  | derived d n =>
    obtain ⟨-, rfl⟩ := Transition.ite_none_some_eq_some.mp hstep
    exact .derived d n

/-! ## After a request to cancel -/

/-- A section which is queued or is about to run. -/
def Label.isOwn : Label δ ι α → Bool
  | .onResolved .. | .onConnectionAccepted .. | .onAcceptBackOffExpired .. | .notifyReady .. => true
  | _ => false

/-- How far the acceptor is from its end. -/
def State.rank (s : State δ ι) : Nat := 2 * s.outstanding.length + s.notifications.length

@[simp] theorem rank_notify (eptr : Option ErrorCode) : (s.notify eptr).rank = s.rank + 1 := by
  simp only [State.rank, State.notify, length_append, length_singleton]
  omega

/-- What a section does when the request to cancel has been processed. -/
structure Keeps (s s' : State δ ι) : Prop where
  cancelRequested : s'.cancelRequested = true
  acceptsStarted : s'.acceptsStarted = s.acceptsStarted
  backOffsStarted : s'.backOffsStarted = s.backOffsStarted

theorem onConnectionAccepted_canceled {answers : α}
    (hacceptor : s.acceptor = some true) (hc : s.cancelRequested = true) :
    Keeps s (onConnectionAccepted hooks answers ec s) ∧
      (onConnectionAccepted hooks answers ec s).rank ≤ s.rank + 1 := by
  have houtcome := @onConnectionAccepted_outcome _ _ _ hooks s ec answers hacceptor
  generalize onConnectionAccepted hooks answers ec s = s' at houtcome
  cases houtcome with
  | processed _ _ hnot | empty _ hnot | backsOff _ hnot => simp [hc] at hnot
  | continues => exact ⟨⟨hc, rfl, rfl⟩, Nat.le_succ _⟩
  | leaves => exact ⟨⟨hc, rfl, rfl⟩, Nat.le_of_eq (rank_notify _)⟩

theorem onResolved_canceled {listen : Option ErrorCode} (hc : s.cancelRequested = true) :
    ∃ eptr, onResolved listen ec s = s.notify eptr := by
  rw [onResolved]
  split
  · exact ⟨ec, rfl⟩
  · exact ⟨_, rfl⟩

theorem onAcceptBackOffExpired_canceled (hc : s.cancelRequested = true) :
    ∃ eptr, onAcceptBackOffExpired ec s = s.notify eptr := by
  rw [onAcceptBackOffExpired]
  split
  · exact ⟨ec, rfl⟩
  · exact ⟨_, rfl⟩

/-- No operation is started, and a section of the acceptor itself leads
closer to its end. -/
theorem step_canceled (h : Inv s) (hc : s.cancelRequested = true)
    (hstep : step hooks s l = some s') :
    Keeps s s' ∧ (l.isOwn = true → s'.rank < s.rank) ∧
      (s.state ≠ .created → s.stoppedAccepting = false → s'.rank ≤ s.rank) := by
  have hnone : ∀ {i operation} {ec : Option ErrorCode} {s' : State δ ι},
      s.complete i operation ec ≠ some s' := by
    intro i operation ec s' hs
    have hget := (Option.ite_none_right_eq_some.mp hs).1
    have hsome := (h.cancelled hc).2 _ (mem_of_getElem? hget)
    cases hsome
  set s₀ : State δ ι := { s with outstanding := [] } with hs₀
  have htaken : ∀ {i operation} {ec : Option ErrorCode} {s₁ : State δ ι},
      s.take i operation = some (ec, s₁) → s₁ = s₀ ∧ s₀.rank + 2 = s.rank := by
    intro i operation ec s₁ hr
    obtain ⟨-, houtstanding, heq, -⟩ := h.handling hr
    refine ⟨heq, ?_⟩
    simp only [hs₀, State.rank, houtstanding, length_nil, length_singleton]
    omega
  have hnotified : ∀ {s' : State δ ι} {own : Bool}, s₀.rank + 2 = s.rank →
      (∃ eptr, s' = s₀.notify eptr) → Keeps s s' ∧ (own = true → s'.rank < s.rank) ∧
        (s.state ≠ .created → s.stoppedAccepting = false → s'.rank ≤ s.rank) := by
    rintro s' own hrank ⟨eptr, rfl⟩
    rw [rank_notify]
    exact ⟨⟨hc, rfl, rfl⟩, fun _ => by omega, fun _ _ => by omega⟩
  cases l with
  | scheduleNothrow =>
    obtain ⟨hstate, rfl⟩ := ite_some_none_eq_some.mp hstep
    refine ⟨?_, nofun, fun hne => absurd hstate hne⟩
    rw [scheduleNothrow, if_pos hc]
    exact ⟨hc, rfl, rfl⟩
  | requestCancel =>
    cases hstep
    rw [requestCancel, if_pos hc]
    exact ⟨⟨hc, rfl, rfl⟩, nofun, fun _ _ => Nat.le_refl _⟩
  | resolved _ _ | acceptFails _ _ | expires _ => exact absurd hstep hnone
  | accepted i connection =>
    obtain ⟨s₁, hs₁, -⟩ := map_eq_some_iff.mp hstep
    exact absurd hs₁ hnone
  | onResolved i listen =>
    obtain ⟨⟨ec, s₁⟩, hr, rfl⟩ := map_eq_some_iff.mp hstep
    obtain ⟨rfl, hrank⟩ := htaken hr
    exact hnotified hrank (onResolved_canceled hc)
  | onConnectionAccepted i answers =>
    obtain ⟨⟨ec, s₁⟩, hr, rfl⟩ := map_eq_some_iff.mp hstep
    obtain ⟨rfl, hrank⟩ := htaken hr
    obtain ⟨⟨hc', haccepts, hbackOffs⟩, hle⟩ := @onConnectionAccepted_canceled _ _ _ hooks s₀ ec
      answers ((h.handling hr).2.2.2 (by simp)) hc
    exact ⟨⟨hc', haccepts, hbackOffs⟩, fun _ => Nat.lt_of_le_of_lt hle (by omega),
      fun _ _ => Nat.le_trans hle (by omega)⟩
  | onAcceptBackOffExpired i =>
    obtain ⟨⟨ec, s₁⟩, hr, rfl⟩ := map_eq_some_iff.mp hstep
    obtain ⟨rfl, hrank⟩ := htaken hr
    exact hnotified hrank (onAcceptBackOffExpired_canceled hc)
  | notifyReady i =>
    obtain ⟨eptr, heptr, rfl⟩ := map_eq_some_iff.mp hstep
    obtain ⟨hi, -⟩ := List.getElem?_eq_some_iff.mp heptr
    have hlength : (s.notifications.eraseIdx i).length + 1 = s.notifications.length :=
      length_eraseIdx_add_one hi
    have hrank : ∀ s' : State δ ι, s'.outstanding.length = s.outstanding.length →
        s'.notifications = s.notifications.eraseIdx i → s'.rank < s.rank := by
      intro s' houtstanding hnotifications
      simp only [State.rank, houtstanding, hnotifications]
      omega
    rw [notifyReady]
    split
    · have hlt := hrank
        { onTaskStoppedNothrow hooks eptr
            { s with notifications := s.notifications.eraseIdx i } with
          state := .pendingCompletion
          ready := s.ready ++ [eptr] } (by simp [onTaskStoppedNothrow]) rfl
      exact ⟨⟨hc, rfl, rfl⟩, fun _ => hlt, fun _ _ => Nat.le_of_lt hlt⟩
    · have hlt := hrank (onTaskStoppedNothrow hooks eptr
        { s with notifications := s.notifications.eraseIdx i }) (by simp [onTaskStoppedNothrow]) rfl
      exact ⟨⟨hc, rfl, rfl⟩, fun _ => hlt, fun _ _ => Nat.le_of_lt hlt⟩
  | derived derived notification =>
    obtain ⟨hallowed, rfl⟩ := Transition.ite_none_some_eq_some.mp hstep
    refine ⟨⟨hc, rfl, rfl⟩, nofun, fun _ hstopped => ?_⟩
    have hnone : notification = none := by simpa [hstopped] using hallowed
    simp [State.rank, hnone]

/-- Whatever is outstanding has completed: the acceptor ends, or leaves the
shutdown to the derived class, without waiting for anybody. -/
structure Finishing (hooks : Hooks δ ι α) (s : State δ ι) : Prop where
  completed : ∀ o ∈ s.outstanding, o.result.isSome = true
  enabled : s.state = .running → s.stoppedAccepting = false →
    ∃ l, l.isOwn = true ∧ (step hooks s l).isSome = true
  progress : ∀ l s', l.isOwn = true → step hooks s l = some s' → s'.rank < s.rank
  steady : ∀ l s', s.state = .running → s.stoppedAccepting = false →
    step hooks s l = some s' → s'.rank ≤ s.rank

theorem Inv.finishing [Inhabited α] (h : Inv s) (hc : s.cancelRequested = true) :
    Finishing hooks s where
  completed := (h.cancelled hc).2
  enabled hrunning hstopped := by
    cases h.phase with
    | created hcreated => simp [hcreated] at hrunning
    | waiting o _ houtstanding =>
      obtain ⟨operation, result⟩ := o
      have hsome := (h.cancelled hc).2 ⟨operation, result⟩ (by simp [houtstanding])
      obtain ⟨ec, rfl⟩ := Option.isSome_iff_exists.mp hsome
      cases operation with
      | resolve => exact ⟨.onResolved 0 none, rfl, by simp [step, State.take, houtstanding]⟩
      | accept =>
        exact ⟨.onConnectionAccepted 0 default, rfl, by simp [step, State.take, houtstanding]⟩
      | backOff =>
        exact ⟨.onAcceptBackOffExpired 0, rfl, by simp [step, State.take, houtstanding]⟩
    | leaving eptr _ _ hnotifications =>
      exact ⟨.notifyReady 0, rfl, by simp [step, hnotifications]⟩
    | stopped _ hstopped' => simp [hstopped] at hstopped'
    | completed hcompleted => simp [hcompleted] at hrunning
  progress _ _ hown hstep := (step_canceled h hc hstep).2.1 hown
  steady _ _ hrunning hstopped hstep :=
    (step_canceled h hc hstep).2.2 (by rw [hrunning]; simp) hstopped

/-- Once a request to cancel has been processed, whatever else happens, no
accept and no back-off is started any more, and none is waited for. -/
theorem run_canceled [Inhabited α] (hooks : Hooks δ ι α) (derived : δ)
    {ls ls' : List (Label δ ι α)} {s s' : State δ ι}
    (hrun : Transition.run (step hooks) (.create derived) ls = some s)
    (hcancel : s.cancelRequested = true) (hrun' : Transition.run (step hooks) s ls' = some s') :
    s'.acceptsStarted = s.acceptsStarted ∧ s'.backOffsStarted = s.backOffsStarted ∧
      Finishing hooks s' := by
  have hkeeps : Inv s' ∧ Keeps s s' := by
    refine Transition.run_invariant (P := fun s' => Inv s' ∧ Keeps s s') (C := fun _ _ => True)
      (fun s₁ l s₂ h _ hstep => ⟨step_inv h.1 hstep, ?_⟩) ⟨run_inv hrun, hcancel, rfl, rfl⟩
      Transition.along_true hrun'
    obtain ⟨⟨hc, haccepts, hbackOffs⟩, -⟩ := step_canceled h.1 h.2.cancelRequested hstep
    exact ⟨hc, haccepts.trans h.2.acceptsStarted, hbackOffs.trans h.2.backOffsStarted⟩
  exact ⟨hkeeps.2.acceptsStarted, hkeeps.2.backOffsStarted,
    hkeeps.1.finishing hkeeps.2.cancelRequested⟩

def acceptorHooks : Hooks Unit Unit Unit :=
  ⟨fun _ _ _ => (), fun _ => (false, ()), fun _ _ => ()⟩

/-- The back-off has expired when the request comes. -/
theorem run_canceled_expired :
    ∃ s : State Unit Unit, s.outstanding = [⟨.backOff, some none⟩] ∧
      s.acceptsStarted = 1 ∧ s.backOffsStarted = 1 ∧ Finishing acceptorHooks s := by
  obtain ⟨-, -, hfinishing⟩ := @run_canceled Unit Unit Unit _ acceptorHooks ()
    [.scheduleNothrow, .resolved 0 none, .onResolved 0 none, .acceptFails 0 (.other 24),
      .onConnectionAccepted 0 (), .expires 0, .requestCancel] [] _ _ rfl rfl rfl
  exact ⟨_, rfl, rfl, rfl, hfinishing⟩

end Baselib.Tasks.TcpAcceptor
