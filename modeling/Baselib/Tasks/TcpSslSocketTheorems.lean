/-
Baselib.Tasks.TcpSslSocketTheorems — what a run of a TLS stream task owes to
the runs before it.

The object keeps four things of its earlier runs: that it was scheduled for a
shutdown, with the exception it saved then, that its socket was shut down by
force, that it has completed a handshake, and the handlers of its deadline
which were in the queue already. A run which meets none of them ends as the
first run of a new object does, with the same stream.
-/
import Baselib.Tasks.TcpSslSocket

namespace Baselib.Tasks.TcpSslSocket

open Lib.Transition
open ExecutionQueue (TaskState)
open Option (map_eq_some_iff ite_some_none_eq_some ite_none_left_eq_some)

variable {ε : Type} {cfg : Config ε} {s s' : State ε} {l : Label ε}

/-! ## The run alone -/

/-- A new object in the place of this one, about to run. -/
def State.fresh (s : State ε) : State ε :=
  { State.create with
    sslStream := s.sslStream
    isCloseStreamOnTaskFinish := s.isCloseStreamOnTaskFinish
    cancelRequested := s.state = .created && s.cancelRequested }

/-- The object with what its present run has done to it, and nothing of the
runs before. -/
def State.own (s : State ε) : State ε :=
  { s with
    wasSocketShutdownForcefully := s.log.operationsCanceled
    originalException := if s.log.scheduledForShutdown then s.originalException else none
    scheduledForShutdown := s.log.scheduledForShutdown
    isHandshakeCompleted := s.log.handshakeCompleted
    staleTimerHandlers := 0 }

/-- The labels of a run which are not an earlier run's. -/
def Label.isOwn : Label ε → Bool
  | .onStaleProtocolTimer => false
  | _ => true

def Label.isSchedule : Label ε → Bool
  | .scheduleNothrow _ => true
  | _ => false

/-! ## What an earlier run has left -/

def State.staleForce (s : State ε) : Bool :=
  s.wasSocketShutdownForcefully && !s.log.operationsCanceled

def State.staleShutdown (s : State ε) : Bool :=
  s.scheduledForShutdown && !s.log.scheduledForShutdown

def State.staleHandshake (s : State ε) : Bool :=
  s.isHandshakeCompleted && !s.log.handshakeCompleted

/-- The stream has completed its handshake, and was not shut down. -/
def State.isSecured (s : State ε) : Bool :=
  s.hasHandshakeCompletedSuccessfully && !s.wasShutdownInvoked

/-- The run is to shut the stream down before it closes it. -/
def State.isShutdownDue (s : State ε) : Bool :=
  s.isCloseStreamOnTaskFinish && (!s.log.operationsCanceled && s.isSecured)

/-- The operation is not even started. -/
def State.failsToSchedule (s : State ε) : ScheduleTask ε → Bool
  | .throws _ => true
  | _ => s.state = .created && s.cancelRequested

def ScheduleTask.isProtocolOperations : ScheduleTask ε → Bool
  | .protocolOperations => true
  | _ => false

/-- The step meets nothing an earlier run has left, and neither does it close a
secured stream where no finish continuation runs. -/
def Undisturbed (cfg : Config ε) (s : State ε) : Label ε → Prop
  | .scheduleNothrow what =>
    s.isSecured = true →
      (s.failsToSchedule what = true → s.isCloseStreamOnTaskFinish = false) ∧
      (what.isProtocolOperations = true → s.wasSocketShutdownForcefully = false)
  | .notifyReady =>
    (s.staleForce = true → s.cancelRequested = false) ∧
    (s.notification.any Notification.allowFinishContinuations = true →
      (s.staleShutdown = true → s.originalException.isNone = true) ∧
      (s.staleForce = true ∨ s.staleShutdown = true → s.isShutdownDue = false))
  | .onShutdownCompleted (some ec) =>
    s.staleHandshake = true → s.originalException.isNone = true → ec ≠ .eof →
      isExpectedSocketException true ec = true →
      isExpectedSslErrorCode ec = true ∨ cfg.isExpectedException s.cancelRequested ec = true
  | .onStaleProtocolTimer => s.state = .running → s.cancelRequested = true
  | .createSocket => s.log.operationsCanceled = false → s.isSecured = false
  | _ => True

instance (cfg : Config ε) (s : State ε) (l : Label ε) : Decidable (Undisturbed cfg s l) :=
  match l with
  | .scheduleNothrow _ => inferInstanceAs (Decidable (_ → _ ∧ _))
  | .notifyReady => inferInstanceAs (Decidable (_ ∧ _))
  | .onShutdownCompleted (some _) => inferInstanceAs (Decidable (_ → _ → _ → _ → _ ∨ _))
  | .onShutdownCompleted none => isTrue trivial
  | .onStaleProtocolTimer => inferInstanceAs (Decidable (_ → _))
  | .createSocket => inferInstanceAs (Decidable (_ → _))
  | .attachStream _ | .detachStream | .isCloseStreamOnTaskFinish _ | .beginProtocolHandshake
  | .onHandshakeCompleted _ _ | .operationCompleted _ | .retry | .setCompletedState
  | .requestCancel | .expire | .onProtocolTimer => isTrue trivial

/-! ## The invariant -/

/-- A stream while the operation is in flight. -/
structure Stream.During (operation : Option Operation) (stream : Stream) : Prop where
  shutdowns : stream.shutdowns =
    if operation = some .shutdown then 1 else stream.wasShutdownInvoked.toNat
  secured : stream.wasShutdownInvoked = true → stream.hasHandshakeCompletedSuccessfully = true
  handshake : operation = some .handshake → stream.wasShutdownInvoked = false
  shutdown : operation = some .shutdown →
    stream.hasHandshakeCompletedSuccessfully = true ∧ stream.wasShutdownInvoked = false

structure Inv (s : State ε) : Prop where
  force : s.log.operationsCanceled = true → s.wasSocketShutdownForcefully = true
  shutdown : s.log.scheduledForShutdown = true → s.scheduledForShutdown = true
  handshake : s.log.handshakeCompleted = true → s.isHandshakeCompleted = true
  scheduled : s.operation = some .shutdown → s.log.scheduledForShutdown = true
  operation : s.operation ≠ none → s.state = .running ∧ s.notification = none
  notification : s.notification ≠ none → s.state = .running
  timer : s.protocolTimer = true → s.state = .running
  created : s.state = .created → s.exception = none ∧ s.notifyCalled = false
  stream : ∀ stream, s.sslStream = some stream → stream.During s.operation

theorem inv_create : Inv (State.create : State ε) where
  force := nofun
  shutdown := nofun
  handshake := nofun
  scheduled := nofun
  operation := fun h => absurd rfl h
  notification := fun h => absurd rfl h
  timer := nofun
  created := fun _ => ⟨rfl, rfl⟩
  stream := nofun

theorem Inv.operation_eq_none (h : Inv s) {n : Notification ε} (hn : s.notification = some n) :
    s.operation = none := by
  by_contra hoperation
  rw [(h.operation hoperation).2] at hn
  cases hn

theorem Inv.idle (h : Inv s) (hs : s.state ≠ .running) :
    s.operation = none ∧ s.notification = none ∧ s.protocolTimer = false := by
  refine ⟨?_, ?_, ?_⟩
  · by_contra hoperation
    exact hs (h.operation hoperation).1
  · by_contra hnotification
    exact hs (h.notification hnotification)
  · by_contra htimer
    exact hs (h.timer (by simpa using htimer))

theorem Stream.Settled.during {stream : Stream} (h : stream.Settled) : stream.During none where
  shutdowns := by simpa using h.1
  secured := h.2
  handshake := nofun
  shutdown := nofun

theorem Inv.requestCancelInternal (h : Inv s) : Inv (requestCancelInternal s) := by
  rw [TcpSslSocket.requestCancelInternal]
  split
  · exact h
  split
  · rw [cancelTask]
    split
    · exact { h with force := fun _ => rfl }
    · exact { h with }
  · exact { h with }

theorem Inv.onProtocolTimer (h : Inv s) : Inv (onProtocolTimer s) := by
  rw [TcpSslSocket.onProtocolTimer]
  split
  · exact h.requestCancelInternal
  · exact h

theorem Inv.scheduleProtocolTimer (h : Inv s) (hs : s.state = .running) :
    Inv (scheduleProtocolTimer cfg s) := by
  rw [TcpSslSocket.scheduleProtocolTimer]
  split
  · exact { h with timer := fun _ => hs }
  · exact h

theorem Inv.beginProtocolHandshake (h : Inv s) (hs : s.state = .running)
    (hnotification : s.notification = none) (hoperation : s.operation ≠ some .shutdown)
    (hhandshake : s.hasHandshakeCompletedSuccessfully = false) :
    Inv (beginProtocolHandshake s) :=
  { h with
    scheduled := nofun
    operation := fun _ => ⟨hs, hnotification⟩
    stream := by
      intro stream hstream
      obtain ⟨before, hbefore, rfl⟩ := map_eq_some_iff.mp hstream
      have hduring := h.stream before hbefore
      rw [State.hasHandshakeCompletedSuccessfully, hbefore, Option.any_some] at hhandshake
      have hinvoked : before.wasShutdownInvoked = false := by
        by_contra hinvoked
        simp [hduring.secured (by simpa using hinvoked)] at hhandshake
      refine ⟨?_, nofun, fun _ => rfl, nofun⟩
      have hshutdowns := hduring.shutdowns
      rw [if_neg hoperation, hinvoked] at hshutdowns
      simpa [TcpSslSocket.beginProtocolHandshake] using hshutdowns }

theorem State.isSecured_iff : s.isSecured = true ↔ ∃ stream, s.sslStream = some stream ∧
    stream.hasHandshakeCompletedSuccessfully = true ∧ stream.wasShutdownInvoked = false := by
  rw [State.isSecured, State.hasHandshakeCompletedSuccessfully, State.wasShutdownInvoked]
  cases s.sslStream <;> simp

theorem Inv.beginProtocolShutdown (h : Inv s) (hs : s.state = .running)
    (hnotification : s.notification = none) (hoperation : s.operation = none)
    (hsecured : s.isSecured = true) (eptrIn : Option ε) : Inv (beginProtocolShutdown eptrIn s) :=
  { h with
    shutdown := fun _ => rfl
    scheduled := fun _ => rfl
    operation := fun _ => ⟨hs, hnotification⟩
    stream := by
      intro stream hstream
      obtain ⟨before, hbefore, rfl⟩ := map_eq_some_iff.mp hstream
      obtain ⟨_, hsome, hhandshake, hinvoked⟩ := State.isSecured_iff.mp hsecured
      obtain rfl := Option.some.inj (hbefore.symm.trans hsome)
      have hshutdowns := (h.stream before hbefore).shutdowns
      rw [hoperation, hinvoked] at hshutdowns
      refine ⟨?_, fun _ => hhandshake, fun _ => hinvoked, fun _ => ⟨hhandshake, hinvoked⟩⟩
      simpa [TcpSslSocket.beginProtocolShutdown] using hshutdowns }

theorem Inv.notify (h : Inv s) (hs : s.state = .running) (hoperation : s.operation ≠ some .shutdown)
    (eptr : Option ε) : Inv (s.notify eptr) :=
  { h with
    scheduled := nofun
    operation := fun h => absurd rfl h
    notification := fun _ => hs
    stream := by
      intro stream hstream
      have hduring := h.stream stream hstream
      refine ⟨?_, hduring.secured, nofun, nofun⟩
      rw [hduring.shutdowns, if_neg hoperation]
      exact (if_neg nofun).symm }

theorem Inv.closeStream (h : Inv s) : Inv s.closeStream :=
  { h with }

theorem Inv.complete (h : Inv s) (hoperation : s.operation = none)
    (hnotification : s.notification = none) (eptr : Option ε) : Inv (complete cfg eptr s) := by
  have hstopped : Inv (onTaskStoppedNothrow cfg eptr s).1 ∧
      (onTaskStoppedNothrow cfg eptr s).1.operation = none ∧
      (onTaskStoppedNothrow cfg eptr s).1.notification = none ∧
      (onTaskStoppedNothrow cfg eptr s).1.protocolTimer = false := by
    have hinv : Inv { s with protocolTimer := false } := { h with timer := fun h => by cases h }
    rw [onTaskStoppedNothrow]
    split <;> split
    · exact ⟨hinv.closeStream, hoperation, hnotification, rfl⟩
    · exact ⟨hinv, hoperation, hnotification, rfl⟩
    · exact ⟨hinv.closeStream, hoperation, hnotification, rfl⟩
    · exact ⟨hinv, hoperation, hnotification, rfl⟩
  obtain ⟨hinv, hoperation, hnotification, htimer⟩ := hstopped
  rw [TcpSslSocket.complete]
  split
  · exact hinv
  · exact { hinv with
      operation := fun h => absurd hoperation h
      notification := fun h => absurd hnotification h
      timer := fun h => by cases htimer.symm.trans h
      created := fun h => by cases h }

def State.isShutdownCompletedOrNotNeeded (s : State ε) : Bool :=
  s.wasSocketShutdownForcefully || s.scheduledForShutdown || !s.isCloseStreamOnTaskFinish ||
    !s.isShutdownNeeded

theorem scheduleTaskFinishContinuation_eq (cfg : Config ε) (eptr : Option ε) (s : State ε) :
    scheduleTaskFinishContinuation cfg eptr s =
      if s.isShutdownCompletedOrNotNeeded then
        if s.scheduledForShutdown then .inr s.originalException else .inr none
      else .inl (beginProtocolShutdown eptr (scheduleProtocolTimer cfg s)) := rfl

/-- What the finish continuation goes on with, and when. -/
theorem scheduleTaskFinishContinuation_cases (cfg : Config ε) (eptr : Option ε) (s : State ε) :
    (s.isSecured = true ∧ scheduleTaskFinishContinuation cfg eptr s =
        .inl (beginProtocolShutdown eptr (scheduleProtocolTimer cfg s))) ∨
      s.isShutdownCompletedOrNotNeeded = true ∧
        ∃ thrown, scheduleTaskFinishContinuation cfg eptr s = .inr thrown := by
  rw [scheduleTaskFinishContinuation_eq]
  by_cases hcompleted : s.isShutdownCompletedOrNotNeeded = true
  · rw [if_pos hcompleted]
    refine .inr ⟨hcompleted, ?_⟩
    split <;> exact ⟨_, rfl⟩
  · rw [if_neg hcompleted]
    refine .inl ⟨?_, rfl⟩
    rw [State.isShutdownCompletedOrNotNeeded, State.isShutdownNeeded, ← State.isSecured] at hcompleted
    simp only [Bool.not_eq_true, Bool.or_eq_false_iff, Bool.not_eq_false', Bool.and_eq_true]
      at hcompleted
    exact hcompleted.2.2

theorem scheduleProtocolTimer_eq (cfg : Config ε) (s : State ε) : scheduleProtocolTimer cfg s =
    { s with protocolTimer := cfg.hasProtocolTimeout || s.protocolTimer } := by
  rw [scheduleProtocolTimer]
  cases cfg.hasProtocolTimeout <;> rfl

theorem Inv.begin_shutdown (h : Inv s) (hs : s.state = .running) (hoperation : s.operation = none)
    (hnotification : s.notification = none) (hsecured : s.isSecured = true) (eptr : Option ε) :
    Inv (TcpSslSocket.beginProtocolShutdown eptr (TcpSslSocket.scheduleProtocolTimer cfg s)) := by
  have hinv : Inv (TcpSslSocket.scheduleProtocolTimer cfg s) := h.scheduleProtocolTimer hs
  rw [scheduleProtocolTimer_eq] at hinv ⊢
  exact hinv.beginProtocolShutdown hs hnotification hoperation hsecured eptr

theorem Inv.without_notification (h : Inv s) : Inv { s with notification := none } :=
  { h with
    operation := fun hoperation => ⟨(h.operation hoperation).1, rfl⟩
    notification := fun hnone => absurd rfl hnone }

theorem Inv.notifyReadyImpl (h : Inv s) {n : Notification ε} (hn : s.notification = some n) :
    Inv (notifyReadyImpl cfg n { s with notification := none }) := by
  have hoperation := h.operation_eq_none hn
  have hs := h.notification (by rw [hn]; exact Option.some_ne_none n)
  have hinv := h.without_notification
  rw [TcpSslSocket.notifyReadyImpl]
  split
  · obtain ⟨hsecured, hcontinued⟩ | ⟨-, thrown, hthrown⟩ :=
      scheduleTaskFinishContinuation_cases cfg n.eptr { s with notification := none }
    · rw [hcontinued]
      exact hinv.begin_shutdown hs hoperation rfl hsecured n.eptr
    · rw [hthrown]
      cases thrown with
      | none => exact hinv.complete hoperation rfl n.eptr
      | some eptr =>
        refine Inv.complete (s := { s with notification := none, exception := some eptr }) ?_
          hoperation rfl (some eptr)
        exact { hinv with created := fun h => by cases hs.symm.trans h }
  · exact hinv.complete hoperation rfl n.eptr

/-- The state a run begins in, before anything of it is scheduled. -/
def State.restarted (s : State ε) : State ε :=
  let s := if s.state = .created then s
    else { s with exception := none, notifyCalled := false, cancelRequested := false }
  { s with
    state := .running
    timerHandlers := 0
    staleTimerHandlers := s.staleTimerHandlers + s.timerHandlers
    log := .empty }

theorem scheduleNothrow_eq (cfg : Config ε) (what : ScheduleTask ε) (s : State ε) :
    scheduleNothrow cfg what s =
      let scheduled :=
        if s.restarted.cancelRequested then
          (s.restarted, some (cfg.systemException .operationAborted))
        else scheduleTask cfg s.restarted what
      { scheduled.1 with notification := scheduled.2.map fun eptr => ⟨false, some eptr⟩ } := rfl

theorem Inv.restarted (h : Inv s) (hs : s.state ≠ .running) : Inv s.restarted := by
  obtain ⟨hoperation, hnotification, htimer⟩ := h.idle hs
  rw [State.restarted]
  split <;> exact { h with
    force := nofun
    shutdown := nofun
    handshake := nofun
    scheduled := fun h => (by cases hoperation.symm.trans h)
    operation := fun h => absurd hoperation h
    notification := fun h => absurd hnotification h
    timer := fun _ => rfl
    created := nofun }

theorem State.restarted_fields (s : State ε) : s.restarted.operation = s.operation ∧
    s.restarted.notification = s.notification ∧ s.restarted.state = .running := by
  rw [State.restarted]
  split <;> exact ⟨rfl, rfl, rfl⟩

theorem isSecured_restarted (s : State ε) : s.restarted.isSecured = s.isSecured := by
  rw [State.restarted]
  split <;> rfl

theorem wasSocketShutdownForcefully_restarted (s : State ε) :
    s.restarted.wasSocketShutdownForcefully = s.wasSocketShutdownForcefully := by
  rw [State.restarted]
  split <;> rfl

theorem isShutdownNeeded_eq (s : State ε) :
    s.isShutdownNeeded = (!s.wasSocketShutdownForcefully && s.isSecured) := rfl

/-- Either an operation of the run is in flight, or its failure is posted. -/
theorem Inv.scheduleNothrow (h : Inv s) (hs : s.state ≠ .running) (what : ScheduleTask ε) :
    Inv (scheduleNothrow cfg what s) := by
  have hinv := h.restarted hs
  obtain ⟨hoperation, hnotification, -⟩ := h.idle hs
  obtain ⟨hrestarted, hrestarted', hrunning⟩ := s.restarted_fields
  rw [hoperation] at hrestarted
  rw [hnotification] at hrestarted'
  rw [scheduleNothrow_eq]
  split
  · exact { hinv with
      operation := fun h => absurd hrestarted h
      notification := fun _ => rfl }
  cases what with
  | throws eptr =>
    exact { hinv with
      operation := fun h => absurd hrestarted h
      notification := fun _ => rfl }
  | derived =>
    exact { hinv with
      scheduled := nofun
      operation := fun _ => ⟨rfl, rfl⟩
      notification := fun _ => rfl
      stream := by
        intro stream hstream
        have hduring := hinv.stream stream hstream
        rw [hrestarted] at hduring
        exact { hduring with
          handshake := nofun
          shutdown := nofun } }
  | protocolOperations =>
    rw [scheduleTask, scheduleProtocolOperations]
    split
    · rename_i hhandshake
      have htimer : Inv (TcpSslSocket.scheduleProtocolTimer cfg s.restarted) :=
        hinv.scheduleProtocolTimer hrunning
      rw [scheduleProtocolTimer_eq] at htimer ⊢
      refine (htimer.beginProtocolHandshake hrunning hrestarted' ?_ ?_).without_notification
      · exact fun h => by cases hrestarted.symm.trans h
      · exact Bool.not_eq_true' _ ▸ hhandshake
    split
    · rename_i hneeded
      refine (hinv.begin_shutdown hrunning hrestarted hrestarted' ?_ none).without_notification
      rw [State.isShutdownNeeded, ← State.isSecured] at hneeded
      simp only [Bool.and_eq_true] at hneeded
      exact hneeded.1.2
    · exact { hinv with
        operation := fun h => absurd hrestarted h
        notification := fun _ => rfl }

theorem Inv.onHandshakeCompleted (h : Inv s) (hoperation : s.operation = some .handshake)
    (ec : Option ErrorCode) (continueCallback : ContinueCallback ε) :
    Inv (onHandshakeCompleted cfg continueCallback
      { s with sslStream := s.sslStream.map (onHandshakeInternal ec) } ec) := by
  have hne : s.operation ≠ some .shutdown := by
    rw [hoperation]
    decide
  obtain ⟨hs, hnotification⟩ := h.operation (by rw [hoperation]; decide)
  have hinv : Inv { s with sslStream := s.sslStream.map (onHandshakeInternal ec) } :=
    { h with
      stream := by
        intro stream hstream
        obtain ⟨before, hbefore, rfl⟩ := map_eq_some_iff.mp hstream
        have hduring := h.stream before hbefore
        refine ⟨hduring.shutdowns, fun hinvoked => ?_, hduring.handshake, fun h => absurd h hne⟩
        cases (hduring.handshake hoperation).symm.trans hinvoked }
  rw [TcpSslSocket.onHandshakeCompleted.eq_def]
  cases ec with
  | some ec => exact hinv.notify hs hne _
  | none =>
    dsimp only
    split
    · exact hinv.notify hs hne _
    · have hcompleted := { hinv with handshake := fun _ => rfl : Inv { s with
        sslStream := s.sslStream.map (onHandshakeInternal none)
        isHandshakeCompleted := true
        log := { s.log with handshakeCompleted := true } } }
      cases continueCallback with
      | finishes | throws _ => exact hcompleted.notify hs hne _
      | continues =>
        exact { hcompleted with
          scheduled := nofun
          operation := fun _ => ⟨hs, hnotification⟩
          stream := by
            intro stream hstream
            have hduring := hcompleted.stream stream hstream
            refine ⟨?_, hduring.secured, nofun, nofun⟩
            rw [hduring.shutdowns]
            exact (if_neg hne).trans (if_neg nofun).symm }

theorem Inv.onShutdownCompleted (h : Inv s) (hoperation : s.operation = some .shutdown)
    (ec : Option ErrorCode) :
    Inv (onShutdownCompleted cfg { s with sslStream := s.sslStream.map onShutdownInternal } ec) := by
  obtain ⟨hs, hnotification⟩ := h.operation (by rw [hoperation]; decide)
  have hinv : ∀ eptr, Inv (State.notify eptr
      { s with sslStream := s.sslStream.map onShutdownInternal }) := by
    intro eptr
    exact { h with
      scheduled := nofun
      operation := fun h => absurd rfl h
      notification := fun _ => hs
      stream := by
        intro stream hstream
        obtain ⟨before, hbefore, rfl⟩ := map_eq_some_iff.mp hstream
        have hduring := h.stream before hbefore
        refine ⟨?_, fun _ => (hduring.shutdown hoperation).1, nofun,
          nofun⟩
        exact hduring.shutdowns.trans (if_pos hoperation) }
  rw [TcpSslSocket.onShutdownCompleted.eq_def]
  cases ec with
  | none => exact hinv _
  | some ec =>
    dsimp only
    split <;> exact hinv _

theorem step_retry_iff : step cfg s .retry = some s' ↔
    (∃ eptr, s.notification = some ⟨true, some eptr⟩) ∧
      ¬(s.sslStream = none ∨ s.hasHandshakeCompletedSuccessfully = true) ∧
      { resetStreamState s with operation := some .derived, notification := none } = s' := by
  rw [step.eq_def]
  constructor
  · intro hstep
    dsimp only at hstep
    split at hstep
    · rename_i eptr hn
      obtain ⟨hcond, hs'⟩ := ite_none_left_eq_some.mp hstep
      exact ⟨⟨eptr, hn⟩, hcond, Option.some.inj hs'⟩
    · cases hstep
  · rintro ⟨⟨eptr, hn⟩, hcond, rfl⟩
    simp only [hn, if_neg hcond]

theorem Inv.step (h : Inv s) (hstep : step cfg s l = some s') : Inv s' := by
  cases l with
  | attachStream stream =>
    obtain ⟨hcond, rfl⟩ := ite_none_some_eq_some.mp hstep
    rw [not_or, not_not] at hcond
    exact { h with
      stream := by
        intro stream' hstream
        cases hstream
        have hduring := hcond.2.during
        rw [← (h.idle hcond.1).1] at hduring
        exact hduring }
  | detachStream =>
    obtain ⟨-, rfl⟩ := ite_none_some_eq_some.mp hstep
    exact { h with stream := fun _ h => by cases h }
  | isCloseStreamOnTaskFinish value =>
    obtain ⟨-, rfl⟩ := ite_none_some_eq_some.mp hstep
    exact { h with }
  | scheduleNothrow what =>
    obtain ⟨hs, hs'⟩ := ite_none_left_eq_some.mp hstep
    cases what with
    | protocolOperations =>
      obtain ⟨-, rfl⟩ := ite_none_some_eq_some.mp hs'
      exact h.scheduleNothrow hs _
    | derived | throws _ =>
      cases hs'
      exact h.scheduleNothrow hs _
  | createSocket =>
    obtain ⟨hoperation, rfl⟩ := ite_some_none_eq_some.mp hstep
    exact { h.closeStream with
      stream := by
        intro stream hstream
        cases hstream
        refine ⟨?_, nofun, fun _ => rfl, fun h => ?_⟩
        · rw [if_neg]
          · rfl
          · exact fun h => by cases hoperation.symm.trans h
        · cases hoperation.symm.trans h }
  | beginProtocolHandshake =>
    obtain ⟨⟨hoperation, -, -, hhandshake⟩, rfl⟩ := ite_some_none_eq_some.mp hstep
    obtain ⟨hs, hnotification⟩ := h.operation (by rw [hoperation]; decide)
    exact h.beginProtocolHandshake hs hnotification (by rw [hoperation]; decide) hhandshake
  | onHandshakeCompleted ec continueCallback =>
    obtain ⟨hoperation, rfl⟩ := ite_some_none_eq_some.mp hstep
    exact h.onHandshakeCompleted hoperation ec continueCallback
  | onShutdownCompleted ec =>
    obtain ⟨hoperation, rfl⟩ := ite_some_none_eq_some.mp hstep
    exact h.onShutdownCompleted hoperation ec
  | operationCompleted eptr =>
    obtain ⟨hoperation, rfl⟩ := ite_some_none_eq_some.mp hstep
    obtain ⟨hs, -⟩ := h.operation (by rw [hoperation]; decide)
    exact h.notify hs (by rw [hoperation]; decide) eptr
  | notifyReady =>
    obtain ⟨n, hn, rfl⟩ := map_eq_some_iff.mp hstep
    exact h.notifyReadyImpl hn
  | retry =>
    obtain ⟨⟨eptr, hn⟩, -, rfl⟩ := step_retry_iff.mp hstep
    exact { h with
      shutdown := nofun
      scheduled := nofun
      operation := fun _ => ⟨h.notification (by rw [hn]; exact Option.some_ne_none _), rfl⟩
      notification := fun h => absurd rfl h
      stream := nofun }
  | setCompletedState =>
    obtain ⟨hs, rfl⟩ := ite_some_none_eq_some.mp hstep
    obtain ⟨hoperation, hnotification, htimer⟩ := h.idle (by rw [hs]; decide)
    exact { h with
      operation := fun h => absurd hoperation h
      notification := fun h => absurd hnotification h
      timer := fun h => (by cases htimer.symm.trans h)
      created := nofun }
  | requestCancel =>
    cases hstep
    exact h.requestCancelInternal
  | expire =>
    obtain ⟨-, rfl⟩ := ite_some_none_eq_some.mp hstep
    exact { h with timer := nofun }
  | onProtocolTimer | onStaleProtocolTimer =>
    obtain ⟨-, rfl⟩ := ite_none_some_eq_some.mp hstep
    exact Inv.onProtocolTimer { h with }

/-! ## One step of the run alone -/

theorem own_cancelTask (s : State ε) : cancelTask s.own = (cancelTask s).own := by
  rw [cancelTask, cancelTask, apply_ite State.own]
  rfl

theorem own_requestCancelInternal (s : State ε) :
    requestCancelInternal s.own = (requestCancelInternal s).own := by
  rw [requestCancelInternal, requestCancelInternal, apply_ite State.own, apply_ite State.own,
    ← own_cancelTask]
  rfl

theorem own_onProtocolTimer (s : State ε) : onProtocolTimer s.own = (onProtocolTimer s).own := by
  rw [onProtocolTimer, onProtocolTimer, apply_ite State.own, ← own_requestCancelInternal]
  rfl

theorem own_onHandshakeCompleted (continueCallback : ContinueCallback ε)
    (ec : Option ErrorCode) (s : State ε) :
    onHandshakeCompleted cfg continueCallback s.own ec =
      (onHandshakeCompleted cfg continueCallback s ec).own := by
  cases ec with
  | some ec => rfl
  | none =>
    rw [onHandshakeCompleted, onHandshakeCompleted, apply_ite State.own]
    cases continueCallback <;> rfl

theorem own_onTaskStoppedNothrow
    (haborted : s.log.operationsCanceled = true → s.wasSocketShutdownForcefully = true)
    (hforce : s.staleForce = true → s.cancelRequested = false) (eptr : Option ε) :
    onTaskStoppedNothrow cfg eptr s.own =
      ((onTaskStoppedNothrow cfg eptr s).1.own, (onTaskStoppedNothrow cfg eptr s).2) := by
  have haborted : (s.cancelRequested && s.log.operationsCanceled) =
      (s.cancelRequested && s.wasSocketShutdownForcefully) := by
    have htable : ∀ canceled forced aborted : Bool, (aborted = true → forced = true) →
        ((forced && !aborted) = true → canceled = false) →
        (canceled && aborted) = (canceled && forced) := by decide
    exact htable _ _ _ haborted hforce
  have hown : (s.own.cancelRequested && s.own.wasSocketShutdownForcefully) =
      (s.cancelRequested && s.wasSocketShutdownForcefully) := haborted
  have hclose : s.own.isCloseStreamOnTaskFinish = s.isCloseStreamOnTaskFinish := rfl
  rw [onTaskStoppedNothrow, onTaskStoppedNothrow, hown, hclose]
  split <;> dsimp only <;> split <;> rfl

theorem own_complete
    (haborted : s.log.operationsCanceled = true → s.wasSocketShutdownForcefully = true)
    (hforce : s.staleForce = true → s.cancelRequested = false) (eptr : Option ε) :
    complete cfg eptr s.own = (complete cfg eptr s).own := by
  rw [complete, complete, own_onTaskStoppedNothrow haborted hforce, apply_ite State.own]
  rfl

theorem own_isShutdownCompletedOrNotNeeded (h : Inv s)
    (hdue : s.staleForce = true ∨ s.staleShutdown = true → s.isShutdownDue = false) :
    s.own.isShutdownCompletedOrNotNeeded = s.isShutdownCompletedOrNotNeeded := by
  have htable : ∀ forced aborted scheduled shutdown close secured : Bool,
      (aborted = true → forced = true) → (shutdown = true → scheduled = true) →
      ((forced && !aborted) = true ∨ (scheduled && !shutdown) = true →
        (close && (!aborted && secured)) = false) →
      (aborted || shutdown || !close || !(!aborted && secured)) =
        (forced || scheduled || !close || !(!forced && secured)) := by decide
  exact htable _ _ _ _ _ _ h.force h.shutdown hdue

/-- The finish continuation comes to the same, unless an earlier run has left a
reason not to shut the stream down, or an exception. -/
theorem own_scheduleTaskFinishContinuation (h : Inv s)
    (horiginal : s.staleShutdown = true → s.originalException.isNone = true)
    (hdue : s.staleForce = true ∨ s.staleShutdown = true → s.isShutdownDue = false)
    (eptr : Option ε) :
    scheduleTaskFinishContinuation cfg eptr s.own =
      (scheduleTaskFinishContinuation cfg eptr s).map State.own id := by
  have hneeded := own_isShutdownCompletedOrNotNeeded h hdue
  have hthrown : s.own.scheduledForShutdown = true ∧ s.scheduledForShutdown = true ∧
        s.own.originalException = s.originalException ∨
      s.own.scheduledForShutdown = false ∧
        (s.scheduledForShutdown = true → s.originalException = none) := by
    by_cases hshutdown : s.log.scheduledForShutdown
    · exact .inl ⟨hshutdown, h.shutdown hshutdown, if_pos hshutdown⟩
    · refine .inr ⟨Bool.eq_false_iff.mpr hshutdown, fun hscheduled => ?_⟩
      exact Option.isNone_iff_eq_none.mp (horiginal (by simp [State.staleShutdown, *]))
  rw [scheduleTaskFinishContinuation_eq, scheduleTaskFinishContinuation_eq]
  by_cases hcompleted : s.isShutdownCompletedOrNotNeeded = true
  · rw [if_pos hcompleted]
    refine (if_pos (hneeded.trans hcompleted)).trans ?_
    obtain ⟨hown, hscheduled, horiginal⟩ | ⟨hown, horiginal⟩ := hthrown
    · rw [if_pos hown, if_pos hscheduled, horiginal]
      rfl
    · rw [if_neg (by rw [hown]; decide)]
      split
      · rw [horiginal ‹_›]
        rfl
      · rfl
  · rw [if_neg hcompleted]
    refine (if_neg fun h => hcompleted (hneeded.symm.trans h)).trans ?_
    rw [scheduleProtocolTimer_eq, scheduleProtocolTimer_eq]
    rfl

theorem own_notifyReadyImpl (h : Inv s) (n : Notification ε)
    (hforce : s.staleForce = true → s.cancelRequested = false)
    (hallow : n.allowFinishContinuations = true →
      (s.staleShutdown = true → s.originalException.isNone = true) ∧
      (s.staleForce = true ∨ s.staleShutdown = true → s.isShutdownDue = false)) :
    notifyReadyImpl cfg n s.own = (notifyReadyImpl cfg n s).own := by
  rw [notifyReadyImpl, notifyReadyImpl]
  by_cases hfinish : n.allowFinishContinuations
  · obtain ⟨horiginal, hdue⟩ := hallow hfinish
    rw [if_pos hfinish, if_pos hfinish, own_scheduleTaskFinishContinuation h horiginal hdue]
    cases hfinished : scheduleTaskFinishContinuation cfg n.eptr s with
    | inl continued => rfl
    | inr thrown =>
      cases thrown with
      | none => exact own_complete h.force hforce n.eptr
      | some eptr =>
        exact own_complete (s := { s with exception := some eptr }) h.force hforce (some eptr)
  · rw [if_neg hfinish, if_neg hfinish]
    exact own_complete h.force hforce n.eptr

theorem own_onShutdownCompleted (hscheduled : s.log.scheduledForShutdown = true)
    (hhandshake : s.log.handshakeCompleted = true → s.isHandshakeCompleted = true)
    {ec : Option ErrorCode} (hc : Undisturbed cfg s (.onShutdownCompleted ec)) :
    onShutdownCompleted cfg s.own ec = (onShutdownCompleted cfg s ec).own := by
  cases ec with
  | none => rfl
  | some ec =>
    have horiginal : s.own.originalException = s.originalException := if_pos hscheduled
    have hexpected : ec ≠ .eof → s.originalException = none →
        isExpectedException cfg ec s.own = isExpectedException cfg ec s := by
      intro heof hnone
      have htable : ∀ handshake before ssl socket answer : Bool,
          (handshake = true → before = true) →
          ((before && !handshake) = true → socket = true → ssl = true ∨ answer = true) →
          (ssl || (!handshake && socket) || answer) = (ssl || (!before && socket) || answer) := by
        decide
      exact htable _ _ _ _ _ hhandshake fun hstale hsocket =>
        hc hstale (Option.isNone_iff_eq_none.mpr hnone) heof hsocket
    have hcond : (ec ≠ .eof ∧ isExpectedException cfg ec s.own = false ∧
          s.own.originalException = none) ↔
        ec ≠ .eof ∧ isExpectedException cfg ec s = false ∧ s.originalException = none := by
      rw [horiginal]
      constructor
      · rintro ⟨heof, hnot, hnone⟩
        exact ⟨heof, (hexpected heof hnone).symm.trans hnot, hnone⟩
      · rintro ⟨heof, hnot, hnone⟩
        exact ⟨heof, (hexpected heof hnone).trans hnot, hnone⟩
    rw [onShutdownCompleted, onShutdownCompleted]
    by_cases hthrows : ec ≠ .eof ∧ isExpectedException cfg ec s = false ∧
        s.originalException = none
    · rw [if_pos hthrows, if_pos (hcond.mpr hthrows)]
      rfl
    · rw [if_neg hthrows, if_neg fun h => hthrows (hcond.mp h)]
      rfl

theorem own_restarted (h : Inv s) (hs : s.state ≠ .running) :
    s.fresh.restarted = s.restarted.own := by
  obtain ⟨hoperation, hnotification, htimer⟩ := h.idle hs
  by_cases hcreated : s.state = .created
  · obtain ⟨hexception, hnotify⟩ := h.created hcreated
    simp [State.restarted, State.own, State.fresh, State.create, Log.empty, *]
  · simp [State.restarted, State.own, State.fresh, State.create, Log.empty, *]

theorem own_scheduleProtocolOperations (hforce : s.isSecured = true →
      s.log.operationsCanceled = false ∧ s.wasSocketShutdownForcefully = false) :
    scheduleProtocolOperations cfg s.own =
      ((scheduleProtocolOperations cfg s).1.own, (scheduleProtocolOperations cfg s).2) := by
  have hneeded : (s.own.isShutdownNeeded && !s.own.wasShutdownInvoked) =
      (s.isShutdownNeeded && !s.wasShutdownInvoked) := by
    have htable : ∀ aborted forced secured invoked : Bool,
        (secured = true → aborted = false ∧ forced = false) →
        (!aborted && secured && !invoked) = (!forced && secured && !invoked) := by decide
    exact htable _ _ _ _ hforce
  rw [scheduleProtocolOperations, scheduleProtocolOperations, scheduleProtocolTimer_eq,
    scheduleProtocolTimer_eq]
  by_cases hhandshake : (!s.hasHandshakeCompletedSuccessfully) = true
  · rw [if_pos hhandshake]
    exact if_pos hhandshake
  rw [if_neg hhandshake]
  refine (if_neg hhandshake).trans ?_
  by_cases hshutdown : (s.isShutdownNeeded && !s.wasShutdownInvoked) = true
  · rw [if_pos hshutdown]
    exact if_pos (hneeded.trans hshutdown)
  · rw [if_neg hshutdown]
    exact if_neg fun h => hshutdown (hneeded.symm.trans h)

/-- A new object is scheduled as this one is, once its earlier runs are
forgotten. -/
theorem own_scheduleNothrow (h : Inv s) (hs : s.state ≠ .running) {what : ScheduleTask ε}
    (hc : Undisturbed cfg s (.scheduleNothrow what)) :
    scheduleNothrow cfg what s.fresh = (scheduleNothrow cfg what s).own := by
  have hsecured := isSecured_restarted s
  have hforced := wasSocketShutdownForcefully_restarted s
  have hlog : s.restarted.log.operationsCanceled = false := rfl
  rw [scheduleNothrow_eq, scheduleNothrow_eq, own_restarted h hs]
  by_cases hcancel : s.restarted.cancelRequested
  · rw [if_pos hcancel, if_pos (show s.restarted.own.cancelRequested from hcancel)]
    rfl
  rw [if_neg hcancel, if_neg (show ¬s.restarted.own.cancelRequested from hcancel)]
  cases what with
  | derived => rfl
  | throws eptr => rfl
  | protocolOperations =>
    rw [scheduleTask, scheduleTask, own_scheduleProtocolOperations]
    · rfl
    · intro hsec
      rw [hsecured] at hsec
      exact ⟨hlog, hforced.trans ((hc hsec).2 rfl)⟩

/-- A step of the run does the same to the run alone. -/
theorem own_step (h : Inv s) (hc : Undisturbed cfg s l) (hschedule : l.isSchedule = false)
    (hown : l.isOwn = true) (hstep : step cfg s l = some s') : step cfg s.own l = some s'.own := by
  cases l with
  | attachStream _ | detachStream | isCloseStreamOnTaskFinish _ =>
    obtain ⟨hcond, rfl⟩ := ite_none_some_eq_some.mp hstep
    exact if_neg hcond
  | scheduleNothrow what => cases hschedule
  | createSocket | beginProtocolHandshake | operationCompleted _ | setCompletedState | expire =>
    obtain ⟨hcond, rfl⟩ := ite_some_none_eq_some.mp hstep
    exact if_pos hcond
  | onHandshakeCompleted ec continueCallback =>
    obtain ⟨hcond, rfl⟩ := ite_some_none_eq_some.mp hstep
    rw [← own_onHandshakeCompleted]
    exact if_pos hcond
  | onShutdownCompleted ec =>
    obtain ⟨hcond, rfl⟩ := ite_some_none_eq_some.mp hstep
    have hc' : Undisturbed cfg { s with sslStream := s.sslStream.map onShutdownInternal }
        (.onShutdownCompleted ec) := by
      cases ec with
      | none => exact hc
      | some ec => exact hc
    have hsame := own_onShutdownCompleted
      (s := { s with sslStream := s.sslStream.map onShutdownInternal })
      (h.scheduled hcond) h.handshake hc'
    rw [← hsame]
    exact if_pos hcond
  | notifyReady =>
    obtain ⟨n, hn, rfl⟩ := map_eq_some_iff.mp hstep
    obtain ⟨hforce, hallow⟩ := hc
    rw [hn, Option.any_some] at hallow
    rw [← own_notifyReadyImpl h.without_notification n hforce hallow]
    exact map_eq_some_iff.mpr ⟨n, hn, rfl⟩
  | retry =>
    obtain ⟨hn, hcond, rfl⟩ := step_retry_iff.mp hstep
    exact step_retry_iff.mpr ⟨hn, hcond, rfl⟩
  | requestCancel =>
    cases hstep
    exact congrArg some (own_requestCancelInternal s)
  | onProtocolTimer =>
    obtain ⟨hcond, rfl⟩ := ite_none_some_eq_some.mp hstep
    rw [← own_onProtocolTimer]
    exact if_neg hcond
  | onStaleProtocolTimer => cases hown

/-- The run alone does not see the handler an earlier run has left. -/
theorem own_of_stale (hc : Undisturbed cfg s .onStaleProtocolTimer)
    (hstep : step cfg s .onStaleProtocolTimer = some s') : s'.own = s.own := by
  obtain ⟨-, rfl⟩ := ite_none_some_eq_some.mp hstep
  rw [onProtocolTimer]
  split
  · rename_i hs
    rw [requestCancelInternal, if_pos (hc hs)]
    rfl
  · rfl

theorem run_own {labels : List (Label ε)} : ∀ {s : State ε}, Inv s →
    (∀ l ∈ labels, l.isSchedule = false) → Along (step cfg) (Undisturbed cfg) s labels →
    run (step cfg) s labels = some s' →
    run (step cfg) s.own (labels.filter Label.isOwn) = some s'.own := by
  induction labels with
  | nil =>
    intro s _ _ _ hrun
    cases hrun
    rfl
  | cons l labels ih =>
    intro s h hlabels hc hrun
    obtain ⟨m, hm, hrun⟩ := run_cons_eq_some.mp hrun
    have hrest := ih (h.step hm) (fun l' hl' => hlabels l' (List.mem_cons_of_mem _ hl'))
      (hc.2 m hm) hrun
    by_cases hown : l.isOwn = true
    · rw [List.filter_cons_of_pos hown]
      refine run_cons_eq_some.mpr ⟨m.own, ?_, hrest⟩
      exact own_step h hc.1 (hlabels l List.mem_cons_self) hown hm
    · rw [List.filter_cons_of_neg hown]
      have hstale : l = .onStaleProtocolTimer := by
        cases l with
        | onStaleProtocolTimer => rfl
        | _ => exact absurd rfl hown
      subst hstale
      rwa [← own_of_stale hc.1 hm]

/-! ## The streams a run closes -/

/-- `closed` and `posted` are what the condition on a schedule is for. -/
structure Orderly (s : State ε) : Prop where
  closed : ∀ stream ∈ s.log.closed,
    stream.hasHandshakeCompletedSuccessfully = true → stream.shutdowns = 1
  posted : ∀ n, s.notification = some n → n.allowFinishContinuations = false →
    s.isShutdownDue = false
  shutdown : s.log.scheduledForShutdown = true → s.state = .running →
    s.operation ≠ some .derived ∧ s.operation ≠ some .handshake ∧
      ∀ stream, s.sslStream = some stream → stream.shutdowns = 1

theorem Orderly.requestCancelInternal (h : Orderly s) : Orderly (requestCancelInternal s) := by
  rw [TcpSslSocket.requestCancelInternal]
  split
  · exact h
  split
  · rw [cancelTask]
    split
    · exact { h with posted := fun _ _ _ => by simp [State.isShutdownDue] }
    · exact { h with }
  · exact { h with }

theorem Orderly.onProtocolTimer (h : Orderly s) : Orderly (onProtocolTimer s) := by
  rw [TcpSslSocket.onProtocolTimer]
  split
  · exact h.requestCancelInternal
  · exact h

theorem onShutdownCompleted_eq (cfg : Config ε) (s : State ε) (ec : Option ErrorCode) :
    ∃ eptr, onShutdownCompleted cfg s ec = s.notify eptr := by
  rw [onShutdownCompleted.eq_def]
  cases ec with
  | none => exact ⟨_, rfl⟩
  | some ec =>
    dsimp only
    split <;> exact ⟨_, rfl⟩

theorem onHandshakeCompleted_eq (cfg : Config ε) (continueCallback : ContinueCallback ε)
    (s : State ε) (ec : Option ErrorCode) : ∃ handshakeCompleted isHandshakeCompleted,
      let t := { s with
        isHandshakeCompleted := isHandshakeCompleted
        log := { s.log with handshakeCompleted := handshakeCompleted } }
      onHandshakeCompleted cfg continueCallback s ec = { t with operation := some .derived } ∨
        ∃ eptr, onHandshakeCompleted cfg continueCallback s ec = t.notify eptr := by
  rw [onHandshakeCompleted.eq_def]
  cases ec with
  | some ec => exact ⟨s.log.handshakeCompleted, s.isHandshakeCompleted, .inr ⟨_, rfl⟩⟩
  | none =>
    dsimp only
    split
    · exact ⟨s.log.handshakeCompleted, s.isHandshakeCompleted, .inr ⟨_, rfl⟩⟩
    · refine ⟨true, true, ?_⟩
      cases continueCallback with
      | continues => exact .inl rfl
      | finishes | throws _ => exact .inr ⟨_, rfl⟩

/-- A stream which is not secured and has completed a handshake was shut down
once. -/
theorem Inv.shutdowns_eq_one (h : Inv s) {stream : Stream} (hstream : s.sslStream = some stream)
    (hoperation : s.operation ≠ some .shutdown) (hsecured : s.isSecured = false)
    (hhandshake : stream.hasHandshakeCompletedSuccessfully = true) : stream.shutdowns = 1 := by
  have hinvoked : stream.wasShutdownInvoked = true := by
    by_contra hinvoked
    rw [Bool.eq_false_iff] at hsecured
    exact hsecured (State.isSecured_iff.mpr ⟨stream, hstream, hhandshake, by simpa using hinvoked⟩)
  rw [(h.stream stream hstream).shutdowns, if_neg hoperation, hinvoked]
  rfl

theorem mem_closed_closeStream {stream : Stream} (hstream : stream ∈ s.closeStream.log.closed) :
    stream ∈ s.log.closed ∨ s.log.operationsCanceled = false ∧ s.sslStream = some stream := by
  obtain hclosed | hnew := List.mem_append.mp hstream
  · exact .inl hclosed
  · by_cases hcancel : s.log.operationsCanceled
    · simp [if_pos hcancel] at hnew
    · rw [if_neg hcancel, Option.mem_toList] at hnew
      exact .inr ⟨Bool.eq_false_iff.mpr hcancel, hnew⟩

/-- A run closes its stream at its end at most, and is not touched otherwise. -/
theorem complete_log (cfg : Config ε) (eptr : Option ε) (s : State ε) :
    ((complete cfg eptr s).log = s.log ∨
        s.isCloseStreamOnTaskFinish = true ∧ (complete cfg eptr s).log = s.closeStream.log) ∧
      (complete cfg eptr s).operation = s.operation ∧
      (complete cfg eptr s).notification = s.notification ∧
      (complete cfg eptr s).sslStream = s.sslStream := by
  have hstopped : ((onTaskStoppedNothrow cfg eptr s).1.log = s.log ∨
        s.isCloseStreamOnTaskFinish = true ∧
          (onTaskStoppedNothrow cfg eptr s).1.log = s.closeStream.log) ∧
      (onTaskStoppedNothrow cfg eptr s).1.operation = s.operation ∧
      (onTaskStoppedNothrow cfg eptr s).1.notification = s.notification ∧
      (onTaskStoppedNothrow cfg eptr s).1.sslStream = s.sslStream := by
    rw [onTaskStoppedNothrow]
    by_cases hclose : s.isCloseStreamOnTaskFinish
    · rw [if_pos hclose]
      split <;> exact ⟨.inr ⟨hclose, rfl⟩, rfl, rfl, rfl⟩
    · rw [if_neg hclose]
      split <;> exact ⟨.inl rfl, rfl, rfl, rfl⟩
  rw [complete]
  split <;> exact hstopped

theorem Orderly.complete (h : Orderly s) (hs : s.state = .running)
    (hnotification : s.notification = none)
    (hclose : s.isCloseStreamOnTaskFinish = true → s.log.operationsCanceled = false →
      ∀ stream, s.sslStream = some stream →
        stream.hasHandshakeCompletedSuccessfully = true → stream.shutdowns = 1)
    (eptr : Option ε) : Orderly (complete cfg eptr s) := by
  obtain ⟨hlog, hoperation, hnotification', hstream⟩ := complete_log cfg eptr s
  have hscheduled : (TcpSslSocket.complete cfg eptr s).log.scheduledForShutdown =
      s.log.scheduledForShutdown := by
    obtain hlog | ⟨-, hlog⟩ := hlog
    · rw [hlog]
    · rw [hlog]
      rfl
  refine ⟨?_, ?_, ?_⟩
  · intro stream hmem
    obtain hlog | ⟨hfinish, hlog⟩ := hlog
    · rw [hlog] at hmem
      exact h.closed stream hmem
    · rw [hlog] at hmem
      obtain hclosed | ⟨hcancel, hnew⟩ := mem_closed_closeStream hmem
      · exact h.closed stream hclosed
      · exact hclose hfinish hcancel stream hnew
  · intro n hn
    simp [hnotification', hnotification] at hn
  · rw [hscheduled, hoperation, hstream]
    exact fun hshutdown _ => h.shutdown hshutdown hs

theorem Inv.not_isSecured (hdue : s.isShutdownDue = false) (hclose : s.isCloseStreamOnTaskFinish = true)
    (hcancel : s.log.operationsCanceled = false) : s.isSecured = false := by
  simpa [State.isShutdownDue, hclose, hcancel] using hdue

theorem Orderly.beginProtocolShutdown (h : Orderly s) (hinv : Inv s)
    (hoperation : s.operation = none) (hnotification : s.notification = none)
    (hsecured : s.isSecured = true) (eptrIn : Option ε) :
    Orderly (beginProtocolShutdown eptrIn (scheduleProtocolTimer cfg s)) := by
  rw [scheduleProtocolTimer_eq]
  refine ⟨h.closed, ?_, ?_⟩
  · intro n hn
    cases hnotification.symm.trans hn
  · intro _ _
    refine ⟨nofun, nofun, fun stream hstream => ?_⟩
    obtain ⟨before, hbefore, rfl⟩ := map_eq_some_iff.mp hstream
    obtain ⟨_, hsome, -, hinvoked⟩ := State.isSecured_iff.mp hsecured
    obtain rfl := Option.some.inj (hsome.symm.trans hbefore)
    have hshutdowns := (hinv.stream _ hbefore).shutdowns
    rw [hoperation, hinvoked] at hshutdowns
    exact congrArg (· + 1) hshutdowns

theorem Orderly.notifyReadyImpl (h : Orderly s) (hinv : Inv s) {n : Notification ε}
    (hn : s.notification = some n) (hc : Undisturbed cfg s .notifyReady) :
    Orderly (notifyReadyImpl cfg n { s with notification := none }) := by
  have hs := hinv.notification (by rw [hn]; exact Option.some_ne_none n)
  have hoperation := hinv.operation_eq_none hn
  have hne : s.operation ≠ some .shutdown := by
    rw [hoperation]
    decide
  have horderly : Orderly { s with notification := none } :=
    { h with posted := nofun }
  have hdue : s.isShutdownDue = false → s.isCloseStreamOnTaskFinish = true →
      s.log.operationsCanceled = false → ∀ stream, s.sslStream = some stream →
        stream.hasHandshakeCompletedSuccessfully = true → stream.shutdowns = 1 :=
    fun hdue hclose hcancel stream hstream =>
      hinv.shutdowns_eq_one hstream hne (Inv.not_isSecured hdue hclose hcancel)
  obtain ⟨-, hallow⟩ := hc
  rw [hn, Option.any_some] at hallow
  rw [TcpSslSocket.notifyReadyImpl]
  by_cases hfinish : n.allowFinishContinuations
  · rw [if_pos hfinish]
    obtain ⟨-, hstale⟩ := hallow hfinish
    obtain ⟨hsecured, hcontinued⟩ | ⟨hcompleted, thrown, hthrown⟩ :=
      scheduleTaskFinishContinuation_cases cfg n.eptr { s with notification := none }
    · rw [hcontinued]
      exact horderly.beginProtocolShutdown hinv.without_notification hoperation rfl hsecured n.eptr
    · have hclose : s.isCloseStreamOnTaskFinish = true →
          s.log.operationsCanceled = false → ∀ stream, s.sslStream = some stream →
            stream.hasHandshakeCompletedSuccessfully = true → stream.shutdowns = 1 := by
        by_cases hshutdown : s.log.scheduledForShutdown
        · exact fun _ _ stream hstream _ => (h.shutdown hshutdown hs).2.2 stream hstream
        · refine hdue ?_
          have hown := (own_isShutdownCompletedOrNotNeeded hinv hstale).trans hcompleted
          have htable : ∀ aborted shutdown close secured : Bool, ¬shutdown = true →
              (aborted || shutdown || !close || !(!aborted && secured)) = true →
              (close && (!aborted && secured)) = false := by decide
          exact htable _ _ _ _ hshutdown hown
      rw [hthrown]
      cases thrown with
      | none => exact horderly.complete hs rfl hclose n.eptr
      | some eptr =>
        exact Orderly.complete (s := { s with notification := none, exception := some eptr })
          { horderly with } hs rfl hclose (some eptr)
  · rw [if_neg hfinish]
    refine horderly.complete hs rfl (hdue ?_) n.eptr
    exact h.posted n hn (Bool.eq_false_iff.mpr hfinish)

theorem Orderly.step (h : Orderly s) (hinv : Inv s) (hc : Undisturbed cfg s l)
    (hschedule : l.isSchedule = false) (hstep : step cfg s l = some s') : Orderly s' := by
  cases l with
  | attachStream stream =>
    obtain ⟨hcond, rfl⟩ := ite_none_some_eq_some.mp hstep
    rw [not_or] at hcond
    refine ⟨h.closed, fun n hn _ => ?_, fun _ hs => absurd hs hcond.1⟩
    cases (hinv.idle hcond.1).2.1.symm.trans hn
  | detachStream | isCloseStreamOnTaskFinish _ =>
    obtain ⟨hs, rfl⟩ := ite_none_some_eq_some.mp hstep
    refine ⟨h.closed, fun n hn _ => ?_, fun _ hs' => absurd hs' hs⟩
    cases (hinv.idle hs).2.1.symm.trans hn
  | scheduleNothrow what => cases hschedule
  | createSocket =>
    obtain ⟨hoperation, rfl⟩ := ite_some_none_eq_some.mp hstep
    obtain ⟨hs, hnotification⟩ := hinv.operation (by rw [hoperation]; decide)
    refine ⟨fun stream hstream hhandshake => ?_, fun n hn _ => ?_, fun hshutdown _ => ?_⟩
    · obtain hclosed | ⟨hcancel, hold⟩ := mem_closed_closeStream hstream
      · exact h.closed stream hclosed hhandshake
      · exact hinv.shutdowns_eq_one hold (by rw [hoperation]; decide) (hc hcancel) hhandshake
    · cases hnotification.symm.trans hn
    · exact absurd hoperation (h.shutdown hshutdown hs).1
  | beginProtocolHandshake =>
    obtain ⟨⟨hoperation, -⟩, rfl⟩ := ite_some_none_eq_some.mp hstep
    obtain ⟨hs, hnotification⟩ := hinv.operation (by rw [hoperation]; decide)
    refine ⟨h.closed, fun n hn _ => ?_, fun hshutdown _ => ?_⟩
    · cases hnotification.symm.trans hn
    · exact absurd hoperation (h.shutdown hshutdown hs).1
  | onHandshakeCompleted ec continueCallback =>
    obtain ⟨hoperation, rfl⟩ := ite_some_none_eq_some.mp hstep
    obtain ⟨hs, hnotification⟩ := hinv.operation (by rw [hoperation]; decide)
    obtain ⟨_, _, hcompleted | ⟨eptr, hcompleted⟩⟩ := onHandshakeCompleted_eq cfg
      continueCallback { s with sslStream := s.sslStream.map (onHandshakeInternal ec) } ec
    · rw [hcompleted]
      refine ⟨h.closed, fun n hn _ => ?_, fun hshutdown _ => ?_⟩
      · cases hnotification.symm.trans hn
      · exact absurd hoperation (h.shutdown hshutdown hs).2.1
    · rw [hcompleted]
      refine ⟨h.closed, fun n hn hn' => ?_, fun hshutdown _ => ?_⟩
      · cases hn
        cases hn'
      · exact absurd hoperation (h.shutdown hshutdown hs).2.1
  | onShutdownCompleted ec =>
    obtain ⟨hoperation, rfl⟩ := ite_some_none_eq_some.mp hstep
    obtain ⟨hs, -⟩ := hinv.operation (by rw [hoperation]; decide)
    obtain ⟨eptr, hcompleted⟩ := onShutdownCompleted_eq cfg
      { s with sslStream := s.sslStream.map onShutdownInternal } ec
    rw [hcompleted]
    refine ⟨h.closed, fun n hn hn' => ?_, fun hshutdown _ => ?_⟩
    · cases hn
      cases hn'
    · refine ⟨nofun, nofun, fun stream hstream => ?_⟩
      obtain ⟨before, hbefore, rfl⟩ := map_eq_some_iff.mp hstream
      exact (h.shutdown hshutdown hs).2.2 before hbefore
  | operationCompleted eptr =>
    obtain ⟨hoperation, rfl⟩ := ite_some_none_eq_some.mp hstep
    obtain ⟨hs, -⟩ := hinv.operation (by rw [hoperation]; decide)
    refine ⟨h.closed, fun n hn hn' => ?_, fun hshutdown _ => ?_⟩
    · cases hn
      cases hn'
    · exact absurd hoperation (h.shutdown hshutdown hs).1
  | notifyReady =>
    obtain ⟨n, hn, rfl⟩ := map_eq_some_iff.mp hstep
    exact h.notifyReadyImpl hinv hn hc
  | retry =>
    obtain ⟨-, -, rfl⟩ := step_retry_iff.mp hstep
    exact ⟨h.closed, nofun, nofun⟩
  | setCompletedState =>
    obtain ⟨hs, rfl⟩ := ite_some_none_eq_some.mp hstep
    exact ⟨h.closed, h.posted, nofun⟩
  | requestCancel =>
    cases hstep
    exact h.requestCancelInternal
  | expire =>
    obtain ⟨-, rfl⟩ := ite_some_none_eq_some.mp hstep
    exact { h with }
  | onProtocolTimer | onStaleProtocolTimer =>
    obtain ⟨-, rfl⟩ := ite_none_some_eq_some.mp hstep
    exact Orderly.onProtocolTimer { h with }

/-- The failure of a schedule closes no secured stream. -/
theorem not_isShutdownDue_restarted (hs : s.isSecured = true → s.isCloseStreamOnTaskFinish = false) :
    s.restarted.isShutdownDue = false := by
  have hclose : s.restarted.isCloseStreamOnTaskFinish = s.isCloseStreamOnTaskFinish := by
    rw [State.restarted]
    split <;> rfl
  rw [State.isShutdownDue, isSecured_restarted, hclose]
  cases hsecured : s.isSecured with
  | false => simp
  | true => simp [hs hsecured]

theorem failsToSchedule_of_canceled (h : s.restarted.cancelRequested = true)
    (what : ScheduleTask ε) : s.failsToSchedule what = true := by
  rw [State.restarted] at h
  split at h
  · rename_i hcreated
    have hcancel : s.cancelRequested = true := h
    cases what <;> simp [State.failsToSchedule, hcreated, hcancel]
  · cases h

theorem Orderly.scheduleNothrow (hinv : Inv s) (hs : s.state ≠ .running) {what : ScheduleTask ε}
    (hc : Undisturbed cfg s (.scheduleNothrow what)) : Orderly (scheduleNothrow cfg what s) := by
  obtain ⟨hoperation, hnotification, -⟩ := hinv.idle hs
  obtain ⟨hoperation', hnotification', -⟩ := s.restarted_fields
  rw [hoperation] at hoperation'
  rw [hnotification] at hnotification'
  have hrestarted : Orderly s.restarted :=
    ⟨nofun, fun n hn => (by cases hnotification'.symm.trans hn),
      nofun⟩
  have hposted : ∀ n : Option (Notification ε), s.restarted.isShutdownDue = false →
      Orderly { s.restarted with notification := n } :=
    fun _ hdue => ⟨nofun, fun _ _ _ => hdue, nofun⟩
  rw [scheduleNothrow_eq]
  by_cases hcancel : s.restarted.cancelRequested = true
  · rw [if_pos hcancel]
    exact hposted _ (not_isShutdownDue_restarted fun hsecured =>
      (hc hsecured).1 (failsToSchedule_of_canceled hcancel what))
  rw [if_neg hcancel]
  cases what with
  | derived =>
    exact ⟨nofun, fun n hn => (by cases hn), nofun⟩
  | throws eptr =>
    exact hposted _ (not_isShutdownDue_restarted fun hsecured => (hc hsecured).1 rfl)
  | protocolOperations =>
    rw [scheduleTask, scheduleProtocolOperations]
    by_cases hhandshake : (!s.restarted.hasHandshakeCompletedSuccessfully) = true
    · rw [if_pos hhandshake, scheduleProtocolTimer_eq]
      exact ⟨nofun, fun n hn => (by cases hn), nofun⟩
    rw [if_neg hhandshake]
    by_cases hneeded : (s.restarted.isShutdownNeeded && !s.restarted.wasShutdownInvoked) = true
    · rw [if_pos hneeded]
      have hsecured : s.restarted.isSecured = true := by
        rw [isShutdownNeeded_eq] at hneeded
        simp only [Bool.and_eq_true] at hneeded
        exact hneeded.1.2
      have hshutdown : Orderly (TcpSslSocket.beginProtocolShutdown none
          (scheduleProtocolTimer cfg s.restarted)) :=
        hrestarted.beginProtocolShutdown (hinv.restarted hs) hoperation' hnotification' hsecured none
      exact { hshutdown with posted := nofun }
    · rw [if_neg hneeded]
      refine hposted _ (not_isShutdownDue_restarted fun hsecured => absurd ?_ hneeded)
      have hforced := (hc hsecured).2 rfl
      rw [← wasSocketShutdownForcefully_restarted] at hforced
      rw [← isSecured_restarted] at hsecured
      obtain ⟨stream, hstream, -, hinvoked⟩ := State.isSecured_iff.mp hsecured
      rw [isShutdownNeeded_eq, hforced, hsecured, State.wasShutdownInvoked, hstream,
        Option.any_some, hinvoked]
      rfl

theorem run_orderly {labels : List (Label ε)} : ∀ {s : State ε}, Inv s → Orderly s →
    (∀ l ∈ labels, l.isSchedule = false) → Along (step cfg) (Undisturbed cfg) s labels →
    run (step cfg) s labels = some s' → Orderly s' := by
  induction labels with
  | nil =>
    intro s _ horderly _ _ hrun
    cases hrun
    exact horderly
  | cons l labels ih =>
    intro s h horderly hlabels hc hrun
    obtain ⟨m, hm, hrun⟩ := run_cons_eq_some.mp hrun
    refine ih (h.step hm) ?_ (fun l' hl' => hlabels l' (List.mem_cons_of_mem _ hl'))
      (hc.2 m hm) hrun
    exact horderly.step h hc.1 (hlabels l List.mem_cons_self) hm

/-! ## The runs of one object -/

theorem step_scheduleNothrow {what : ScheduleTask ε}
    (hstep : step cfg s (.scheduleNothrow what) = some s') :
    s.state ≠ .running ∧ s' = scheduleNothrow cfg what s ∧
      step cfg s.fresh (.scheduleNothrow what) = some (scheduleNothrow cfg what s.fresh) := by
  obtain ⟨hs, hs'⟩ := ite_none_left_eq_some.mp hstep
  cases what with
  | derived | throws _ => exact ⟨hs, (Option.some.inj hs').symm, rfl⟩
  | protocolOperations =>
    obtain ⟨hstream, hs'⟩ := ite_none_left_eq_some.mp hs'
    exact ⟨hs, (Option.some.inj hs').symm, if_neg hstream⟩

/-- Whatever an object has run before: a run whose steps are undisturbed goes as
the first run of a new object does which holds the same stream, without the
handlers the earlier runs have left; it reports the same exception, attempts the
same protocol shutdowns and cancels the same. Each stream it closes without
force after its handshake was shut down once. -/
theorem run_outcome {before labels : List (Label ε)} {what : ScheduleTask ε} {s₀ : State ε}
    (hbefore : run (step cfg) State.create before = some s₀)
    (hrun : run (step cfg) s₀ (.scheduleNothrow what :: labels) = some s')
    (hlabels : ∀ l ∈ labels, l.isSchedule = false)
    (hc : Along (step cfg) (Undisturbed cfg) s₀ (.scheduleNothrow what :: labels)) :
    (∃ t', run (step cfg) s₀.fresh (.scheduleNothrow what :: labels.filter Label.isOwn) = some t' ∧
        t'.state = s'.state ∧ t'.exception = s'.exception ∧ t'.log = s'.log) ∧
      ∀ stream ∈ s'.log.closed,
        stream.hasHandshakeCompletedSuccessfully = true → stream.shutdowns = 1 := by
  have hinv : Inv s₀ :=
    run_invariant (C := fun _ _ => True) (fun _ _ _ h _ hstep => h.step hstep) inv_create along_true
      hbefore
  obtain ⟨s₁, hs₁, hrun⟩ := run_cons_eq_some.mp hrun
  obtain ⟨hs, rfl, hfresh⟩ := step_scheduleNothrow hs₁
  have hinv₁ := hinv.step hs₁
  refine ⟨⟨s'.own, run_cons_eq_some.mpr ⟨_, hfresh, ?_⟩, rfl, rfl, rfl⟩, ?_⟩
  · rw [own_scheduleNothrow hinv hs hc.1]
    exact run_own hinv₁ hlabels (hc.2 _ hs₁) hrun
  · have horderly := Orderly.scheduleNothrow hinv hs hc.1
    exact (run_orderly hinv₁ horderly hlabels (hc.2 _ hs₁) hrun).closed

/-! ### One run after another -/

/-- An exception is the chain of its error codes and messages. -/
def chainedExceptions : Config (List (ErrorCode ⊕ String)) where
  systemException := fun ec => [.inl ec]
  unexpectedException := fun message => [.inr message]
  errinfoNestedExceptionPtr := fun exception nested => exception ++ nested
  isExpectedException := fun _ _ => false
  hasProtocolTimeout := true

/-- A stream which has completed its handshake elsewhere. -/
def securedStream : Stream := { Stream.connected with hasHandshakeCompletedSuccessfully := true }

/-- A run over a stream which goes on to another task, and then another stream
which the next run is to close. -/
def streamPassedOn : List (Label (List (ErrorCode ⊕ String))) :=
  [.attachStream securedStream, .scheduleNothrow .derived, .operationCompleted none, .notifyReady,
    .setCompletedState, .detachStream, .attachStream securedStream, .isCloseStreamOnTaskFinish true]

/-- A run which only shuts its stream down, and then another stream. -/
def streamShutDown : List (Label (List (ErrorCode ⊕ String))) :=
  [.attachStream securedStream, .isCloseStreamOnTaskFinish true,
    .scheduleNothrow .protocolOperations, .onShutdownCompleted none, .notifyReady,
    .setCompletedState, .detachStream, .attachStream securedStream]

/-- The operation fails, and the stream is shut down then. -/
def failedTransfer : List (Label (List (ErrorCode ⊕ String))) :=
  [.operationCompleted (some [.inl .eof]), .notifyReady, .onShutdownCompleted (some .eof),
    .notifyReady]

def transferFinishes : List (Label (List (ErrorCode ⊕ String))) :=
  [.operationCompleted none, .notifyReady]

theorem run_outcome_failedTransfer :
    ∃ s₀ s' t', run (step chainedExceptions) State.create streamPassedOn = some s₀ ∧
      run (step chainedExceptions) s₀ (.scheduleNothrow .derived :: failedTransfer) = some s' ∧
      s'.exception = some [.inl .eof] ∧ s'.log.shutdowns = 1 ∧
      run (step chainedExceptions) s₀.fresh
        (.scheduleNothrow .derived :: failedTransfer.filter Label.isOwn) = some t' ∧
      t'.exception = s'.exception ∧ t'.log = s'.log := by
  obtain ⟨⟨t', ht', -, hexception, hlog⟩, -⟩ := @run_outcome _ chainedExceptions _
    streamPassedOn failedTransfer .derived _ rfl rfl (by decide) (by decide)
  exact ⟨_, _, t', rfl, rfl, rfl, rfl, ht', hexception, hlog⟩

/-- The second run neither shuts the new stream down before it closes it, as
the task stays marked as scheduled for shutdown, nor ends as the run of a new
object would. -/
theorem run_outcome_streamShutDown :
    ¬∀ (s₀ s' : State (List (ErrorCode ⊕ String)))
      (before labels : List (Label (List (ErrorCode ⊕ String)))) (what : ScheduleTask _),
      run (step chainedExceptions) State.create before = some s₀ →
      run (step chainedExceptions) s₀ (.scheduleNothrow what :: labels) = some s' →
      (∀ l ∈ labels, l.isSchedule = false) →
      (∃ t', run (step chainedExceptions) s₀.fresh
          (.scheduleNothrow what :: labels.filter Label.isOwn) = some t' ∧
          t'.state = s'.state ∧ t'.exception = s'.exception ∧ t'.log = s'.log) ∧
        ∀ stream ∈ s'.log.closed,
          stream.hasHandshakeCompletedSuccessfully = true → stream.shutdowns = 1 := by
  intro h
  obtain ⟨-, hclosed⟩ := h _ _ streamShutDown transferFinishes .derived rfl rfl (by decide)
  cases hclosed securedStream List.mem_cons_self rfl

/-- A handler of the deadline which was in the queue when its run ended cancels
the operations of the next run. -/
example : (run (step chainedExceptions) State.create
    (streamShutDown.take 3 ++ .expire :: streamShutDown.drop 3 ++
      [.scheduleNothrow .derived, .onStaleProtocolTimer])).map (·.log.operationsCanceled) =
    some true := by
  decide

end Baselib.Tasks.TcpSslSocket
