/-
Baselib.Tasks.TcpServerDrain — a TCP server which is cancelled is ready when
its connections have completed.

The orderly end stops accepting first, and then nothing is pushed any more;
the server waits for its queues with a timer. The handler of the back-off is
the one way out which does not go through it.
-/
import Baselib.Tasks.TcpServerTheorems

namespace Baselib.Tasks.TcpServer

open Lib List
open TcpAcceptor (ErrorCode Inv Outstanding)

variable {σ : Type} {p : Parameters} {s s' : Server σ} {l : Label σ} {d : State σ}

/-! ## Queues which stay empty -/

/-- The queue of the connections is empty, and nothing is pushed into it. -/
def State.Quiet (d : State σ) : Prop :=
  d.connections = [] ∧ (d.shuttingDown = true ∨ d.handshakeTasks = [])

theorem quiet_of_continueAfterStoppedAccepting (h : (continueAfterStoppedAccepting d).1 = false) :
    (continueAfterStoppedAccepting d).2.Quiet ∧
      (continueAfterStoppedAccepting d).2.timer = d.timer := by
  rw [continueAfterStoppedAccepting] at h ⊢
  split at h
  · rename_i hdrained
    rw [if_pos hdrained]
    simp only [State.isDrained, Bool.and_eq_true, List.isEmpty_iff] at hdrained
    exact ⟨⟨hdrained.1, .inl rfl⟩, rfl⟩
  · cases h

theorem timer_of_continueAfterStoppedAccepting (h : (continueAfterStoppedAccepting d).1 = true) :
    (continueAfterStoppedAccepting d).2.shuttingDown = true ∧
      (continueAfterStoppedAccepting d).2.timer = true := by
  rw [continueAfterStoppedAccepting] at h ⊢
  split at h
  · cases h
  · rename_i hdrained
    rw [if_neg hdrained]
    exact ⟨rfl, rfl⟩

theorem onTaskStoppedNothrow_frame (eptr : Option ErrorCode) :
    (onTaskStoppedNothrow eptr d).connections = d.connections ∧
      (onTaskStoppedNothrow eptr d).shuttingDown = d.shuttingDown ∧
      (onTaskStoppedNothrow eptr d).handshakeTasks = d.handshakeTasks ∧
      (onTaskStoppedNothrow eptr d).timer = d.timer := by
  rw [onTaskStoppedNothrow]
  split <;> exact ⟨rfl, rfl, rfl, rfl⟩

theorem State.Quiet.onTaskStoppedNothrow (h : d.Quiet) (eptr : Option ErrorCode) :
    (onTaskStoppedNothrow eptr d).Quiet := by
  obtain ⟨hconnections, hshutting, hhandshakes, -⟩ := onTaskStoppedNothrow_frame (d := d) eptr
  rwa [State.Quiet, hconnections, hshutting, hhandshakes]

/-- What the server's own sections keep. -/
structure Stays (d d' : State σ) : Prop where
  quiet : d.Quiet → d'.Quiet
  shuttingDown : d.shuttingDown = true → d'.shuttingDown = true
  timer : d'.timer = d.timer

theorem pushBack_frame (pushes isHandshake : Bool) (stream : σ) :
    (d.pushBack pushes isHandshake stream).shuttingDown = d.shuttingDown ∧
      (d.pushBack pushes isHandshake stream).timer = d.timer := by
  rw [State.pushBack]
  split <;> exact ⟨rfl, rfl⟩

theorem processConfiguredConnection_frame (answers : Answers) (stream : σ) :
    (processConfiguredConnection answers stream d).shuttingDown = d.shuttingDown ∧
      (processConfiguredConnection answers stream d).timer = d.timer := by
  rw [processConfiguredConnection]
  split
  · exact ⟨rfl, rfl⟩
  · dsimp only
    split <;> exact pushBack_frame _ _ _

theorem discard_frame (c : Connection σ) (isFailed : Bool) :
    (discard c isFailed d).shuttingDown = d.shuttingDown ∧
      (discard c isFailed d).timer = d.timer := by
  rw [discard]
  cases hheld : c.isHandshake && !isFailed with
  | true =>
    simp only [if_true, Option.isSome_some]
    split <;> exact ⟨rfl, rfl⟩
  | false =>
    simp only [Bool.false_eq_true, if_false, Option.isSome_none]
    split <;> exact ⟨rfl, rfl⟩

/-- A connection comes in again only from the map of the handshakes, and not
in a server which shuts down. -/
theorem onEvent_stays (answers : Answers) (event : Discarded σ) :
    Stays d (onEvent answers event d) := by
  rw [onEvent]
  split
  · exact ⟨id, id, rfl⟩
  split
  · rename_i hmem
    dsimp only
    split
    · refine ⟨fun h => ⟨h.1, h.2.imp id fun hnil => ?_⟩, id, rfl⟩
      simp [hnil] at hmem
    · rename_i hgoes
      simp only [Bool.or_eq_true, not_or, Bool.not_eq_true] at hgoes
      have hnot : ¬d.Quiet := by
        rintro ⟨-, hshutting | hnil⟩
        · rw [hshutting] at hgoes
          cases hgoes.1
        · simp [hnil] at hmem
      cases event.stream with
      | none => exact ⟨fun h => absurd h hnot, id, rfl⟩
      | some stream =>
        obtain ⟨hshutting, htimer⟩ := processConfiguredConnection_frame
          (d := { d with handshakeTasks := d.handshakeTasks.erase event.task }) answers stream
        exact ⟨fun h => absurd h hnot, fun h => hshutting.trans h, htimer⟩
  · exact ⟨id, id, rfl⟩

/-! ## The path to the notification -/

structure DrainInv (s : Server σ) : Prop where
  acceptor : Inv s
  fresh : (s.state = .created ∨ ∃ o ∈ s.outstanding, o.operation = .resolve) → s.derived.Quiet
  aborted : ∀ o ∈ s.outstanding, o.operation = .backOff → ∀ ec, o.result = some (some ec) →
    s.cancelRequested = true
  quiet : s.notifications ≠ [] ∨ s.ready ≠ [] → s.derived.Quiet
  shuttingDown : s.stoppedAccepting = true → s.derived.shuttingDown = true
  waits : s.stoppedAccepting = true → s.state = .running →
    s.derived.timer = true ∨ s.notifications ≠ []
  timer : s.derived.timer = true → s.stoppedAccepting = true

/-- The handler of the back-off runs after a request to cancel only while no
connection is open or completes its handshake. -/
def OrderlyBackOff (s : Server σ) : Label σ → Prop
  | .acceptor (.onAcceptBackOffExpired _) =>
    s.cancelRequested = true → s.derived.connections = [] ∧ s.derived.handshakeTasks = []
  | _ => True

theorem create_drainInv : DrainInv (Server.create : Server σ) where
  acceptor := TcpAcceptor.Inv.create _
  fresh _ := ⟨rfl, .inr rfl⟩
  aborted o ho := by cases ho
  quiet h := by
    obtain h | h := h
    · exact absurd rfl h
    · exact absurd rfl h
  shuttingDown h := by cases h
  waits h := by cases h
  timer h := by cases h

theorem DrainInv.derive {n : Option (Option ErrorCode)} (h : DrainInv s)
    (hs : TcpAcceptor.step (hooks p) s (.derived d n) = some s')
    (hquiet : s.derived.Quiet ∨ n.isSome = true → d.Quiet)
    (hshutting : s.derived.shuttingDown = true → d.shuttingDown = true)
    (htimer : d.timer = true → s.derived.timer = true)
    (hwaits : s.derived.timer = true → d.timer = true ∨ n.isSome = true) : DrainInv s' := by
  have hinv := TcpAcceptor.step_inv h.acceptor hs
  obtain ⟨hallowed, rfl⟩ := Transition.ite_none_some_eq_some.mp hs
  refine ⟨hinv, fun hf => hquiet (.inl (h.fresh hf)), h.aborted, fun hn => hquiet ?_,
    fun hstopped => hshutting (h.shuttingDown hstopped), fun hstopped hrunning => ?_,
    fun ht => h.timer (htimer ht)⟩
  · obtain hn | hn := hn
    · cases n with
      | none => exact .inl (h.quiet (.inl (by simpa using hn)))
      | some eptr => exact .inr rfl
    · exact .inl (h.quiet (.inr hn))
  · obtain ht | hn := h.waits hstopped hrunning
    · obtain ht | hn := hwaits ht
      · exact .inl ht
      · obtain ⟨eptr, rfl⟩ := Option.isSome_iff_exists.mp hn
        exact .inr (by simp)
    · exact .inr (by simp [hn])

/-- A handler which leaves with a notification leaves a quiet server. -/
theorem DrainInv.notify {s : Server σ} {o : Outstanding} (h : DrainInv s)
    (houtstanding : s.outstanding = [o]) (hinv : Inv s') (hderived : s'.derived = s.derived)
    (hnone : s'.outstanding = []) (hstopped : s'.stoppedAccepting = s.stoppedAccepting)
    (hquiet : s.derived.Quiet) : DrainInv s' := by
  obtain ⟨-, -, hrunning, -, -, hnot, -⟩ :=
    h.acceptor.of_getElem? (i := 0) (by rw [houtstanding]; rfl)
  refine ⟨hinv, fun _ => hderived ▸ hquiet, fun o ho => ?_, fun _ => hderived ▸ hquiet,
    fun hs => ?_, fun hs => ?_, fun ht => ?_⟩
  · simp [hnone] at ho
  · simp [hstopped, hnot] at hs
  · simp [hstopped, hnot] at hs
  · rw [hstopped]
    exact h.timer (hderived ▸ ht)

/-- A handler which starts the next operation. -/
theorem DrainInv.starts {s : Server σ} {o : Outstanding} (h : DrainInv s)
    (operation : TcpAcceptor.Operation) (houtstanding : s.outstanding = [o]) (hinv : Inv s')
    (hnext : s'.outstanding = [⟨operation, none⟩]) (hresolve : operation ≠ .resolve)
    (htimer : s'.derived.timer = s.derived.timer) : DrainInv s' := by
  obtain ⟨-, -, -, -, -, hnot, -⟩ :=
    h.acceptor.of_getElem? (i := 0) (by rw [houtstanding]; rfl)
  obtain ⟨-, -, hrunning, hnotifications, hready, hstopped, -⟩ :=
    hinv.of_getElem? (i := 0) (by rw [hnext]; rfl)
  refine ⟨hinv, fun hf => ?_, fun o ho _ ec hec => ?_, fun hn => ?_, fun hs => ?_, fun hs => ?_,
    fun ht => ?_⟩
  · obtain hcreated | ⟨o, ho, hop⟩ := hf
    · simp [hrunning] at hcreated
    · rw [hnext, mem_singleton] at ho
      rw [ho] at hop
      exact absurd hop hresolve
  · rw [hnext, mem_singleton] at ho
    simp [ho] at hec
  · simp [hnotifications, hready] at hn
  · simp [hstopped] at hs
  · simp [hstopped] at hs
  · have ht' := h.timer (htimer ▸ ht)
    rw [hnot] at ht'
    cases ht'

theorem processIncomingConnection_timer (answers : Answers) (stream : σ) :
    (processIncomingConnection p answers stream d).timer = d.timer := by
  rw [processIncomingConnection]
  split
  · rfl
  split
  · split
    · rfl
    · dsimp only
      split <;> exact (pushBack_frame _ _ _).2
  · exact (processConfiguredConnection_frame answers stream).2

theorem DrainInv.onConnectionAccepted {i : Nat} {answers : Answers} (h : DrainInv s)
    (hs : TcpAcceptor.step (hooks p) s (.onConnectionAccepted i answers) = some s') :
    DrainInv s' := by
  have hinv := TcpAcceptor.step_inv h.acceptor hs
  obtain ⟨⟨ec, s₁⟩, hr, rfl⟩ := Option.map_eq_some_iff.mp hs
  obtain ⟨hhandling, houtstanding, rfl, hacceptor⟩ := h.acceptor.handling hr
  have houtcome := @TcpAcceptor.onConnectionAccepted_outcome _ _ _ (hooks p)
    { s with outstanding := [] } ec answers (hacceptor (by simp))
  generalize TcpAcceptor.onConnectionAccepted (hooks p) answers _ _ = s' at houtcome hinv
  cases houtcome with
  | processed stream =>
    refine h.starts .accept houtstanding hinv ?_ (by simp) ?_
    · simp [TcpAcceptor.startAccept, TcpAcceptor.State.start, TcpAcceptor.State.closeSocket]
    · exact processIncomingConnection_timer answers stream
  | empty =>
    refine h.starts .accept houtstanding hinv ?_ (by simp) rfl
    simp [TcpAcceptor.startAccept, TcpAcceptor.State.start, TcpAcceptor.State.closeSocket]
  | backsOff =>
    refine h.starts .backOff houtstanding hinv ?_ (by simp) rfl
    simp [TcpAcceptor.scheduleAcceptAfterBackOff, TcpAcceptor.State.start]
  | continues _ _ hcontinues =>
    obtain ⟨hshutting, htimer⟩ := timer_of_continueAfterStoppedAccepting hcontinues
    refine ⟨hinv, fun hf => ?_, (fun o ho => by cases ho), fun hn => ?_, fun _ => hshutting,
      fun _ _ => .inl htimer, fun _ => rfl⟩
    · obtain hcreated | ⟨o, ho, -⟩ := hf
      · cases hhandling.state.symm.trans hcreated
      · cases ho
    · exact hn.elim (absurd hhandling.notifications) (absurd hhandling.ready)
  | leaves _ _ hleaves =>
    obtain ⟨hquiet, htimer⟩ := quiet_of_continueAfterStoppedAccepting hleaves
    have hnot : ¬ s.stoppedAccepting = true :=
      fun hs => Bool.noConfusion (hhandling.stoppedAccepting.symm.trans hs)
    exact ⟨hinv, fun _ => hquiet, (fun o ho => by cases ho), fun _ => hquiet,
      fun hs => absurd hs hnot, fun hs => absurd hs hnot,
      fun ht => h.timer (htimer.symm.trans ht)⟩

theorem DrainInv.complete {i : Nat} {operation : TcpAcceptor.Operation} {ec : Option ErrorCode}
    (h : DrainInv s) (hs : s.complete i operation ec = some s')
    (hbackOff : operation = .backOff → ec = none) : DrainInv s' := by
  have hget := (Option.ite_none_right_eq_some.mp hs).1
  obtain ⟨rfl, -, hinv⟩ := h.acceptor.complete hs
  refine ⟨hinv, fun hf => h.fresh (hf.imp id ?_), fun o ho hop ec' hec => ?_, h.quiet,
    h.shuttingDown, h.waits, h.timer⟩
  · rintro ⟨o, ho, hop⟩
    rw [mem_singleton.mp ho] at hop
    exact ⟨_, mem_of_getElem? hget, hop⟩
  · rw [mem_singleton.mp ho] at hop hec
    rw [hbackOff hop] at hec
    cases hec

theorem DrainInv.requestCancel (h : DrainInv s) : DrainInv (TcpAcceptor.requestCancel s) := by
  have hinv := h.acceptor.requestCancel
  rw [TcpAcceptor.requestCancel] at hinv ⊢
  split
  · exact h
  rename_i hnot
  rw [if_neg hnot] at hinv
  dsimp only at hinv ⊢
  split_ifs with hrunning
  · rw [if_pos hrunning] at hinv
    refine ⟨hinv, fun hf => h.fresh (hf.imp id ?_), fun _ _ _ _ _ => rfl, h.quiet,
      h.shuttingDown, h.waits, h.timer⟩
    rintro ⟨o, ho, hop⟩
    obtain ⟨o', ho', rfl⟩ := mem_map.mp ho
    refine ⟨o', ho', ?_⟩
    split at hop <;> exact hop
  · rw [if_neg hrunning] at hinv
    exact ⟨hinv, h.fresh, fun _ _ _ _ _ => rfl, h.quiet, h.shuttingDown, h.waits, h.timer⟩

theorem DrainInv.notifyReady {i : Nat} (h : DrainInv s)
    (hs : TcpAcceptor.step (hooks p) s (.notifyReady i) = some s') : DrainInv s' := by
  have hinv := TcpAcceptor.step_inv h.acceptor hs
  obtain ⟨eptr, heptr, rfl⟩ := Option.map_eq_some_iff.mp hs
  have hsome : s.notifications ≠ [] := by
    intro hnil
    simp [hnil] at heptr
  have hidle : s.outstanding = [] ∧ s.state ≠ .created := by
    cases h.acceptor.phase with
    | created _ _ hnone | waiting _ _ _ hnone | completed _ _ hnone => exact absurd hnone hsome
    | leaving _ hstate houtstanding => exact ⟨houtstanding, by rw [hstate]; simp⟩
    | stopped houtstanding _ hready =>
      refine ⟨houtstanding, fun hcreated => ?_⟩
      simp [hcreated] at hready
  set s₁ : Server σ := TcpAcceptor.onTaskStoppedNothrow (hooks p) eptr
    { s with notifications := s.notifications.eraseIdx i } with hs₁
  have hderived : s₁.derived = onTaskStoppedNothrow eptr s.derived := rfl
  obtain ⟨-, hshutting, -, htimer⟩ := onTaskStoppedNothrow_frame (d := s.derived) eptr
  have hquiet : s₁.derived.Quiet := (h.quiet (.inl hsome)).onTaskStoppedNothrow eptr
  have hnone : s₁.outstanding = [] := TcpAcceptor.onTaskStoppedNothrow_outstanding hidle.1
  have haborted : ∀ o ∈ s₁.outstanding, o.operation = .backOff → ∀ ec,
      o.result = some (some ec) → s.cancelRequested = true := by
    intro o ho
    simp [hnone] at ho
  have hshuts : s.stoppedAccepting = true → s₁.derived.shuttingDown = true :=
    fun hstopped => hshutting.trans (h.shuttingDown hstopped)
  have htimes : s₁.derived.timer = true → s.stoppedAccepting = true :=
    fun ht => h.timer (htimer.symm.trans ht)
  rw [TcpAcceptor.notifyReady] at hinv ⊢
  split_ifs with hrunning
  · rw [if_pos hrunning] at hinv
    exact ⟨hinv, fun _ => hquiet, haborted, fun _ => hquiet, hshuts, (fun _ hr => by cases hr),
      htimes⟩
  · rw [if_neg hrunning] at hinv
    exact ⟨hinv, fun _ => hquiet, haborted, fun _ => hquiet, hshuts,
      fun _ hr => absurd hr hrunning, htimes⟩

/-- A handler which leaves with a notification and nothing else. -/
theorem DrainInv.notified {s : Server σ} {operation : TcpAcceptor.Operation}
    {ec : Option ErrorCode} {s₁ : Server σ} {i : Nat} (h : DrainInv s)
    (hr : s.take i operation = some (ec, s₁)) (hinv : Inv s') (hderived : s'.derived = s₁.derived)
    (hnone : s'.outstanding = s₁.outstanding)
    (hstopped : s'.stoppedAccepting = s₁.stoppedAccepting) (hquiet : s.derived.Quiet) :
    DrainInv s' := by
  obtain ⟨-, houtstanding, rfl, -⟩ := h.acceptor.handling hr
  exact h.notify houtstanding hinv hderived hnone hstopped hquiet

theorem startAccept_outstanding (h : s.outstanding = []) :
    (TcpAcceptor.startAccept s).outstanding = [⟨.accept, none⟩] := by
  simp [TcpAcceptor.startAccept, TcpAcceptor.State.start, TcpAcceptor.State.closeSocket, h]

theorem DrainInv.onResolved {i : Nat} {listen : Option ErrorCode} (h : DrainInv s)
    (hs : TcpAcceptor.step (hooks p) s (.onResolved i listen) = some s') : DrainInv s' := by
  have hinv := TcpAcceptor.step_inv h.acceptor hs
  obtain ⟨⟨ec, s₁⟩, hr, rfl⟩ := Option.map_eq_some_iff.mp hs
  obtain ⟨hhandling, houtstanding, rfl, -⟩ := h.acceptor.handling hr
  have hquiet : s.derived.Quiet := by
    refine h.fresh (.inr ⟨⟨.resolve, some ec⟩, ?_, rfl⟩)
    rw [houtstanding]
    exact mem_cons_self
  rw [TcpAcceptor.onResolved] at hinv ⊢
  split
  · rename_i hec
    rw [if_pos hec] at hinv
    exact h.notified hr hinv rfl rfl rfl hquiet
  rename_i hec
  rw [if_neg hec] at hinv
  split
  · rename_i hcancel
    rw [if_pos hcancel] at hinv
    exact h.notified hr hinv rfl rfl rfl hquiet
  rename_i hcancel
  rw [if_neg hcancel] at hinv
  split_ifs with hlisten
  · rw [if_pos hlisten] at hinv
    exact h.notified hr hinv rfl rfl rfl hquiet
  · rw [if_neg hlisten] at hinv
    exact h.starts .accept houtstanding hinv (startAccept_outstanding rfl) (by simp) rfl

theorem DrainInv.onAcceptBackOffExpired {i : Nat} (h : DrainInv s)
    (hs : TcpAcceptor.step (hooks p) s (.onAcceptBackOffExpired i) = some s')
    (horderly : s.cancelRequested = true →
      s.derived.connections = [] ∧ s.derived.handshakeTasks = []) : DrainInv s' := by
  have hinv := TcpAcceptor.step_inv h.acceptor hs
  obtain ⟨⟨ec, s₁⟩, hr, rfl⟩ := Option.map_eq_some_iff.mp hs
  obtain ⟨hhandling, houtstanding, rfl, -⟩ := h.acceptor.handling hr
  have hquiet : s.cancelRequested = true → s.derived.Quiet :=
    fun hc => ⟨(horderly hc).1, .inr (horderly hc).2⟩
  rw [TcpAcceptor.onAcceptBackOffExpired] at hinv ⊢
  split
  · rename_i hec
    rw [if_pos hec] at hinv
    obtain ⟨code, hsome⟩ := Option.isSome_iff_exists.mp hec
    refine h.notified hr hinv rfl rfl rfl (hquiet ?_)
    refine h.aborted ⟨.backOff, some ec⟩ ?_ rfl code (congrArg some hsome)
    rw [houtstanding]
    exact mem_cons_self
  rename_i hec
  rw [if_neg hec] at hinv
  split_ifs with hcancel
  · rw [if_pos hcancel] at hinv
    exact h.notified hr hinv rfl rfl rfl (hquiet hcancel)
  · rw [if_neg hcancel] at hinv
    exact h.starts .accept houtstanding hinv (startAccept_outstanding rfl) (by simp) rfl

theorem step_drainInv (h : DrainInv s) (horderly : OrderlyBackOff s l)
    (hstep : step p s l = some s') : DrainInv s' := by
  cases l with
  | acceptor l' =>
    cases l' with
    | derived d n => cases hstep
    | scheduleNothrow =>
      have hinv := step_inv h.acceptor hstep
      obtain ⟨hcreated, rfl⟩ := Option.ite_some_none_eq_some.mp hstep
      have hquiet := h.fresh (.inl hcreated)
      have hnot : s.stoppedAccepting = false := by
        cases h.acceptor.phase with
        | created _ _ _ _ hnot => exact hnot
        | waiting _ hrunning | leaving _ hrunning => simp [hrunning] at hcreated
        | stopped _ _ hready => simp [hcreated] at hready
        | completed hcompleted => simp [hcompleted] at hcreated
      have hstops : s.stoppedAccepting = true → False := by simp [hnot]
      rw [TcpAcceptor.scheduleNothrow] at hinv ⊢
      split_ifs with hcancel
      · rw [if_pos hcancel] at hinv
        exact ⟨hinv, fun _ => hquiet, fun _ _ _ _ _ => hcancel, fun _ => hquiet,
          h.shuttingDown, fun hs => absurd hs hstops, h.timer⟩
      · rw [if_neg hcancel] at hinv
        refine ⟨hinv, fun _ => hquiet, fun o ho hop ec hec => ?_, fun _ => hquiet,
          h.shuttingDown, fun hs => absurd hs hstops, h.timer⟩
        obtain ho | ho := mem_append.mp ho
        · exact h.aborted o ho hop ec hec
        · rw [mem_singleton.mp ho] at hec
          cases hec
    | requestCancel =>
      cases hstep
      exact h.requestCancel
    | resolved _ _ | acceptFails _ _ => exact h.complete hstep fun hop => by cases hop
    | accepted i connection =>
      obtain ⟨s₁, hs₁, rfl⟩ := Option.map_eq_some_iff.mp hstep
      have h₁ := h.complete hs₁ fun hop => by cases hop
      exact { h₁ with acceptor := step_inv h.acceptor hstep }
    | expires i => exact h.complete hstep fun _ => rfl
    | onResolved i listen => exact h.onResolved (p := p) hstep
    | onConnectionAccepted i answers => exact h.onConnectionAccepted (p := p) hstep
    | onAcceptBackOffExpired i => exact h.onAcceptBackOffExpired (p := p) hstep horderly
    | notifyReady i => exact h.notifyReady (p := p) hstep
  | completes i isFailed =>
    obtain ⟨c, hc, hs⟩ := Option.bind_eq_some_iff.mp hstep
    obtain ⟨hshutting, htimer⟩ := discard_frame
      (d := { s.derived with connections := s.derived.connections.eraseIdx i }) c isFailed
    refine h.derive hs ?_ (fun h => hshutting.trans h) (fun ht => htimer.symm.trans ht)
      fun ht => .inl (htimer.trans ht)
    -- The queue the task has left was not empty.
    rintro (hquiet | hn)
    · simp [hquiet.1] at hc
    · cases hn
  | onEvent i answers =>
    obtain ⟨event, -, hs⟩ := Option.bind_eq_some_iff.mp hstep
    have hstays := onEvent_stays
      (d := { s.derived with events := s.derived.events.eraseIdx i }) answers event
    refine h.derive hs ?_ hstays.shuttingDown (fun ht => hstays.timer.symm.trans ht)
      fun ht => .inl (hstays.timer.trans ht)
    rintro (hquiet | hn)
    · exact hstays.quiet hquiet
    · cases hn
  | onTimer =>
    obtain ⟨htimer, hs⟩ := Option.ite_none_right_eq_some.mp hstep
    rw [onTimer] at hs
    split at hs
    · rename_i hdrained
      simp only [State.isDrained, Bool.and_eq_true, List.isEmpty_iff] at hdrained
      exact h.derive hs (fun _ => ⟨hdrained.1, .inl rfl⟩) (fun _ => rfl)
        (fun ht => by cases ht) fun _ => .inr rfl
    · refine h.derive hs ?_ id id .inl
      rintro (hquiet | hn)
      · exact hquiet
      · cases hn
  | pushSupportingTask | supportingTaskCompletes =>
    obtain ⟨-, hs⟩ := Option.ite_none_right_eq_some.mp hstep
    refine h.derive hs ?_ id id .inl
    rintro (hquiet | hn)
    · exact hquiet
    · cases hn

/-! ## A server which is cancelled -/

/-- A section of the task itself. -/
def Label.isOwn : Label σ → Bool
  | .acceptor l => l.isOwn
  | .onTimer => true
  | _ => false

/-- How far the server is from its notification when its queues are empty. -/
def Server.rank (s : Server σ) : Nat :=
  TcpAcceptor.State.rank s + if s.derived.timer then 2 else 0

/-- The server is ready when its connections have completed, and once; until
then it goes on by itself, and towards the notification when its queues are
empty. -/
structure Drains (p : Parameters) (s : Server σ) : Prop where
  completed : s.ready ≠ [] → s.derived.connections = []
  once : s.ready.length ≤ 1
  goesOn : s.cancelRequested = true → s.state = .running →
    ∃ l, l.isOwn = true ∧ (step p s l).isSome = true
  finishes : s.cancelRequested = true → s.derived.isDrained = true →
    ∀ l s', l.isOwn = true → step p s l = some s' → Server.rank s' < Server.rank s

theorem DrainInv.goesOn (h : DrainInv s) (hcancel : s.cancelRequested = true)
    (hrunning : s.state = .running) : ∃ l, l.isOwn = true ∧ (step p s l).isSome = true := by
  cases hstopped : s.stoppedAccepting with
  | false =>
    have hfinishing : TcpAcceptor.Finishing (hooks p) s := h.acceptor.finishing hcancel
    obtain ⟨l, hown, hl⟩ := hfinishing.enabled hrunning hstopped
    refine ⟨.acceptor l, hown, ?_⟩
    cases l with
    | derived d n => cases hown
    | scheduleNothrow | requestCancel | resolved _ _ | accepted _ _ | acceptFails _ _
    | expires _ | onResolved _ _ | onConnectionAccepted _ _ | onAcceptBackOffExpired _
    | notifyReady _ => exact hl
  | true =>
    obtain htimer | hnotifications := h.waits hstopped hrunning
    · refine ⟨.onTimer, rfl, ?_⟩
      simp [step, htimer, Server.derive, TcpAcceptor.step, hstopped]
    · obtain ⟨eptr, rest, hcons⟩ := exists_cons_of_ne_nil hnotifications
      refine ⟨.acceptor (.notifyReady 0), rfl, ?_⟩
      simp [step, TcpAcceptor.step, hcons]

theorem DrainInv.finishes (h : DrainInv s) (hcancel : s.cancelRequested = true)
    (hdrained : s.derived.isDrained = true) (hown : l.isOwn = true)
    (hstep : step p s l = some s') : Server.rank s' < Server.rank s := by
  obtain ⟨l', rfl, hother, hs⟩ | ⟨hnot, -⟩ := step_acceptor hstep
  · have hlt := (TcpAcceptor.step_canceled h.acceptor hcancel hs).2.1 hown
    have htimer : s'.derived.timer = s.derived.timer := by
      have hderives := TcpAcceptor.step_derives h.acceptor hs
      generalize s'.derived = d' at hderives
      cases hderives with
      | same => rfl
      | processes i answers stream => exact processIncomingConnection_timer answers stream
      | continues =>
        refine (quiet_of_continueAfterStoppedAccepting ?_).2
        have hdrained' : State.isDrained
            { s.derived with shuttingDown := true, executionServices := false } = true := hdrained
        rw [continueAfterStoppedAccepting]
        rw [if_pos hdrained']
      | stops i eptr => exact (onTaskStoppedNothrow_frame eptr).2.2.2
      | derived => exact absurd rfl (hother _ _)
    rw [Server.rank, Server.rank, htimer]
    omega
  · cases l with
    | acceptor l' => exact absurd rfl (hnot l')
    | onTimer =>
      obtain ⟨htimer, hs⟩ := Option.ite_none_right_eq_some.mp hstep
      rw [onTimer, if_pos hdrained] at hs
      obtain ⟨-, rfl⟩ := Transition.ite_none_some_eq_some.mp hs
      simp [Server.rank, TcpAcceptor.State.rank, htimer]
      omega
    | completes | onEvent | pushSupportingTask | supportingTaskCompletes => cases hown

theorem DrainInv.drains (h : DrainInv s) (p : Parameters) : Drains p s where
  completed hready := (h.quiet (.inr hready)).1
  once := by
    cases h.acceptor.phase with
    | created _ _ _ hready | waiting _ _ _ _ hready | leaving _ _ _ _ hready
    | completed _ _ _ hready => simp [hready]
    | stopped _ _ hready =>
      obtain ⟨-, hready⟩ | ⟨-, hready⟩ := hready
      · simp [hready]
      · simp [hready]
  goesOn := h.goesOn
  finishes hcancel hdrained _ _ hown hstep := h.finishes hcancel hdrained hown hstep

/-- In every run in which the back-off takes its own way out only while no
connection is open, the server drains before it is ready. -/
theorem run_drains (p : Parameters) {ls : List (Label σ)} {s : Server σ}
    (hrun : Transition.run (step p) Server.create ls = some s)
    (horderly : Transition.Along (step p) OrderlyBackOff Server.create ls) : Drains p s :=
  (Transition.run_invariant (fun _ _ _ h hcond hstep => step_drainInv h hcond hstep)
    create_drainInv horderly hrun).drains p

instance : ∀ (s : Server σ) (l : Label σ), Decidable (OrderlyBackOff s l)
  | _, .acceptor (.onAcceptBackOffExpired _) => inferInstanceAs (Decidable (_ → _ ∧ _))
  | _, .acceptor (.scheduleNothrow) | _, .acceptor (.requestCancel)
  | _, .acceptor (.resolved ..) | _, .acceptor (.accepted ..) | _, .acceptor (.acceptFails ..)
  | _, .acceptor (.expires ..) | _, .acceptor (.onResolved ..)
  | _, .acceptor (.onConnectionAccepted ..) | _, .acceptor (.notifyReady ..)
  | _, .acceptor (.derived ..) | _, .completes .. | _, .onEvent .. | _, .onTimer
  | _, .pushSupportingTask | _, .supportingTaskCompletes => isTrue trivial

/-- A server without a limit, whose connections need no handshake. -/
def plainServer : Parameters where
  isProtocolHandshakeNeeded := false
  maxConnections := some 0
  connectionMemoryFootprint := 0
  physicalMemorySize := 0
  fileDescriptorSoftLimit := 0

/-- A connection is served when the server is cancelled. -/
def servingRun : List (Label Nat) :=
  [.acceptor .scheduleNothrow, .acceptor (.resolved 0 none), .acceptor (.onResolved 0 none),
    .acceptor (.accepted 0 1), .acceptor (.onConnectionAccepted 0 answersAll)]

/-- The request comes while the server accepts. -/
def drainingRun : List (Label Nat) :=
  servingRun ++ [.acceptor .requestCancel, .acceptor (.onConnectionAccepted 0 answersAll),
    .onTimer, .completes 0 false, .onTimer, .acceptor (.notifyReady 0)]

theorem run_drains_accepting :
    ∃ s, Transition.run (step plainServer) Server.create drainingRun = some s ∧
      s.ready = [none] ∧ Drains plainServer s := by
  refine ⟨_, rfl, rfl, ?_⟩
  exact @run_drains Nat plainServer drainingRun _ rfl (by decide)

/-- The request comes while it backs off. -/
theorem run_undrained :
    ∃ s, Transition.run (step plainServer) Server.create
        (servingRun ++ [.acceptor (.acceptFails 0 (.other 24)),
          .acceptor (.onConnectionAccepted 0 answersAll), .acceptor .requestCancel,
          .acceptor (.onAcceptBackOffExpired 0), .acceptor (.notifyReady 0)]) = some s ∧
      s.ready = [some .operationAborted] ∧ s.derived.connections = [⟨0, false, 1⟩] :=
  ⟨_, rfl, rfl, rfl⟩

end Baselib.Tasks.TcpServer
