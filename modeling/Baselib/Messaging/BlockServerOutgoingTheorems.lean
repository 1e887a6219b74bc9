/-
Baselib.Messaging.BlockServerOutgoingTheorems — when no connection of an
outgoing block server is stranded by the registry. As long as every
registration finds only connections of its own address active, a
connection is unconfirmed exactly as long as one heartbeat request for it
is under way (`State.pending`), so every notification meets the check of
the registry.
-/
import Baselib.Messaging.AutoPushConnectionTheorems
import Baselib.Messaging.BlockServerOutgoing
import Baselib.Messaging.OutgoingBackendStateTheorems

namespace Baselib.Messaging.BlockServerOutgoing

open Lib
open Lib.Transition (run Along run_invariant)
open Messaging.AutoPushConnection (Connection NotifyEventId WrappedTask Exception
  chkProtocolDataSize DataBlock Phase Dispatch)
open Messaging.OutgoingBackendState (QueuePtr registerQueue confirmQueue unregisterQueue
  Consistent retains)

variable {π κ : Type} {c c' : Connection π}

/-! ## What a connection shows of itself -/

/-- The fields of a connection which decide about its notifications, with
the notifications it has still to make. -/
structure View (π : Type) where
  notifies : Bool
  peerId : π
  remotePeerId : π
  targetPeerId : π
  wrappedTask : WrappedTask
  dataRawPtr : Option DataBlock
  heartbeatWasRequested : Bool
  activated : Bool
  taskTerminated : Bool
  events : List NotifyEventId

def view (c : Connection π) : View π where
  notifies := c.notifies
  peerId := c.peerId
  remotePeerId := c.remotePeerId
  targetPeerId := c.targetPeerId
  wrappedTask := c.wrappedTask
  dataRawPtr := c.dataRawPtr
  heartbeatWasRequested := c.heartbeatWasRequested
  activated := c.activated
  taskTerminated := c.taskTerminated
  events :=
    match c.phase with
    | .dispatching dispatch => dispatch.notifyEvents
    | _ => []

theorem nextEvent_eq (c : Connection π) : nextEvent c = (view c).events.head? := by
  unfold nextEvent view
  cases c.phase with
  | dispatching dispatch => rfl
  | created | executing | finished => rfl

structure View.Steady (nil : π) (v : View π) : Prop where
  notifies : v.notifies = true
  addressed : v.taskTerminated = false → v.dataRawPtr = none → v.targetPeerId = v.remotePeerId
  first : v.taskTerminated = false →
    v.activated = true ∨ v.dataRawPtr = none ∧ v.wrappedTask = .connectionTask
  known : v.activated = true → v.remotePeerId ≠ nil
  terminated : v.taskTerminated = true → v.activated = false
  events : v.events = [] ∨
    v.activated = true ∧ (v.events = [.register] ∨ v.events = [.confirm]) ∨
    v.taskTerminated = true ∧ v.events = [.unregister]

theorem steady_create (nil peerId : π) : (view (.create nil peerId true)).Steady nil := by
  constructor <;> simp [view, Connection.create]

theorem view_scheduleNothrow (hevents : (view c).events = [])
    (h : AutoPushConnection.scheduleNothrow c = some c') : view c' = view c := by
  obtain ⟨inProgress, rfl⟩ := AutoPushConnection.scheduleNothrow_eq h
  simp only [view] at hevents ⊢
  rw [hevents]

/-- Steps which are neither a run nor a notification. -/
theorem view_step [DecidableEq π] {nil : π}
    {label : AutoPushConnection.Label π} (hadmitted : admitted false label = true)
    (hrun : ∀ declaredPeerId exception isShutdownNeeded,
      label ≠ .completed declaredPeerId exception isShutdownNeeded)
    (hstep : AutoPushConnection.step nil c label = some c') : view c' = view c := by
  cases label with
  | start =>
    simp only [AutoPushConnection.step] at hstep
    split at hstep
    · rename_i hphase
      exact view_scheduleNothrow (by simp [view, hphase]) hstep
    · cases hstep
  | tryScheduleBlock targetPeerId dataBlock =>
    obtain ⟨pendingQueue, accepted, heq⟩ :=
      AutoPushConnection.tryScheduleBlock_kept c targetPeerId dataBlock
    cases hstep
    rw [heq]
    rfl
  | requestHeartbeat => cases hadmitted
  | requestCancel =>
    cases hstep
    rfl
  | completed declaredPeerId exception isShutdownNeeded => exact absurd rfl (hrun _ _ _)
  | notified thrown => cases hadmitted
  | callback =>
    simp only [AutoPushConnection.step] at hstep
    split at hstep
    · rename_i dispatch hphase
      unfold Connection.callback at hstep
      split at hstep
      · rename_i callback callbacks hevents hcallbacks
        cases hstep
        simp [view, hphase]
      · cases hstep
    · cases hstep
  | resume =>
    simp only [AutoPushConnection.step] at hstep
    split at hstep
    · rename_i dispatch hphase
      unfold Connection.resume at hstep
      split at hstep
      · rename_i hevents hcallbacks
        have hnone : (view c).events = [] := by simp [view, hphase, hevents]
        split at hstep
        · exact view_scheduleNothrow hnone hstep
        · cases hstep
          simp only [view] at hnone ⊢
          rw [hnone]
      · cases hstep
    · cases hstep

/-! ## A run of a connection -/

/-- The remote declares one peer id, which is neither nil nor that of the
server. -/
def Declares (nil : π) (c : Connection π) (declaredPeerId : Option π) : Prop :=
  ∀ peerId ∈ declaredPeerId,
    peerId ≠ nil ∧ peerId ≠ c.peerId ∧ (c.remotePeerId = nil ∨ c.remotePeerId = peerId)

theorem handleAckPacket_declared [DecidableEq π] {nil : π}
    {declaredPeerId : Option π} (hdeclares : Declares nil c declaredPeerId)
    (htarget : declaredPeerId.isSome = true → c.targetPeerId = c.remotePeerId) :
    ∃ remotePeerId,
      c.handleAckPacket nil declaredPeerId = { c with remotePeerId := remotePeerId } ∧
      (c.remotePeerId ≠ nil → remotePeerId = c.remotePeerId) ∧
      (declaredPeerId.isSome = true → remotePeerId ≠ nil) := by
  cases declaredPeerId with
  | none => exact ⟨c.remotePeerId, rfl, fun _ => rfl, nofun⟩
  | some peerId =>
    obtain ⟨hnil, hown, hremote⟩ := hdeclares peerId rfl
    have htarget := htarget rfl
    obtain hremote | hremote := hremote
    · refine ⟨peerId, ?_, fun h => absurd hremote h, fun _ => hnil⟩
      simp [Connection.handleAckPacket, AutoPushConnection.isNonNullAndSame, htarget, hremote,
        hnil, hown]
    · refine ⟨c.remotePeerId, ?_, fun _ => rfl, fun _ => hremote ▸ hnil⟩
      exact if_neg (by simp [hremote])

/-- What the section after a run does to a connection that goes on. -/
def View.GoesOn (nil : π) (v v' : View π) : Prop :=
  v.taskTerminated = false ∧ v'.taskTerminated = false ∧ v'.activated = true ∧
    v'.remotePeerId ≠ nil ∧
    (v'.heartbeatWasRequested = false ∧
        v'.events = (if v.activated then [] else [.register]) ++
          (if v.heartbeatWasRequested then [.confirm] else []) ∨
      v.activated = true ∧ v'.heartbeatWasRequested = v.heartbeatWasRequested ∧ v'.events = [])

def View.Terminates (v v' : View π) : Prop :=
  v'.taskTerminated = true ∧ v'.activated = false ∧
    v'.events = if v.activated then [.unregister] else []

theorem terminates_terminate (hnotifies : c.notifies = true)
    (exception : Exception π) (isShutdownNeeded : Bool) :
    (view c).Terminates (view (c.terminate exception isShutdownNeeded)) := by
  unfold Connection.terminate
  dsimp only
  split <;> simp [View.Terminates, view, hnotifies]

theorem goesOn_proceed {nil : π} (hruns : c.Runs) (hsteady : (view c).notifies = true)
    (hterminated : c.taskTerminated = false) (exception : Option (Exception π))
    (hknown : c.wrappedTask = .connectionTask ∧ exception = none ∨ c.activated = true →
      c.remotePeerId ≠ nil)
    (hfirst : c.wrappedTask = .connectionTask ∧ exception = none ∨ c.activated = true) :
    (view c).GoesOn nil (view (c.proceed exception)) := by
  obtain ⟨targetPeerId, dataRawPtr, wrappedTask, heq, -, -⟩ :=
    AutoPushConnection.proceed_eq exception hruns.valid
  have hnotifies : c.notifies = true := hsteady
  rw [heq]
  refine ⟨hterminated, hterminated, ?_, hknown hfirst, ?_⟩
  · obtain ⟨hwrapped, hnone⟩ | hactivated := hfirst
    · simp [view, hwrapped, hnone]
    · simp [view, hactivated]
  · by_cases hsucceeds : c.wrappedTask = .connectionTask ∧ exception = none
    · left
      simp [view, Connection.notifyEvents, hsucceeds, hnotifies]
    · right
      have hfails : (c.wrappedTask == .connectionTask && exception.isNone) = false := by
        simpa [Option.isSome_iff_ne_none] using hsucceeds
      refine ⟨hfirst.resolve_left hsucceeds, ?_, ?_⟩
      · simp [view, hfails]
      · simp [view, Connection.notifyEvents, hfails]

/-- A heartbeat which does not end the task has succeeded. -/
theorem admits_heartbeat {declaredPeerId : Option π}
    {exception : Option (Exception π)} (hadmits : c.admits declaredPeerId exception = true)
    (hheartbeat : c.sendsHeartbeat = true) (hgoes : c.decidesTermination exception = false) :
    exception = none ∧ declaredPeerId.isSome = true := by
  simp only [Connection.admits, hheartbeat, if_true, Bool.and_eq_true, Bool.or_eq_true] at hadmits
  cases exception with
  | none => exact ⟨rfl, hadmits.1.resolve_right nofun⟩
  | some exception =>
    obtain ⟨hstop, hexpected⟩ := Bool.or_eq_false_iff.mp hgoes
    have hunexpected := hadmits.2.resolve_left (hstop ▸ Bool.false_ne_true)
    rw [Option.all_some] at hunexpected
    exact absurd (hunexpected.symm.trans hexpected) Bool.false_ne_true.symm

theorem admits_declared {declaredPeerId : Option π}
    {exception : Option (Exception π)} (hadmits : c.admits declaredPeerId exception = true)
    (hdeclared : declaredPeerId.isSome = true) : c.sendsHeartbeat = true := by
  by_contra hother
  rw [Connection.admits, if_neg hother, Option.isNone_iff_eq_none] at hadmits
  rw [hadmits] at hdeclared
  cases hdeclared

theorem sendsHeartbeat_iff : c.sendsHeartbeat = true ↔
    c.wrappedTask = .connectionTask ∧ c.dataRawPtr = none ∧ c.originalException = none := by
  simp [Connection.sendsHeartbeat, and_assoc]

/-- A run ends the task or goes on. -/
theorem view_completed [DecidableEq π] {nil : π}
    {declaredPeerId : Option π} {exception : Option (Exception π)} {isShutdownNeeded : Bool}
    (hinv : c.Inv) (hsteady : (view c).Steady nil) (hdeclares : Declares nil c declaredPeerId)
    (hstep : AutoPushConnection.step nil c
      (.completed declaredPeerId exception isShutdownNeeded) = some c') :
    (view c).events = [] ∧
      ((view c).remotePeerId ≠ nil → (view c').remotePeerId = (view c).remotePeerId) ∧
      (view c').notifies = true ∧
      ((view c').taskTerminated = false → (view c').dataRawPtr = none →
        (view c').targetPeerId = (view c').remotePeerId) ∧
      ((view c).Terminates (view c') ∨ (view c).GoesOn nil (view c')) := by
  simp only [AutoPushConnection.step] at hstep
  split at hstep
  · rename_i hphase
    split at hstep
    · rename_i hadmits
      cases hstep
      have hruns := hinv.placed
      simp only [Connection.Placed, hphase] at hruns
      have hheartbeat : c.sendsHeartbeat = true → c.targetPeerId = c.remotePeerId := fun h => by
        obtain ⟨-, hdata, horiginal⟩ := sendsHeartbeat_iff.mp h
        refine hsteady.addressed ?_ hdata
        exact hruns.terminated.trans (by rw [horiginal]; rfl)
      obtain ⟨remotePeerId, heq, hkept, hlearned⟩ :=
        handleAckPacket_declared hdeclares fun h => hheartbeat (admits_declared hadmits h)
      obtain ⟨acknowledged, heq'⟩ :=
        AutoPushConnection.acknowledge_eq { c with remotePeerId := remotePeerId } exception
      rw [heq, heq']
      have hnone : (view c).events = [] := by simp [view, hphase]
      have hnotifies : c.notifies = true := hsteady.notifies
      unfold Connection.continuationTask
      dsimp only
      split
      · have hkeeps : ∀ (d : Connection π) e b, (d.terminate e b).remotePeerId = d.remotePeerId ∧
            (d.terminate e b).notifies = d.notifies := by
          intro d e b
          unfold Connection.terminate
          dsimp only
          split <;> exact ⟨rfl, rfl⟩
        have hterminates := @terminates_terminate _
          { c with remotePeerId := remotePeerId, acknowledged := acknowledged } hnotifies
          ((c.originalException <|> exception).getD .operationAborted) isShutdownNeeded
        refine ⟨hnone, fun h => (hkeeps _ _ _).1.trans (hkept h),
          (hkeeps _ _ _).2.trans hnotifies, fun h => ?_, .inl hterminates⟩
        exact absurd (hterminates.1.symm.trans h) Bool.false_ne_true.symm
      · rename_i hgoes
        obtain ⟨horiginal, hgoes⟩ := hruns.decides (Bool.not_eq_true _ ▸ hgoes)
        have hexception : (c.originalException <|> exception) = exception := by
          rw [horiginal]
          rfl
        rw [hexception]
        have hterminated : c.taskTerminated = false :=
          hruns.terminated.trans (by rw [horiginal]; rfl)
        have hruns' : Connection.Runs
            { c with remotePeerId := remotePeerId, acknowledged := acknowledged } :=
          ⟨hruns.original, hruns.terminated, hruns.command, hruns.valid⟩
        have hfirst : c.activated = true ∨
            c.wrappedTask = .connectionTask ∧ exception = none ∧ declaredPeerId.isSome = true := by
          refine (hsteady.first hterminated).imp_right fun h => ?_
          obtain ⟨hdata, hwrapped⟩ := h
          exact ⟨hwrapped,
            admits_heartbeat hadmits (sendsHeartbeat_iff.mpr ⟨hwrapped, hdata, horiginal⟩) hgoes⟩
        have hknown : remotePeerId ≠ nil := by
          obtain hactivated | ⟨-, -, hdeclared⟩ := hfirst
          · have hnil := hsteady.known hactivated
            exact fun h => hnil ((hkept hnil).symm.trans h)
          · exact hlearned hdeclared
        have hgoesOn := goesOn_proceed hruns' hnotifies hterminated exception (fun _ => hknown)
          (hfirst.symm.imp_left fun h => ⟨h.1, h.2.1⟩)
        obtain ⟨targetPeerId, dataRawPtr, wrappedTask, hproceed, htarget, -⟩ :=
          AutoPushConnection.proceed_eq exception hruns'.valid
        refine ⟨hnone, ?_, ?_, ?_, .inr hgoesOn⟩
        · rwa [hproceed]
        · rwa [hproceed]
        · rw [hproceed]
          exact fun _ => htarget
    · cases hstep
  · cases hstep

/-- A run keeps a connection steady, when no heartbeat was requested before
its registration. -/
theorem steady_completed [DecidableEq π] {nil : π}
    {declaredPeerId : Option π} {exception : Option (Exception π)} {isShutdownNeeded : Bool}
    (hinv : c.Inv) (hsteady : (view c).Steady nil) (hdeclares : Declares nil c declaredPeerId)
    (hrequested : (view c).taskTerminated = false → (view c).activated = false →
      (view c).heartbeatWasRequested = false)
    (hstep : AutoPushConnection.step nil c
      (.completed declaredPeerId exception isShutdownNeeded) = some c') :
    (view c').Steady nil := by
  obtain ⟨-, -, hnotifies, haddressed, hcases⟩ := view_completed hinv hsteady hdeclares hstep
  obtain ⟨hterminated, hactivated, hevents⟩ | ⟨hgoes, hterminated, hactivated, hknown, hevents⟩ :=
    hcases
  · refine ⟨hnotifies, haddressed, fun h => ?_, fun h => ?_, fun _ => hactivated, ?_⟩
    · exact absurd (hterminated.symm.trans h) Bool.false_ne_true.symm
    · exact absurd (hactivated.symm.trans h) Bool.false_ne_true
    · rw [hevents]
      split
      · exact .inr (.inr ⟨hterminated, rfl⟩)
      · exact .inl rfl
  · refine ⟨hnotifies, haddressed, fun _ => .inl hactivated, fun _ => hknown, fun h => ?_, ?_⟩
    · exact absurd (hterminated.symm.trans h) Bool.false_ne_true
    · obtain ⟨-, hevents⟩ | ⟨-, -, hevents⟩ := hevents
      · rw [hevents]
        by_cases hbefore : (view c).activated = true
        · rw [if_pos hbefore]
          split
          · exact .inr (.inl ⟨hactivated, .inr rfl⟩)
          · exact .inl rfl
        · have hunrequested := hrequested hgoes (Bool.not_eq_true _ ▸ hbefore)
          rw [if_neg hbefore, if_neg (hunrequested ▸ Bool.false_ne_true)]
          exact .inr (.inl ⟨hactivated, .inl rfl⟩)
      · exact .inl hevents

/-! ## The invariant -/

section

variable [DecidableEq π] [LinearOrder κ]

/-- The heartbeats of the connection which are under way. -/
def State.pending (s : State π κ) (queue : κ) : Nat :=
  s.requests.countP (fun request => request.2 = (queue : QueuePtr κ)) +
    (view (s.connections queue)).heartbeatWasRequested.toNat +
    (view (s.connections queue)).events.count .confirm

def State.Unconfirmed (s : State π κ) (queue : κ) : Prop :=
  (queue : QueuePtr κ) ∈ s.registry.unconfirmedQueues (s.connections queue).remotePeerId

/-- The connection has registered and has not unregistered. -/
def View.Registers (v : View π) : Prop :=
  v.activated = true ∧ .register ∉ v.events ∨ .unregister ∈ v.events

structure Inv (nil : π) (s : State π κ) : Prop where
  registry : Consistent s.registry
  connections : ∀ queue, (s.connections queue).Inv
  steady : ∀ queue, (view (s.connections queue)).Steady nil
  registered : ∀ queue : κ,
    (s.registry.connections2PeerId.lookup (queue : QueuePtr κ)).isSome = true ↔
      (view (s.connections queue)).Registers
  recorded : ∀ (queue : κ) info,
    s.registry.connections2PeerId.lookup (queue : QueuePtr κ) = some info →
      info.peerId = (s.connections queue).remotePeerId
  /-- A connection is unconfirmed as long as a heartbeat is under way. -/
  pending : ∀ queue, (view (s.connections queue)).taskTerminated = false →
    s.pending queue ≤ 1 ∧ (s.pending queue = 1 ↔ s.Unconfirmed queue)

theorem create_inv (nil peerId : π) : Inv nil (State.create nil peerId : State π κ) where
  registry := OutgoingBackendState.consistent_empty
  connections queue := AutoPushConnection.create_inv nil peerId true
  steady queue := steady_create nil peerId
  registered queue := by
    simp [State.create, OutgoingBackendState.State.empty, View.Registers, view, Connection.create]
  recorded queue info h := by cases h
  pending queue _ := by
    simp [State.create, State.pending, State.Unconfirmed, view, Connection.create,
      OutgoingBackendState.State.empty, OutgoingBackendState.State.unconfirmedQueues,
      OutgoingBackendState.State.peerInfo]

/-! ## What the registry checks -/

/-- What the registry checks of a notification. -/
def Precondition (nil : π) (s : State π κ) (queue : κ) : NotifyEventId → Prop
  | .register =>
    (s.connections queue).remotePeerId ≠ nil ∧
      s.registry.connections2PeerId.lookup (queue : QueuePtr κ) = none
  | .confirm =>
    s.registry.Records queue (s.connections queue).remotePeerId ∧ s.Unconfirmed queue
  | .unregister => s.registry.Records queue (s.connections queue).remotePeerId

variable {nil : π} {s s' : State π κ} {queue : κ} {remoteAddress : κ → Octets}

theorem Inv.records (h : Inv nil s) (hregisters : (view (s.connections queue)).Registers) :
    s.registry.Records queue (s.connections queue).remotePeerId := by
  obtain ⟨info, hinfo⟩ := Option.isSome_iff_exists.mp ((h.registered queue).mpr hregisters)
  exact ⟨info, hinfo, h.recorded queue info hinfo⟩

theorem Inv.lookup_none (h : Inv nil s) (hregisters : ¬ (view (s.connections queue)).Registers) :
    s.registry.connections2PeerId.lookup (queue : QueuePtr κ) = none := by
  rw [← h.registered queue, Bool.not_eq_true] at hregisters
  exact Option.not_isSome_iff_eq_none.mp (hregisters ▸ Bool.false_ne_true)

/-- Every notification that a connection has still to make meets the check
of the registry. -/
theorem Inv.precondition (h : Inv nil s) {event : NotifyEventId}
    (hnext : nextEvent (s.connections queue) = some event) : Precondition nil s queue event := by
  rw [nextEvent_eq] at hnext
  have hsteady := h.steady queue
  obtain hevents | ⟨hactivated, hevents | hevents⟩ | ⟨hterminated, hevents⟩ := hsteady.events
  · simp [hevents] at hnext
  · obtain rfl : NotifyEventId.register = event := by simpa [hevents] using hnext
    refine ⟨hsteady.known hactivated, h.lookup_none ?_⟩
    simp [View.Registers, hevents]
  · obtain rfl : NotifyEventId.confirm = event := by simpa [hevents] using hnext
    refine ⟨h.records (.inl ⟨hactivated, by simp [hevents]⟩), ?_⟩
    have hgoes : (view (s.connections queue)).taskTerminated = false := by
      by_contra hterminated
      have hnot := hsteady.terminated (Bool.not_eq_false _ ▸ hterminated)
      exact absurd (hactivated.symm.trans hnot) Bool.false_ne_true.symm
    obtain ⟨hle, hiff⟩ := h.pending queue hgoes
    refine hiff.mp (Nat.le_antisymm hle ?_)
    simp [State.pending, hevents]
  · obtain rfl : NotifyEventId.unregister = event := by simpa [hevents] using hnext
    exact h.records (.inr (by simp [hevents]))

/-- A notification which meets its check does not throw. -/
theorem Inv.notifyCallback_returns (h : Inv nil s) {event : NotifyEventId}
    (hpre : Precondition nil s queue event) :
    (notifyCallback nil remoteAddress queue event s).1 = none := by
  cases event with
  | register =>
    obtain ⟨hnil, hnew⟩ := hpre
    obtain ⟨unconfirmed, -, -, heq⟩ :=
      @OutgoingBackendState.registerQueue_registered _ _ _ _ _ _ _ _ (remoteAddress queue)
        h.registry hnil hnew
    simp [notifyCallback, heq]
  | confirm =>
    obtain ⟨hrecords, hunconfirmed⟩ := hpre
    obtain ⟨registry, heq, -, -⟩ :=
      OutgoingBackendState.confirmQueue_confirmed h.registry hrecords hunconfirmed
    simp [notifyCallback, heq]
  | unregister =>
    obtain ⟨registry, heq, -, -⟩ :=
      OutgoingBackendState.unregisterQueue_unregistered h.registry hpre
    simp [notifyCallback, heq]

/-! ## Steps of one connection -/

omit [DecidableEq π] in
@[simp] theorem setConnection_same (s : State π κ) (queue : κ) (c : Connection π) :
    (s.setConnection queue c).connections queue = c := Function.update_self _ _ _

omit [DecidableEq π] in
@[simp] theorem setConnection_ne (s : State π κ) {queue other : κ} (hne : other ≠ queue)
    (c : Connection π) : (s.setConnection queue c).connections other = s.connections other :=
  Function.update_of_ne hne _ _

/-- A step which changes one connection and leaves the registry alone: what
it has to keep. -/
theorem Inv.setConnection (h : Inv nil s) (hinv : c.Inv) (hsteady : (view c).Steady nil)
    (hregisters : (view c).Registers ↔ (view (s.connections queue)).Registers)
    (hremote : (view (s.connections queue)).Registers →
      c.remotePeerId = (s.connections queue).remotePeerId)
    (hpending : (view c).taskTerminated = false →
      (view (s.connections queue)).taskTerminated = false ∧
        (view c).heartbeatWasRequested.toNat + (view c).events.count .confirm =
          (view (s.connections queue)).heartbeatWasRequested.toNat +
            (view (s.connections queue)).events.count .confirm) :
    Inv nil (s.setConnection queue c) where
  registry := h.registry
  connections other := by
    by_cases hne : other = queue
    · rwa [hne, setConnection_same]
    · rw [setConnection_ne s hne]
      exact h.connections other
  steady other := by
    by_cases hne : other = queue
    · rwa [hne, setConnection_same]
    · rw [setConnection_ne s hne]
      exact h.steady other
  registered other := by
    by_cases hne : other = queue
    · rw [hne, setConnection_same, hregisters]
      exact h.registered queue
    · rw [setConnection_ne s hne]
      exact h.registered other
  recorded other info hinfo := by
    obtain rfl | hne := eq_or_ne other queue
    · rw [setConnection_same, hremote ((h.registered other).mp (Option.isSome_of_eq_some hinfo))]
      exact h.recorded other info hinfo
    · rw [setConnection_ne s hne]
      exact h.recorded other info hinfo
  pending other hgoes := by
    obtain rfl | hne := eq_or_ne other queue
    · rw [setConnection_same] at hgoes
      obtain ⟨hbefore, hsum⟩ := hpending hgoes
      have hcount : (s.setConnection other c).pending other = s.pending other := by
        simp only [State.pending, setConnection_same, Nat.add_assoc, hsum]
        rfl
      have hunconfirmed : (s.setConnection other c).Unconfirmed other ↔ s.Unconfirmed other := by
        simp only [State.Unconfirmed, setConnection_same]
        by_cases hregistered : (view (s.connections other)).Registers
        · rw [hremote hregistered]
          exact Iff.rfl
        · have hnew := h.lookup_none hregistered
          exact iff_of_false (OutgoingBackendState.not_listed h.registry hnew).2
            (OutgoingBackendState.not_listed h.registry hnew).2
      rw [hcount, hunconfirmed]
      exact h.pending other hbefore
    · rw [setConnection_ne s hne] at hgoes
      have hsame := h.pending other hgoes
      simp only [State.pending, State.Unconfirmed, setConnection_ne s hne] at hsame ⊢
      exact hsame

/-- The condition on a step: a registration finds only connections active
that are not from another known address, the remote declares one peer id,
and the protocol data of a block lies within the block. -/
def OneHost (nil : π) (remoteAddress : κ → Octets) (s : State π κ) : Label π κ → Prop
  | .notify queue =>
    nextEvent (s.connections queue) = some .register →
      ∀ active ∈ s.registry.activeQueues (s.connections queue).remotePeerId,
        retains s.registry.connections2PeerId (remoteAddress queue) active = false
  | .connection queue (.completed declaredPeerId _ _) =>
    Declares nil (s.connections queue) declaredPeerId
  | .connection _ (.tryScheduleBlock _ dataBlock) => chkProtocolDataSize dataBlock = none
  | _ => True

omit [DecidableEq π] in
theorem admitted_false {label : AutoPushConnection.Label π} {requesting : Bool}
    (h : admitted requesting label = true) : admitted false label = true := by
  cases requesting with
  | false => exact h
  | true =>
    cases label with
    | notified _ | requestHeartbeat | callback | resume => cases h
    | start | tryScheduleBlock _ _ | requestCancel | completed _ _ _ => rfl

/-- Before its registration no heartbeat is requested of a connection. -/
theorem Inv.unrequested (h : Inv nil s)
    (hgoes : (view (s.connections queue)).taskTerminated = false)
    (hactivated : (view (s.connections queue)).activated = false) :
    (view (s.connections queue)).heartbeatWasRequested = false := by
  have hregisters : ¬ (view (s.connections queue)).Registers := by
    rintro (⟨hyes, -⟩ | hunregister)
    · exact absurd (hactivated.symm.trans hyes) Bool.false_ne_true
    · obtain hevents | ⟨hyes, -⟩ | ⟨hterminated, -⟩ := (h.steady queue).events
      · exact absurd (hevents ▸ hunregister) List.not_mem_nil
      · exact absurd (hactivated.symm.trans hyes) Bool.false_ne_true
      · exact absurd (hgoes.symm.trans hterminated) Bool.false_ne_true
  have hlisted := @OutgoingBackendState.not_listed _ _ _ _ _ (s.connections queue).remotePeerId _
    h.registry (h.lookup_none hregisters)
  obtain ⟨hle, hiff⟩ := h.pending queue hgoes
  by_contra hrequested
  have hone : s.pending queue = 1 := by
    refine Nat.le_antisymm hle ?_
    simp only [State.pending, Bool.not_eq_false _ ▸ hrequested, Bool.toNat_true]
    omega
  exact hlisted.2 (hiff.mp hone)

theorem Inv.connection (h : Inv nil s) {label : AutoPushConnection.Label π}
    (hcond : OneHost nil remoteAddress s (.connection queue label))
    (hadmitted : admitted false label = true)
    (hstep : AutoPushConnection.step nil (s.connections queue) label = some c) :
    Inv nil (s.setConnection queue c) := by
  have hreturns : AutoPushConnection.Returns (s.connections queue) label := by
    cases label with
    | notified thrown => cases hadmitted
    | tryScheduleBlock targetPeerId dataBlock => exact hcond
    | _ => trivial
  have hinv := AutoPushConnection.step_inv (h.connections queue) hreturns hstep
  by_cases hrun : ∃ declaredPeerId exception isShutdownNeeded,
      label = .completed declaredPeerId exception isShutdownNeeded
  · obtain ⟨declaredPeerId, exception, isShutdownNeeded, rfl⟩ := hrun
    have hsteady := h.steady queue
    obtain ⟨hevents, hremote, -, -, hcases⟩ :=
      view_completed (h.connections queue) hsteady hcond hstep
    have hregisters : (view (s.connections queue)).Registers ↔
        (view (s.connections queue)).activated = true := by
      simp [View.Registers, hevents]
    refine h.setConnection hinv
      (steady_completed (h.connections queue) hsteady hcond (fun ht ha => h.unrequested ht ha)
        hstep) ?_ (fun hreg => hremote (hsteady.known (hregisters.mp hreg))) fun hgoes => ?_
    · rw [hregisters]
      obtain ⟨-, hactivated, hafter⟩ | ⟨-, -, hactivated, -, hafter⟩ := hcases
      · cases hbefore : (view (s.connections queue)).activated <;>
          simp [View.Registers, hactivated, hafter, hbefore]
      · obtain ⟨-, hafter⟩ | ⟨hbefore, -, hafter⟩ := hafter
        · cases hbefore : (view (s.connections queue)).activated <;>
            cases hrequested : (view (s.connections queue)).heartbeatWasRequested <;>
              simp [View.Registers, hactivated, hafter, hbefore, hrequested]
        · simp [View.Registers, hactivated, hafter, hbefore]
    · obtain ⟨hterminated, -⟩ | ⟨hbefore, -, -, -, hafter⟩ := hcases
      · exact absurd (hterminated.symm.trans hgoes) Bool.false_ne_true.symm
      · refine ⟨hbefore, ?_⟩
        obtain ⟨hconsumed, hafter⟩ | ⟨-, hkept, hafter⟩ := hafter
        · rw [hconsumed, hafter, hevents]
          cases (view (s.connections queue)).activated <;>
            cases (view (s.connections queue)).heartbeatWasRequested <;> rfl
        · rw [hkept, hafter, hevents]
  · have hview := view_step hadmitted (fun d e b heq => hrun ⟨d, e, b, heq⟩) hstep
    refine h.setConnection hinv (hview ▸ h.steady queue) (by rw [hview])
      (fun _ => congrArg View.remotePeerId hview) fun hgoes => ?_
    rw [hview] at hgoes ⊢
    exact ⟨hgoes, rfl⟩

/-! ## Notifications -/

/-- A notification is the only one its connection has to make. -/
theorem view_notified {event : NotifyEventId}
    (hsteady : (view c).Steady nil) (hnext : nextEvent c = some event)
    (hstep : AutoPushConnection.step nil c (.notified none) = some c') :
    (view c).events = [event] ∧ view c' = { view c with events := [] } := by
  rw [nextEvent_eq] at hnext
  have hone : (view c).events = [event] := by
    obtain hevents | ⟨-, hevents | hevents⟩ | ⟨-, hevents⟩ := hsteady.events <;>
      rw [hevents] at hnext ⊢ <;> cases hnext <;> rfl
  refine ⟨hone, ?_⟩
  simp only [AutoPushConnection.step] at hstep
  split at hstep
  · rename_i dispatch hphase
    simp only [Connection.notified] at hstep
    have hevents : dispatch.notifyEvents = [event] := by simpa [view, hphase] using hone
    rw [hevents] at hstep
    cases hstep
    rfl
  · cases hstep

/-- The registry after a notification: what it has to keep. -/
theorem Inv.notified (h : Inv nil s) (hinv : c.Inv)
    (hview : view c = { view (s.connections queue) with events := [] })
    {registry : OutgoingBackendState.State π κ} {requests : List (κ × QueuePtr κ)}
    (hregistry : Consistent registry)
    (hothers : ∀ other : κ, other ≠ queue →
      registry.connections2PeerId.lookup (other : QueuePtr κ) =
        s.registry.connections2PeerId.lookup (other : QueuePtr κ))
    (hregistered : (registry.connections2PeerId.lookup (queue : QueuePtr κ)).isSome = true ↔
      (view (s.connections queue)).activated = true)
    (hrecorded : ∀ info, registry.connections2PeerId.lookup (queue : QueuePtr κ) = some info →
      info.peerId = (s.connections queue).remotePeerId)
    (hpending : ∀ other : κ, (view (s.connections other)).taskTerminated = false →
      let pending := requests.countP (fun request => request.2 = (other : QueuePtr κ)) +
        (view (s.connections other)).heartbeatWasRequested.toNat +
        if other = queue then 0 else (view (s.connections other)).events.count .confirm
      pending ≤ 1 ∧ (pending = 1 ↔ (other : QueuePtr κ) ∈
        registry.unconfirmedQueues (s.connections other).remotePeerId)) :
    Inv nil (State.setConnection { s with registry := registry, requests := requests } queue c) where
  registry := hregistry
  connections other := by
    by_cases hne : other = queue
    · rwa [hne, setConnection_same]
    · rw [setConnection_ne _ hne]
      exact h.connections other
  steady other := by
    by_cases hne : other = queue
    · rw [hne, setConnection_same, hview]
      have hsteady := h.steady queue
      exact ⟨hsteady.notifies, hsteady.addressed, hsteady.first, hsteady.known,
        hsteady.terminated, .inl rfl⟩
    · rw [setConnection_ne _ hne]
      exact h.steady other
  registered other := by
    by_cases hne : other = queue
    · rw [hne, setConnection_same, hview]
      exact hregistered.trans (by simp [View.Registers])
    · rw [setConnection_ne _ hne]
      exact (hothers other hne).symm ▸ h.registered other
  recorded other info hinfo := by
    obtain rfl | hne := eq_or_ne other queue
    · rw [setConnection_same]
      exact (hrecorded info hinfo).trans (congrArg View.remotePeerId hview).symm
    · rw [setConnection_ne _ hne]
      exact h.recorded other info ((hothers other hne).symm.trans hinfo)
  pending other hgoes := by
    obtain rfl | hne := eq_or_ne other queue
    · rw [setConnection_same, hview] at hgoes
      have hremote : c.remotePeerId = (s.connections other).remotePeerId :=
        congrArg View.remotePeerId hview
      have hsame := hpending other hgoes
      simp only [if_true] at hsame
      simp only [State.pending, State.Unconfirmed, setConnection_same, hview, hremote,
        List.count_nil]
      exact hsame
    · rw [setConnection_ne _ hne] at hgoes
      have hsame := hpending other hgoes
      simp only [if_neg hne] at hsame
      simp only [State.pending, State.Unconfirmed, setConnection_ne _ hne]
      exact hsame

/-- The connections that are demoted are requested to do a heartbeat. -/
theorem Inv.notify_register (h : Inv nil s) (hinv : c.Inv)
    (hview : view c = { view (s.connections queue) with events := [] })
    (hevents : (view (s.connections queue)).events = [.register])
    (hpre : Precondition nil s queue .register)
    (hretains : ∀ active ∈ s.registry.activeQueues (s.connections queue).remotePeerId,
      retains s.registry.connections2PeerId (remoteAddress queue) active = false) :
    Inv nil ((notifyCallback nil remoteAddress queue .register s).2.setConnection queue c) := by
  obtain ⟨hnil, hnew⟩ := hpre
  obtain ⟨registry, heq, hrecords, hunconfirmed⟩ :=
    OutgoingBackendState.registerQueue_unconfirmed h.registry hnil hnew hretains
  have hregistry : Consistent registry := by
    have hafter := @OutgoingBackendState.registerQueue_consistent _ _ _ _ _ nil
      (s.connections queue).remotePeerId queue (remoteAddress queue) h.registry
    rwa [heq] at hafter
  have hactivated : (view (s.connections queue)).activated = true := by
    obtain hnone | ⟨hactivated, -⟩ | ⟨-, hother⟩ := (h.steady queue).events
    · simp [hevents] at hnone
    · exact hactivated
    · simp [hevents] at hother
  simp only [notifyCallback, heq]
  refine h.notified hinv hview hregistry (fun other hne => ?_) ?_ (fun info hinfo => ?_)
    fun other hgoes => ?_
  · rw [hrecords]
    exact AList.lookup_insert_ne (fun heq => hne (WithBot.coe_injective heq))
  · rw [hrecords, AList.lookup_insert]
    exact iff_of_true rfl hactivated
  · rw [hrecords, AList.lookup_insert] at hinfo
    rw [← Option.some.inj hinfo]
  · have hcount : (s.requests ++ (s.registry.activeQueues (s.connections queue).remotePeerId).map
        fun localQueue => (queue, localQueue)).countP
          (fun request => request.2 = (other : QueuePtr κ)) =
        s.requests.countP (fun request => request.2 = (other : QueuePtr κ)) +
          (s.registry.activeQueues (s.connections queue).remotePeerId).count
            (other : QueuePtr κ) := by
      rw [List.countP_append, List.countP_map, List.count]
      rfl
    have hnone : (if other = queue then 0 else (view (s.connections other)).events.count .confirm) =
        (view (s.connections other)).events.count .confirm := by
      split
      · rename_i heq
        rw [heq, hevents]
        rfl
      · rfl
    obtain ⟨hle, hiff⟩ := h.pending other hgoes
    rw [State.Unconfirmed] at hiff
    simp only [State.pending] at hle hiff
    simp only [hcount, hnone, hunconfirmed]
    by_cases hactive : (other : QueuePtr κ) ∈
        s.registry.activeQueues (s.connections queue).remotePeerId
    · obtain ⟨info, hinfo, hid⟩ := h.registry.recorded _ _ (.inl hactive)
      have hremote := (h.recorded other info hinfo).symm.trans hid
      have hfree := h.registry.disjoint hactive
      rw [hremote] at hiff
      have hone := List.count_eq_one_of_mem (h.registry.ascending _).1.nodup hactive
      have hzero := hiff.not.mpr hfree
      rw [hone]
      exact ⟨by omega, iff_of_true (by omega) (.inr ⟨hremote, hactive⟩)⟩
    · rw [List.count_eq_zero_of_not_mem hactive, or_iff_left fun hin => hactive hin.2]
      exact ⟨hle, hiff⟩

theorem Inv.notify_confirm (h : Inv nil s) (hinv : c.Inv)
    (hview : view c = { view (s.connections queue) with events := [] })
    (hevents : (view (s.connections queue)).events = [.confirm])
    (hpre : Precondition nil s queue .confirm) :
    Inv nil ((notifyCallback nil remoteAddress queue .confirm s).2.setConnection queue c) := by
  obtain ⟨hrecorded, hin⟩ := hpre
  obtain ⟨registry, heq, hrecords, hunconfirmed⟩ :=
    OutgoingBackendState.confirmQueue_confirmed h.registry hrecorded hin
  have hregistry : Consistent registry := by
    have hafter := @OutgoingBackendState.confirmQueue_consistent _ _ _ _ _
      (s.connections queue).remotePeerId queue h.registry
    rwa [heq] at hafter
  simp only [notifyCallback, heq]
  refine h.notified hinv hview hregistry (fun other hne => ?_) ?_ (fun info hinfo => ?_)
    fun other hgoes => ?_
  · rw [hrecords]
  · rw [hrecords, h.registered queue]
    simp [View.Registers, hevents]
  · exact h.recorded queue info (hrecords ▸ hinfo)
  · obtain ⟨hle, hiff⟩ := h.pending other hgoes
    rw [State.Unconfirmed] at hiff
    simp only [State.pending] at hle hiff
    simp only [hunconfirmed]
    obtain rfl | hne := eq_or_ne other queue
    · simp only [hevents, List.count_singleton_self] at hle hiff
      rw [if_pos rfl]
      exact ⟨by omega, iff_of_false (by omega) fun hin => hin.2 ⟨rfl, rfl⟩⟩
    · rw [if_neg hne, and_iff_left fun heq => hne (WithBot.coe_injective heq.2)]
      exact ⟨hle, hiff⟩

theorem Inv.notify_unregister (h : Inv nil s) (hinv : c.Inv)
    (hview : view c = { view (s.connections queue) with events := [] })
    (hevents : (view (s.connections queue)).events = [.unregister])
    (hpre : Precondition nil s queue .unregister) :
    Inv nil ((notifyCallback nil remoteAddress queue .unregister s).2.setConnection queue c) := by
  obtain ⟨registry, heq, hrecords, hunconfirmed⟩ :=
    OutgoingBackendState.unregisterQueue_unregistered h.registry hpre
  have hregistry : Consistent registry := by
    have hafter := @OutgoingBackendState.unregisterQueue_consistent _ _ _ _ _
      (s.connections queue).remotePeerId queue h.registry
    rwa [heq] at hafter
  have hterminated : (view (s.connections queue)).taskTerminated = true := by
    obtain hnone | ⟨-, hother | hother⟩ | ⟨hterminated, -⟩ := (h.steady queue).events
    · simp [hevents] at hnone
    · simp [hevents] at hother
    · simp [hevents] at hother
    · exact hterminated
  have hactivated := (h.steady queue).terminated hterminated
  simp only [notifyCallback, heq]
  refine h.notified hinv hview hregistry (fun other hne => ?_) ?_ (fun info hinfo => ?_)
    fun other hgoes => ?_
  · rw [hrecords]
    exact AList.lookup_erase_ne (fun heq => hne (WithBot.coe_injective heq))
  · rw [hrecords, AList.lookup_erase, hactivated]
    exact iff_of_false Bool.false_ne_true Bool.false_ne_true
  · simp [hrecords, AList.lookup_erase] at hinfo
  · have hne : other ≠ queue := by
      rintro rfl
      exact absurd (hterminated.symm.trans hgoes) Bool.false_ne_true.symm
    obtain ⟨hle, hiff⟩ := h.pending other hgoes
    rw [State.Unconfirmed] at hiff
    simp only [State.pending] at hle hiff
    simp only [if_neg hne, hunconfirmed _ _ fun heq => hne (WithBot.coe_injective heq)]
    exact ⟨hle, hiff⟩

/-! ## Heartbeat requests -/

omit [DecidableEq π] in
theorem takeRequest_perm {requests rest : List (κ × QueuePtr κ)} {target : QueuePtr κ}
    (h : takeRequest queue requests = some (target, rest)) :
    requests.Perm ((queue, target) :: rest) := by
  induction requests generalizing rest with
  | nil => cases h
  | cons request requests ih =>
    obtain ⟨registering, next⟩ := request
    simp only [takeRequest] at h
    split at h
    · rename_i heq
      cases h
      rw [heq]
    · obtain ⟨⟨next', rest'⟩, htake, heq⟩ := Option.map_eq_some_iff.mp h
      cases heq
      exact ((ih htake).cons _).trans (List.Perm.swap _ _ _)

theorem Inv.requestHeartbeat (h : Inv nil s) {target : κ} {requests : List (κ × QueuePtr κ)}
    (htake : takeRequest queue s.requests = some ((target : QueuePtr κ), requests)) :
    Inv nil (State.setConnection { s with requests := requests } target
      (AutoPushConnection.requestHeartbeat (s.connections target))) := by
  have hperm := takeRequest_perm htake
  have hcount : ∀ other : κ,
      s.requests.countP (fun request => request.2 = (other : QueuePtr κ)) =
        requests.countP (fun request => request.2 = (other : QueuePtr κ)) +
          if target = other then 1 else 0 := by
    intro other
    rw [hperm.countP_eq, List.countP_cons]
    simp
  have hsame : ∀ other, other ≠ target → ∀ c,
      (State.setConnection { s with requests := requests } target c).connections other =
        s.connections other := fun other hne c => setConnection_ne _ hne c
  refine ⟨h.registry, fun other => ?_, fun other => ?_, fun other => ?_, fun other info hinfo => ?_,
    fun other hgoes => ?_⟩
  · by_cases hne : other = target
    · rw [hne, setConnection_same]
      exact AutoPushConnection.requestHeartbeat_inv (h.connections target)
    · rw [hsame other hne]
      exact h.connections other
  · by_cases hne : other = target
    · rw [hne, setConnection_same]
      have hsteady := h.steady target
      exact ⟨hsteady.notifies, hsteady.addressed, hsteady.first, hsteady.known,
        hsteady.terminated, hsteady.events⟩
    · rw [hsame other hne]
      exact h.steady other
  · by_cases hne : other = target
    · rw [hne, setConnection_same]
      exact h.registered target
    · rw [hsame other hne]
      exact h.registered other
  · obtain rfl | hne := eq_or_ne other target
    · rw [setConnection_same]
      exact h.recorded other info hinfo
    · rw [hsame other hne]
      exact h.recorded other info hinfo
  · obtain rfl | hne := eq_or_ne other target
    · rw [setConnection_same] at hgoes
      obtain ⟨hle, hiff⟩ := h.pending other hgoes
      -- the request was the only heartbeat under way
      have hpending : (State.setConnection { s with requests := requests } other
          (AutoPushConnection.requestHeartbeat (s.connections other))).pending other =
          s.pending other := by
        have hone := hcount other
        simp only [State.pending] at hle
        simp only [State.pending, setConnection_same]
        rw [if_pos rfl] at hone
        have hflag : (view (s.connections other)).heartbeatWasRequested.toNat = 0 := by omega
        rw [hone, hflag]
        simp only [view, AutoPushConnection.requestHeartbeat, State.setConnection, Bool.toNat_true]
      rw [hpending]
      refine ⟨hle, hiff.trans ?_⟩
      rw [State.Unconfirmed, State.Unconfirmed, setConnection_same]
      exact Iff.rfl
    · rw [hsame other hne] at hgoes
      have hother := h.pending other hgoes
      simp only [State.pending, State.Unconfirmed, hsame other hne, hcount other,
        if_neg (Ne.symm hne)] at hother ⊢
      exact hother

theorem Inv.tryGetQueue (h : Inv nil s) (remotePeerId : π) :
    Inv nil { s with
      registry := (OutgoingBackendState.tryGetQueue remotePeerId s.registry).2 } := by
  obtain ⟨hlists, hrecords, -⟩ := OutgoingBackendState.tryGetQueue_lists remotePeerId s.registry
  refine ⟨OutgoingBackendState.tryGetQueue_consistent h.registry, h.connections, h.steady,
    fun other => ?_, fun other info hinfo => ?_, fun other hgoes => ?_⟩
  · rw [hrecords]
    exact h.registered other
  · exact h.recorded other info (hrecords ▸ hinfo)
  · have hsame := h.pending other hgoes
    simp only [State.pending, State.Unconfirmed, (hlists _).2] at hsame ⊢
    exact hsame

/-! ## Runs -/

theorem step_inv {label : Label π κ} (h : Inv nil s) (hcond : OneHost nil remoteAddress s label)
    (hstep : step nil remoteAddress s label = some s') : Inv nil s' := by
  cases label with
  | connection queue label =>
    simp only [step] at hstep
    split at hstep
    · rename_i hadmitted
      obtain ⟨c, hmoved, rfl⟩ := Option.map_eq_some_iff.mp hstep
      exact h.connection hcond (admitted_false hadmitted) hmoved
    · cases hstep
  | notify queue =>
    simp only [step] at hstep
    split at hstep
    · cases hstep
    obtain ⟨event, hnext, hstep⟩ := Option.bind_eq_some_iff.mp hstep
    obtain ⟨c, hnotified, rfl⟩ := Option.map_eq_some_iff.mp hstep
    have hpre := h.precondition hnext
    rw [h.notifyCallback_returns hpre, Option.map_none] at hnotified
    obtain ⟨hevents, hview⟩ := view_notified (h.steady queue) hnext hnotified
    have hinv := AutoPushConnection.step_inv (h.connections queue)
      (show AutoPushConnection.Returns _ (.notified none) from rfl) hnotified
    cases event with
    | register => exact h.notify_register hinv hview hevents hpre (hcond hnext)
    | confirm => exact h.notify_confirm hinv hview hevents hpre
    | unregister => exact h.notify_unregister hinv hview hevents hpre
  | requestHeartbeat queue =>
    simp only [step] at hstep
    split at hstep
    · rename_i target requests htake
      cases hstep
      exact h.requestHeartbeat htake
    · cases hstep
  | tryGetQueue remotePeerId =>
    cases hstep
    exact h.tryGetQueue remotePeerId

instance (s : State π κ) : ∀ label : Label π κ, Decidable (OneHost nil remoteAddress s label)
  | .notify queue =>
    inferInstanceAs (Decidable (nextEvent (s.connections queue) = some .register →
      ∀ active ∈ s.registry.activeQueues (s.connections queue).remotePeerId,
        retains s.registry.connections2PeerId (remoteAddress queue) active = false))
  | .connection queue (.completed declaredPeerId _ _) =>
    inferInstanceAs (Decidable (∀ peerId ∈ declaredPeerId,
      peerId ≠ nil ∧ peerId ≠ (s.connections queue).peerId ∧
        ((s.connections queue).remotePeerId = nil ∨
          (s.connections queue).remotePeerId = peerId)))
  | .connection _ (.tryScheduleBlock _ dataBlock) =>
    inferInstanceAs (Decidable (chkProtocolDataSize dataBlock = none))
  | .connection _ .start | .connection _ .requestHeartbeat | .connection _ .requestCancel
  | .connection _ (.notified _) | .connection _ .callback | .connection _ .resume
  | .requestHeartbeat _ | .tryGetQueue _ => .isTrue trivial

end

end Baselib.Messaging.BlockServerOutgoing
