/-
Baselib.Messaging.MessagingClientTheorems — the connections and connectors of
the client.

A direction has at most one connection which goes on and at most one connector
which is pending, those it was given last, in every run (`Link.Inv`). Whether a
part of a tick throws can be told from the state before it (`reconnect_throws`).
-/
import Baselib.Messaging.MessagingClient

namespace Baselib.Messaging.MessagingClient

open Lib Lib.Transition

variable {l l' : Link} {s s' : State} {d : Direction} {c : Nat} {throws : Option Call}

/-! ## One direction -/

def Link.connectorStatus (l : Link) : Option ConnectorStatus :=
  l.connectorTask.map Connector.status

/-- What a tick does to the tasks of a direction. -/
inductive Reconnects (l : Link) (throws : Option Call) : Link → Outcome → Prop where
  | alive (halive : l.isAlive = true) :
      Reconnects l throws { l with connector := none, isConnected := true } (.returned false)
  | waits (halive : l.isAlive = false) (hstatus : l.connectorStatus = some .pending) :
      Reconnects l throws { l with isConnected := false } (.returned false)
  | fails (halive : l.isAlive = false)
      (hfree : l.connectorStatus = none ∨ l.connectorStatus = some .failed)
      (hthrows : throws = some .createConnector) :
      Reconnects l throws { l with isConnected := false } .thrown
  | creates (halive : l.isAlive = false)
      (hfree : l.connectorStatus = none ∨ l.connectorStatus = some .failed)
      (hcreated : throws ≠ some .createConnector) {queued : Bool}
      (hqueued : throws = some .pushConnector ↔ queued = false) :
      Reconnects l throws ({ l with isConnected := false }.addConnector queued)
        (if queued then .returned false else .thrown)
  | drops (halive : l.isAlive = false) (hstatus : l.connectorStatus = some .established)
      (hthrows : throws = some .createConnection) {hasStream : Bool} :
      Reconnects l throws
        (if hasStream then { l with isConnected := true }
          else { l with isConnected := true }.detachStream) .thrown
  | loses (halive : l.isAlive = false) (hstatus : l.connectorStatus = some .established)
      (hthrows : throws = some .pushConnection) {hasStream : Bool} :
      Reconnects l throws
        ({ l with isConnected := true }.detachStream.addConnection false hasStream) .thrown
  | connects (halive : l.isAlive = false) (hstatus : l.connectorStatus = some .established)
      (hcreated : throws ≠ some .createConnection) (hpushed : throws ≠ some .pushConnection)
      {hasStream : Bool} :
      Reconnects l throws
        { { l with isConnected := true }.detachStream.addConnection true hasStream with
          connector := none } (.returned true)

/-- A connector is created when there is none or the last one has failed. -/
theorem checkIfReconnected_create (halive : l.isAlive = false)
    (hstatus : l.connectorStatus = none ∨ l.connectorStatus = some .failed)
    (throws : Option Call) :
    l.checkIfReconnected throws =
      if throws = some .createConnector then ({ l with isConnected := false }, .thrown)
      else if throws = some .pushConnector then
        ({ l with isConnected := false }.addConnector false, .thrown)
      else ({ l with isConnected := false }.addConnector true, .returned false) := by
  unfold Link.checkIfReconnected
  rw [if_neg (by rw [halive]; exact Bool.false_ne_true)]
  unfold Link.connectorStatus at hstatus
  rcases hstatus with hstatus | hstatus <;> rw [hstatus]

theorem checkIfReconnected_of_status {status : ConnectorStatus} (halive : l.isAlive = false)
    (hstatus : l.connectorStatus = some status) (hfailed : status ≠ .failed)
    (throws : Option Call) :
    l.checkIfReconnected throws =
      ({ l with isConnected := decide (status = .established) },
        .returned (decide (status = .established))) := by
  unfold Link.checkIfReconnected
  rw [if_neg (by rw [halive]; exact Bool.false_ne_true)]
  unfold Link.connectorStatus at hstatus
  rw [hstatus]
  cases status with
  | pending => rfl
  | failed => exact absurd rfl hfailed
  | established => rfl

theorem reconnect_create (halive : l.isAlive = false)
    (hstatus : l.connectorStatus = none ∨ l.connectorStatus = some .failed) :
    Reconnects l throws (l.reconnect d throws).1 (l.reconnect d throws).2 := by
  unfold Link.reconnect
  rw [checkIfReconnected_create halive hstatus]
  by_cases hcreate : throws = some .createConnector
  · rw [if_pos hcreate]
    exact .fails halive hstatus hcreate
  · rw [if_neg hcreate]
    by_cases hpush : throws = some .pushConnector
    · rw [if_pos hpush]
      have hqueued : throws = some .pushConnector ↔ false = false := iff_of_true hpush rfl
      exact .creates halive hstatus hcreate hqueued
    · rw [if_neg hpush]
      have hqueued : throws = some .pushConnector ↔ true = false := iff_of_false hpush (by simp)
      exact .creates halive hstatus hcreate hqueued

theorem reconnect_established (halive : l.isAlive = false)
    (hstatus : l.connectorStatus = some .established) :
    Reconnects l throws (l.reconnect d throws).1 (l.reconnect d throws).2 := by
  have hcheck : l.checkIfReconnected throws = ({ l with isConnected := true }, .returned true) :=
    checkIfReconnected_of_status halive hstatus nofun throws
  unfold Link.reconnect
  rw [hcheck]
  dsimp only [Link.connect]
  by_cases hcreate : throws = some .createConnection
  · rw [if_pos hcreate]
    cases d with
    | sender => exact @Reconnects.drops _ _ halive hstatus hcreate false
    | receiver => exact @Reconnects.drops _ _ halive hstatus hcreate true
  · rw [if_neg hcreate]
    by_cases hpush : throws = some .pushConnection
    · rw [if_pos hpush]
      exact .loses halive hstatus hpush
    · rw [if_neg hpush]
      exact .connects halive hstatus hcreate hpush

theorem reconnect_cases (l : Link) (d : Direction) (throws : Option Call) :
    Reconnects l throws (l.reconnect d throws).1 (l.reconnect d throws).2 := by
  by_cases halive : l.isAlive = true
  · unfold Link.reconnect Link.checkIfReconnected
    rw [if_pos halive]
    exact .alive halive
  · have hdead := Bool.eq_false_iff.mpr halive
    rcases hstatus : l.connectorStatus with _ | status
    · exact reconnect_create hdead (.inl hstatus)
    · cases status with
      | pending =>
        unfold Link.reconnect
        rw [checkIfReconnected_of_status hdead hstatus nofun]
        exact .waits hdead hstatus
      | failed => exact reconnect_create hdead (.inr hstatus)
      | established => exact reconnect_established hdead hstatus

/-! ## One connection and one connector -/

/-- The connection is in the queue and goes on. -/
def InUse (l : Link) (c : Nat) : Prop :=
  ∃ task, l.connections[c]? = some task ∧ task.queued = true ∧ task.completed = false

structure Link.Inv (l : Link) : Prop where
  newest : ∀ c task, l.connections[c]? = some task → task.completed = false →
    l.connection = some c
  pending : ∀ c task, l.connectors[c]? = some task → task.status = .pending →
    l.connector = some c
  waits : l.connectorStatus = some .pending → l.isAlive = false
  ready : ∀ task ∈ l.connections, task.isRemotePeerIdAvailable = true → task.queued = true

theorem inv_create (isPreConnected : Bool) : (Link.create isPreConnected).Inv where
  newest c task h _ := by
    cases isPreConnected with
    | false => cases h
    | true =>
      cases c with
      | zero => rfl
      | succ c => cases h
  pending c task h := by cases h
  waits h := by cases h
  ready task h hready := by
    cases isPreConnected with
    | false => cases h
    | true =>
      rw [List.mem_singleton.mp h]

theorem isAlive_iff : l.isAlive = true ↔
    ∃ c task, l.connection = some c ∧ l.connections[c]? = some task ∧ task.completed = false := by
  simp only [Link.isAlive, Link.connectionTask, Option.any_eq_true, Option.bind_eq_some_iff,
    Bool.not_eq_true']
  constructor
  · rintro ⟨task, ⟨c, hc, htask⟩, hcompleted⟩
    exact ⟨c, task, hc, htask, hcompleted⟩
  · rintro ⟨c, task, hc, htask, hcompleted⟩
    exact ⟨task, ⟨c, hc, htask⟩, hcompleted⟩

theorem connectorStatus_eq_some {status : ConnectorStatus} : l.connectorStatus = some status ↔
    ∃ c task, l.connector = some c ∧ l.connectors[c]? = some task ∧ task.status = status := by
  simp only [Link.connectorStatus, Link.connectorTask, Option.map_eq_some_iff,
    Option.bind_eq_some_iff]
  constructor
  · rintro ⟨task, ⟨c, hc, htask⟩, hstatus⟩
    exact ⟨c, task, hc, htask, hstatus⟩
  · rintro ⟨c, task, hc, htask, hstatus⟩
    exact ⟨task, ⟨c, hc, htask⟩, hstatus⟩

/-- Every connection has completed when the one of the direction has. -/
theorem Link.Inv.completed (h : l.Inv) (halive : l.isAlive = false) {task : Connection}
    (htask : l.connections[c]? = some task) : task.completed = true := by
  by_contra hcompleted
  have hfalse := Bool.eq_false_iff.mpr hcompleted
  rw [isAlive_iff.mpr ⟨c, task, h.newest c task htask hfalse, htask, hfalse⟩] at halive
  cases halive

theorem Link.Inv.not_pending (h : l.Inv) (hstatus : l.connectorStatus ≠ some .pending)
    {task : Connector} (htask : l.connectors[c]? = some task) : task.status ≠ .pending :=
  fun hpending =>
    hstatus (connectorStatus_eq_some.mpr ⟨c, task, h.pending c task htask hpending, htask, hpending⟩)

theorem not_pending_of_free
    (hfree : l.connectorStatus = none ∨ l.connectorStatus = some .failed) :
    l.connectorStatus ≠ some .pending := by
  rcases hfree with hfree | hfree <;> simp [hfree]

theorem Link.Inv.setFlag (h : l.Inv) (isConnected : Bool) :
    Link.Inv { l with isConnected := isConnected } :=
  ⟨h.newest, h.pending, h.waits, h.ready⟩

theorem Link.Inv.resetConnector (h : l.Inv) (hstatus : l.connectorStatus ≠ some .pending) :
    Link.Inv { l with connector := none } where
  newest := h.newest
  pending c task htask hpending := absurd hpending (h.not_pending hstatus htask)
  waits hpending := by cases hpending
  ready := h.ready

theorem Link.Inv.addConnector (h : l.Inv) (halive : l.isAlive = false)
    (hstatus : l.connectorStatus ≠ some .pending) (queued : Bool) :
    (l.addConnector queued).Inv where
  newest := h.newest
  pending c task htask hpending := by
    rcases Slots.getElem?_concat_eq_some.mp htask with htask | ⟨rfl, -⟩
    · exact absurd hpending (h.not_pending hstatus htask)
    · rfl
  waits _ := halive
  ready := h.ready

theorem Link.Inv.addConnection (h : l.Inv) (halive : l.isAlive = false)
    (hstatus : l.connectorStatus ≠ some .pending) (queued hasStream : Bool) :
    (l.addConnection queued hasStream).Inv where
  newest c task htask hcompleted := by
    rcases Slots.getElem?_concat_eq_some.mp htask with htask | ⟨rfl, -⟩
    · simp [h.completed halive htask] at hcompleted
    · rfl
  pending := h.pending
  waits hpending := absurd hpending hstatus
  ready task htask hready := by
    rcases List.mem_append.mp htask with htask | htask
    · exact h.ready task htask hready
    · rw [List.mem_singleton.mp htask] at hready
      cases hready

theorem detachStream_connections (l : Link) :
    l.detachStream.connections = l.connections ∧ l.detachStream.connection = l.connection ∧
      l.detachStream.connector = l.connector ∧ l.detachStream.isConnected = l.isConnected := by
  unfold Link.detachStream
  split <;> exact ⟨rfl, rfl, rfl, rfl⟩

theorem connectors_of_detachStream {task : Connector}
    (htask : l.detachStream.connectors[c]? = some task) :
    ∃ task', l.connectors[c]? = some task' ∧ task'.status = task.status := by
  unfold Link.detachStream at htask
  split at htask
  next c' _ =>
    rw [List.getElem?_modify, Option.map_eq_map, Option.map_eq_some_iff] at htask
    obtain ⟨task', htask', rfl⟩ := htask
    refine ⟨task', htask', ?_⟩
    split <;> rfl
  next => exact ⟨task, htask, rfl⟩

theorem Link.Inv.detachStream (h : l.Inv) (hstatus : l.connectorStatus ≠ some .pending) :
    l.detachStream.Inv ∧ l.detachStream.connectorStatus ≠ some .pending := by
  obtain ⟨hconnections, hconnection, hconnector, -⟩ := detachStream_connections l
  have hnone : l.detachStream.connectorStatus ≠ some .pending := by
    intro hpending
    obtain ⟨c, task, -, htask, hpending⟩ := connectorStatus_eq_some.mp hpending
    obtain ⟨task', htask', hsame⟩ := connectors_of_detachStream htask
    exact h.not_pending hstatus htask' (hsame.trans hpending)
  refine ⟨⟨?_, ?_, fun hpending => absurd hpending hnone, ?_⟩, hnone⟩
  · rw [hconnections, hconnection]
    exact h.newest
  · intro c task htask hpending
    obtain ⟨task', htask', hsame⟩ := connectors_of_detachStream htask
    exact absurd (hsame.trans hpending) (h.not_pending hstatus htask')
  · rw [hconnections]
    exact h.ready

theorem detachStream_isAlive (l : Link) : l.detachStream.isAlive = l.isAlive := by
  obtain ⟨hconnections, hconnection, -, -⟩ := detachStream_connections l
  unfold Link.isAlive Link.connectionTask
  rw [hconnections, hconnection]

/-- A direction keeps to one connection and one connector. -/
theorem Reconnects.inv {outcome : Outcome} (hreconnects : Reconnects l throws l' outcome)
    (h : l.Inv) : l'.Inv := by
  cases hreconnects with
  | alive halive =>
    refine (h.resetConnector fun hpending => ?_).setFlag true
    rw [h.waits hpending] at halive
    cases halive
  | waits _ _ | fails _ _ _ => exact h.setFlag false
  | creates halive hfree hcreated hqueued =>
    exact (h.setFlag false).addConnector halive (not_pending_of_free hfree) _
  | drops halive hstatus hthrows =>
    have hpending : l.connectorStatus ≠ some .pending := by simp [hstatus]
    split
    · exact h.setFlag true
    · exact ((h.setFlag true).detachStream hpending).1
  | loses halive hstatus hthrows =>
    have hpending : l.connectorStatus ≠ some .pending := by simp [hstatus]
    obtain ⟨hdetached, hnone⟩ := (h.setFlag true).detachStream hpending
    exact hdetached.addConnection ((detachStream_isAlive _).trans halive) hnone _ _
  | connects halive hstatus hcreated hpushed =>
    have hpending : l.connectorStatus ≠ some .pending := by simp [hstatus]
    obtain ⟨hdetached, hnone⟩ := (h.setFlag true).detachStream hpending
    have hadded := hdetached.addConnection ((detachStream_isAlive _).trans halive) hnone
    exact (hadded _ _).resetConnector hnone

/-! ## Which ticks throw -/

/-- A connector which is established is due to become a connection. -/
def Link.isDue (l : Link) : Bool := !l.isAlive && decide (l.connectorStatus = some .established)

/-- Whether a tick comes to the call. -/
def Link.reaches (l : Link) : Call → Bool
  | .createConnector | .pushConnector =>
    !l.isAlive && !l.isDue && decide (l.connectorStatus ≠ some .pending)
  | .createConnection | .pushConnection => l.isDue
  | .createChannelId | .log => l.isConnected != (l.isAlive || l.isDue)

/-- Whether the call which throws is one the tick comes to. -/
def Link.throwsAt (l : Link) (throws : Option Call) : Bool := throws.any l.reaches

/-- A part which throws before the flag was compared comes to the call. -/
theorem Reconnects.throwsAt_of_thrown {outcome : Outcome}
    (hreconnects : Reconnects l throws l' outcome) (houtcome : outcome = .thrown) :
    l.throwsAt throws = true := by
  cases hreconnects with
  | alive _ | waits _ _ | connects _ _ _ _ => cases houtcome
  | fails halive hfree hthrows =>
    rcases hfree with hfree | hfree <;>
      simp [hthrows, Link.throwsAt, Link.reaches, Link.isDue, halive, hfree]
  | creates halive hfree hcreated hqueued =>
    split at houtcome
    next => cases houtcome
    next hpush =>
      have hthrows := hqueued.mpr (Bool.eq_false_iff.mpr hpush)
      rcases hfree with hfree | hfree <;>
        simp [hthrows, Link.throwsAt, Link.reaches, Link.isDue, halive, hfree]
  | drops halive hstatus hthrows | loses halive hstatus hthrows =>
    simp [hthrows, Link.throwsAt, Link.reaches, Link.isDue, halive, hstatus]

/-- A part which does not may still throw when it changes the channel id. -/
theorem Reconnects.throwsAt_of_returned {outcome : Outcome} {isReconnected : Bool}
    (hreconnects : Reconnects l throws l' outcome) (houtcome : outcome = .returned isReconnected) :
    l.throwsAt throws = (l.isConnected != l'.isConnected &&
      (decide (throws = some .createChannelId) || decide (throws = some .log))) := by
  rcases throws with _ | call
  · simp [Link.throwsAt]
  cases hreconnects with
  | alive halive => cases call <;> simp [Link.throwsAt, Link.reaches, Link.isDue, halive]
  | waits halive hstatus =>
    cases call <;> simp [Link.throwsAt, Link.reaches, Link.isDue, halive, hstatus]
  | fails _ _ _ | drops _ _ _ | loses _ _ _ => cases houtcome
  | creates halive hfree hcreated hqueued =>
    split at houtcome
    next hpush =>
      have hpushed : call ≠ .pushConnector := by
        rintro rfl
        simp [hqueued.mp rfl] at hpush
      have hcreated' : call ≠ .createConnector := fun heq => hcreated (congrArg some heq)
      rcases hfree with hfree | hfree <;> cases call <;>
        first
          | exact absurd rfl hpushed
          | exact absurd rfl hcreated'
          | simp [Link.throwsAt, Link.reaches, Link.isDue, halive, hfree, Link.addConnector]
    next => cases houtcome
  | connects halive hstatus hcreated hpushed =>
    have hflag := (detachStream_connections { l with isConnected := true }).2.2.2
    have hcreated' : call ≠ .createConnection := fun heq => hcreated (congrArg some heq)
    have hpushed' : call ≠ .pushConnection := fun heq => hpushed (congrArg some heq)
    cases call <;>
      first
        | exact absurd rfl hcreated'
        | exact absurd rfl hpushed'
        | simp [Link.throwsAt, Link.reaches, Link.isDue, halive, hstatus, Link.addConnection,
            hflag]

theorem reconnect_snd_of_thrown (h : (s.link d).reconnect d throws = (l, .thrown)) :
    (s.reconnect d throws).2 = true := by
  unfold State.reconnect
  rw [h]

theorem reconnect_snd_of_returned {isReconnected : Bool}
    (h : (s.link d).reconnect d throws = (l, .returned isReconnected)) :
    (s.reconnect d throws).2 = ((s.link d).isConnected != l.isConnected &&
      (decide (throws = some .createChannelId) || decide (throws = some .log))) := by
  unfold State.reconnect
  rw [h]
  dsimp only
  by_cases hsame : (s.link d).isConnected = l.isConnected
  · rw [if_pos hsame]
    simp [hsame]
  · rw [if_neg hsame, bne_iff_ne.mpr hsame]
    by_cases hid : throws = some .createChannelId <;> simp [hid]

/-- Whether a part of a tick throws can be told from the state before it. -/
theorem reconnect_throws (s : State) (d : Direction) (throws : Option Call) :
    (s.reconnect d throws).2 = (s.link d).throwsAt throws := by
  have hcases := reconnect_cases (s.link d) d throws
  rcases hr : (s.link d).reconnect d throws with ⟨l, isReconnected | _⟩
  · rw [hr] at hcases
    rw [reconnect_snd_of_returned hr, hcases.throwsAt_of_returned rfl]
  · rw [hr] at hcases
    rw [reconnect_snd_of_thrown hr, hcases.throwsAt_of_thrown rfl]

/-! ## Ticks -/

@[simp] theorem link_setLink (s : State) (l : Link) (d : Direction) : (s.setLink l d).link d = l := by
  cases d <;> rfl

theorem link_setLink_of_ne {d' : Direction} (h : d' ≠ d) (s : State) (l : Link) :
    (s.setLink l d).link d' = s.link d' := by
  cases d <;> cases d' <;> first | rfl | exact absurd rfl h

@[simp] theorem channelId_setLink (s : State) (l : Link) (d : Direction) :
    (s.setLink l d).channelId = s.channelId := by
  cases d <;> rfl

/-- The part of a tick for one direction. -/
structure Part (s s' : State) (d : Direction) (l' : Link) : Prop where
  link : s'.link d = l'
  others : ∀ d', d' ≠ d → s'.link d' = s.link d'
  channelId : s.channelId ≤ s'.channelId

/-- The flag of a direction changes together with the channel id, unless the
tick throws between the two. -/
theorem reconnect_part (s : State) (d : Direction) (throws : Option Call) :
    let r := (s.link d).reconnect d throws
    let s' := (s.reconnect d throws).1
    Part s s' d r.1 ∧
      ((s.link d).isConnected ≠ r.1.isConnected → (∃ isReconnected, r.2 = .returned isReconnected) →
        throws ≠ some .createChannelId → s'.channelId ≠ s.channelId) := by
  have hset : ∀ l : Link, Part s (s.setLink l d) d l := fun l =>
    ⟨link_setLink s l d, fun d' hd' => link_setLink_of_ne hd' s l, Nat.le_of_eq (by simp)⟩
  unfold State.reconnect
  rcases hr : (s.link d).reconnect d throws with ⟨l, isReconnected | _⟩
  · dsimp only
    by_cases hsame : (s.link d).isConnected = l.isConnected
    · rw [if_pos hsame]
      exact ⟨hset l, fun hne => absurd hsame hne⟩
    · rw [if_neg hsame]
      by_cases hid : throws = some .createChannelId
      · rw [if_pos hid]
        exact ⟨hset l, fun _ _ hne => absurd hid hne⟩
      · rw [if_neg hid]
        refine ⟨⟨?_, fun d' hd' => ?_, ?_⟩, fun _ _ _ => Nat.succ_ne_self _⟩
        · exact (by cases d <;> rfl : _ = (s.setLink l d).link d).trans (link_setLink s l d)
        · exact (by cases d' <;> rfl : _ = (s.setLink l d).link d').trans
            (link_setLink_of_ne hd' s l)
        · exact Nat.le_succ _
  · exact ⟨hset l, fun _ hreturned => by obtain ⟨_, h⟩ := hreturned; cases h⟩

/-! ## What holds of every run -/

def Inv (s : State) : Prop := ∀ d, (s.link d).Inv

theorem inv_state_create (sender receiver : Bool) : Inv (.create sender receiver) := by
  intro d
  cases d with
  | sender => exact inv_create sender
  | receiver => exact inv_create receiver

theorem Inv.reconnect (h : Inv s) (d : Direction) (throws : Option Call) :
    Inv (s.reconnect d throws).1 := by
  obtain ⟨hpart, -⟩ := reconnect_part s d throws
  intro d'
  obtain rfl | hd' := eq_or_ne d' d
  · rw [hpart.link]
    exact (reconnect_cases (s.link d') d' throws).inv (h d')
  · rw [hpart.others d' hd']
    exact h d'

theorem onReconnectTimer_eq (s : State) (sender receiver : Option Call) :
    s.onReconnectTimer sender receiver =
      if s.sender.throwsAt sender then (s.reconnect .sender sender).1
      else ((s.reconnect .sender sender).1.reconnect .receiver receiver).1 := by
  have hthrows : (s.reconnect .sender sender).2 = s.sender.throwsAt sender :=
    reconnect_throws s .sender sender
  unfold State.onReconnectTimer
  rw [← hthrows]
  rcases s.reconnect .sender sender with ⟨m, _ | _⟩ <;> rfl

theorem Inv.setLink (h : Inv s) {l : Link} (hl : l.Inv) : Inv (s.setLink l d) := by
  intro d'
  obtain rfl | hd' := eq_or_ne d' d
  · rwa [link_setLink]
  · rw [link_setLink_of_ne hd']
    exact h d'

/-- A pending connector completes. -/
theorem Link.Inv.setConnector (h : l.Inv) {task : Connector} (htask : task.status ≠ .pending) :
    Link.Inv { l with connectors := l.connectors.set c task } where
  newest := h.newest
  pending c' task' htask' hpending := by
    rcases Slots.getElem?_set_eq_some htask' with ⟨-, rfl⟩ | ⟨-, htask'⟩
    · exact absurd hpending htask
    · exact h.pending c' task' htask' hpending
  waits hpending := by
    obtain ⟨c', task', hc', htask', hstatus⟩ := connectorStatus_eq_some.mp hpending
    rcases Slots.getElem?_set_eq_some htask' with ⟨-, rfl⟩ | ⟨-, htask'⟩
    · exact absurd hstatus htask
    · exact h.waits (connectorStatus_eq_some.mpr ⟨c', task', hc', htask', hstatus⟩)
  ready := h.ready

/-- A connection changes, and does not go on if it did not. -/
theorem Link.Inv.setConnection (h : l.Inv) {task task' : Connection}
    (htask : l.connections[c]? = some task) (hgoes : task'.completed = false → task.completed = false)
    (hready : task'.queued = true) : Link.Inv { l with connections := l.connections.set c task' } where
  newest c' task'' htask'' hcompleted := by
    rcases Slots.getElem?_set_eq_some htask'' with ⟨rfl, rfl⟩ | ⟨-, htask''⟩
    · exact h.newest c task htask (hgoes hcompleted)
    · exact h.newest c' task'' htask'' hcompleted
  pending := h.pending
  waits hpending := by
    rw [Bool.eq_false_iff]
    intro halive
    obtain ⟨c', task'', hc', htask'', hcompleted⟩ := isAlive_iff.mp halive
    have hwaits : l.isAlive = false := h.waits hpending
    rcases Slots.getElem?_set_eq_some htask'' with ⟨rfl, rfl⟩ | ⟨-, htask''⟩
    · simp [isAlive_iff (l := l) |>.mpr ⟨c, task, hc', htask, hgoes hcompleted⟩] at hwaits
    · simp [isAlive_iff (l := l) |>.mpr ⟨c', task'', hc', htask'', hcompleted⟩] at hwaits
  ready task'' htask'' hready' := by
    rcases List.mem_or_eq_of_mem_set htask'' with htask'' | rfl
    · exact h.ready task'' htask'' hready'
    · exact hready

/-- Not more than one connector of a direction is pending. -/
def OnePending (s : State) : Prop :=
  ∀ (d : Direction) (c c' : Nat) (task task' : Connector), (s.link d).connectors[c]? = some task →
    (s.link d).connectors[c']? = some task' → task.status = .pending → task'.status = .pending →
    c = c'

theorem Inv.onePending (h : Inv s) : OnePending s := by
  intro d c c' task task' htask htask' hpending hpending'
  have hfirst := (h d).pending c task htask hpending
  have hsecond := (h d).pending c' task' htask' hpending'
  exact Option.some.inj (hfirst.symm.trans hsecond)

end Baselib.Messaging.MessagingClient
