/-
Baselib.Messaging.MessagingClientChannel — the flag of a direction and the
channel id.

A tick sets the flag of a direction before it has made the connection, and
changes the channel id after it when the flag is another one than before. So
the two agree as long as no tick throws in between (`Orderly`): a tick which
does leaves the flag set, and the next one finds no change.
-/
import Baselib.Messaging.MessagingClientTheorems

namespace Baselib.Messaging.MessagingClient

open Lib Lib.Transition

variable {l l' : Link} {s s' : State} {d : Direction} {c : Nat} {throws : Option Call}

/-! ## What a tick leaves to the next one -/

/-- The flag says of a connection which has completed that it goes on. -/
def Link.isLost (l : Link) : Bool := l.isConnected && !l.isAlive

/-- The tick does not throw between the flag of a new connection and the channel id. -/
def Link.Completes (l : Link) (throws : Option Call) : Prop :=
  l.isDue = true → throws ≠ some .createConnection ∧ throws ≠ some .pushConnection ∧
    throws ≠ some .createChannelId

instance (l : Link) (throws : Option Call) : Decidable (l.Completes throws) :=
  inferInstanceAs (Decidable (_ → _))

structure Link.Settled (l : Link) : Prop where
  queued : ∀ task ∈ l.connections, task.queued = true
  connector : l.isConnected = true → l.connector = none

theorem settled_create (isPreConnected : Bool) : (Link.create isPreConnected).Settled where
  queued task h := by
    cases isPreConnected with
    | false => cases h
    | true => rw [List.mem_singleton.mp h]
  connector h := by cases h

theorem isDue_iff : l.isDue = true ↔
    l.isAlive = false ∧ l.connectorStatus = some .established := by
  simp [Link.isDue]

theorem Reconnects.settled {outcome : Outcome} (hreconnects : Reconnects l throws l' outcome)
    (h : l.Settled) (hcompletes : l.Completes throws) : l'.Settled := by
  cases hreconnects with
  | alive halive => exact ⟨h.queued, fun _ => rfl⟩
  | waits _ _ | fails _ _ _ | creates _ _ _ _ => exact ⟨h.queued, nofun⟩
  | drops halive hstatus hthrows | loses halive hstatus hthrows =>
    obtain ⟨hdrops, hloses, -⟩ := hcompletes (isDue_iff.mpr ⟨halive, hstatus⟩)
    contradiction
  | connects halive hstatus hcreated hpushed =>
    refine ⟨fun task htask => ?_, fun _ => rfl⟩
    have hconnections := (detachStream_connections { l with isConnected := true }).1
    rcases List.mem_append.mp htask with htask | htask
    · exact h.queued task (hconnections ▸ htask)
    · rw [List.mem_singleton.mp htask]

theorem Link.Settled.inUse (h : l.Settled) (halive : l.isAlive = true) :
    ∃ c, l.connection = some c ∧ InUse l c := by
  obtain ⟨c, task, hc, htask, hcompleted⟩ := isAlive_iff.mp halive
  exact ⟨c, hc, task, htask, h.queued task (List.mem_of_getElem? htask), hcompleted⟩

theorem Reconnects.isAlive {outcome : Outcome} (hreconnects : Reconnects l throws l' outcome)
    (hcompletes : l.Completes throws) (hconnected : l'.isConnected = true) :
    l'.isAlive = true := by
  cases hreconnects with
  | alive halive => exact halive
  | waits _ _ | fails _ _ _ | creates _ _ _ _ => cases hconnected
  | drops halive hstatus hthrows | loses halive hstatus hthrows =>
    obtain ⟨hdrops, hloses, -⟩ := hcompletes (isDue_iff.mpr ⟨halive, hstatus⟩)
    contradiction
  | connects halive hstatus hcreated hpushed =>
    exact isAlive_iff.mpr ⟨_, _, rfl, List.getElem?_concat_length, rfl⟩

/-- A new connection comes with a change of the flag. -/
theorem Reconnects.connection {outcome : Outcome} (hreconnects : Reconnects l throws l' outcome)
    (h : l.Settled) (hcompletes : l.Completes throws) :
    l'.connection = l.connection ∨
      (l.isConnected ≠ l'.isConnected ∧ outcome = .returned true ∧
        throws ≠ some .createChannelId) := by
  cases hreconnects with
  | alive _ | waits _ _ | fails _ _ _ | creates _ _ _ _ => exact .inl rfl
  | drops halive hstatus hthrows | loses halive hstatus hthrows =>
    obtain ⟨hdrops, hloses, -⟩ := hcompletes (isDue_iff.mpr ⟨halive, hstatus⟩)
    contradiction
  | connects halive hstatus hcreated hpushed =>
    refine .inr ⟨fun hsame => ?_, rfl,
      (hcompletes (isDue_iff.mpr ⟨halive, hstatus⟩)).2.2⟩
    have hflag : l.isConnected = true :=
      hsame.trans (detachStream_connections { l with isConnected := true }).2.2.2
    obtain ⟨c, task, hc, -, -⟩ := connectorStatus_eq_some.mp hstatus
    rw [h.connector hflag] at hc
    cases hc

/-! ## Orderly runs -/

/-- No tick throws between the flag of a direction and the channel id of a new
connection, or keeps from its flag that the receiver has completed. -/
def Orderly (s : State) : Label → Prop
  | .tick sender receiver =>
    s.sender.Completes sender ∧
      if s.sender.throwsAt sender = true then s.receiver.isLost = false
      else s.receiver.Completes receiver
  | _ => True

instance (s : State) : (a : Label) → Decidable (Orderly s a)
  | .tick sender receiver =>
    inferInstanceAs (Decidable (s.sender.Completes sender ∧
      if s.sender.throwsAt sender = true then s.receiver.isLost = false
      else s.receiver.Completes receiver))
  | .connectorCompletes _ _ _ | .connectionCompletes _ _ | .remotePeerId _ _ _ => isTrue trivial

/-- A direction which is reported connected has a connection in the queue. -/
def Reported (s : State) : Prop :=
  ∀ d, (s.link d).isConnected = true → ∃ c, (s.link d).connection = some c ∧ InUse (s.link d) c

structure Good (s : State) : Prop where
  inv : Inv s
  settled : ∀ d, (s.link d).Settled

/-- A step which changes no connection of a direction without the channel id. -/
structure Keeps (s s' : State) : Prop where
  channelId : s.channelId ≤ s'.channelId
  connection : s'.channelId = s.channelId → ∀ d, (s'.link d).connection = (s.link d).connection

theorem Keeps.trans {t : State} (h : Keeps s s') (h' : Keeps s' t) : Keeps s t where
  channelId := Nat.le_trans h.channelId h'.channelId
  connection heq d := by
    have hle := h.channelId
    have hle' := h'.channelId
    rw [h'.connection (by omega) d, h.connection (by omega) d]

/-- The part of a tick for a direction leaves its flag right. -/
theorem Good.reconnect (h : Good s) (hcompletes : (s.link d).Completes throws) :
    let m := (s.reconnect d throws).1
    Good m ∧ Keeps s m ∧ ((m.link d).isConnected = true → (m.link d).isAlive = true) := by
  obtain ⟨hpart, hid⟩ := reconnect_part s d throws
  have hcases := reconnect_cases (s.link d) d throws
  refine ⟨⟨h.inv.reconnect d throws, fun d' => ?_⟩, ⟨hpart.channelId, fun heq d' => ?_⟩, ?_⟩
  · obtain rfl | hd' := eq_or_ne d' d
    · rw [hpart.link]
      exact hcases.settled (h.settled d') hcompletes
    · rw [hpart.others d' hd']
      exact h.settled d'
  · obtain rfl | hd' := eq_or_ne d' d
    · rw [hpart.link]
      refine (hcases.connection (h.settled d') hcompletes).resolve_right ?_
      rintro ⟨hflag, hreturned, hthrows⟩
      exact hid hflag ⟨true, hreturned⟩ hthrows heq
    · rw [hpart.others d' hd']
  · rw [hpart.link]
    exact hcases.isAlive hcompletes

theorem Good.onReconnectTimer (h : Good s) {sender receiver : Option Call}
    (horderly : Orderly s (.tick sender receiver)) :
    let m := s.onReconnectTimer sender receiver
    Good m ∧ Keeps s m ∧ Reported m := by
  obtain ⟨hsender, hreceiver⟩ := horderly
  obtain ⟨hgood, hkeeps, halive⟩ := h.reconnect (d := .sender) hsender
  have hothers := (reconnect_part s .sender sender).1.others .receiver nofun
  rw [onReconnectTimer_eq]
  by_cases hthrows : s.sender.throwsAt sender = true
  · rw [if_pos hthrows] at hreceiver ⊢
    refine ⟨hgood, hkeeps, fun d hconnected => (hgood.settled d).inUse ?_⟩
    cases d with
    | sender => exact halive hconnected
    | receiver =>
      rw [hothers] at hconnected ⊢
      have hflag : s.receiver.isConnected = true := hconnected
      change s.receiver.isAlive = true
      simpa [Link.isLost, hflag] using hreceiver
  · rw [if_neg hthrows] at hreceiver ⊢
    have hcompletes : ((s.reconnect .sender sender).1.link .receiver).Completes receiver := by
      rwa [hothers]
    obtain ⟨hgood', hkeeps', halive'⟩ := hgood.reconnect hcompletes
    have hothers' := (reconnect_part (s.reconnect .sender sender).1 .receiver receiver).1.others
      .sender nofun
    refine ⟨hgood', hkeeps.trans hkeeps', fun d hconnected => (hgood'.settled d).inUse ?_⟩
    cases d with
    | sender =>
      rw [hothers'] at hconnected ⊢
      exact halive hconnected
    | receiver => exact halive' hconnected

/-! ## Runs -/

theorem Good.setLink (h : Good s) {l : Link} (hl : l.Inv) (hsettled : l.Settled)
    (hconnection : l.connection = (s.link d).connection) :
    Good (s.setLink l d) ∧ Keeps s (s.setLink l d) := by
  refine ⟨⟨h.inv.setLink hl, fun d' => ?_⟩, ⟨Nat.le_of_eq (by simp), fun _ d' => ?_⟩⟩
  · obtain rfl | hd' := eq_or_ne d' d
    · rwa [link_setLink]
    · rw [link_setLink_of_ne hd']
      exact h.settled d'
  · obtain rfl | hd' := eq_or_ne d' d
    · rwa [link_setLink]
    · rw [link_setLink_of_ne hd']

theorem Link.Settled.setConnection (h : l.Settled) {task : Connection}
    (hqueued : task.queued = true) :
    Link.Settled { l with connections := l.connections.set c task } where
  queued task' htask' := by
    rcases List.mem_or_eq_of_mem_set htask' with htask' | rfl
    · exact h.queued task' htask'
    · exact hqueued
  connector := h.connector

theorem Good.kept {a : Label} (h : Good s) (horderly : Orderly s a) (hstep : step s a = some s') :
    Good s' ∧ Keeps s s' := by
  cases a with
  | tick sender receiver =>
    cases hstep
    obtain ⟨hgood, hkeeps, -⟩ := h.onReconnectTimer horderly
    exact ⟨hgood, hkeeps⟩
  | connectorCompletes d c isEstablished =>
    dsimp only [step] at hstep
    split at hstep
    next task htask =>
      split at hstep <;> cases hstep
      refine h.setLink ((h.inv d).setConnector ?_)
        ⟨(h.settled d).queued, (h.settled d).connector⟩ rfl
      cases isEstablished <;> exact nofun
    next => cases hstep
  | connectionCompletes d c =>
    dsimp only [step] at hstep
    split at hstep
    next task htask =>
      split at hstep <;> cases hstep
      next hqueued =>
        exact h.setLink ((h.inv d).setConnection htask nofun hqueued.1)
          ((h.settled d).setConnection hqueued.1) rfl
    next => cases hstep
  | remotePeerId d c isAvailable =>
    dsimp only [step] at hstep
    split at hstep
    next task htask =>
      split at hstep <;> cases hstep
      next hqueued =>
        exact h.setLink ((h.inv d).setConnection htask id hqueued.1)
          ((h.settled d).setConnection hqueued.1) rfl
    next => cases hstep

theorem good_create (sender receiver : Bool) : Good (.create sender receiver) where
  inv := inv_state_create sender receiver
  settled d := by
    cases d with
    | sender => exact settled_create sender
    | receiver => exact settled_create receiver

theorem Good.reached {ls : List Label} (h : Good s) (horderly : Along step Orderly s ls)
    (hrun : run step s ls = some s') : Good s' ∧ Keeps s s' := by
  have hreached : Good s ∧ Keeps s s := ⟨h, Nat.le_refl _, fun _ _ => rfl⟩
  refine run_invariant (P := fun m => Good m ∧ Keeps s m) ?_ hreached horderly hrun
  rintro m a m' ⟨hgood, hkeeps⟩ horderly hstep
  obtain ⟨hgood', hkeeps'⟩ := hgood.kept horderly hstep
  exact ⟨hgood', hkeeps.trans hkeeps'⟩

theorem Link.Inv.connection_of_inUse (h : l.Inv) (hc : InUse l c) : l.connection = some c := by
  obtain ⟨task, htask, -, hcompleted⟩ := hc
  exact h.newest c task htask hcompleted

/-- What is promised of connectors, connections and channel ids. -/
structure Identity (s : State) (ls : List Label) : Prop where
  pending : ∀ ls₁ m, ls₁ <+: ls → run step s ls₁ = some m → OnePending m
  reported : ∀ ls₁ sender receiver m, ls₁ ++ [.tick sender receiver] <+: ls →
    run step s (ls₁ ++ [.tick sender receiver]) = some m → Reported m
  distinct : ∀ ls₁ ls₂ m m', ls₁ ++ ls₂ <+: ls → run step s ls₁ = some m →
    run step m ls₂ = some m' → m.channelId = m'.channelId →
    ∀ d c c', InUse (m.link d) c → InUse (m'.link d) c' → c = c'

theorem along_of_initial {ls₁ ls : List Label} (hinitial : ls₁ <+: ls)
    (horderly : Along step Orderly s ls) : Along step Orderly s ls₁ := by
  obtain ⟨ls₂, rfl⟩ := hinitial
  exact (along_append.mp horderly).1

theorem orderly_identity (sender receiver : Bool) {ls : List Label}
    (horderly : Along step Orderly (.create sender receiver) ls) :
    Identity (.create sender receiver) ls where
  pending ls₁ m hinitial hrun :=
    ((good_create sender receiver).reached (along_of_initial hinitial horderly) hrun).1.inv.onePending
  reported ls₁ tickSender tickReceiver m hinitial hrun := by
    obtain ⟨hbefore, htick⟩ := along_append.mp (along_of_initial hinitial horderly)
    obtain ⟨m₁, hrun₁, hstep⟩ := run_append_eq_some.mp hrun
    rw [run_singleton] at hstep
    cases hstep
    have hgood := ((good_create sender receiver).reached hbefore hrun₁).1
    exact (hgood.onReconnectTimer (htick m₁ hrun₁).1).2.2
  distinct ls₁ ls₂ m m' hinitial hrun₁ hrun₂ hid d c c' hc hc' := by
    obtain ⟨hbefore, hafter⟩ := along_append.mp (along_of_initial hinitial horderly)
    have hgood := ((good_create sender receiver).reached hbefore hrun₁).1
    obtain ⟨hgood', hkeeps⟩ := hgood.reached (hafter m hrun₁) hrun₂
    have hfirst := (hgood.inv d).connection_of_inUse hc
    have hsecond := (hgood'.inv d).connection_of_inUse hc'
    rw [hkeeps.connection hid.symm d, hfirst] at hsecond
    exact Option.some.inj hsecond

/-- Both directions connect; the receiver is lost and connects again. Creating a
connector throws once. -/
def reconnectingRun : List Label :=
  [.tick none none, .connectorCompletes .sender 0 true, .connectorCompletes .receiver 0 true,
    .tick none none, .remotePeerId .receiver 0 true, .connectionCompletes .receiver 0,
    .tick none (some .createConnector), .tick none none, .connectorCompletes .receiver 1 true,
    .tick none none]

theorem reconnectingRun_identity : Identity (.create false false) reconnectingRun :=
  orderly_identity false false (by decide)

/-- A receiver which was given is lost before the first tick. Its connector is
established, and creating the connection throws. -/
def throwingRun : List Label :=
  [.connectionCompletes .receiver 0, .tick none none, .connectorCompletes .receiver 0 true,
    .tick none (some .createConnection)]

/-- The flag is set without a connection, and the next tick makes one under the
channel id which the lost one had. -/
theorem throwingRun_not_identity :
    (∃ m, run step (.create false true) throwingRun = some m ∧
      m.receiver.isConnected = true ∧ m.receiver.isAlive = false) ∧
    ∃ m, run step (.create false true) (throwingRun ++ [.tick none none]) = some m ∧
      m.channelId = (State.create false true).channelId ∧
      InUse (State.create false true).receiver 0 ∧ InUse m.receiver 1 :=
  ⟨⟨_, rfl, rfl, rfl⟩, ⟨_, rfl, rfl, ⟨_, rfl, rfl, rfl⟩, ⟨_, rfl, rfl, rfl⟩⟩⟩

end Baselib.Messaging.MessagingClient
