/-
Baselib.Tasks.TcpServerTheorems — what becomes of the sockets which a TCP
server accepts.

Every one of them is refused or admitted, and closed in the end. The number
of connections is within the maximum exactly as long as the connections whose
handshake has completed, and which are in no queue for the moment, leave room
for the one which is admitted.
-/
import Mathlib.Data.List.Perm.Basic
import Baselib.Tasks.TcpAcceptorTheorems
import Baselib.Tasks.TcpServer

namespace Baselib.Tasks.TcpServer

open Lib List
open TcpAcceptor (ErrorCode Inv)

variable {σ : Type} {p : Parameters} {s s' : Server σ} {l : Label σ} {d : State σ}

/-! ## The streams -/

/-- The connections which are in no queue between their handshake and their
event. -/
def State.handshaken (d : State σ) : List σ := d.events.filterMap (·.stream)

/-- The number of connections which are admitted and have not finished. -/
def State.openConnections (d : State σ) : Nat := d.connections.length + d.handshaken.length

/-- The streams the server has been given. -/
def State.streams (d : State σ) : List σ :=
  d.closed ++ (d.connections.map (·.stream) ++ d.handshaken)

@[simp] theorem close_streams (stream : Option σ) :
    ((d.close stream).streams).Perm (stream.toList ++ d.streams) := by
  rw [State.streams, State.close, append_assoc]
  exact (perm_append_comm_assoc _ _ _)

theorem pushBack_streams (pushes isHandshake : Bool) (stream : σ) :
    ((d.pushBack pushes isHandshake stream).streams).Perm (stream :: d.streams) := by
  rw [State.pushBack]
  split
  · simp only [State.streams, State.handshaken, map_append, map_cons, map_nil,
      append_assoc, singleton_append]
    refine (List.Perm.append_left _ perm_middle).trans perm_middle
  · exact close_streams (some stream)

theorem pushBack_openConnections (pushes isHandshake : Bool) (stream : σ) :
    (d.pushBack pushes isHandshake stream).openConnections =
      d.openConnections + pushes.toNat := by
  rw [State.pushBack]
  cases pushes with
  | true =>
    simp only [State.openConnections, State.handshaken, if_true, length_append,
      length_singleton, Bool.toNat_true]
    omega
  | false => rfl

/-- The answers with which the task of a configured connection is pushed. -/
def Answers.configures (answers : Answers) : Bool :=
  answers.remoteEndpoint && answers.createConnection && answers.pushBack

theorem processConfiguredConnection_streams (answers : Answers) (stream : σ) :
    ((processConfiguredConnection answers stream d).streams).Perm (stream :: d.streams) := by
  rw [processConfiguredConnection]
  split
  · exact close_streams (some stream)
  · dsimp only
    split <;> exact pushBack_streams _ _ _

theorem processConfiguredConnection_openConnections (answers : Answers) (stream : σ) :
    (processConfiguredConnection answers stream d).openConnections =
      d.openConnections + answers.configures.toNat := by
  rw [processConfiguredConnection, Answers.configures]
  cases answers.remoteEndpoint with
  | false => rfl
  | true =>
    cases answers.createConnection with
    | false => rfl
    | true =>
      refine Eq.trans ?_ (pushBack_openConnections answers.pushBack false stream)
      cases answers.pushBack with
      | false => rfl
      | true => rfl

/-- The answers with which a connection is admitted when there is room. -/
def Answers.admits (p : Parameters) (answers : Answers) : Bool :=
  if p.isProtocolHandshakeNeeded then answers.createProtocolHandshakeTask && answers.pushBack
  else answers.configures

/-- The server is at its connection cap. -/
def State.isFull (p : Parameters) (d : State σ) : Prop :=
  p.effectiveMaxConnections ≠ 0 ∧ p.effectiveMaxConnections ≤ d.connections.length

instance (p : Parameters) (d : State σ) : Decidable (d.isFull p) :=
  inferInstanceAs (Decidable (_ ∧ _))

theorem processIncomingConnection_streams (answers : Answers) (stream : σ) :
    ((processIncomingConnection p answers stream d).streams).Perm (stream :: d.streams) := by
  rw [processIncomingConnection]
  split
  · exact close_streams (some stream)
  split
  · split
    · exact close_streams (some stream)
    · dsimp only
      split <;> exact pushBack_streams _ _ _
  · exact processConfiguredConnection_streams answers stream

theorem processIncomingConnection_openConnections (answers : Answers) (stream : σ) :
    (processIncomingConnection p answers stream d).openConnections =
      d.openConnections + if d.isFull p then 0 else (answers.admits p).toNat := by
  rw [processIncomingConnection]
  by_cases hfull : d.isFull p
  · rw [if_pos hfull, if_pos (show _ ∧ _ from hfull)]
    rfl
  · rw [if_neg hfull, if_neg (show ¬(_ ∧ _) from hfull), Answers.admits]
    cases p.isProtocolHandshakeNeeded with
    | false => exact processConfiguredConnection_openConnections answers stream
    | true =>
      cases answers.createProtocolHandshakeTask with
      | false => rfl
      | true =>
        refine Eq.trans ?_ (pushBack_openConnections answers.pushBack true stream)
        cases answers.pushBack with
        | false => rfl
        | true => rfl

theorem eraseIdx_connections_streams {i : Nat} {c : Connection σ} (hc : d.connections[i]? = some c) :
    (State.streams d).Perm
      (c.stream :: State.streams { d with connections := d.connections.eraseIdx i }) := by
  obtain ⟨hi, rfl⟩ := List.getElem?_eq_some_iff.mp hc
  have hperm := ((getElem_cons_eraseIdx_perm hi).map (·.stream)).symm
  refine (List.Perm.append_left _ (hperm.append_right _)).trans ?_
  exact perm_middle

theorem discard_streams (c : Connection σ) (isFailed : Bool) :
    ((discard c isFailed d).streams).Perm (c.stream :: d.streams) := by
  rw [discard]
  cases hheld : c.isHandshake && !isFailed with
  | true =>
    simp only [if_true, Option.isSome_some]
    split
    · simp only [State.streams, State.handshaken, filterMap_append, filterMap_cons,
        filterMap_nil, ← append_assoc]
      exact perm_append_singleton _ _
    · exact close_streams (some c.stream)
  | false =>
    simp only [Bool.false_eq_true, if_false, Option.isSome_none]
    split
    · refine List.Perm.trans ?_ (close_streams (some c.stream))
      simp [State.streams, State.handshaken, State.close]
    · exact (close_streams none).trans (close_streams (some c.stream))

theorem discard_openConnections (c : Connection σ) (isFailed : Bool) :
    (discard c isFailed d).openConnections ≤ d.openConnections + 1 := by
  rw [discard]
  cases hheld : c.isHandshake && !isFailed with
  | true =>
    simp only [if_true, Option.isSome_some]
    split
    · simp [State.openConnections, State.handshaken]
      omega
    · exact Nat.le_succ _
  | false =>
    simp only [Bool.false_eq_true, if_false, Option.isSome_none]
    split
    · simp [State.openConnections, State.handshaken, State.close]
    · exact Nat.le_succ _

theorem discard_refused (c : Connection σ) (isFailed : Bool) :
    (discard c isFailed d).refused = d.refused := by
  rw [discard]
  cases hheld : c.isHandshake && !isFailed with
  | true =>
    simp only [if_true, Option.isSome_some]
    split <;> rfl
  | false =>
    simp only [Bool.false_eq_true, if_false, Option.isSome_none]
    split <;> rfl

/-- The event is not in the queue any more, and its stream is either closed
or that of a configured connection. -/
theorem onEvent_streams (answers : Answers) (event : Discarded σ) :
    ((onEvent answers event d).streams).Perm (event.stream.toList ++ d.streams) := by
  rw [onEvent]
  split
  · exact close_streams event.stream
  split
  · dsimp only
    split
    · exact close_streams event.stream
    · cases event.stream with
      | none => exact List.Perm.refl _
      | some stream => exact processConfiguredConnection_streams answers stream
  · exact close_streams event.stream

theorem onEvent_openConnections (answers : Answers) (event : Discarded σ) :
    (onEvent answers event d).openConnections ≤
      d.openConnections + event.stream.toList.length := by
  rw [onEvent]
  split
  · exact Nat.le_add_right _ _
  split
  · dsimp only
    split
    · exact Nat.le_add_right _ _
    · cases event.stream with
      | none => exact Nat.le_refl _
      | some stream =>
        refine Nat.le_trans (Nat.le_of_eq
          (processConfiguredConnection_openConnections answers stream)) ?_
        exact Nat.add_le_add_left (Bool.toNat_le _) _
  · exact Nat.le_add_right _ _

theorem eraseIdx_events_streams {i : Nat} {event : Discarded σ} (he : d.events[i]? = some event) :
    (State.streams d).Perm
      (event.stream.toList ++ State.streams { d with events := d.events.eraseIdx i }) := by
  obtain ⟨hi, rfl⟩ := List.getElem?_eq_some_iff.mp he
  have hperm := ((getElem_cons_eraseIdx_perm hi).filterMap (·.stream)).symm
  have hcons : (d.events[i] :: d.events.eraseIdx i).filterMap (·.stream) =
      d.events[i].stream.toList ++ (d.events.eraseIdx i).filterMap (·.stream) := by
    rw [filterMap_cons]
    cases d.events[i].stream with
    | none => rfl
    | some stream => rfl
  rw [hcons] at hperm
  refine (List.Perm.append_left _ (List.Perm.append_left _ hperm)).trans ?_
  simp only [State.streams, State.handshaken]
  refine (List.Perm.append_left _ (perm_append_comm_assoc _ _ _)).trans ?_
  exact perm_append_comm_assoc _ _ _

/-! ## The steps -/

theorem accounting (p : Parameters) : TcpAcceptor.Accounting (hooks (σ := σ) p) State.streams where
  processIncomingConnection answers stream _ := processIncomingConnection_streams answers stream
  continueAfterStoppedAccepting d := by
    simp only [hooks, continueAfterStoppedAccepting]
    split <;> rfl
  onTaskStoppedNothrow eptr d := by
    simp only [hooks, onTaskStoppedNothrow]
    split <;> rfl

/-- What the server's own sections do to the connections. -/
structure Within (d d' : State σ) : Prop where
  streams : (d'.streams).Perm d.streams
  openConnections : d'.openConnections ≤ d.openConnections
  refused : d'.refused = d.refused

theorem Within.of_eq {d' : State σ} (hconnections : d'.connections = d.connections)
    (hevents : d'.events = d.events) (hclosed : d'.closed = d.closed)
    (hrefused : d'.refused = d.refused) : Within d d' where
  streams := by rw [State.streams, State.streams, State.handshaken, State.handshaken,
    hconnections, hevents, hclosed]
  openConnections := Nat.le_of_eq (by rw [State.openConnections, State.openConnections,
    State.handshaken, State.handshaken, hconnections, hevents])
  refused := hrefused

theorem pushBack_refused (pushes isHandshake : Bool) (stream : σ) :
    (d.pushBack pushes isHandshake stream).refused = d.refused := by
  rw [State.pushBack]
  split <;> rfl

theorem processConfiguredConnection_refused (answers : Answers) (stream : σ) :
    (processConfiguredConnection answers stream d).refused = d.refused := by
  rw [processConfiguredConnection]
  split
  · rfl
  · dsimp only
    split <;> exact pushBack_refused _ _ _

theorem within_completes {i : Nat} {c : Connection σ} (hc : d.connections[i]? = some c)
    (isFailed : Bool) :
    Within d (discard c isFailed { d with connections := d.connections.eraseIdx i }) where
  streams := (discard_streams c isFailed).trans (eraseIdx_connections_streams hc).symm
  openConnections := by
    obtain ⟨hi, -⟩ := List.getElem?_eq_some_iff.mp hc
    have hlength := length_eraseIdx_add_one hi
    refine Nat.le_trans (discard_openConnections c isFailed) ?_
    simp only [State.openConnections, State.handshaken]
    omega
  refused := discard_refused c isFailed

theorem within_onEvent {i : Nat} {event : Discarded σ} (he : d.events[i]? = some event)
    (answers : Answers) :
    Within d (onEvent answers event { d with events := d.events.eraseIdx i }) where
  streams := (onEvent_streams answers event).trans (eraseIdx_events_streams he).symm
  openConnections := by
    obtain ⟨hi, rfl⟩ := List.getElem?_eq_some_iff.mp he
    have hperm := ((getElem_cons_eraseIdx_perm hi).filterMap (·.stream)).length_eq
    refine Nat.le_trans (onEvent_openConnections answers _) (Nat.le_of_eq ?_)
    simp only [State.openConnections, State.handshaken, ← hperm, filterMap_cons]
    cases d.events[i].stream with
    | none => rfl
    | some stream => exact Nat.add_assoc _ _ _
  refused := by
    rw [onEvent]
    split
    · rfl
    split
    · dsimp only
      split
      · rfl
      · cases event.stream with
        | none => rfl
        | some stream => exact processConfiguredConnection_refused answers stream
    · rfl

theorem within_onTimer : Within d (onTimer d).2 := by
  rw [onTimer]
  split <;> exact Within.of_eq rfl rfl rfl rfl

theorem step_acceptor (hstep : step p s l = some s') :
    (∃ l', l = .acceptor l' ∧ (∀ d n, l' ≠ .derived d n) ∧
        TcpAcceptor.step (hooks p) s l' = some s') ∨
      (∀ l', l ≠ .acceptor l') ∧ ∃ d n, Within s.derived d ∧
        TcpAcceptor.step (hooks p) s (.derived d n) = some s' := by
  cases l with
  | acceptor l' =>
    refine .inl ⟨l', rfl, ?_⟩
    cases l' with
    | derived d n => cases hstep
    | scheduleNothrow | requestCancel | resolved _ _ | accepted _ _ | acceptFails _ _
    | expires _ | onResolved _ _ | onConnectionAccepted _ _ | onAcceptBackOffExpired _
    | notifyReady _ => exact ⟨nofun, hstep⟩
  | completes i isFailed =>
    obtain ⟨c, hc, hs⟩ := Option.bind_eq_some_iff.mp hstep
    exact .inr ⟨nofun, _, _, within_completes hc isFailed, hs⟩
  | onEvent i answers =>
    obtain ⟨event, he, hs⟩ := Option.bind_eq_some_iff.mp hstep
    exact .inr ⟨nofun, _, _, within_onEvent he answers, hs⟩
  | onTimer =>
    obtain ⟨-, hs⟩ := Option.ite_none_right_eq_some.mp hstep
    exact .inr ⟨nofun, _, _, within_onTimer, hs⟩
  | pushSupportingTask | supportingTaskCompletes =>
    obtain ⟨-, hs⟩ := Option.ite_none_right_eq_some.mp hstep
    refine .inr ⟨nofun, _, _, ?_, hs⟩
    exact Within.of_eq rfl rfl rfl rfl

theorem step_inv (h : Inv s) (hstep : step p s l = some s') : Inv s' := by
  obtain ⟨l', -, -, hs⟩ | ⟨-, d, n, -, hs⟩ := step_acceptor hstep
  · exact TcpAcceptor.step_inv h hs
  · exact TcpAcceptor.step_inv h hs

/-! ## The connection cap -/

/-- The connections are within the maximum, every accepted socket is either
admitted or closed once its handler has run, and the refused ones were
refused by a full server. -/
structure Capped (p : Parameters) (s : Server σ) : Prop where
  openConnections : p.effectiveMaxConnections ≠ 0 →
    s.derived.openConnections ≤ p.effectiveMaxConnections
  accounted : TcpAcceptor.Accounted State.streams s
  refused : ∀ r ∈ s.derived.refused,
    p.effectiveMaxConnections ≠ 0 ∧ p.effectiveMaxConnections ≤ r.2

/-- A connection which the queue has room for and which is admitted finds
room next to the connections which have left the queue with their handshake. -/
def AdmitsWithin (p : Parameters) (s : Server σ) : Label σ → Prop
  | .acceptor (.onConnectionAccepted _ answers) =>
    s.socket.isSome = true → answers.admits p = true →
      s.derived.connections.length < p.effectiveMaxConnections →
      s.derived.openConnections < p.effectiveMaxConnections
  | _ => True

instance (p : Parameters) : ∀ (s : Server σ) (l : Label σ), Decidable (AdmitsWithin p s l)
  | _, .acceptor (.onConnectionAccepted ..) => inferInstanceAs (Decidable (_ → _))
  | _, .acceptor (.scheduleNothrow) | _, .acceptor (.requestCancel)
  | _, .acceptor (.resolved ..) | _, .acceptor (.accepted ..) | _, .acceptor (.acceptFails ..)
  | _, .acceptor (.expires ..) | _, .acceptor (.onResolved ..)
  | _, .acceptor (.onAcceptBackOffExpired ..) | _, .acceptor (.notifyReady ..)
  | _, .acceptor (.derived ..) | _, .completes .. | _, .onEvent .. | _, .onTimer
  | _, .pushSupportingTask | _, .supportingTaskCompletes => isTrue trivial

theorem Capped.within (h : Capped p s) (hwithin : Within s.derived s'.derived)
    (haccounted : TcpAcceptor.Accounted State.streams s') : Capped p s' where
  openConnections hne := Nat.le_trans hwithin.openConnections (h.openConnections hne)
  accounted := haccounted
  refused := by
    rw [hwithin.refused]
    exact h.refused

theorem processIncomingConnection_refused (answers : Answers) (stream : σ) :
    (processIncomingConnection p answers stream d).refused =
      d.refused ++ if d.isFull p then [(stream, d.connections.length)] else [] := by
  rw [processIncomingConnection]
  by_cases hfull : d.isFull p
  · rw [if_pos hfull, if_pos (show _ ∧ _ from hfull)]
  · rw [if_neg hfull, if_neg (show ¬(_ ∧ _) from hfull), append_nil]
    split
    · split
      · rfl
      · dsimp only
        split <;> exact pushBack_refused _ _ _
    · exact processConfiguredConnection_refused answers stream

/-- The connections of a full server stay as they are. -/
theorem processIncomingConnection_capped (answers : Answers) (stream : σ)
    (hbelow : p.effectiveMaxConnections ≠ 0 → d.openConnections ≤ p.effectiveMaxConnections) :
    (p.effectiveMaxConnections ≠ 0 →
        (processIncomingConnection p answers stream d).openConnections ≤
          p.effectiveMaxConnections) ↔
      (answers.admits p = true → d.connections.length < p.effectiveMaxConnections →
        d.openConnections < p.effectiveMaxConnections) := by
  rw [processIncomingConnection_openConnections]
  by_cases hfull : d.isFull p
  · rw [if_pos hfull]
    have hnot := Nat.not_lt.mpr hfull.2
    exact iff_of_true hbelow fun _ hlt => absurd hlt hnot
  · rw [if_neg hfull]
    cases answers.admits p with
    | false => exact iff_of_true hbelow nofun
    | true =>
      rw [State.isFull, not_and] at hfull
      simp only [Bool.toNat_true, true_implies]
      constructor
      · intro h hlt
        exact h (Nat.ne_zero_of_lt hlt)
      · intro h hne
        exact h (Nat.not_le.mp (hfull hne))

theorem step_capped_iff (h : Inv s) (hcapped : Capped p s) (hstep : step p s l = some s') :
    Capped p s' ↔ AdmitsWithin p s l := by
  have haccounted : TcpAcceptor.Accounted State.streams s' := by
    obtain ⟨l', rfl, hother, hs⟩ | ⟨-, d, n, hwithin, hs⟩ := step_acceptor hstep
    · exact TcpAcceptor.step_accounted (accounting p) h hcapped.accounted hs
        fun d n heq => absurd heq (hother d n)
    · refine TcpAcceptor.step_accounted (accounting p) h hcapped.accounted hs ?_
      rintro d n ⟨rfl, rfl⟩
      exact hwithin.streams
  obtain ⟨l', rfl, hother, hs⟩ | ⟨hnot, d, n, hwithin, hs⟩ := step_acceptor hstep
  · have hderives := TcpAcceptor.step_derives h hs
    generalize hd : s'.derived = d' at hderives
    have hkeeps : Within s.derived s'.derived → AdmitsWithin p s (.acceptor l') →
        (Capped p s' ↔ AdmitsWithin p s (.acceptor l')) :=
      fun hwithin hadmits => iff_of_true (hcapped.within hwithin haccounted) hadmits
    cases hderives with
    | same hnone =>
      refine hkeeps (by rw [hd]; exact Within.of_eq rfl rfl rfl rfl) ?_
      cases l' with
      | onConnectionAccepted i answers =>
        intro hsome
        rw [hnone i answers rfl] at hsome
        cases hsome
      | _ => trivial
    | processes i answers stream hsocket =>
      have hcap := processIncomingConnection_capped answers stream hcapped.openConnections
      have hiff : AdmitsWithin p s (.acceptor (.onConnectionAccepted i answers)) ↔
          (answers.admits p = true → s.derived.connections.length < p.effectiveMaxConnections →
            s.derived.openConnections < p.effectiveMaxConnections) := by
        simp [AdmitsWithin, hsocket]
      rw [hiff, ← hcap]
      constructor
      · intro h'
        have hopen := h'.openConnections
        rwa [hd] at hopen
      · intro hopen
        refine ⟨?_, haccounted, ?_⟩
        · rwa [hd]
        rw [hd]
        simp only [hooks, processIncomingConnection_refused]
        intro r hr
        obtain hr | hr := mem_append.mp hr
        · exact hcapped.refused r hr
        · split at hr
          · rename_i hfull
            rwa [mem_singleton.mp hr]
          · cases hr
    | continues i answers hnone =>
      refine hkeeps ?_ (fun hsome => ?_)
      · rw [hd]
        simp only [hooks, continueAfterStoppedAccepting]
        split <;> exact Within.of_eq rfl rfl rfl rfl
      · rw [hnone] at hsome
        cases hsome
    | stops i eptr =>
      refine hkeeps ?_ trivial
      rw [hd]
      simp only [hooks, onTaskStoppedNothrow]
      split <;> exact Within.of_eq rfl rfl rfl rfl
    | derived => exact absurd rfl (hother _ _)
  · obtain ⟨-, rfl⟩ := Transition.ite_none_some_eq_some.mp hs
    refine iff_of_true (hcapped.within hwithin haccounted) ?_
    cases l with
    | acceptor l' => exact absurd rfl (hnot l')
    | _ => trivial

theorem create_capped (p : Parameters) : Capped p (Server.create : Server σ) where
  openConnections _ := Nat.zero_le _
  accounted := List.Perm.refl _
  refused r hr := by cases hr

/-- In every run, the server keeps its cap exactly as long as it admits
within it. -/
theorem run_capped_iff (p : Parameters) (ls : List (Label σ)) (s : Server σ)
    (hrun : Transition.run (step p) Server.create ls = some s) :
    Transition.Throughout (step p) (Capped p) Server.create ls ↔
      Transition.Along (step p) (AdmitsWithin p) Server.create ls :=
  Transition.throughout_iff_along (fun _ _ _ h hstep => step_inv h hstep)
    (fun _ _ _ hinv h hstep => step_capped_iff hinv h hstep) (TcpAcceptor.Inv.create _)
    (create_capped p) hrun

/-- A server for one connection at a time. -/
def oneConnection : Parameters where
  isProtocolHandshakeNeeded := true
  maxConnections := some 1
  connectionMemoryFootprint := 0
  physicalMemorySize := 0
  fileDescriptorSoftLimit := 0

def answersAll : Answers := ⟨true, true, true, true⟩

/-- A connection is accepted, and completes its handshake. -/
def handshakeRun : List (Label Nat) :=
  [.acceptor .scheduleNothrow, .acceptor (.resolved 0 none), .acceptor (.onResolved 0 none),
    .acceptor (.accepted 0 1), .acceptor (.onConnectionAccepted 0 answersAll), .completes 0 false]

/-- Another one is accepted when the first has come in again. -/
theorem run_capped_refused :
    Transition.Throughout (step oneConnection) (Capped oneConnection) Server.create
      (handshakeRun ++ [.onEvent 0 answersAll, .acceptor (.accepted 0 2),
        .acceptor (.onConnectionAccepted 0 answersAll)]) := by
  obtain ⟨s, hs⟩ := Option.isSome_iff_exists.mp
    (show (Transition.run (step oneConnection) Server.create
      (handshakeRun ++ [.onEvent 0 answersAll, .acceptor (.accepted 0 2),
        .acceptor (.onConnectionAccepted 0 answersAll)])).isSome = true by decide)
  exact (run_capped_iff oneConnection _ s hs).mpr (by decide)

/-- Another one is accepted before that. -/
theorem run_overCap :
    ∃ s, Transition.run (step oneConnection) Server.create
        (handshakeRun ++ [.acceptor (.accepted 0 2),
          .acceptor (.onConnectionAccepted 0 answersAll), .onEvent 0 answersAll]) = some s ∧
      s.derived.connections = [⟨1, true, 2⟩, ⟨2, false, 1⟩] ∧
      oneConnection.effectiveMaxConnections = 1 :=
  ⟨_, rfl, rfl, rfl⟩

end Baselib.Tasks.TcpServer
