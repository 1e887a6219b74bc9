/-
Baselib.Messaging.OutgoingBackendState — the registry of the outgoing
connections, `TcpBlockServerOutgoingBackendStateT` of
`messaging/TcpBlockTransferClient.h`.

Every member takes the registry and gives its result and the registry
afterwards, also when it throws. A vector holds pointers, and a pointer
which has been moved from is null (`⊥`); the queues which are passed in
are objects (`SAA_in`). `registerQueue` moves pointers out of the vector it
iterates over, one after the other, so a check that fails in its loop
would leave the loop's work behind (`demoteQueues`). The heartbeat
requests it issues after the lock are its result. Allocation failures are
left out.
-/
import Mathlib.Data.List.AList
import Mathlib.Order.WithBot
import Baselib.Core.SortedVector
import Baselib.Lib.Octets

namespace Baselib.Messaging.OutgoingBackendState

open Lib Baselib.Core

/-! ## The registry -/

/-- `om::ObjPtr< queue_t >`. -/
abbrev QueuePtr (κ : Type) : Type := WithBot κ

structure PeerInfo (κ : Type) where
  activeQueues : List (QueuePtr κ)
  unconfirmedQueues : List (QueuePtr κ)
  currentPos : Nat
  deriving DecidableEq

structure ConnectionInfo (π : Type) where
  peerId : π
  remoteAddress : Octets
  deriving DecidableEq

structure State (π κ : Type) where
  peersInfo : AList fun _ : π => PeerInfo κ
  connections2PeerId : AList fun _ : QueuePtr κ => ConnectionInfo π

def State.empty {π κ : Type} : State π κ := ⟨∅, ∅⟩

/-- The exceptions of the members; the last is that of `at`. -/
inductive Failure (π : Type) where
  | noRemotePeerId
  | registeredTwice
  | alreadyUnconfirmed
  | noPeerInfo
  | notRegistered
  | unexpectedPeerId (remotePeerId : π)
  | alreadyConfirmed
  | outOfRange
  deriving DecidableEq

/-- The message of the exception; the library's own for `at`. -/
def Failure.message {π : Type} (uuid2string : π → Octets) (outOfRangeText : Octets) :
    Failure π → Octets
  | .noRemotePeerId =>
    octets "A queue cannot be registered because the remote peer id is not available"
  | .registeredTwice => octets "A queue is attempting to register in the backend twice"
  | .alreadyUnconfirmed => octets "A queue is already registered in the unconfirmed list"
  | .noPeerInfo => octets "Attempting to operate on a queue which has no peer info available"
  | .notRegistered => octets "Attempting to operate on a queue which is not registered"
  | .unexpectedPeerId remotePeerId =>
    octets "Attempting to operate on a queue with unexpected peerId " ++ uuid2string remotePeerId
  | .alreadyConfirmed => octets "Attempting to confirm a queue which is already confirmed"
  | .outOfRange => outOfRangeText

section

variable {π κ : Type} [DecidableEq π] [LinearOrder κ]

/-- `m_peersInfo[ remotePeerId ]`, which enters a peer that is not there. -/
def State.peerInfo (s : State π κ) (remotePeerId : π) : PeerInfo κ :=
  (s.peersInfo.lookup remotePeerId).getD ⟨[], [], 0⟩

/-! ## The members -/

/-- Whether a registration from one address leaves a queue of the other
one active. -/
def differentKnown (remoteAddress localAddress : Octets) : Bool :=
  !(remoteAddress.isEmpty || localAddress.isEmpty || remoteAddress == localAddress)

/-- The loop of `registerQueue` over the active queues: the vector it
leaves, the unconfirmed queues, and those retained. -/
def demoteQueues (connections : AList fun _ : QueuePtr κ => ConnectionInfo π)
    (remoteAddress : Octets) : List (QueuePtr κ) → List (QueuePtr κ) →
      Except (Failure π) Unit × List (QueuePtr κ) × List (QueuePtr κ) × List (QueuePtr κ)
  | [], unconfirmed => (.ok (), [], unconfirmed, [])
  | localQueue :: rest, unconfirmed =>
    match connections.lookup localQueue with
    | none => (.error .outOfRange, localQueue :: rest, unconfirmed, [])
    | some info =>
      if differentKnown remoteAddress info.remoteAddress then
        let (result, left, unconfirmed, retained) :=
          demoteQueues connections remoteAddress rest unconfirmed
        (result, ⊥ :: left, unconfirmed, localQueue :: retained)
      else
        let (unconfirmed, inserted) := SortedVector.insert unconfirmed localQueue
        if inserted then
          let (result, left, unconfirmed, retained) :=
            demoteQueues connections remoteAddress rest unconfirmed
          (result, ⊥ :: left, unconfirmed, retained)
        else (.error .alreadyUnconfirmed, ⊥ :: rest, unconfirmed, [])

/-- `registerQueue`; the result is the queues which are requested to do a
heartbeat. -/
def registerQueue (nil : π) (remotePeerId : π) (queue : κ) (remoteAddress : Octets)
    (s : State π κ) : Except (Failure π) (List (QueuePtr κ)) × State π κ :=
  if remotePeerId = nil then (.error .noRemotePeerId, s)
  else if (s.connections2PeerId.lookup (queue : QueuePtr κ)).isSome then
    (.error .registeredTwice, s)
  else
    let peerInfo := s.peerInfo remotePeerId
    let (result, left, unconfirmed, retained) :=
      demoteQueues s.connections2PeerId remoteAddress peerInfo.activeQueues
        peerInfo.unconfirmedQueues
    match result with
    | .error failure =>
      (.error failure,
        { s with
          peersInfo := s.peersInfo.insert remotePeerId
            { peerInfo with activeQueues := left, unconfirmedQueues := unconfirmed } })
    | .ok () =>
      (.ok peerInfo.activeQueues,
        { peersInfo := s.peersInfo.insert remotePeerId
            { activeQueues := (SortedVector.insert retained (queue : QueuePtr κ)).1
              unconfirmedQueues := unconfirmed
              currentPos := 0 }
          connections2PeerId :=
            s.connections2PeerId.insert (queue : QueuePtr κ) ⟨remotePeerId, remoteAddress⟩ })

/-- The checks of `verifyRegisteredQueue`. -/
def verifyRegisteredQueue (remotePeerId : π) (queue : κ) (s : State π κ) :
    Except (Failure π) (PeerInfo κ) :=
  match s.connections2PeerId.lookup (queue : QueuePtr κ) with
  | none => .error .notRegistered
  | some info =>
    if info.peerId = remotePeerId then
      match s.peersInfo.lookup remotePeerId with
      | none => .error .noPeerInfo
      | some peerInfo => .ok peerInfo
    else .error (.unexpectedPeerId remotePeerId)

def confirmQueue (remotePeerId : π) (queue : κ) (s : State π κ) :
    Except (Failure π) Unit × State π κ :=
  match verifyRegisteredQueue remotePeerId queue s with
  | .error failure => (.error failure, s)
  | .ok peerInfo =>
    match SortedVector.find peerInfo.unconfirmedQueues (queue : QueuePtr κ) with
    | none => (.error .alreadyConfirmed, s)
    | some (before, rest) =>
      (.ok (),
        { s with
          peersInfo := s.peersInfo.insert remotePeerId
            { peerInfo with
              activeQueues :=
                (SortedVector.insert peerInfo.activeQueues (queue : QueuePtr κ)).1
              unconfirmedQueues := before ++ rest } })

/-- `unregisterQueue`: `verifyRegisteredQueue` with `unregister`. The entry
of a peer without queues is erased. -/
def unregisterQueue (remotePeerId : π) (queue : κ) (s : State π κ) :
    Except (Failure π) Unit × State π κ :=
  match verifyRegisteredQueue remotePeerId queue s with
  | .error failure => (.error failure, s)
  | .ok peerInfo =>
    let activeQueues := (SortedVector.erase peerInfo.activeQueues (queue : QueuePtr κ)).1
    let unconfirmedQueues :=
      (SortedVector.erase peerInfo.unconfirmedQueues (queue : QueuePtr κ)).1
    (.ok (),
      { peersInfo :=
          if activeQueues.isEmpty && unconfirmedQueues.isEmpty then
            s.peersInfo.erase remotePeerId
          else
            s.peersInfo.insert remotePeerId
              { peerInfo with
                activeQueues := activeQueues
                unconfirmedQueues := unconfirmedQueues }
        connections2PeerId := s.connections2PeerId.erase (queue : QueuePtr κ) })

/-- `tryGetQueue`: the active queues in turn. -/
def tryGetQueue (remotePeerId : π) (s : State π κ) : QueuePtr κ × State π κ :=
  match s.peersInfo.lookup remotePeerId with
  | none => (⊥, s)
  | some peerInfo =>
    if peerInfo.activeQueues.isEmpty then (⊥, s)
    else
      let currentPos :=
        if peerInfo.activeQueues.length ≤ peerInfo.currentPos then 0 else peerInfo.currentPos
      (peerInfo.activeQueues.getD currentPos ⊥,
        { s with
          peersInfo := s.peersInfo.insert remotePeerId
            { peerInfo with currentPos := currentPos + 1 } })

def getAllActiveQueuesIds (s : State π κ) : List π :=
  s.peersInfo.keys.filter fun remotePeerId =>
    !(s.peerInfo remotePeerId).activeQueues.isEmpty ||
      !(s.peerInfo remotePeerId).unconfirmedQueues.isEmpty

/-! ## Sequences of calls -/

inductive Call (π κ : Type) where
  | registerQueue (remotePeerId : π) (queue : κ) (remoteAddress : Octets)
  | confirmQueue (remotePeerId : π) (queue : κ)
  | unregisterQueue (remotePeerId : π) (queue : κ)
  | tryGetQueue (remotePeerId : π)
  | getAllActiveQueuesIds
  deriving DecidableEq

/-- The exception of the call, if it throws. -/
def Call.failure (nil : π) (s : State π κ) : Call π κ → Option (Failure π)
  | .registerQueue remotePeerId queue remoteAddress =>
    match (OutgoingBackendState.registerQueue nil remotePeerId queue remoteAddress s).1 with
    | .error failure => some failure
    | .ok _ => none
  | .confirmQueue remotePeerId queue =>
    match (OutgoingBackendState.confirmQueue remotePeerId queue s).1 with
    | .error failure => some failure
    | .ok _ => none
  | .unregisterQueue remotePeerId queue =>
    match (OutgoingBackendState.unregisterQueue remotePeerId queue s).1 with
    | .error failure => some failure
    | .ok _ => none
  | .tryGetQueue _ => none
  | .getAllActiveQueuesIds => none

/-- The registry after the call, whether or not it throws. -/
def State.after (nil : π) (s : State π κ) : Call π κ → State π κ
  | .registerQueue remotePeerId queue remoteAddress =>
    (registerQueue nil remotePeerId queue remoteAddress s).2
  | .confirmQueue remotePeerId queue => (confirmQueue remotePeerId queue s).2
  | .unregisterQueue remotePeerId queue => (unregisterQueue remotePeerId queue s).2
  | .tryGetQueue remotePeerId => (tryGetQueue remotePeerId s).2
  | .getAllActiveQueuesIds => s

end

end Baselib.Messaging.OutgoingBackendState
