/-
Baselib.Messaging.BlockServerOutgoing — the connections of an outgoing
block server over their registry, `TcpBlockServerOutgoingT` of
`messaging/TcpBlockTransferClient.h`.

A registry notification of a connection is `notifyCallback`. The heartbeat
requests of a registration are issued one by one after the registry lock
has been released (`requests`), and the connection which registers goes on
when it has issued its own. Steps of different connections come in any
order. The notification of the host services about a new peer is left out;
that it may cancel the connection is one more `requestCancel`.
-/
import Baselib.Messaging.AutoPushConnection

namespace Baselib.Messaging.BlockServerOutgoing

open Lib
open Messaging.AutoPushConnection (Connection NotifyEventId)
open Messaging.OutgoingBackendState (QueuePtr registerQueue confirmQueue unregisterQueue)

variable {π κ : Type}

/-! ## The server -/

structure State (π κ : Type) where
  registry : OutgoingBackendState.State π κ
  connections : κ → Connection π
  /-- The requests still to be issued, each with the connection which has
  registered. -/
  requests : List (κ × QueuePtr κ)

/-- A server whose connections have not been started. -/
def State.create (nil peerId : π) : State π κ where
  registry := .empty
  connections := fun _ => .create nil peerId true
  requests := []

/-- The notification which a connection makes next. -/
def nextEvent (c : Connection π) : Option NotifyEventId :=
  match c.phase with
  | .dispatching dispatch => dispatch.notifyEvents.head?
  | _ => none

section

variable [DecidableEq π] [LinearOrder κ]

def State.setConnection (s : State π κ) (queue : κ) (connection : Connection π) : State π κ :=
  { s with connections := Function.update s.connections queue connection }

/-- The requests after the next one of the connection, and its target. -/
def takeRequest (queue : κ) :
    List (κ × QueuePtr κ) → Option (QueuePtr κ × List (κ × QueuePtr κ))
  | [] => none
  | (registering, target) :: requests =>
    if registering = queue then some (target, requests)
    else
      (takeRequest queue requests).map fun (next, rest) => (next, (registering, target) :: rest)

/-- `notifyCallback`: the exception it throws, and the server after it. -/
def notifyCallback (nil : π) (remoteAddress : κ → Octets) (queue : κ) (event : NotifyEventId)
    (s : State π κ) : Option (OutgoingBackendState.Failure π) × State π κ :=
  let remotePeerId := (s.connections queue).remotePeerId
  match event with
  | .register =>
    let (result, registry) :=
      registerQueue nil remotePeerId queue (remoteAddress queue) s.registry
    match result with
    | .error failure => (some failure, { s with registry := registry })
    | .ok queues =>
      (none,
        { s with
          registry := registry
          requests := s.requests ++ queues.map fun localQueue => (queue, localQueue) })
  | .confirm =>
    let (result, registry) := confirmQueue remotePeerId queue s.registry
    match result with
    | .error failure => (some failure, { s with registry := registry })
    | .ok () => (none, { s with registry := registry })
  | .unregister =>
    let (result, registry) := unregisterQueue remotePeerId queue s.registry
    match result with
    | .error failure => (some failure, { s with registry := registry })
    | .ok () => (none, { s with registry := registry })

/-! ## Steps -/

/-- `connection` is a step of one connection which does not touch the
registry; `requestHeartbeat` issues the next request of a registration. -/
inductive Label (π κ : Type) where
  | connection (queue : κ) (label : AutoPushConnection.Label π)
  | notify (queue : κ)
  | requestHeartbeat (queue : κ)
  | tryGetQueue (remotePeerId : π)

/-- Whether the connection can make the step while its registration has
requests to issue. -/
def admitted (requesting : Bool) : AutoPushConnection.Label π → Bool
  | .notified _ | .requestHeartbeat => false
  | .callback | .resume => !requesting
  | .start | .tryScheduleBlock _ _ | .requestCancel | .completed _ _ _ => true

def State.requesting (s : State π κ) (queue : κ) : Bool :=
  s.requests.any fun request => request.1 == queue

def step (nil : π) (remoteAddress : κ → Octets) (s : State π κ) :
    Label π κ → Option (State π κ)
  | .connection queue label =>
    if admitted (s.requesting queue) label then
      (AutoPushConnection.step nil (s.connections queue) label).map (s.setConnection queue)
    else none
  | .notify queue =>
    if s.requesting queue then none
    else
      (nextEvent (s.connections queue)).bind fun event =>
        let (thrown, s') := notifyCallback nil remoteAddress queue event s
        (AutoPushConnection.step nil (s.connections queue)
          (.notified (thrown.map .registry))).map (s'.setConnection queue)
  | .requestHeartbeat queue =>
    match takeRequest queue s.requests with
    | some ((target : κ), requests) =>
      some (State.setConnection { s with requests := requests } target
        (AutoPushConnection.requestHeartbeat (s.connections target)))
    | _ => none
  | .tryGetQueue remotePeerId =>
    some { s with registry := (OutgoingBackendState.tryGetQueue remotePeerId s.registry).2 }

end

end Baselib.Messaging.BlockServerOutgoing
