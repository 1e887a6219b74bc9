/-
Baselib.Messaging.MessagingClient — the reconnect timer of the client:
`messaging/MessagingClientImpl.h`.

Each direction has a connection task and, while it has none which goes on, a
connector task. `checkIfReconnected` and the rest of `onReconnectTimer` run
under the lock of the state, so a tick is one step; the tasks complete between
the ticks. Any call of a tick which allocates may throw: the timer logs the
exception and goes on to tick.

The tasks of a direction are numbered as they are created, and so are the
channel ids: `uuids::create` makes one which was never used.
-/
import Baselib.Lib.Slots
import Baselib.Lib.Transition

namespace Baselib.Messaging.MessagingClient

open Lib

/-- A connection task. -/
structure Connection where
  /-- Whether `push_back` put it in the connections queue. -/
  queued : Bool
  completed : Bool
  isRemotePeerIdAvailable : Bool
  hasStream : Bool
  deriving DecidableEq

inductive ConnectorStatus where
  /-- It has not completed. -/
  | pending
  | failed
  | established
  deriving DecidableEq

/-- A task which establishes a connection. -/
structure Connector where
  queued : Bool
  status : ConnectorStatus
  hasStream : Bool
  deriving DecidableEq

/-- The tasks of one direction. -/
structure Link where
  connections : List Connection
  /-- `m_sender` or `m_receiver` -/
  connection : Option Nat
  connectors : List Connector
  connector : Option Nat
  isConnected : Bool
  deriving DecidableEq

inductive Direction where
  | sender
  | receiver
  deriving DecidableEq

structure State where
  sender : Link
  receiver : Link
  channelId : Nat
  deriving DecidableEq

def State.link (s : State) : Direction → Link
  | .sender => s.sender
  | .receiver => s.receiver

def State.setLink (s : State) (l : Link) : Direction → State
  | .sender => { s with sender := l }
  | .receiver => { s with receiver := l }

/-! ## The constructor -/

/-- A direction may begin with a connection which is in the queue. -/
def Link.create (isPreConnected : Bool) : Link where
  connections :=
    if isPreConnected then
      [{ queued := true, completed := false, isRemotePeerIdAvailable := false, hasStream := true }]
    else []
  connection := if isPreConnected then some 0 else none
  connectors := []
  connector := none
  isConnected := false

def State.create (sender receiver : Bool) : State where
  sender := .create sender
  receiver := .create receiver
  channelId := 0

/-! ## One direction of a tick -/

def Link.connectionTask (l : Link) : Option Connection := l.connection.bind (l.connections[·]?)

def Link.connectorTask (l : Link) : Option Connector := l.connector.bind (l.connectors[·]?)

/-- There is a connection task which has not completed. -/
def Link.isAlive (l : Link) : Bool := l.connectionTask.any (!·.completed)

/-- The calls of a tick which may throw. -/
inductive Call where
  /-- Logging the failure of the last connector, or creating one. -/
  | createConnector
  | pushConnector
  | createConnection
  | pushConnection
  | createChannelId
  | log
  deriving DecidableEq

inductive Outcome where
  | returned (isReconnected : Bool)
  | thrown
  deriving DecidableEq

def Link.addConnector (l : Link) (queued : Bool) : Link :=
  { l with
    connectors := l.connectors ++ [{ queued := queued, status := .pending, hasStream := false }]
    connector := some l.connectors.length }

/-- The first call of the tick which throws, if it is reached, is `throws`. -/
def Link.checkIfReconnected (l : Link) (throws : Option Call) : Link × Outcome :=
  if l.isAlive then ({ l with connector := none, isConnected := true }, .returned false)
  else
    match l.connectorTask.map Connector.status with
    | some .pending => ({ l with isConnected := false }, .returned false)
    | some .established => ({ l with isConnected := true }, .returned true)
    | some .failed | none =>
      let l := { l with isConnected := false }
      if throws = some .createConnector then (l, .thrown)
      else if throws = some .pushConnector then (l.addConnector false, .thrown)
      else (l.addConnector true, .returned false)

def Link.detachStream (l : Link) : Link :=
  match l.connector with
  | some c => { l with connectors := l.connectors.modify c ({ · with hasStream := false }) }
  | none => l

def Link.addConnection (l : Link) (queued hasStream : Bool) : Link :=
  { l with
    connections := l.connections ++
      [{ queued, completed := false, isRemotePeerIdAvailable := false, hasStream }]
    connection := some l.connections.length }

/-- The connection of an established connector. The stream is an argument of
the one a sender has, so it is detached before that is created. -/
def Link.connect (l : Link) (d : Direction) (throws : Option Call) : Link × Outcome :=
  let detached := l.detachStream
  if throws = some .createConnection then
    (match d with
      | .sender => detached
      | .receiver => l, .thrown)
  else
    let hasStream := l.connectorTask.any Connector.hasStream
    if throws = some .pushConnection then (detached.addConnection false hasStream, .thrown)
    else ({ detached.addConnection true hasStream with connector := none }, .returned true)

/-- The part of a tick before the channel id. -/
def Link.reconnect (l : Link) (d : Direction) (throws : Option Call) : Link × Outcome :=
  match l.checkIfReconnected throws with
  | (l, .returned true) => l.connect d throws
  | (l, outcome) => (l, outcome)

/-- The state after the part of a tick for the direction, and whether it threw. -/
def State.reconnect (s : State) (d : Direction) (throws : Option Call) : State × Bool :=
  match (s.link d).reconnect d throws with
  | (l, .thrown) => (s.setLink l d, true)
  | (l, .returned _) =>
    if (s.link d).isConnected = l.isConnected then (s.setLink l d, false)
    else if throws = some .createChannelId then (s.setLink l d, true)
    else ({ s.setLink l d with channelId := s.channelId + 1 }, throws = some .log)

def State.onReconnectTimer (s : State) (sender receiver : Option Call) : State :=
  match s.reconnect .sender sender with
  | (s, true) => s
  | (s, false) => (s.reconnect .receiver receiver).1

/-- What a direction reports by `isConnected`. -/
def Link.isReady (l : Link) : Bool :=
  l.isConnected && l.connectionTask.any fun task => !task.completed && task.isRemotePeerIdAvailable

def State.isConnected (s : State) : Bool := s.receiver.isReady && s.sender.isReady

/-! ## Steps -/

inductive Label where
  /-- The calls of the two directions which throw. -/
  | tick (sender receiver : Option Call)
  | connectorCompletes (d : Direction) (c : Nat) (isEstablished : Bool)
  | connectionCompletes (d : Direction) (c : Nat)
  | remotePeerId (d : Direction) (c : Nat) (isAvailable : Bool)
  deriving DecidableEq

def step (s : State) : Label → Option State
  | .tick sender receiver => some (s.onReconnectTimer sender receiver)
  | .connectorCompletes d c isEstablished =>
    let l := s.link d
    match l.connectors[c]? with
    | some task =>
      if task.queued ∧ task.status = .pending then
        let task := { task with
          status := if isEstablished then .established else .failed
          hasStream := isEstablished }
        some (s.setLink { l with connectors := l.connectors.set c task } d)
      else none
    | none => none
  | .connectionCompletes d c =>
    let l := s.link d
    match l.connections[c]? with
    | some task =>
      if task.queued ∧ task.completed = false then
        some (s.setLink
          { l with connections := l.connections.set c { task with completed := true } } d)
      else none
    | none => none
  | .remotePeerId d c isAvailable =>
    let l := s.link d
    match l.connections[c]? with
    | some task =>
      if task.queued ∧ task.completed = false then
        some (s.setLink { l with
          connections := l.connections.set c
            { task with isRemotePeerIdAvailable := isAvailable } } d)
      else none
    | none => none

end Baselib.Messaging.MessagingClient
