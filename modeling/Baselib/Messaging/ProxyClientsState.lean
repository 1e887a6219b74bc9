/-
Baselib.Messaging.ProxyClientsState — the clients the proxy backend of
`messaging/ProxyBrokerBackendProcessingFactory.h` knows, and the pruning of
those which have been inactive for long.

Every member holds `m_lock` while it looks at the two maps, so an
interleaving of callers is a sequence of members. The clock is read anew for
each inactive client, and none of the readings is a function of anything
here. Which channels are connected, and how many clients are reached before
the small blocks run out, is decided by the environment. Times are
microseconds.
-/
import Mathlib.Data.List.AList
import Mathlib.Data.Finset.Filter
import Mathlib.Data.Finset.Insert
import Baselib.Lib.Transition

namespace Baselib.Messaging.ProxyClientsState

open Lib

structure ClientInfo (κ : Type) where
  configuredChannelIds : Finset κ

def emptyClientInfo {κ : Type} : ClientInfo κ := ⟨∅⟩

/-- The members of `SharedStateT` for the registered peer ids. -/
structure State (π κ : Type) where
  clientsState : AList fun _ : π => ClientInfo κ
  clientsPruneState : AList fun _ : π => Int
  clientsPruneCheckInterval : Int
  clientsPruneInterval : Int
  timeLastClientsPruneCheck : Int
  hostServices : Bool
  isDisposed : Bool

def associatePeerIdTimer : Int := 5 * 1000000

def pruneCheckInterval : Int := 2 * associatePeerIdTimer

def pruneInterval : Int := 3 * pruneCheckInterval

/-- The constructor. -/
def State.init (π κ : Type) (now : Int) : State π κ where
  clientsState := ∅
  clientsPruneState := ∅
  clientsPruneCheckInterval := pruneCheckInterval
  clientsPruneInterval := pruneInterval
  timeLastClientsPruneCheck := now
  hostServices := false
  isDisposed := false

/-- The readings of the clock in one check: at its start, at each inactive
client, and at its end. -/
structure Clock (π : Type) where
  start : Int
  now : π → Int
  finish : Int

/-- What a check has seen and done: the active ids, the inactive clients with
the time each was looked at, the interval, and the clients it pruned. -/
structure Observation (π : Type) where
  active : List π
  inactive : List π
  now : π → Int
  interval : Int
  pruned : List π

section

variable {π κ : Type} [DecidableEq π] [DecidableEq κ]

/-- `emplace`, which leaves an entry that is there. -/
def emplace {ν : Type} (p : π) (v : ν) (m : AList fun _ : π => ν) : AList fun _ : π => ν :=
  if p ∈ m then m else m.insert p v

/-! ## The check -/

/-- The two maps as the loop over the inactive clients goes on, and the
clients it has pruned. -/
structure Pruning (π κ : Type) where
  clientsState : AList fun _ : π => ClientInfo κ
  clientsPruneState : AList fun _ : π => Int
  pruned : List π

/-- One round of the loop. -/
def pruneInactive (interval : Int) (now : π → Int) (l : Pruning π κ) (peerId : π) :
    Pruning π κ :=
  match l.clientsPruneState.lookup peerId with
  | none => { l with clientsPruneState := l.clientsPruneState.insert peerId (now peerId) }
  | some timeStampInactiveSince =>
    if now peerId - timeStampInactiveSince < interval then l
    else
      { clientsState := l.clientsState.erase peerId
        clientsPruneState := l.clientsPruneState.erase peerId
        pruned := l.pruned ++ [peerId] }

/-- How a check ends: it is not due, the active ids could not be had, or it
has run. -/
inductive Check (π : Type) where
  | notDue
  | failed
  | done (observation : Observation π)

/-- `activePeerIds` is what `getActivePeerIdsNoLock` returns, `none` when it
throws. -/
def checkToPruneStaleClientsStateNoLock (clock : Clock π) (activePeerIds : Option (List π))
    (s : State π κ) : State π κ × Check π :=
  if !s.hostServices then (s, .notDue)
  else if clock.start - s.timeLastClientsPruneCheck < s.clientsPruneCheckInterval then
    (s, .notDue)
  else
    match activePeerIds with
    | none => (s, .failed)
    | some activePeerIds =>
      let clientsPruneState := activePeerIds.foldl (fun m p => m.erase p) s.clientsPruneState
      let inactivePeerIds := s.clientsState.keys.filter fun p => p ∉ activePeerIds
      let l := inactivePeerIds.foldl (pruneInactive s.clientsPruneInterval clock.now)
        { clientsState := s.clientsState, clientsPruneState := clientsPruneState, pruned := [] }
      ({ s with
          clientsState := activePeerIds.foldl (fun m p => emplace p emptyClientInfo m) l.clientsState
          clientsPruneState := l.clientsPruneState
          timeLastClientsPruneCheck := clock.finish },
        .done
          { active := activePeerIds
            inactive := inactivePeerIds
            now := clock.now
            interval := s.clientsPruneInterval
            pruned := l.pruned })

/-! ## The members -/

/-- The channels of a client which are no longer connected, as
`configureMissingChannelIdAssociationsNoLock` drops them. -/
def dropDisconnected (connected : κ → Bool) (info : ClientInfo κ) : ClientInfo κ :=
  { configuredChannelIds := info.configuredChannelIds.filter fun channelId => connected channelId }

/-- Every client the loop of `onTimer` reaches. -/
def configureMissing (connected : κ → Bool) (reached : π → Bool)
    (clients : AList fun _ : π => ClientInfo κ) : AList fun _ : π => ClientInfo κ :=
  clients.keys.foldl
    (fun m p =>
      match m.lookup p with
      | some info => if reached p then m.replace p (dropDisconnected connected info) else m
      | none => m) clients

/-- What the environment decides in one `onTimer`. -/
structure Timer (π κ : Type) where
  clock : Clock π
  activePeerIds : Option (List π)
  fullyDisconnected : Bool
  connected : κ → Bool
  reached : π → Bool

def onTimer (timer : Timer π κ) (s : State π κ) : State π κ × Check π :=
  if s.isDisposed then (s, .notDue)
  else
    match checkToPruneStaleClientsStateNoLock timer.clock timer.activePeerIds s with
    | (s, .failed) => (s, .failed)
    | (s, check) =>
      if timer.fullyDisconnected then (s, check)
      else
        ({ s with
            clientsState := configureMissing timer.connected timer.reached s.clientsState }, check)

/-- A peer which has connected before loses its channels. -/
def peerConnectedNotify (peerId : π) (s : State π κ) : State π κ :=
  { s with clientsState := s.clientsState.insert peerId emptyClientInfo }

def onPeerIdAssociateTaskCompletedCallback (failed : Bool) (channelId : κ) (peerId : π)
    (s : State π κ) : State π κ :=
  if failed || s.isDisposed then s
  else
    let info := (s.clientsState.lookup peerId).getD emptyClientInfo
    { s with
      clientsState := s.clientsState.insert peerId
        { configuredChannelIds := insert channelId info.configuredChannelIds } }

def setClientsPruneIntervals (clientsPruneCheckInterval clientsPruneInterval : Int)
    (s : State π κ) : State π κ :=
  { s with
    clientsPruneCheckInterval := clientsPruneCheckInterval
    clientsPruneInterval := clientsPruneInterval }

def setHostServices (hostServices : Bool) (s : State π κ) : State π κ :=
  { s with hostServices := hostServices }

/-- `disposeInternal` of the base class. -/
def baseDisposeInternal (markAsDisposed : Bool) (s : State π κ) : State π κ :=
  if s.isDisposed then s
  else { s with hostServices := false, isDisposed := markAsDisposed }

/-- The flag is set before the base class looks at it. -/
def disposeInternal (s : State π κ) : State π κ :=
  if s.isDisposed then s else baseDisposeInternal false { s with isDisposed := true }

/-! ## Runs -/

inductive Label (π κ : Type) where
  | timer (timer : Timer π κ)
  | peerConnected (peerId : π)
  | associateCompleted (failed : Bool) (channelId : κ) (peerId : π)
  | setIntervals (clientsPruneCheckInterval clientsPruneInterval : Int)
  | setHostServices (hostServices : Bool)
  | dispose

/-- The state, and what the checks have seen and done so far. -/
structure System (π κ : Type) where
  state : State π κ
  history : List (Observation π)

def System.init (π κ : Type) (now : Int) : System π κ := ⟨State.init π κ now, []⟩

def step (s : System π κ) : Label π κ → System π κ
  | .timer timer =>
    match onTimer timer s.state with
    | (state, .done observation) => ⟨state, s.history ++ [observation]⟩
    | (state, _) => ⟨state, s.history⟩
  | .peerConnected peerId => { s with state := peerConnectedNotify peerId s.state }
  | .associateCompleted failed channelId peerId =>
    { s with state := onPeerIdAssociateTaskCompletedCallback failed channelId peerId s.state }
  | .setIntervals clientsPruneCheckInterval clientsPruneInterval =>
    { s with
      state := setClientsPruneIntervals clientsPruneCheckInterval clientsPruneInterval s.state }
  | .setHostServices hostServices =>
    { s with state := ProxyClientsState.setHostServices hostServices s.state }
  | .dispose => { s with state := disposeInternal s.state }

/-- What some sequence of members leads to. -/
def Reached (now : Int) (s : System π κ) : Prop :=
  Transition.Reachable (fun s label => some (step s label)) (· = System.init π κ now) s

end

end Baselib.Messaging.ProxyClientsState
