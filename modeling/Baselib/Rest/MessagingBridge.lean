/-
Baselib.Rest.MessagingBridge — the table of the requests in flight of
`rest/HttpServerBackendMessagingBridge.h`, `SharedStateT`.

A label is a section under `m_lock` with what the environment decides in
it, or one callback that is invoked. Callbacks are taken out of the table
under the lock and invoked after it is released: until then they are
`completing`. The cancel timer takes the scheduled ids first and completes
them one after the other, so other sections can come in between.

Every call of `completeRequestInternal` ignores a table which was disposed,
so its `chkIfDisposed` never throws. The messages, their logs, the control
token and the backend itself are left out. `registered`, `invoked`,
`succeeded` and `handedOut` record what has happened; the code does not
keep them.
-/
import Mathlib.Data.List.AList

namespace Baselib.Rest.MessagingBridge

/-! ## The table -/

/-- A data block as the bridge reads it: the conversation id, if the block
deserializes and the id is a uuid, and the identity information with the
`sid` of its security principal. -/
structure Message (κ : Type) where
  conversationId : Option κ
  principalIdentityInfo : Option (Option String)
  deriving DecidableEq

/-- `utcRegisteredAt` in microseconds. A callback is named by the number of
the `registerRequest` call which was given it. -/
structure Info (κ : Type) where
  callback : Option Nat
  response : Option (Message κ)
  utcRegisteredAt : Int
  isRegistered : Bool

/-- `Info()`; its time is never read. -/
def Info.empty {κ : Type} : Info κ := ⟨none, none, 0, false⟩

/-- A callback with the exception it is invoked with: none, or
`operation_aborted`. -/
structure Completion (κ : Type) where
  conversationId : κ
  callback : Nat
  aborted : Bool
  deriving DecidableEq

structure Config where
  serverAuthenticationRequired : Bool
  /-- In lower case. -/
  expectedSecurityId : String
  requestTimeout : Int

structure State (κ : Type) where
  requestsInFlight : AList fun _ : κ => Info κ
  scheduledForCancel : List κ
  isDisposed : Bool
  /-- What `onCheckCancelRequestsTimer` has taken and not completed yet. -/
  canceling : List κ
  completing : List (Completion κ)
  /-- The conversations of the accepted callbacks. -/
  registered : List κ
  invoked : List (Completion κ)
  /-- The conversations whose wait has completed without an exception and
  which were not closed since. -/
  succeeded : List κ
  handedOut : List (κ × Message κ)

def State.create {κ : Type} : State κ where
  requestsInFlight := ∅
  scheduledForCancel := []
  isDisposed := false
  canceling := []
  completing := []
  registered := []
  invoked := []
  succeeded := []
  handedOut := []

/-- `MAX_REQUESTS_IN_FLIGHT`. -/
def maxRequestsInFlight : Nat := 16384

/-- `TIMEOUT_UNREGISTERED_REQUEST_IN_SECONDS`. -/
def unregisteredTimeout : Int := 30 * 1000000

variable {κ : Type} [DecidableEq κ]

/-! ## The members -/

/-- The callbacks of a map which was taken out, `cancelRequestsNoThrow`. -/
def cancelRequests (requests : List (Sigma fun _ : κ => Info κ)) : List (Completion κ) :=
  requests.filterMap fun e => e.2.callback.map fun callback => ⟨e.1, callback, true⟩

/-- Whether a message which is complete can add an entry. -/
def isDiscarded (conversationId : κ) (s : State κ) : Prop :=
  maxRequestsInFlight ≤ s.requestsInFlight.keys.length ∧
    s.requestsInFlight.lookup conversationId = none

instance (conversationId : κ) (s : State κ) : Decidable (isDiscarded conversationId s) :=
  inferInstanceAs (Decidable (_ ∧ _))

/-- The entry after `emplace`; a new one is stamped. -/
def emplaced (conversationId : κ) (now : Int) (s : State κ) : Info κ :=
  (s.requestsInFlight.lookup conversationId).getD { Info.empty with utcRegisteredAt := now }

/-- `completeRequestInternal`; `aborted` is whether it was given an
exception. -/
def completeRequestInternal (discardInfo : Bool) (conversationId : κ)
    (dataBlock : Option (Message κ)) (aborted : Bool) (now : Int) (s : State κ) :
    State κ × Option (Message κ) :=
  if s.isDisposed then (s, none)
  else if isDiscarded conversationId s then (s, none)
  else
    let info := emplaced conversationId now s
    ({ s with
      requestsInFlight :=
        if discardInfo then s.requestsInFlight.erase conversationId
        else s.requestsInFlight.insert conversationId
          { info with response := dataBlock, callback := none }
      completing := s.completing ++
        (info.callback.map fun callback => ⟨conversationId, callback, aborted⟩).toList
      succeeded :=
        if info.callback.isSome && !aborted then conversationId :: s.succeeded else s.succeeded },
      info.response)

def completeRequest (conversationId : κ) (dataBlock : Option (Message κ)) (aborted : Bool)
    (now : Int) (s : State κ) : State κ :=
  (completeRequestInternal false conversationId dataBlock aborted now s).1

/-- The block which is handed out, and the table. -/
def closeRequest (conversationId : κ) (now : Int) (s : State κ) : State κ × Option (Message κ) :=
  completeRequestInternal true conversationId none true now s

/-- `none` where it throws, as the table was disposed. -/
def registerRequest (conversationId : κ) (now : Int) (s : State κ) : State κ × Option Bool :=
  if s.isDisposed then (s, none)
  else if (s.requestsInFlight.lookup conversationId).isSome then
    ({ s with succeeded := conversationId :: s.succeeded }, some false)
  else
    ({ s with
      requestsInFlight := s.requestsInFlight.insert conversationId
        { Info.empty with
          callback := some s.registered.length
          utcRegisteredAt := now
          isRegistered := true }
      registered := s.registered ++ [conversationId] }, some true)

def isExpired (cfg : Config) (clock : κ → Int) (e : Sigma fun _ : κ => Info κ) : Bool :=
  (if e.2.isRegistered then cfg.requestTimeout else unregisteredTimeout) <
    clock e.1 - e.2.utcRegisteredAt

/-- `onTimer`, with the clock readings of `getExpiredRequestsInternal`. -/
def onTimer (cfg : Config) (clock : κ → Int) (s : State κ) : State κ :=
  { s with
    requestsInFlight :=
      ⟨s.requestsInFlight.entries.filter fun e => !isExpired cfg clock e,
        s.requestsInFlight.nodupKeys.sublist List.filter_sublist⟩
    completing := s.completing ++
      cancelRequests (s.requestsInFlight.entries.filter (isExpired cfg clock)) }

def dispose (s : State κ) : State κ :=
  if s.isDisposed then s
  else
    { s with
      requestsInFlight := ∅
      isDisposed := true
      completing := s.completing ++ cancelRequests s.requestsInFlight.entries }

/-- Whether `processIncomingMessage` takes the identity of the sender. -/
def isAuthenticated (cfg : Config) (data : Message κ) : Bool :=
  if cfg.serverAuthenticationRequired then
    match data.principalIdentityInfo with
    | some (some sid) =>
      cfg.expectedSecurityId.isEmpty || cfg.expectedSecurityId == sid.map Char.toLower
    | _ => false
  else true

/-- A block which does not deserialize fails the dispatch task only. -/
def processIncomingMessage (cfg : Config) (data : Message κ) (now : Int) (s : State κ) : State κ :=
  match data.conversationId with
  | none => s
  | some conversationId =>
    if isAuthenticated cfg data then completeRequest conversationId (some data) false now s else s

/-! ## Runs -/

/-- `now` and `clock` are what the clock of the process answers. -/
inductive Label (κ : Type) where
  | registerRequest (conversationId : κ) (now : Int)
  | processIncomingMessage (data : Message κ) (now : Int)
  | scheduleForCancel (conversationId : κ)
  | checkCancelRequests
  | cancelRequest (now : Int)
  | onTimer (clock : κ → Int)
  | closeRequest (conversationId : κ) (now : Int)
  | dispose
  | invoke (i : Nat)

/-- The cancel timer fires again when it has returned. -/
def step (cfg : Config) (s : State κ) : Label κ → Option (State κ)
  | .registerRequest conversationId now => some (registerRequest conversationId now s).1
  | .processIncomingMessage data now => some (processIncomingMessage cfg data now s)
  | .scheduleForCancel conversationId =>
    some { s with scheduledForCancel := s.scheduledForCancel ++ [conversationId] }
  | .checkCancelRequests =>
    if s.canceling = [] then
      some { s with scheduledForCancel := [], canceling := s.scheduledForCancel }
    else none
  | .cancelRequest now =>
    match s.canceling with
    | [] => none
    | conversationId :: rest =>
      some (completeRequest conversationId none true now { s with canceling := rest })
  | .onTimer clock => some (onTimer cfg clock s)
  | .closeRequest conversationId now =>
    some
      { (closeRequest conversationId now s).1 with
        succeeded := s.succeeded.filter (· ≠ conversationId)
        handedOut := s.handedOut ++
          ((closeRequest conversationId now s).2.map fun block => (conversationId, block)).toList }
  | .dispose => some (dispose s)
  | .invoke i =>
    s.completing[i]?.map fun completion =>
      { s with
        completing := s.completing.eraseIdx i
        invoked := s.invoked ++ [completion] }

end Baselib.Rest.MessagingBridge
