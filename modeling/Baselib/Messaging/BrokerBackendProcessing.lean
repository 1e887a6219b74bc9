/-
Baselib.Messaging.BrokerBackendProcessing — the task of the broker backend
which validates, authorizes and dispatches a message, `BrokerBackendTask` of
`messaging/BrokerBackendProcessing.h`.

The task replaces the task it wraps in `continuationTask`: it prepares the
message, waits for the authorization, updates the message and dispatches it.
A wrapped task executes or ends with an exception without having executed.
The authorization cache and the routing cache are shared, and change between
the steps of the task.

The members of the protocol object which are passed through are of any type.
What an exception is remapped to is left out.
-/
import Baselib.Messaging.Conversation
import Baselib.Security.AuthorizationCache

namespace Baselib.Messaging.BrokerBackendProcessing

open Lib Security
open Conversation (MessageType Uuids)
open AuthorizationCache (AuthorizationTask)

/-! ## Messages -/

structure AuthenticationToken where
  type : Octets
  data : Octets
  deriving DecidableEq

/-- `dm::messaging::SecurityPrincipal`. -/
structure SecurityPrincipal where
  sid : Octets
  givenName : Octets
  familyName : Octets
  email : Octets
  deriving DecidableEq

/-- `passThrough` are the members no property declares. -/
structure PrincipalIdentityInfo (θ : Type) where
  authenticationToken : Option AuthenticationToken
  securityPrincipal : Option SecurityPrincipal
  passThrough : θ
  deriving DecidableEq

/-- `passThrough` are the user data and the members no property declares. -/
structure BrokerProtocol (θ : Type) where
  messageType : Octets
  messageId : Octets
  conversationId : Octets
  sourcePeerId : Octets
  targetPeerId : Octets
  principalIdentityInfo : Option (PrincipalIdentityInfo θ)
  passThrough : θ
  deriving DecidableEq

/-- `loadFromJsonText` and `getDocAsPackedJsonString`, which fails when a
required property is empty. -/
structure Json (θ : Type) where
  loadFromJsonText : Octets → Option (BrokerProtocol θ)
  getDocAsPackedJsonString : BrokerProtocol θ → Option Octets
  roundTrip : ∀ {brokerProtocol text}, getDocAsPackedJsonString brokerProtocol = some text →
    loadFromJsonText text = some brokerProtocol

/-- A data block; the octets are those up to its size. -/
structure DataBlock where
  capacity : Nat
  offset1 : Nat
  octets : Octets
  deriving DecidableEq

inductive Failure where
  | offsetPastEnd (offset size : Nat)
  | notJson
  | invalidMessageType (messageType : Octets)
  | invalidUuid
  | emptyPeerIds
  | emptyTargetPeerId
  | noDispatcher
  | securityPrincipalProvided
  | authenticationTokenRequired
  | invalidTokenType (tokenType : Octets)
  | capacityTooSmall (capacity size oldSize newSize : Nat)
  | notSerializable
  | authorization (failure : AuthorizationCache.Failure)
  | noDispatchTask
  /-- The exception of a wrapped task, `operation_aborted` for example. -/
  | wrapped
  deriving DecidableEq

/-- What the task is created with. A principal of the cache is the
`SecurityPrincipal` the code makes of it. -/
structure Parameters (υ θ κ : Type) where
  uuids : Uuids υ
  json : Json θ
  tokenType : Octets
  key : Octets → κ
  sourcePeerId : υ
  targetPeerId : υ

section

variable {υ θ κ : Type}

/-- The octets from the offset on, when it is not past the end. -/
def DataBlock.protocolData (data : DataBlock) : Option Octets :=
  if data.offset1 ≤ data.octets.length then some (data.octets.drop data.offset1) else none

/-- The peer ids as they are written back. -/
def fillPeerIds (p : Parameters υ θ κ) (brokerProtocol : BrokerProtocol θ) : BrokerProtocol θ :=
  { brokerProtocol with
    sourcePeerId :=
      if brokerProtocol.sourcePeerId.isEmpty then p.uuids.uuid2string p.sourcePeerId
      else brokerProtocol.sourcePeerId
    targetPeerId :=
      if brokerProtocol.targetPeerId.isEmpty then p.uuids.uuid2string p.targetPeerId
      else brokerProtocol.targetPeerId }

/-- `updateBrokerProtocolMessageInBlock`, which is not called to skip an
unchanged message. -/
def updateBrokerProtocolMessageInBlock (p : Parameters υ θ κ) (brokerProtocol : BrokerProtocol θ)
    (data : DataBlock) : Except Failure DataBlock :=
  match p.json.getDocAsPackedJsonString (fillPeerIds p brokerProtocol) with
  | none => .error .notSerializable
  | some jsonString =>
    if data.octets.length < data.offset1 then
      .error (.offsetPastEnd data.offset1 data.octets.length)
    else if data.capacity < jsonString.length ∨
        data.capacity - jsonString.length < data.offset1 then
      .error (.capacityTooSmall data.capacity data.octets.length
        (data.octets.length - data.offset1) jsonString.length)
    else .ok { data with octets := data.octets.take data.offset1 ++ jsonString }

/-- `authorizeProtocolMessage`. -/
def authorizeProtocolMessage [Inhabited θ] (brokerProtocol : BrokerProtocol θ)
    (principal : SecurityPrincipal) : BrokerProtocol θ :=
  { brokerProtocol with
    principalIdentityInfo := some
      { brokerProtocol.principalIdentityInfo.getD ⟨none, none, default⟩ with
        authenticationToken := none
        securityPrincipal := some principal } }

end

/-! ## The task -/

/-- `m_state`. -/
inductive TaskState where
  | preparation
  | authorization
  | dispatch
  | process
  deriving DecidableEq

inductive WrappedTask where
  | parseAndProcessProtocolData
  | authorizationTask
  | postAuthorization
  | dispatchTask
  deriving DecidableEq

/-- `routing` and `cache` are shared with other tasks. `granted` are the
tokens and the principals which the cache or an authorization has returned
for them, and `dispatched` the blocks dispatch tasks were created for; the
code does not keep them. -/
structure State (υ θ κ : Type) where
  data : DataBlock
  brokerProtocol : Option (BrokerProtocol θ)
  principal : Option SecurityPrincipal
  authenticationToken : Option Octets
  authorizationTask : Option (AuthorizationTask SecurityPrincipal)
  isBackendOnlyMessage : Bool
  resolvedTargetPeerId : υ
  state : TaskState
  wrappedTask : WrappedTask
  /-- `none` while the wrapped task is executing. -/
  completed : Option (Option Failure)
  isOver : Bool
  routing : υ → Option υ
  cache : AuthorizationCache.State κ SecurityPrincipal
  granted : List (Octets × SecurityPrincipal)
  dispatched : List (υ × DataBlock)

section

variable {υ θ κ : Type} [DecidableEq υ] [DecidableEq κ]

def State.create (p : Parameters υ θ κ) (data : DataBlock) (routing : υ → Option υ)
    (cache : AuthorizationCache.State κ SecurityPrincipal) : State υ θ κ where
  data := data
  brokerProtocol := none
  principal := none
  authenticationToken := none
  authorizationTask := none
  isBackendOnlyMessage := false
  resolvedTargetPeerId := p.uuids.nil
  state := .preparation
  wrappedTask := .parseAndProcessProtocolData
  completed := none
  isOver := false
  routing := routing
  cache := cache
  granted := []
  dispatched := []

def serializeBrokerProtocolMessage (p : Parameters υ θ κ) (brokerProtocol : BrokerProtocol θ)
    (s : State υ θ κ) : Option Failure × State υ θ κ :=
  match updateBrokerProtocolMessageInBlock p brokerProtocol s.data with
  | .error failure => (some failure, s)
  | .ok data => (none, { s with data := data })

/-- A peer id may be empty. -/
def validatePeerId (p : Parameters υ θ κ) (peerId : Octets) : Option υ :=
  if peerId.isEmpty then some p.uuids.nil else p.uuids.string2uuid peerId

/-- The dispatching service, and the peers which are connected directly. -/
structure Services (υ : Type) where
  hasDispatcher : Bool
  hasQueue : υ → Bool

/-- The messages which are meant for the broker; `none` for every other one. -/
def processBackendMessage (services : Services υ) (messageType : MessageType)
    (brokerProtocol : BrokerProtocol θ) (sourcePeerId targetPeerId : υ) (s : State υ θ κ) :
    Option (Option Failure × State υ θ κ) :=
  match messageType with
  | .backendAssociateTargetPeerId =>
    if brokerProtocol.sourcePeerId.isEmpty || brokerProtocol.targetPeerId.isEmpty then
      some (some .emptyPeerIds, s)
    else if !services.hasDispatcher then some (some .noDispatcher, s)
    else if services.hasQueue targetPeerId then some (none, s)
    else
      some (none, { s with routing := Function.update s.routing targetPeerId (some sourcePeerId) })
  | .backendDissociateTargetPeerId =>
    if brokerProtocol.targetPeerId.isEmpty then some (some .emptyTargetPeerId, s)
    else some (none, { s with routing := Function.update s.routing targetPeerId none })
  | _ => none

/-- The end of `parseAndProcessProtocolData`, for a message with identity
information. -/
def processIdentityInfo (p : Parameters υ θ κ) (now : Int)
    (principalIdentityInfo : PrincipalIdentityInfo θ) (s : State υ θ κ) :
    Option Failure × State υ θ κ :=
  if principalIdentityInfo.securityPrincipal.isSome then (some .securityPrincipalProvided, s)
  else
    match principalIdentityInfo.authenticationToken with
    | none => (some .authenticationTokenRequired, s)
    | some authenticationToken =>
      if p.tokenType ≠ authenticationToken.type then
        (some (.invalidTokenType authenticationToken.type), s)
      else
        let token := authenticationToken.data
        let s := { s with authenticationToken := some token }
        match AuthorizationCache.tryGetAuthorizedPrinciplal p.key token now s.cache with
        | (some principal, cache) =>
          (none,
            { s with
              cache := cache
              principal := some principal
              granted := s.granted ++ [(token, principal)] })
        | (none, cache) =>
          (none, { s with cache := cache, authorizationTask := some .notReady })

/-- The rest of `parseAndProcessProtocolData`, for a message which is in the
expected format. -/
def processProtocolData (p : Parameters υ θ κ) (now : Int) (services : Services υ)
    (brokerProtocol : BrokerProtocol θ) (s : State υ θ κ) : Option Failure × State υ θ κ :=
  match MessageType.tryToEnum brokerProtocol.messageType with
  | none => (some (.invalidMessageType brokerProtocol.messageType), s)
  | some messageType =>
    match p.uuids.string2uuid brokerProtocol.conversationId,
      p.uuids.string2uuid brokerProtocol.messageId,
      validatePeerId p brokerProtocol.sourcePeerId,
      validatePeerId p brokerProtocol.targetPeerId with
    | some _, some _, some sourcePeerId, some targetPeerId =>
      let s := { s with isBackendOnlyMessage := true }
      match processBackendMessage services messageType brokerProtocol sourcePeerId
        targetPeerId s with
      | some (some failure, s) => (some failure, s)
      | some (none, s) => (none, { s with state := .process })
      | none =>
        let s := { s with
          isBackendOnlyMessage := false
          resolvedTargetPeerId := (s.routing p.targetPeerId).getD p.uuids.nil }
        match brokerProtocol.principalIdentityInfo with
        | none =>
          serializeBrokerProtocolMessage p brokerProtocol { s with
            state := .dispatch, brokerProtocol := some (fillPeerIds p brokerProtocol) }
        | some principalIdentityInfo => processIdentityInfo p now principalIdentityInfo s
    | _, _, _, _ => (some .invalidUuid, s)

def parseAndProcessProtocolData (p : Parameters υ θ κ) (now : Int) (services : Services υ)
    (s : State υ θ κ) : Option Failure × State υ θ κ :=
  match s.data.protocolData with
  | none => (some (.offsetPastEnd s.data.offset1 s.data.octets.length), s)
  | some protocolData =>
    match p.json.loadFromJsonText protocolData with
    | none => (some .notJson, s)
    | some brokerProtocol =>
      processProtocolData p now services brokerProtocol
        { s with brokerProtocol := some brokerProtocol }

/-- The principal `postAuthorization` goes on with; the update is called with
the executed authorization task. -/
def authorizedPrincipal (p : Parameters υ θ κ) (sweepNow : κ → Int) (now : Int)
    (s : State υ θ κ) : Option Failure × State υ θ κ :=
  match s.authorizationTask, s.authenticationToken with
  | some task, some token =>
    match AuthorizationCache.updateInternal p.key token task false sweepNow now s.cache with
    | (.error failure, cache) => (some (.authorization failure), { s with cache := cache })
    | (.ok none, cache) => (none, { s with cache := cache, principal := none })
    | (.ok (some principal), cache) =>
      (none,
        { s with
          cache := cache
          principal := some principal
          granted := s.granted ++ [(token, principal)] })
  | _, _ => (none, s)

def postAuthorization [Inhabited θ] (p : Parameters υ θ κ) (sweepNow : κ → Int) (now : Int)
    (s : State υ θ κ) : Option Failure × State υ θ κ :=
  match authorizedPrincipal p sweepNow now s with
  | (some failure, s) => (some failure, s)
  | (none, s) =>
    match s.brokerProtocol, s.principal with
    | some brokerProtocol, some principal =>
      let brokerProtocol := authorizeProtocolMessage brokerProtocol principal
      serializeBrokerProtocolMessage p brokerProtocol
        { s with brokerProtocol := some (fillPeerIds p brokerProtocol) }
    | _, _ => (some .wrapped, s)

/-- The dispatching service when it is acquired: whether it is there, and
whether it creates a dispatch task. -/
structure Dispatcher where
  isProvided : Bool
  creates : Bool

/-- `continuationTask`, when the wrapped task has ended with `exception`. An
exception it throws itself ends the task. -/
def continuationTask (p : Parameters υ θ κ) (dispatcher : Dispatcher)
    (exception : Option Failure) (s : State υ θ κ) : State υ θ κ :=
  if exception.isSome then { s with isOver := true }
  else
    match s.state with
    | .preparation =>
      if s.principal.isSome then
        { s with wrappedTask := .postAuthorization, completed := none, state := .dispatch }
      else
        { s with wrappedTask := .authorizationTask, completed := none, state := .authorization }
    | .authorization =>
      { s with wrappedTask := .postAuthorization, completed := none, state := .dispatch }
    | .dispatch =>
      if dispatcher.isProvided && dispatcher.creates then
        { s with
          wrappedTask := .dispatchTask
          completed := none
          state := .process
          dispatched := s.dispatched ++
            [(if s.resolvedTargetPeerId ≠ p.uuids.nil then s.resolvedTargetPeerId
              else p.targetPeerId, s.data)] }
      else { s with isOver := true }
    | .process => { s with isOver := true }

/-! ## Runs -/

inductive Label (υ κ : Type) where
  | parseAndProcessProtocolData (now : Int) (services : Services υ)
  | authorize (task : AuthorizationTask SecurityPrincipal)
  | postAuthorization (sweepNow : κ → Int) (now : Int)
  /-- The wrapped task ends without having executed, or dispatches. -/
  | ends (exception : Option Failure)
  | continuationTask (dispatcher : Dispatcher)
  /-- What other tasks do. -/
  | cache (l : AuthorizationCache.Label Octets κ SecurityPrincipal)
  | route (routing : υ → Option υ)

/-- The wrapped task is executing. -/
def State.executes (wrappedTask : WrappedTask) (s : State υ θ κ) : Bool :=
  !s.isOver && s.completed.isNone && s.wrappedTask = wrappedTask

/-- The exception of an authorization task which has failed. -/
def authorizationException : AuthorizationTask SecurityPrincipal → Option Failure
  | .executed _ => none
  | .failed | .notReady => some .wrapped

def step [Inhabited θ] (p : Parameters υ θ κ) (s : State υ θ κ) : Label υ κ → Option (State υ θ κ)
  | .parseAndProcessProtocolData now services =>
    if s.executes .parseAndProcessProtocolData then
      let result := parseAndProcessProtocolData p now services s
      some { result.2 with completed := some result.1 }
    else none
  | .authorize task =>
    if s.executes .authorizationTask then
      some { s with
        authorizationTask := some task, completed := some (authorizationException task) }
    else none
  | .postAuthorization sweepNow now =>
    if s.executes .postAuthorization then
      let result := postAuthorization p sweepNow now s
      some { result.2 with completed := some result.1 }
    else none
  | .ends exception =>
    if !s.isOver && s.completed.isNone && (exception.isSome || s.wrappedTask = .dispatchTask) then
      some { s with completed := some exception }
    else none
  | .continuationTask dispatcher =>
    if s.isOver then none
    else s.completed.map fun exception => continuationTask p dispatcher exception s
  | .cache l => some { s with cache := AuthorizationCache.step p.key s.cache l }
  | .route routing => some { s with routing := routing }

end

end Baselib.Messaging.BrokerBackendProcessing
