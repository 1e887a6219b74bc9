/-
Baselib.Messaging.MessagingUtils — broker messages in data blocks,
`MessagingUtils` of `messaging/MessagingUtils.h`.

The payload stands at the start of a block and the protocol object after it,
from `offset1` on, both as JSON text. What comes out of a block is verified
before it is returned, what goes in is not.

The JSON serializer is given. It reads back the objects it has written, and
never writes an empty text.
-/
import Baselib.Data.DataBlock
import Baselib.Messaging.BrokerBackendProcessing

namespace Baselib.Messaging.MessagingUtils

open Lib (Octets octets)
open Lib.Memory (store load sourceOf)
open Core.Str (quoteString)
open Data (DataBlock Object)
open Data.DataBlock (Method access outside)
open Conversation (MessageType Uuids AsyncRpcPayload)
open BrokerBackendProcessing (BrokerProtocol PrincipalIdentityInfo AuthenticationToken
  SecurityPrincipal)

/-- `loadFromJsonText` and `getDocAsPackedJsonString` of a class. -/
structure Json (α : Type) where
  loadFromJsonText : Octets → Option α
  getDocAsPackedJsonString : α → Option Object
  roundTrip : ∀ {a text}, getDocAsPackedJsonString a = some text →
    loadFromJsonText text.octets = some a
  nonempty : ∀ {a text}, getDocAsPackedJsonString a = some text → text.octets ≠ []

/-- The classes a message is made of, and the ids. A payload is cast to an
`AsyncRpcPayload` through JSON, which may fail. -/
structure Environment (υ θ π ρ σ : Type) where
  uuids : Uuids υ
  protocol : Json (BrokerProtocol θ)
  payload : Json π
  castTo : π → Option (AsyncRpcPayload ρ σ)

inductive Failure where
  | notSerializable
  | notJson
  | invalidDataFormat (message : Octets)
  | invalidEnum (message : Octets)
  | offsetPastEnd (offset1 size : UInt64)
  /-- The server error `ProtocolValidationFailed`. -/
  | capacityTooSmall (capacity size oldSize : UInt64) (newSize : Nat)
  | block (e : DataBlock.Exception)
  deriving DecidableEq

section

variable {υ θ π ρ σ : Type}

/-! ## Verification -/

def verifyRequiredProperty (propertyName : String) (propertyValue : Octets) :
    Except Failure Unit :=
  if propertyValue.isEmpty then
    throw (.invalidDataFormat
      (octets "The " ++ quoteString (octets propertyName) ++ octets " property cannot be empty"))
  else
    return

def verifyAuthenticationToken (token : AuthenticationToken) : Except Failure Unit :=
  if token.type.isEmpty then
    throw (.invalidDataFormat (octets "The authentication token type specified is invalid"))
  else if token.data.isEmpty then
    throw (.invalidDataFormat
      (octets "The authentication token data is invalid or unavailable"))
  else
    return

def verifySecurityPrincipal (principal : SecurityPrincipal) : Except Failure Unit :=
  if principal.sid.isEmpty then
    throw (.invalidDataFormat (octets <| "The security principal information specified is " ++
      "invalid as one of the required fields is empty"))
  else
    return

def verifyPrincipalIdentityInfo (info : PrincipalIdentityInfo θ) : Except Failure Unit :=
  match info.authenticationToken, info.securityPrincipal with
  | some token, none => verifyAuthenticationToken token
  | none, some principal => verifySecurityPrincipal principal
  | _, _ =>
    throw (.invalidDataFormat (octets <| "Principal identity info is invalid: either " ++
      "security principal or authentication token must be provided"))

def verifyBrokerProtocolMessage (brokerProtocol : BrokerProtocol θ) : Except Failure Unit := do
  if (MessageType.tryToEnum brokerProtocol.messageType).isSome then
    verifyRequiredProperty "messageId" brokerProtocol.messageId
    verifyRequiredProperty "conversationId" brokerProtocol.conversationId
    match brokerProtocol.principalIdentityInfo with
    | none => return
    | some principalIdentityInfo => verifyPrincipalIdentityInfo principalIdentityInfo
  else
    throw (.invalidDataFormat
      (octets "The message type specified is invalid " ++
        quoteString brokerProtocol.messageType))

/-- A payload of this kind holds a request or a response. -/
def verifyAsyncRpcPayload (payload : Option (AsyncRpcPayload ρ σ)) : Except Failure Unit :=
  if Conversation.isRequestPayload payload || Conversation.isResponsePayload payload then
    return
  else
    throw (.invalidDataFormat
      (octets "Payload message has to contain either a request or a response"))

def verifyPayloadMessage (env : Environment υ θ π ρ σ) (brokerProtocol : BrokerProtocol θ)
    (payload : Option π) : Except Failure Unit :=
  match MessageType.tryToEnum brokerProtocol.messageType with
  | none =>
    throw (.invalidEnum (octets "MessageType has invalid string value '" ++
      brokerProtocol.messageType ++ octets "'"))
  | some .asyncRpcDispatch =>
    match payload with
    | none => verifyAsyncRpcPayload (none : Option (AsyncRpcPayload ρ σ))
    | some payload =>
      match env.castTo payload with
      | none => throw .notJson
      | some asyncRpcPayload => verifyAsyncRpcPayload (some asyncRpcPayload)
  | some _ => return

/-! ## Serialization -/

def serialized {α : Type} (json : Json α) (a : α) : Method Failure Object :=
  outside ((json.getDocAsPackedJsonString a).elim (.error .notSerializable) .ok)

/-- The text of the payload; a message without one has an empty text. -/
def serializedPayload (env : Environment υ θ π ρ σ) : Option π → Method Failure Octets
  | none => return []
  | some payload => do
      let text ← serialized env.payload payload
      return text.octets

/-- `write( text.c_str(), text.size() )` -/
def writeString (text : Octets) : Method Failure Unit :=
  (DataBlock.write (sourceOf text) (.ofNat text.length)).adapt .block

/-- `serializeObjectsToBlock` with a block which was found in the pool or
created. -/
def serializeObjectsToBlock (env : Environment υ θ π ρ σ) (brokerProtocol : BrokerProtocol θ)
    (payload : Option π) : Method Failure Unit := do
  modifyThe DataBlock DataBlock.get
  let protocolDataString ← serialized env.protocol brokerProtocol
  let payloadDataString ← serializedPayload env payload
  if payloadDataString.length ≠ 0 then
    writeString payloadDataString
    (DataBlock.setOffset1 (.ofNat payloadDataString.length)).adapt .block
    writeString protocolDataString.octets
  else
    writeString protocolDataString.octets

def parsed {α : Type} (json : Json α) (text : Octets) : Method Failure α :=
  outside ((json.loadFromJsonText text).elim (.error .notJson) .ok)

/-- The octets between two iterators of the block. -/
def octetsOf (first last : UInt64) : Method Failure Octets := do
  let b ← getThe DataBlock
  access (load b.data first.toNat (last.toNat - first.toNat))

def deserializeBlockToObjects (env : Environment υ θ π ρ σ) (brokerProtocolOnly : Bool) :
    Method Failure (BrokerProtocol θ × Option π) := do
  let dataBlock ← getThe DataBlock
  if dataBlock.offset1 ≤ dataBlock.size then
    let protocolDataString ← octetsOf dataBlock.offset1 dataBlock.size
    let brokerProtocol ← parsed env.protocol protocolDataString
    outside (verifyBrokerProtocolMessage brokerProtocol)
    if dataBlock.offset1 ≠ 0 ∧ brokerProtocolOnly = false then
      let payloadDataString ← octetsOf 0 dataBlock.offset1
      let payload ← parsed env.payload payloadDataString
      outside (verifyPayloadMessage env brokerProtocol (some payload))
      return (brokerProtocol, some payload)
    else
      return (brokerProtocol, none)
  else
    throw (.offsetPastEnd dataBlock.offset1 dataBlock.size)

/-! ## Updates -/

/-- The peer ids, where they were empty. -/
def fillPeerIds (env : Environment υ θ π ρ σ) (sourcePeerId targetPeerId : υ)
    (brokerProtocol : BrokerProtocol θ) : BrokerProtocol θ :=
  let brokerProtocol :=
    if brokerProtocol.sourcePeerId.isEmpty then
      { brokerProtocol with sourcePeerId := env.uuids.uuid2string sourcePeerId }
    else brokerProtocol
  if brokerProtocol.targetPeerId.isEmpty then
    { brokerProtocol with targetPeerId := env.uuids.uuid2string targetPeerId }
  else brokerProtocol

def messageChanged (brokerProtocol : BrokerProtocol θ) : Bool :=
  brokerProtocol.sourcePeerId.isEmpty || brokerProtocol.targetPeerId.isEmpty

/-- Writes the protocol object over the one which stands in the block. -/
def replaceBrokerProtocolMessage (env : Environment υ θ π ρ σ)
    (brokerProtocol : BrokerProtocol θ) : Method Failure Unit := do
  let jsonString ← serialized env.protocol brokerProtocol
  let data ← getThe DataBlock
  let size : UInt64 := .ofNat jsonString.octets.length
  if data.offset1 ≤ data.size then
    if size > data.capacity ∨ data.offset1 > data.capacity - size then
      throw (.capacityTooSmall data.capacity data.size (data.size - data.offset1)
        jsonString.octets.length)
    else
      let stored ← access
        (store data.data data.offset1.toNat (sourceOf jsonString.octets) size.toNat)
      set { data with data := stored }
      (DataBlock.setSize (data.offset1 + size)).adapt .block
  else
    throw (.offsetPastEnd data.offset1 data.size)

/-- The object after the call, and the call on the block. -/
def updateBrokerProtocolMessageInBlock (env : Environment υ θ π ρ σ)
    (brokerProtocol : BrokerProtocol θ) (sourcePeerId targetPeerId : υ)
    (skipUpdateIfUnchanged : Bool) : BrokerProtocol θ × Method Failure Unit :=
  let updated := fillPeerIds env sourcePeerId targetPeerId brokerProtocol
  if messageChanged brokerProtocol = false ∧ skipUpdateIfUnchanged = true then
    (updated, pure ())
  else (updated, replaceBrokerProtocolMessage env updated)

end

end Baselib.Messaging.MessagingUtils
