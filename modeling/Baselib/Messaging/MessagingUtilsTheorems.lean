/-
Baselib.Messaging.MessagingUtilsTheorems — a message comes out of a block as
it went in.

A sound block stands for the texts of a payload and a protocol object, and
reading it is reading the two texts (`deserialize_call`). Serialization makes
the texts of the message, an update replaces the second of them. What may
come out is what the verification lets through.
-/
import Baselib.Data.DataBlockTheorems
import Baselib.Messaging.MessagingUtils

namespace Baselib.Messaging.MessagingUtils

open List
open Lib (Octets octets)
open Lib.Memory
open Data (DataBlock Object)
open Data.DataBlock
open Conversation (MessageType AsyncRpcPayload)
open BrokerBackendProcessing (BrokerProtocol)

variable {υ θ π ρ σ α β : Type} {env : Environment υ θ π ρ σ} {b b' : DataBlock}
variable {protocol payload : Octets} {m : BrokerProtocol θ}

/-! ## The texts of a block -/

def payloadOctets (b : DataBlock) : Octets := b.contents.take b.offset1.toNat

def protocolOctets (b : DataBlock) : Octets := b.contents.drop b.offset1.toNat

/-- The block of these two texts. -/
structure Holds (b : DataBlock) (payload protocol : Octets) : Prop where
  sound : b.Sound
  contents_eq : b.contents = payload ++ protocol
  offset1_eq : b.offset1.toNat = payload.length

theorem Holds.payloadOctets (h : Holds b payload protocol) : payloadOctets b = payload := by
  rw [MessagingUtils.payloadOctets, h.contents_eq, h.offset1_eq, take_left]

theorem Holds.protocolOctets (h : Holds b payload protocol) : protocolOctets b = protocol := by
  rw [MessagingUtils.protocolOctets, h.contents_eq, h.offset1_eq, drop_left]

theorem holds_of_sound (hb : b.Sound) : Holds b (payloadOctets b) (protocolOctets b) := by
  have hle := hb.offset1_le
  refine ⟨hb, (take_append_drop _ _).symm, ?_⟩
  rw [payloadOctets, length_take, hb.length_contents, Nat.min_eq_left hle]

theorem Holds.size_eq (h : Holds b payload protocol) :
    b.size.toNat = payload.length + protocol.length := by
  rw [← h.sound.length_contents, h.contents_eq, length_append]

/-! ## Reading -/

/-- The objects which are read from two texts. -/
def readMessage (env : Environment υ θ π ρ σ) (brokerProtocolOnly : Bool)
    (payload protocol : Octets) : Except Failure (BrokerProtocol θ × Option π) := do
  let brokerProtocol ← (env.protocol.loadFromJsonText protocol).elim (.error .notJson) .ok
  verifyBrokerProtocolMessage brokerProtocol
  if payload ≠ [] ∧ brokerProtocolOnly = false then
    let payload ← (env.payload.loadFromJsonText payload).elim (.error .notJson) .ok
    verifyPayloadMessage env brokerProtocol (some payload)
    return (brokerProtocol, some payload)
  else
    return (brokerProtocol, none)

theorem call_outside_bind {ε : Type} (r : Except ε α) (f : α → Method ε β)
    (g : α → Except ε β) (h : ∀ a, (f a).call b = some (g a, b)) :
    (outside r >>= f).call b = some (r >>= g, b) := by
  cases r with
  | error e => rfl
  | ok a => exact (call_bind_ok (call_outside _)).trans (h a)

theorem call_octetsOf_bind (first last : UInt64) (f : Octets → Method Failure β) :
    (octetsOf first last >>= f).call b =
      (load b.data first.toNat (last.toNat - first.toNat)).bind fun l => (f l).call b := by
  cases h : load b.data first.toNat (last.toNat - first.toNat) with
  | none =>
    have hnone : (octetsOf first last).call b = none := by
      rw [octetsOf, call_get_bind, h]
      rfl
    exact call_bind_none hnone
  | some l =>
    have hsome : (octetsOf first last).call b = some (.ok l, b) := by
      rw [octetsOf, call_get_bind, h]
      rfl
    exact call_bind_ok hsome

theorem Holds.take_eq (h : Holds b payload protocol) :
    b.data.take b.size.toNat = payload ++ protocol := h.contents_eq

theorem Holds.size_le (h : Holds b payload protocol) : b.size.toNat ≤ b.data.length := by
  have hsize := h.sound.size_le
  have hlength := h.sound.length_eq
  omega

theorem Holds.load_payload (h : Holds b payload protocol) :
    load b.data 0 b.offset1.toNat = some payload := by
  have htake : b.data.take b.size.toNat = [] ++ payload ++ protocol := h.take_eq
  rw [h.offset1_eq]
  exact load_of_take h.size_le htake

theorem Holds.load_protocol (h : Holds b payload protocol) :
    load b.data b.offset1.toNat (b.size.toNat - b.offset1.toNat) = some protocol := by
  have htake : b.data.take b.size.toNat = payload ++ protocol ++ [] := by
    rw [append_nil]
    exact h.take_eq
  have hlength : b.size.toNat - b.offset1.toNat = protocol.length := by
    rw [h.size_eq, h.offset1_eq]
    omega
  rw [hlength, h.offset1_eq]
  exact load_of_take h.size_le htake

theorem Holds.offset1_ne_iff (h : Holds b payload protocol) : b.offset1 ≠ 0 ↔ payload ≠ [] := by
  rw [not_iff_not, ← UInt64.toNat_inj, h.offset1_eq]
  exact length_eq_zero_iff

/-- Reading a block is reading its texts. -/
theorem deserialize_call (h : Holds b payload protocol) (brokerProtocolOnly : Bool) :
    (deserializeBlockToObjects env brokerProtocolOnly).call b =
      some (readMessage env brokerProtocolOnly payload protocol, b) := by
  have hle : b.offset1 ≤ b.size := UInt64.le_iff_toNat_le.mpr h.sound.offset1_le
  rw [deserializeBlockToObjects, call_get_bind, call_ite, if_pos hle, call_octetsOf_bind,
    h.load_protocol, Option.bind_some]
  refine call_outside_bind _ _ _ fun brokerProtocol => ?_
  refine call_outside_bind _ _ _ fun _ => ?_
  rw [call_ite]
  simp only [h.offset1_ne_iff]
  split_ifs with hpayload
  · rw [call_octetsOf_bind]
    have hload : load b.data (0 : UInt64).toNat (b.offset1.toNat - (0 : UInt64).toNat) =
        some payload := h.load_payload
    rw [hload, Option.bind_some]
    refine call_outside_bind _ _ _ fun payload => ?_
    exact call_outside_bind _ _ _ fun _ => call_pure _
  · exact call_pure _

/-! ## Serialization -/

/-- The text of an optional payload. -/
def payloadText (env : Environment υ θ π ρ σ) : Option π → Option Octets
  | none => some []
  | some payload => (env.payload.getDocAsPackedJsonString payload).map Object.octets

theorem writeString_fits (hb : b.Sound) {text : Octets}
    (h : b.size.toNat + text.length ≤ b.capacity.toNat) :
    ∃ b', (writeString text).call b = some (.ok (), b') ∧ b'.Sound ∧ Appended b text b' := by
  obtain ⟨b', hcall, hsound, happended⟩ := writeScalar_fits hb h
  exact ⟨b', call_adapt_ok _ hcall, hsound, happended⟩

theorem contents_get (b : DataBlock) : b.get.contents = [] := take_zero

/-- The payload is written and the offset set to the end of it. -/
theorem writePayload_fits (hb : b.Sound) {text : Octets} (hroom : text.length ≤ b.capacity.toNat) :
    ∃ b', (do writeString text; (setOffset1 (.ofNat text.length)).adapt .block :
        Method Failure Unit).call b.get = some (.ok (), b') ∧
      Holds b' text [] ∧ b'.capacity = b.capacity := by
  have hfits : b.get.size.toNat + text.length ≤ b.get.capacity.toNat :=
    (Nat.zero_add _).trans_le hroom
  obtain ⟨b', hcall, hsound, happended⟩ := writeString_fits hb.get hfits
  have hcontents : b'.contents = text := by
    rw [happended.contents_eq, contents_get, nil_append]
  have hcapacity := hb.capacity_lt
  have hoffset : (UInt64.ofNat text.length).toNat = text.length := toNat_ofNat (by omega)
  have hsize : b'.size.toNat = text.length := by rw [← hsound.length_contents, hcontents]
  refine ⟨{ b' with offset1 := .ofNat text.length }, ?_, ⟨?_, ?_, hoffset⟩, happended.capacity_eq⟩
  · rw [call_bind_ok hcall]
    rfl
  · exact hsound.setOffset1 (by rw [hoffset, hsize])
  · rwa [append_nil]

/-- A block which a payload and a protocol object are serialized to. -/
theorem serialize_call (hb : b.Sound) {payload : Option π}
    {payloadString : Octets} {protocolString : Object}
    (hprotocol : env.protocol.getDocAsPackedJsonString m = some protocolString)
    (hpayload : payloadText env payload = some payloadString)
    (hroom : payloadString.length + protocolString.octets.length ≤ b.capacity.toNat) :
    ∃ b', (serializeObjectsToBlock env m payload).call b = some (.ok (), b') ∧
      Holds b' payloadString protocolString.octets := by
  have hserialized : (serialized env.protocol m).call b.get =
      some (.ok protocolString, b.get) := by
    rw [serialized, call_outside, hprotocol]
    rfl
  have hserializedPayload : (serializedPayload env payload).call b.get =
      some (.ok payloadString, b.get) := by
    cases payload with
    | none =>
      cases hpayload
      rfl
    | some payload =>
      obtain ⟨text, htext, rfl⟩ := Option.map_eq_some_iff.mp hpayload
      have hcall : (serialized env.payload payload).call b.get = some (.ok text, b.get) := by
        rw [serialized, call_outside, htext]
        rfl
      rw [serializedPayload, call_bind_ok hcall, call_pure]
  have hget : (modifyThe DataBlock DataBlock.get : Method Failure Unit).call b =
      some (.ok (), b.get) := rfl
  rw [serializeObjectsToBlock, call_bind_ok hget, call_bind_ok hserialized,
    call_bind_ok hserializedPayload, call_ite]
  by_cases hempty : payloadString.length ≠ 0
  · rw [if_pos hempty]
    have hroom₁ : payloadString.length ≤ b.capacity.toNat := by omega
    obtain ⟨b₁, hcall₁, hholds, hcapacity⟩ := writePayload_fits hb hroom₁
    have hsize := hholds.size_eq
    have hfits : b₁.size.toNat + protocolString.octets.length ≤ b₁.capacity.toNat := by
      rw [hsize, hcapacity, length_nil]
      omega
    obtain ⟨b₂, hcall₂, hsound, happended⟩ := writeString_fits hholds.sound hfits
    refine ⟨b₂, ?_, hsound, ?_, ?_⟩
    · rw [← bind_assoc, call_bind_ok hcall₁, hcall₂]
    · rw [happended.contents_eq, hholds.contents_eq, append_nil]
    · rw [happended.offset1_eq, hholds.offset1_eq]
  · rw [if_neg hempty]
    have hnil : payloadString = [] := length_eq_zero_iff.mp (not_not.mp hempty)
    have hfits : b.get.size.toNat + protocolString.octets.length ≤ b.get.capacity.toNat := by
      have hzero : b.get.size.toNat = 0 := rfl
      have hsame : b.get.capacity = b.capacity := rfl
      rw [hzero, hsame]
      omega
    obtain ⟨b₁, hcall, hsound, happended⟩ := writeString_fits hb.get hfits
    refine ⟨b₁, hcall, hsound, ?_, ?_⟩
    · rw [happended.contents_eq, contents_get, hnil]
    · rw [happended.offset1_eq, hnil]
      rfl

/-- The checks which a message passes on its way out of a block. -/
def verified (env : Environment υ θ π ρ σ) (m : BrokerProtocol θ) (payload : Option π) :
    Except Failure Unit := do
  verifyBrokerProtocolMessage m
  if payload.isSome then verifyPayloadMessage env m payload else return

/-- The text which a payload is read from; an empty one is no payload. -/
def ReadsPayload (env : Environment υ θ π ρ σ) (text : Octets) : Option π → Prop
  | none => text = []
  | some payload => text ≠ [] ∧ env.payload.loadFromJsonText text = some payload

theorem readsPayload_of_payloadText {payload : Option π} {text : Octets}
    (h : payloadText env payload = some text) : ReadsPayload env text payload := by
  cases payload with
  | none => exact (Option.some.inj h).symm
  | some payload =>
    obtain ⟨object, hobject, rfl⟩ := Option.map_eq_some_iff.mp h
    exact ⟨env.payload.nonempty hobject, env.payload.roundTrip hobject⟩

/-- The texts of a message are read as the message, if it passes. -/
theorem readMessage_texts {payload : Option π} {payloadString : Octets} {protocolString : Object}
    (hprotocol : env.protocol.getDocAsPackedJsonString m = some protocolString)
    (hpayload : ReadsPayload env payloadString payload) :
    readMessage env false payloadString protocolString.octets =
      (verified env m payload).map fun _ => (m, payload) := by
  rw [readMessage, env.protocol.roundTrip hprotocol, verified]
  cases hverify : verifyBrokerProtocolMessage m with
  | error e =>
    simp only [Option.elim_some, bind, Except.bind, hverify]
    rfl
  | ok =>
    cases payload with
    | none =>
      have hnil : payloadString = [] := hpayload
      simp only [Option.elim_some, bind, Except.bind, hverify, hnil]
      rfl
    | some payload =>
      obtain ⟨hne, hread⟩ := hpayload
      simp only [Option.elim_some, bind, Except.bind, hverify, hne, ne_eq, not_false_eq_true,
        and_self, if_true, hread, Option.isSome_some]
      cases verifyPayloadMessage env m (some payload) <;> rfl

/-- Without the payload, the protocol object alone has to pass. -/
theorem readMessage_protocolOnly {protocolString : Object}
    (hprotocol : env.protocol.getDocAsPackedJsonString m = some protocolString)
    (payloadString : Octets) :
    readMessage env true payloadString protocolString.octets =
      (verifyBrokerProtocolMessage m).map fun _ => (m, none) := by
  rw [readMessage, env.protocol.roundTrip hprotocol]
  cases hverify : verifyBrokerProtocolMessage m with
  | error e =>
    simp only [Option.elim_some, bind, Except.bind, hverify]
    rfl
  | ok =>
    simp only [Option.elim_some, bind, Except.bind, hverify, Bool.true_eq_false, and_false,
      if_false]
    rfl

/-! ## Updates -/

/-- The check of the room, which is written so that it does not wrap. -/
theorem capacityTooSmall_iff {capacity offset1 size : UInt64} :
    (size > capacity ∨ offset1 > capacity - size) ↔
      capacity.toNat < offset1.toNat + size.toNat := by
  rw [gt_iff_lt, gt_iff_lt, UInt64.lt_iff_toNat_lt, UInt64.lt_iff_toNat_lt]
  by_cases hle : size.toNat ≤ capacity.toNat
  · rw [toNat_sub hle]
    omega
  · exact iff_of_true (.inl (not_le.mp hle)) (by omega)

theorem Holds.take_offset1 (h : Holds b payload protocol) :
    b.data.take b.offset1.toNat = payload := by
  have hle := h.sound.offset1_le
  have htake : (b.data.take b.size.toNat).take b.offset1.toNat = payload := by
    rw [h.take_eq, h.offset1_eq, take_left]
  rwa [take_take, Nat.min_eq_left hle] at htake

/-- The protocol object is replaced where there is room for it, and the block
is left alone where there is not. -/
theorem replace_call (h : Holds b payload protocol) {text : Object}
    (htext : env.protocol.getDocAsPackedJsonString m = some text) :
    (payload.length + text.octets.length ≤ b.capacity.toNat ∧
        ∃ b', (replaceBrokerProtocolMessage env m).call b = some (.ok (), b') ∧
          Holds b' payload text.octets ∧ b'.offset1 = b.offset1 ∧ b'.capacity = b.capacity) ∨
      (b.capacity.toNat < payload.length + text.octets.length ∧
        ∃ e, (replaceBrokerProtocolMessage env m).call b = some (.error e, b)) := by
  have hserialized : (serialized env.protocol m).call b = some (.ok text, b) := by
    rw [serialized, call_outside, htext]
    rfl
  have hlt := text.length_lt
  have hcapacity := h.sound.capacity_lt
  have hlength : (UInt64.ofNat text.octets.length).toNat = text.octets.length :=
    toNat_ofNat (by omega)
  have hle : b.offset1 ≤ b.size := UInt64.le_iff_toNat_le.mpr h.sound.offset1_le
  have hoffset := h.offset1_eq
  rw [replaceBrokerProtocolMessage, call_bind_ok hserialized, call_get_bind]
  rw [call_ite, if_pos hle, call_ite]
  by_cases hroom : payload.length + text.octets.length ≤ b.capacity.toNat
  · refine .inl ⟨hroom, ?_⟩
    have hfits : ¬(UInt64.ofNat text.octets.length > b.capacity ∨
        b.offset1 > b.capacity - UInt64.ofNat text.octets.length) := by
      rw [capacityTooSmall_iff, hlength, hoffset]
      omega
    have hdata := h.sound.length_eq
    obtain ⟨data, hstore⟩ : ∃ data, store b.data b.offset1.toNat (sourceOf text.octets)
        (UInt64.ofNat text.octets.length).toNat = some data :=
      ⟨_, store_eq_some (by rw [hlength, hoffset, hdata]; exact hroom)⟩
    have hsize : (b.offset1 + UInt64.ofNat text.octets.length).toNat =
        payload.length + text.octets.length := by
      rw [toNat_add (by rw [hlength]; omega), hlength, hoffset]
    refine ⟨{ b with data, size := b.offset1 + UInt64.ofNat text.octets.length }, ?_,
      ⟨⟨?_, ?_, (length_of_store hstore).trans hdata, hcapacity⟩, ?_, hoffset⟩, rfl, rfl⟩
    · rw [if_neg hfits, call_access_bind, hstore]
      rfl
    · rw [hsize, hoffset]
      omega
    · rwa [hsize]
    · have htake := take_of_store hstore
      rw [h.take_offset1, hlength, firstOctets_sourceOf, hoffset] at htake
      rwa [contents, hsize]
  · refine .inr ⟨not_le.mp hroom, ?_⟩
    have hover : UInt64.ofNat text.octets.length > b.capacity ∨
        b.offset1 > b.capacity - UInt64.ofNat text.octets.length := by
      rw [capacityTooSmall_iff, hlength, hoffset]
      exact not_le.mp hroom
    exact ⟨_, by rw [if_pos hover, call_throw]⟩

theorem replace_unserializable (htext : env.protocol.getDocAsPackedJsonString m = none) :
    (replaceBrokerProtocolMessage env m).call b = some (.error .notSerializable, b) := by
  have hserialized : (serialized env.protocol m).call b = some (.error .notSerializable, b) := by
    rw [serialized, call_outside, htext]
    rfl
  rw [replaceBrokerProtocolMessage, call_bind_error hserialized]

theorem fillPeerIds_eq (sourcePeerId targetPeerId : υ) (m : BrokerProtocol θ) :
    fillPeerIds env sourcePeerId targetPeerId m =
      { m with
        sourcePeerId :=
          if m.sourcePeerId = [] then env.uuids.uuid2string sourcePeerId else m.sourcePeerId
        targetPeerId :=
          if m.targetPeerId = [] then env.uuids.uuid2string targetPeerId else m.targetPeerId } := by
  unfold fillPeerIds
  cases hsource : m.sourcePeerId <;> cases htarget : m.targetPeerId <;>
    simp only [isEmpty_nil, isEmpty_cons, if_true, Bool.false_eq_true, if_false,
      reduceCtorEq, htarget] <;>
    cases m <;> simp_all

/-- What an update leaves. -/
structure Updated (env : Environment υ θ π ρ σ) (b : DataBlock) (m : BrokerProtocol θ)
    (r : Except Failure Unit) (b' : DataBlock) : Prop where
  sound : b'.Sound
  offset1_eq : b'.offset1 = b.offset1
  payload_eq : payloadOctets b' = payloadOctets b
  unchanged : ∀ e, r = .error e → b' = b

variable (env) in
theorem update_call (hb : b.Sound) (m : BrokerProtocol θ) (sourcePeerId targetPeerId : υ)
    (skipUpdateIfUnchanged : Bool) :
    ∃ r b',
      (updateBrokerProtocolMessageInBlock env m sourcePeerId targetPeerId
        skipUpdateIfUnchanged).2.call b = some (r, b') ∧
      Updated env b m r b' ∧
      (r = .ok () →
        (messageChanged m = false ∧ skipUpdateIfUnchanged = true ∧ b' = b) ∨
        ∃ text, env.protocol.getDocAsPackedJsonString
            (fillPeerIds env sourcePeerId targetPeerId m) = some text ∧
          Holds b' (payloadOctets b) text.octets) := by
  have hsame : ∀ r, Updated env b m r b := fun r => ⟨hb, rfl, rfl, fun _ _ => rfl⟩
  unfold updateBrokerProtocolMessageInBlock
  split_ifs with hskip
  · exact ⟨.ok (), b, rfl, hsame _, fun _ => .inl ⟨hskip.1, hskip.2, rfl⟩⟩
  · cases htext : env.protocol.getDocAsPackedJsonString
        (fillPeerIds env sourcePeerId targetPeerId m) with
    | none =>
      exact ⟨_, b, replace_unserializable htext, hsame _, nofun⟩
    | some text =>
      rcases replace_call (holds_of_sound hb) htext with
        ⟨-, b', hcall, hholds, hoffset, -⟩ | ⟨-, e, hcall⟩
      · refine ⟨_, b', hcall, ⟨hholds.sound, hoffset, hholds.payloadOctets, ?_⟩, ?_⟩
        · nofun
        · exact fun _ => .inr ⟨text, rfl, hholds⟩
      · exact ⟨_, b, hcall, hsame _, nofun⟩

/-! ## Messages in blocks -/

/-- A message which passes the verification comes out of a block as it went
in. An update fills in empty peer ids, leaves the payload, and changes
nothing when it throws. Unless it is skipped, the updated message comes out,
if it passes. -/
theorem messages_in_blocks (env : Environment υ θ π ρ σ) (hb : b.Sound) :
    (∀ m payload protocolString payloadString,
      env.protocol.getDocAsPackedJsonString m = some protocolString →
      payloadText env payload = some payloadString →
      payloadString.length + protocolString.octets.length ≤ b.capacity.toNat →
      verified env m payload = .ok () →
        ∃ b', (serializeObjectsToBlock env m payload).call b = some (.ok (), b') ∧
          (deserializeBlockToObjects env false).call b' = some (.ok (m, payload), b')) ∧
    ∀ m sourcePeerId targetPeerId skipUpdateIfUnchanged,
      let updated := updateBrokerProtocolMessageInBlock env m sourcePeerId targetPeerId
        skipUpdateIfUnchanged
      updated.1 =
        { m with
          sourcePeerId :=
            if m.sourcePeerId = [] then env.uuids.uuid2string sourcePeerId else m.sourcePeerId
          targetPeerId :=
            if m.targetPeerId = [] then env.uuids.uuid2string targetPeerId
            else m.targetPeerId } ∧
      ∃ r b', updated.2.call b = some (r, b') ∧ Updated env b m r b' ∧
        (r = .ok () →
          (messageChanged m = false ∧ skipUpdateIfUnchanged = true ∧ b' = b) ∨
          ((verifyBrokerProtocolMessage updated.1 = .ok () →
              (deserializeBlockToObjects env true).call b' = some (.ok (updated.1, none), b')) ∧
            ∀ payload, ReadsPayload env (payloadOctets b) payload → verified env updated.1 payload = .ok () →
              (deserializeBlockToObjects env false).call b' =
                some (.ok (updated.1, payload), b'))) := by
  refine ⟨?_, ?_⟩
  · intro m payload protocolString payloadString hprotocol hpayload hroom hverified
    obtain ⟨b', hcall, hholds⟩ := serialize_call hb hprotocol hpayload hroom
    refine ⟨b', hcall, ?_⟩
    have hreads := readsPayload_of_payloadText hpayload
    rw [deserialize_call hholds, readMessage_texts hprotocol hreads, hverified]
    rfl
  · intro m sourcePeerId targetPeerId skipUpdateIfUnchanged updated
    have hfirst : updated.1 = fillPeerIds env sourcePeerId targetPeerId m := by
      simp only [updated, updateBrokerProtocolMessageInBlock]
      split_ifs <;> rfl
    refine ⟨hfirst.trans (fillPeerIds_eq _ _ _), ?_⟩
    obtain ⟨r, b', hcall, hupdated, hok⟩ :=
      update_call env hb m sourcePeerId targetPeerId skipUpdateIfUnchanged
    refine ⟨r, b', hcall, hupdated, fun hr => (hok hr).imp id ?_⟩
    rintro ⟨text, htext, hholds⟩
    rw [hfirst]
    constructor
    · intro hverify
      rw [deserialize_call hholds, readMessage_protocolOnly htext, hverify]
      rfl
    · intro payload hpayload hverified
      rw [deserialize_call hholds, readMessage_texts htext hpayload, hverified]
      rfl

/-- A serializer which knows one object and its text. -/
def oneText {α : Type} [DecidableEq α] (a : α) (text : Object) (h : text.octets ≠ []) : Json α where
  loadFromJsonText l := if l = text.octets then some a else none
  getDocAsPackedJsonString x := if x = a then some text else none
  roundTrip := by
    intro x text' hx
    split_ifs at hx with hxa
    cases hx
    rw [if_pos rfl, hxa]
  nonempty := by
    intro x text' hx
    split_ifs at hx
    cases hx
    exact h

theorem oneText_get {α : Type} [DecidableEq α] (a : α) (text : Object) (h : text.octets ≠ []) :
    (oneText a text h).getDocAsPackedJsonString a = some text :=
  if_pos rfl

def peerUuid : Octets := octets "aae8f9cd-2d0b-4a0f-9d9d-4c9f3e1a7b11"

/-- One peer. -/
def onePeer : Conversation.Uuids Unit where
  nil := ()
  uuid2string _ := peerUuid
  string2uuid l := if l = peerUuid then some () else none
  string2uuid_uuid2string _ := if_pos rfl

/-- A message of this type between the peers. -/
def exampleMessage (messageType peerId : Octets) : BrokerProtocol Unit :=
  ⟨messageType, octets "m", octets "c", peerId, peerId, none, ()⟩

/-- The packed text of the message. -/
def exampleText (messageType peerId : Octets) : Octets :=
  octets "\x7b\"conversationId\":\"c\",\"messageId\":\"m\",\"messageType\":\"" ++ messageType ++
    octets "\",\"sourcePeerId\":\"" ++ peerId ++ octets "\",\"targetPeerId\":\"" ++ peerId ++
    octets "\"\x7d"

theorem exampleText_ne (messageType peerId : Octets) : exampleText messageType peerId ≠ [] := by
  simp [exampleText, octets]

def notificationText : Object :=
  ⟨exampleText (octets "AsyncNotification") peerUuid, by decide +kernel⟩

def pingText : Object := ⟨exampleText (octets "Ping") peerUuid, by decide +kernel⟩

/-- The environment of one message. -/
def exampleEnvironment (messageType : Octets) (text : Object) (h : text.octets ≠ []) :
    Environment Unit Unit Unit Unit Unit where
  uuids := onePeer
  protocol := oneText (exampleMessage messageType peerUuid) text h
  payload := oneText () ⟨[123, 125], by norm_num⟩ (by simp)
  castTo _ := some ⟨none, none⟩

theorem exampleEnvironment_get (messageType : Octets) (text : Object) (h : text.octets ≠ []) :
    (exampleEnvironment messageType text h).protocol.getDocAsPackedJsonString
      (exampleMessage messageType peerUuid) = some text :=
  oneText_get _ _ h

def exampleBlock : DataBlock := attach ⟨List.replicate 512 0, by rw [length_replicate]; norm_num⟩

def notificationEnvironment : Environment Unit Unit Unit Unit Unit :=
  exampleEnvironment (octets "AsyncNotification") notificationText (exampleText_ne _ _)

def pingEnvironment : Environment Unit Unit Unit Unit Unit :=
  exampleEnvironment (octets "Ping") pingText (exampleText_ne _ _)

theorem messages_in_blocks_notification :
    ∃ b', (serializeObjectsToBlock notificationEnvironment
          (exampleMessage (octets "AsyncNotification") peerUuid) none).call exampleBlock =
        some (.ok (), b') ∧
      (deserializeBlockToObjects notificationEnvironment false).call b' =
        some (.ok (exampleMessage (octets "AsyncNotification") peerUuid, none), b') :=
  (messages_in_blocks notificationEnvironment (sound_attach _)).1 _ none notificationText []
    (exampleEnvironment_get _ _ _) rfl (by decide +kernel) (by decide +kernel)

/-- A message of a type which does not exist is serialized, and cannot be
deserialized. -/
theorem invalidMessageType_not_deserialized :
    ¬∀ (env : Environment Unit Unit Unit Unit Unit) (b : DataBlock), b.Sound →
      ∀ m payload protocolString payloadString,
        env.protocol.getDocAsPackedJsonString m = some protocolString →
        payloadText env payload = some payloadString →
        payloadString.length + protocolString.octets.length ≤ b.capacity.toNat →
          ∃ b', (serializeObjectsToBlock env m payload).call b = some (.ok (), b') ∧
            (deserializeBlockToObjects env false).call b' = some (.ok (m, payload), b') := by
  intro hclaim
  have hsound : exampleBlock.Sound := sound_attach _
  have hprotocol : pingEnvironment.protocol.getDocAsPackedJsonString
      (exampleMessage (octets "Ping") peerUuid) = some pingText := exampleEnvironment_get _ _ _
  have hpayload : payloadText pingEnvironment none = some [] := rfl
  have hroom : ([] : Octets).length + pingText.octets.length ≤ exampleBlock.capacity.toNat := by
    decide +kernel
  have hverified : verified pingEnvironment (exampleMessage (octets "Ping") peerUuid) none ≠
      .ok () := by decide +kernel
  obtain ⟨b', hcall, hread⟩ :=
    hclaim pingEnvironment exampleBlock hsound _ none pingText [] hprotocol hpayload hroom
  obtain ⟨b₁, hcall₁, hholds⟩ := serialize_call hsound hprotocol hpayload hroom
  obtain rfl : b' = b₁ := by
    rw [hcall] at hcall₁
    cases hcall₁
    rfl
  rw [deserialize_call hholds,
    readMessage_texts hprotocol (readsPayload_of_payloadText hpayload)] at hread
  cases hresult : verified pingEnvironment (exampleMessage (octets "Ping") peerUuid) none with
  | ok => exact hverified hresult
  | error e =>
    rw [hresult] at hread
    cases hread

end Baselib.Messaging.MessagingUtils
