/-
Baselib.Messaging.BrokerBackendProcessingTheorems — every message which the
broker dispatches is the one it was given, with a security principal the
broker has established itself or without identity information at all.

The block which is dispatched has been serialized from the protocol object,
and the path of the task to the dispatch leads through that: the invariant
says where the task stands on it.
-/
import Baselib.Messaging.BrokerBackendProcessing
import Baselib.Messaging.ConversationTheorems

namespace Baselib.Messaging.BrokerBackendProcessing

open Lib Security List
open Conversation (MessageType Uuids)
open AuthorizationCache (AuthorizationTask)

variable {υ θ κ : Type} {p : Parameters υ θ κ} {data : DataBlock} {s s' : State υ θ κ}
variable {granted granted' : List (Octets × SecurityPrincipal)} {m : BrokerProtocol θ}

/-! ## Messages which may be dispatched -/

/-- The object which the protocol part of a block parses to. -/
def DataBlock.brokerProtocol (p : Parameters υ θ κ) (data : DataBlock) :
    Option (BrokerProtocol θ) :=
  data.protocolData.bind p.json.loadFromJsonText

/-- The message is not meant for the broker, and its ids can be read. -/
structure WellFormed (p : Parameters υ θ κ) (m : BrokerProtocol θ) : Prop where
  messageType : ∃ messageType, MessageType.tryToEnum m.messageType = some messageType ∧
    messageType ≠ .backendAssociateTargetPeerId ∧ messageType ≠ .backendDissociateTargetPeerId
  conversationId : (p.uuids.string2uuid m.conversationId).isSome = true
  messageId : (p.uuids.string2uuid m.messageId).isSome = true
  sourcePeerId : m.sourcePeerId ≠ [] → (p.uuids.string2uuid m.sourcePeerId).isSome = true
  targetPeerId : m.targetPeerId ≠ [] → (p.uuids.string2uuid m.targetPeerId).isSome = true

/-- The identity information of a message carries a token of the expected
type, and no principal. -/
structure Tokened (p : Parameters υ θ κ) (info : PrincipalIdentityInfo θ)
    (token : AuthenticationToken) : Prop where
  securityPrincipal : info.securityPrincipal = none
  authenticationToken : info.authenticationToken = some token
  tokenType : token.type = p.tokenType

/-- Either there is no identity information, or the principal which was
granted for the token stands in the place of the token. -/
inductive Identified (p : Parameters υ θ κ) (granted : List (Octets × SecurityPrincipal))
    (incoming outgoing : Option (PrincipalIdentityInfo θ)) : Prop where
  | absent : incoming = none → outgoing = none → Identified p granted incoming outgoing
  | granted {info : PrincipalIdentityInfo θ} {token : AuthenticationToken}
      {principal : SecurityPrincipal} :
      incoming = some info → Tokened p info token → (token.data, principal) ∈ granted →
      outgoing = some { info with
        authenticationToken := none, securityPrincipal := some principal } →
      Identified p granted incoming outgoing

/-- `block` is `data` with the protocol part the broker has established. -/
structure Established (p : Parameters υ θ κ) (data : DataBlock)
    (granted : List (Octets × SecurityPrincipal)) (block : DataBlock) : Prop where
  offset1 : block.offset1 = data.offset1
  payload : block.octets.take block.offset1 = data.octets.take data.offset1
  brokerProtocol : ∃ m identityInfo, data.brokerProtocol p = some m ∧ WellFormed p m ∧
    Identified p granted m.principalIdentityInfo identityInfo ∧
    block.brokerProtocol p =
      some { fillPeerIds p m with principalIdentityInfo := identityInfo }

theorem Established.mono {block : DataBlock} (h : Established p data granted block)
    (hsub : granted ⊆ granted') : Established p data granted' block := by
  obtain ⟨hoffset, hpayload, m, info, hm, hwell, hidentified, hblock⟩ := h
  refine ⟨hoffset, hpayload, m, info, hm, hwell, ?_, hblock⟩
  cases hidentified with
  | absent hin hout => exact .absent hin hout
  | granted hin htoken hgranted hout => exact .granted hin htoken (hsub hgranted) hout

/-- A message whose token has been read and which waits for a principal. -/
structure Pending (p : Parameters υ θ κ) (data : DataBlock) (s : State υ θ κ)
    (m : BrokerProtocol θ) (info : PrincipalIdentityInfo θ) (token : AuthenticationToken) :
    Prop where
  unchanged : s.data = data
  incoming : data.brokerProtocol p = some m
  wellFormed : WellFormed p m
  brokerProtocol : s.brokerProtocol = some m
  identityInfo : m.principalIdentityInfo = some info
  tokened : Tokened p info token
  authenticationToken : s.authenticationToken = some token.data
  principal : ∀ principal, s.principal = some principal → (token.data, principal) ∈ s.granted

/-- Where the task stands. -/
inductive Placed (p : Parameters υ θ κ) (data : DataBlock) (s : State υ θ κ) : Prop where
  | parsing : s.wrappedTask = .parseAndProcessProtocolData → s.completed = none →
      s.state = .preparation → s.data = data → s.principal = none → Placed p data s
  | failed (failure : Failure) : s.completed = some (some failure) → Placed p data s
  | ended : s.isOver = true → Placed p data s
  | done : s.state = .process → (s.wrappedTask = .dispatchTask ∨ s.completed = some none) →
      Placed p data s
  | prepared : s.state = .dispatch → s.completed = some none →
      Established p data s.granted s.data → Placed p data s
  | pending {m info token} : s.state = .preparation → s.completed = some none →
      Pending p data s m info token → Placed p data s
  | authorizing {m info token} : s.wrappedTask = .authorizationTask →
      s.state = .authorization → Pending p data s m info token → Placed p data s
  | authorized {m info token} : s.wrappedTask = .postAuthorization → s.completed = none →
      s.state = .dispatch → Pending p data s m info token → Placed p data s

structure Inv (p : Parameters υ θ κ) (data : DataBlock) (s : State υ θ κ) : Prop where
  placed : Placed p data s
  dispatched : ∀ d ∈ s.dispatched, Established p data s.granted d.2

/-! ## Serialization -/

theorem updateBrokerProtocolMessageInBlock_ok {block block' : DataBlock}
    (h : updateBrokerProtocolMessageInBlock p m block = .ok block') :
    block'.offset1 = block.offset1 ∧
      block'.octets.take block'.offset1 = block.octets.take block.offset1 ∧
      block'.brokerProtocol p = some (fillPeerIds p m) := by
  rw [updateBrokerProtocolMessageInBlock] at h
  split at h
  · cases h
  rename_i jsonString hjson
  split at h
  · cases h
  rename_i hoffset
  split at h
  · cases h
  cases h
  have hlength : (block.octets.take block.offset1).length = block.offset1 :=
    length_take_of_le (Nat.not_lt.mp hoffset)
  refine ⟨rfl, take_left' hlength, ?_⟩
  rw [DataBlock.brokerProtocol, DataBlock.protocolData, length_append, hlength,
    if_pos (Nat.le_add_right _ _), drop_left' hlength]
  exact p.json.roundTrip hjson

theorem serializeBrokerProtocolMessage_spec (p : Parameters υ θ κ) (m : BrokerProtocol θ)
    (s : State υ θ κ) :
    (∃ failure, serializeBrokerProtocolMessage p m s = (some failure, s)) ∨
    ∃ block, updateBrokerProtocolMessageInBlock p m s.data = .ok block ∧
      serializeBrokerProtocolMessage p m s = (none, { s with data := block }) := by
  rw [serializeBrokerProtocolMessage]
  cases h : updateBrokerProtocolMessageInBlock p m s.data with
  | error failure => exact .inl ⟨failure, rfl⟩
  | ok block => exact .inr ⟨block, rfl, rfl⟩

/-! ## The sections of the task -/

/-- What a wrapped task of the broker leaves. -/
structure Outcome (p : Parameters υ θ κ) (data : DataBlock) (s : State υ θ κ)
    (result : Option Failure × State υ θ κ) : Prop where
  granted : s.granted ⊆ result.2.granted
  dispatched : result.2.dispatched = s.dispatched
  placed : result.1 = none → Placed p data { result.2 with completed := some none }

theorem Outcome.failed (failure : Failure) (hgranted : s.granted ⊆ s'.granted)
    (hdispatched : s'.dispatched = s.dispatched) : Outcome p data s (some failure, s') :=
  ⟨hgranted, hdispatched, nofun⟩

/-- The serialization of a message which may be dispatched. -/
theorem serializeBrokerProtocolMessage_outcome {outgoing : BrokerProtocol θ}
    (hdata : s'.data = data) (hstate : s'.state = .dispatch) (hin : data.brokerProtocol p = some m)
    (hwell : WellFormed p m)
    (hout : outgoing = { m with principalIdentityInfo := outgoing.principalIdentityInfo })
    (hidentified : Identified p s'.granted m.principalIdentityInfo outgoing.principalIdentityInfo)
    (hgranted : s.granted ⊆ s'.granted) (hdispatched : s'.dispatched = s.dispatched) :
    Outcome p data s (serializeBrokerProtocolMessage p outgoing s') := by
  obtain ⟨failure, heq⟩ | ⟨block, hblock, heq⟩ := serializeBrokerProtocolMessage_spec p outgoing s'
  · rw [heq]
    exact Outcome.failed failure hgranted hdispatched
  · rw [heq]
    obtain ⟨hoffset, hpayload, hprotocol⟩ := updateBrokerProtocolMessageInBlock_ok hblock
    refine ⟨hgranted, hdispatched, fun _ => .prepared hstate rfl ?_⟩
    rw [hdata] at hoffset hpayload
    refine ⟨hoffset, hpayload, m, outgoing.principalIdentityInfo, hin, hwell, hidentified, ?_⟩
    rw [hprotocol, hout]
    rfl

theorem isSome_of_validatePeerId {peerId : Octets} {uuid : υ}
    (h : validatePeerId p peerId = some uuid) (hne : peerId ≠ []) :
    (p.uuids.string2uuid peerId).isSome = true := by
  rw [validatePeerId, if_neg (by simpa using hne)] at h
  rw [h]
  rfl

/-- What a wrapped task of the broker's own finds when it executes. -/
theorem Placed.of_executing (h : Placed p data s) (hover : s.isOver = false)
    (hcompleted : s.completed = none) (hwrapped : s.wrappedTask ≠ .dispatchTask) :
    (s.wrappedTask = .parseAndProcessProtocolData ∧ s.state = .preparation ∧ s.data = data ∧
        s.principal = none) ∨
      ∃ m info token, Pending p data s m info token ∧
        (s.wrappedTask = .authorizationTask ∧ s.state = .authorization ∨
          s.wrappedTask = .postAuthorization ∧ s.state = .dispatch) := by
  cases h with
  | parsing hparse _ hstate hdata hprincipal => exact .inl ⟨hparse, hstate, hdata, hprincipal⟩
  | failed _ h | prepared _ h | pending _ h => simp [hcompleted] at h
  | ended h => simp [hover] at h
  | done _ h => simp [hcompleted, hwrapped] at h
  | authorizing htask hstate hpending => exact .inr ⟨_, _, _, hpending, .inl ⟨htask, hstate⟩⟩
  | authorized htask _ hstate hpending => exact .inr ⟨_, _, _, hpending, .inr ⟨htask, hstate⟩⟩

/-- The caches the task shares with others do not matter. -/
theorem Placed.congr (h : Placed p data s) (hdata : s'.data = s.data)
    (hprotocol : s'.brokerProtocol = s.brokerProtocol) (hprincipal : s'.principal = s.principal)
    (htoken : s'.authenticationToken = s.authenticationToken) (hstate : s'.state = s.state)
    (hwrapped : s'.wrappedTask = s.wrappedTask) (hcompleted : s'.completed = s.completed)
    (hover : s'.isOver = s.isOver) (hgranted : s'.granted = s.granted) : Placed p data s' := by
  have hpending : ∀ {m info token}, Pending p data s m info token →
      Pending p data s' m info token := fun h =>
    { h with
      unchanged := hdata.trans h.unchanged
      brokerProtocol := hprotocol.trans h.brokerProtocol
      authenticationToken := htoken.trans h.authenticationToken
      principal := by rw [hprincipal, hgranted]; exact h.principal }
  cases h with
  | parsing h₁ h₂ h₃ h₄ h₅ =>
    exact .parsing (hwrapped.trans h₁) (hcompleted.trans h₂) (hstate.trans h₃) (hdata.trans h₄)
      (hprincipal.trans h₅)
  | failed failure h => exact .failed failure (hcompleted.trans h)
  | ended h => exact .ended (hover.trans h)
  | done h₁ h₂ => exact .done (hstate.trans h₁) (h₂.imp hwrapped.trans hcompleted.trans)
  | prepared h₁ h₂ h₃ =>
    exact .prepared (hstate.trans h₁) (hcompleted.trans h₂) (by rwa [hgranted, hdata])
  | pending h₁ h₂ h₃ => exact .pending (hstate.trans h₁) (hcompleted.trans h₂) (hpending h₃)
  | authorizing h₁ h₂ h₃ => exact .authorizing (hwrapped.trans h₁) (hstate.trans h₂) (hpending h₃)
  | authorized h₁ h₂ h₃ h₄ =>
    exact .authorized (hwrapped.trans h₁) (hcompleted.trans h₂) (hstate.trans h₃) (hpending h₄)

theorem Outcome.inv {result : Option Failure × State υ θ κ} (h : Outcome p data s result)
    (hinv : Inv p data s) : Inv p data { result.2 with completed := some result.1 } where
  placed := by
    cases hfailure : result.1 with
    | none => exact h.placed hfailure
    | some failure => exact .failed failure rfl
  dispatched d hd := (hinv.dispatched d (h.dispatched ▸ hd)).mono h.granted

theorem executes_eq_true {wrappedTask : WrappedTask} (h : s.executes wrappedTask = true) :
    s.isOver = false ∧ s.completed = none ∧ s.wrappedTask = wrappedTask := by
  simp only [State.executes, Bool.and_eq_true, Bool.not_eq_true', Option.isNone_iff_eq_none,
    decide_eq_true_eq] at h
  exact ⟨h.1.1, h.1.2, h.2⟩

variable [DecidableEq υ]

theorem processBackendMessage_none {services : Services υ} {messageType : MessageType} {sourcePeerId targetPeerId : υ}
    (h : processBackendMessage services messageType m sourcePeerId targetPeerId s = none) :
    messageType ≠ .backendAssociateTargetPeerId ∧ messageType ≠ .backendDissociateTargetPeerId := by
  constructor
  · rintro rfl
    simp only [processBackendMessage] at h
    split at h
    · cases h
    · split at h
      · cases h
      · split at h <;> cases h
  · rintro rfl
    simp only [processBackendMessage] at h
    split at h <;> cases h

/-- A message for the broker changes the routing only. -/
theorem processBackendMessage_some {services : Services υ} {messageType : MessageType} {sourcePeerId targetPeerId : υ} {failure : Option Failure}
    (h : processBackendMessage services messageType m sourcePeerId targetPeerId s =
      some (failure, s')) : ∃ routing, s' = { s with routing := routing } := by
  cases messageType with
  | backendAssociateTargetPeerId =>
    simp only [processBackendMessage] at h
    split at h
    · cases h
      exact ⟨s.routing, rfl⟩
    · split at h
      · cases h
        exact ⟨s.routing, rfl⟩
      · split at h
        · cases h
          exact ⟨s.routing, rfl⟩
        · cases h
          exact ⟨_, rfl⟩
  | backendDissociateTargetPeerId =>
    simp only [processBackendMessage] at h
    split at h
    · cases h
      exact ⟨s.routing, rfl⟩
    · cases h
      exact ⟨_, rfl⟩
  | asyncRpcDispatch => cases h
  | asyncRpcAcknowledgment => cases h
  | asyncNotification => cases h

variable [DecidableEq κ]

omit [DecidableEq υ] in
/-- The token is looked up in the cache, or an authorization is created for
it. -/
theorem processIdentityInfo_outcome {info : PrincipalIdentityInfo θ}
    (now : Int) (hdata : s'.data = data) (hstate : s'.state = .preparation)
    (hprincipal : s'.principal = none) (hin : data.brokerProtocol p = some m)
    (hwell : WellFormed p m) (hprotocol : s'.brokerProtocol = some m)
    (hinfo : m.principalIdentityInfo = some info) (hgranted : s'.granted = s.granted)
    (hdispatched : s'.dispatched = s.dispatched) :
    Outcome p data s (processIdentityInfo p now info s') := by
  have hsub : s.granted ⊆ s'.granted := fun g hg => hgranted ▸ hg
  rw [processIdentityInfo]
  split
  · exact Outcome.failed _ hsub hdispatched
  rename_i hnone
  split
  · exact Outcome.failed _ hsub hdispatched
  rename_i token htoken
  split
  · exact Outcome.failed _ hsub hdispatched
  rename_i htype
  have htokened : Tokened p info token :=
    ⟨Option.not_isSome_iff_eq_none.mp hnone, htoken, (not_not.mp htype).symm⟩
  dsimp only
  split
  · rename_i principal cache _
    refine ⟨fun g hg => mem_append_left _ (hsub hg), hdispatched, fun _ => ?_⟩
    refine .pending hstate rfl ⟨hdata, hin, hwell, hprotocol, hinfo, htokened, rfl, ?_⟩
    intro principal' hprincipal'
    rw [← Option.some.inj hprincipal']
    exact mem_append_right _ mem_cons_self
  · refine ⟨hsub, hdispatched, fun _ => ?_⟩
    refine .pending hstate rfl ⟨hdata, hin, hwell, hprotocol, hinfo, htokened, rfl, ?_⟩
    intro principal' hprincipal'
    rw [show s'.principal = some principal' from hprincipal'] at hprincipal
    cases hprincipal

theorem processProtocolData_outcome (now : Int) (services : Services υ)
    (hdata : s'.data = data) (hstate : s'.state = .preparation) (hprincipal : s'.principal = none)
    (hin : data.brokerProtocol p = some m) (hprotocol : s'.brokerProtocol = some m)
    (hgranted : s'.granted = s.granted) (hdispatched : s'.dispatched = s.dispatched) :
    Outcome p data s (processProtocolData p now services m s') := by
  have hsub : s.granted ⊆ s'.granted := fun g hg => hgranted ▸ hg
  rw [processProtocolData]
  split
  · exact Outcome.failed _ hsub hdispatched
  rename_i messageType htype
  split
  · rename_i conversationId messageId sourcePeerId targetPeerId hconversation hmessage hsource
      htarget
    dsimp only
    split
    · rename_i failure s₁ heq
      obtain ⟨routing, rfl⟩ := processBackendMessage_some heq
      exact Outcome.failed _ hsub hdispatched
    · rename_i s₁ heq
      obtain ⟨routing, rfl⟩ := processBackendMessage_some heq
      exact ⟨hsub, hdispatched, fun _ => .done rfl (.inr rfl)⟩
    · rename_i hnone
      have hwell : WellFormed p m :=
        { messageType := ⟨messageType, htype, processBackendMessage_none hnone⟩
          conversationId := by rw [hconversation]; rfl
          messageId := by rw [hmessage]; rfl
          sourcePeerId := isSome_of_validatePeerId hsource
          targetPeerId := isSome_of_validatePeerId htarget }
      split
      · rename_i hinfo
        refine serializeBrokerProtocolMessage_outcome hdata rfl hin hwell rfl ?_ hsub hdispatched
        exact .absent hinfo hinfo
      · rename_i info hinfo
        exact processIdentityInfo_outcome now hdata hstate hprincipal hin hwell hprotocol hinfo
          hgranted hdispatched
  · exact Outcome.failed _ hsub hdispatched

theorem parseAndProcessProtocolData_outcome (now : Int) (services : Services υ)
    (hdata : s.data = data) (hstate : s.state = .preparation) (hprincipal : s.principal = none) :
    Outcome p data s (parseAndProcessProtocolData p now services s) := by
  rw [parseAndProcessProtocolData]
  split
  · exact Outcome.failed _ (List.Subset.refl _) rfl
  rename_i protocolData hprotocolData
  split
  · exact Outcome.failed _ (List.Subset.refl _) rfl
  rename_i m hm
  refine processProtocolData_outcome now services hdata hstate hprincipal ?_ rfl rfl rfl
  rwa [DataBlock.brokerProtocol, ← hdata, hprotocolData]

omit [DecidableEq υ] in
/-- A principal which the update returns has been granted for the token. -/
theorem authorizedPrincipal_spec {info : PrincipalIdentityInfo θ}
    {token : AuthenticationToken} (sweepNow : κ → Int) (now : Int)
    (h : Pending p data s m info token) :
    s.granted ⊆ (authorizedPrincipal p sweepNow now s).2.granted ∧
      (authorizedPrincipal p sweepNow now s).2.dispatched = s.dispatched ∧
      (authorizedPrincipal p sweepNow now s).2.state = s.state ∧
      Pending p data (authorizedPrincipal p sweepNow now s).2 m info token := by
  have hsame : s.granted ⊆ s.granted ∧ s.dispatched = s.dispatched ∧ s.state = s.state ∧
      Pending p data s m info token := ⟨List.Subset.refl _, rfl, rfl, h⟩
  rw [authorizedPrincipal, h.authenticationToken]
  cases s.authorizationTask with
  | none => exact hsame
  | some task =>
    dsimp only
    split
    · exact ⟨List.Subset.refl _, rfl, rfl, { h with authenticationToken := rfl }⟩
    · exact ⟨List.Subset.refl _, rfl, rfl,
        { h with authenticationToken := rfl, principal := fun _ h => by cases h }⟩
    · rename_i principal cache _
      refine ⟨subset_append_left _ _, rfl, rfl,
        { h with authenticationToken := rfl, principal := ?_ }⟩
      intro principal' hprincipal'
      rw [← Option.some.inj hprincipal']
      exact mem_append_right _ mem_cons_self

omit [DecidableEq υ] in
theorem postAuthorization_outcome [Inhabited θ]
    {info : PrincipalIdentityInfo θ} {token : AuthenticationToken} (sweepNow : κ → Int)
    (now : Int) (hstate : s.state = .dispatch) (h : Pending p data s m info token) :
    Outcome p data s (postAuthorization p sweepNow now s) := by
  obtain ⟨hgranted, hdispatched, hstate', hpending⟩ := authorizedPrincipal_spec sweepNow now h
  rw [postAuthorization]
  split
  · rename_i failure s₁ heq
    rw [heq] at hgranted hdispatched
    exact Outcome.failed _ hgranted hdispatched
  · rename_i s₁ heq
    rw [heq] at hgranted hdispatched hstate' hpending
    rw [hpending.brokerProtocol]
    cases hprincipal : s₁.principal with
    | none => exact Outcome.failed _ hgranted hdispatched
    | some principal =>
      refine serializeBrokerProtocolMessage_outcome hpending.unchanged (hstate'.trans hstate)
        hpending.incoming hpending.wellFormed rfl ?_ hgranted hdispatched
      refine .granted hpending.identityInfo hpending.tokened (hpending.principal _ hprincipal) ?_
      rw [authorizeProtocolMessage, hpending.identityInfo]
      rfl

/-! ## The path to the dispatch -/

omit [DecidableEq κ] in
/-- The continuation dispatches a block only after it was serialized. -/
theorem continuationTask_inv {dispatcher : Dispatcher} {exception : Option Failure}
    (h : Inv p data s) (hover : s.isOver = false) (hcompleted : s.completed = some exception) :
    Inv p data (continuationTask p dispatcher exception s) := by
  have hend : Inv p data { s with isOver := true } := ⟨.ended rfl, h.dispatched⟩
  rw [continuationTask]
  cases exception with
  | some failure => exact hend
  | none =>
    rw [if_neg (by simp)]
    cases h.placed with
    | parsing _ hnone | authorized _ hnone =>
      rw [hcompleted] at hnone
      cases hnone
    | failed failure hfailed =>
      rw [hcompleted] at hfailed
      cases hfailed
    | ended hisOver =>
      rw [hover] at hisOver
      cases hisOver
    | done hstate =>
      rw [hstate] at hend ⊢
      exact hend
    | prepared hstate _ hestablished =>
      rw [hstate] at hend ⊢
      dsimp only
      split
      · refine ⟨.done rfl (.inl rfl), fun d hd => ?_⟩
        obtain hd | hd := mem_append.mp hd
        · exact h.dispatched d hd
        · rwa [mem_singleton.mp hd]
      · exact hend
    | pending hstate _ hpending =>
      rw [hstate]
      dsimp only
      split
      · exact ⟨.authorized rfl rfl rfl { hpending with }, h.dispatched⟩
      · exact ⟨.authorizing rfl rfl { hpending with }, h.dispatched⟩
    | authorizing _ hstate hpending =>
      rw [hstate]
      exact ⟨.authorized rfl rfl rfl { hpending with }, h.dispatched⟩

theorem step_inv [Inhabited θ] {l : Label υ κ} (h : Inv p data s) (hstep : step p s l = some s') :
    Inv p data s' := by
  cases l with
  | parseAndProcessProtocolData now services =>
    obtain ⟨hexecutes, rfl⟩ := Option.ite_some_none_eq_some.mp hstep
    obtain ⟨hover, hcompleted, hwrapped⟩ := executes_eq_true hexecutes
    obtain ⟨-, hstate, hdata, hprincipal⟩ | ⟨_, _, _, _, ⟨htask, -⟩ | ⟨htask, -⟩⟩ :=
      h.placed.of_executing hover hcompleted (by rw [hwrapped]; simp)
    · exact (parseAndProcessProtocolData_outcome now services hdata hstate hprincipal).inv h
    · simp [hwrapped] at htask
    · rw [hwrapped] at htask
      cases htask
  | authorize task =>
    obtain ⟨hexecutes, rfl⟩ := Option.ite_some_none_eq_some.mp hstep
    obtain ⟨hover, hcompleted, hwrapped⟩ := executes_eq_true hexecutes
    obtain ⟨htask, -⟩ | ⟨_, _, _, hpending, ⟨-, hstate⟩ | ⟨htask, -⟩⟩ :=
      h.placed.of_executing hover hcompleted (by rw [hwrapped]; simp)
    · simp [hwrapped] at htask
    · exact ⟨.authorizing hwrapped hstate { hpending with }, h.dispatched⟩
    · rw [hwrapped] at htask
      cases htask
  | postAuthorization sweepNow now =>
    obtain ⟨hexecutes, rfl⟩ := Option.ite_some_none_eq_some.mp hstep
    obtain ⟨hover, hcompleted, hwrapped⟩ := executes_eq_true hexecutes
    obtain ⟨htask, -⟩ | ⟨_, _, _, hpending, ⟨htask, -⟩ | ⟨-, hstate⟩⟩ :=
      h.placed.of_executing hover hcompleted (by rw [hwrapped]; simp)
    · simp [hwrapped] at htask
    · simp [hwrapped] at htask
    · exact (postAuthorization_outcome sweepNow now hstate hpending).inv h
  | ends exception =>
    obtain ⟨hends, rfl⟩ := Option.ite_some_none_eq_some.mp hstep
    simp only [Bool.and_eq_true, Bool.not_eq_true', Option.isNone_iff_eq_none, Bool.or_eq_true,
      decide_eq_true_eq] at hends
    obtain ⟨⟨hover, hcompleted⟩, hends⟩ := hends
    cases exception with
    | some failure => exact ⟨.failed failure rfl, h.dispatched⟩
    | none =>
      have hwrapped := hends.resolve_left (by simp)
      refine ⟨?_, h.dispatched⟩
      cases h.placed with
      | parsing h | authorizing h | authorized h => simp [hwrapped] at h
      | failed _ h | prepared _ h | pending _ h => simp [hcompleted] at h
      | ended h => simp [hover] at h
      | done hstate _ => exact .done hstate (.inl hwrapped)
  | continuationTask dispatcher =>
    obtain ⟨hover, hstep⟩ := Option.ite_none_left_eq_some.mp hstep
    obtain ⟨exception, hcompleted, rfl⟩ := Option.map_eq_some_iff.mp hstep
    exact continuationTask_inv h (Bool.not_eq_true _ ▸ hover) hcompleted
  | cache _ | route _ =>
    cases hstep
    exact ⟨h.placed.congr rfl rfl rfl rfl rfl rfl rfl rfl rfl, h.dispatched⟩

/-- Whatever the caches and the authorization come to, a block is dispatched
only with a message the broker has established. -/
theorem run_established [Inhabited θ] (p : Parameters υ θ κ) (data : DataBlock)
    (routing : υ → Option υ) (cache : AuthorizationCache.State κ SecurityPrincipal)
    {ls : List (Label υ κ)} {s : State υ θ κ}
    (hrun : Transition.run (step p) (.create p data routing cache) ls = some s)
    {targetPeerId : υ} {block : DataBlock} (hdispatched : (targetPeerId, block) ∈ s.dispatched) :
    Established p data s.granted block :=
  (Transition.run_invariant (C := fun _ _ => True) (fun _ _ _ h _ hstep => step_inv h hstep)
    ⟨.parsing rfl rfl rfl rfl rfl, fun _ hd => by cases hd⟩ Transition.along_true hrun).dispatched
      _ hdispatched

/-! ## A message which is authorized -/

def aliceToken : AuthenticationToken := ⟨octets "cookie", octets "token"⟩

def alicePrincipal : SecurityPrincipal := ⟨octets "alice", [], [], []⟩

/-- A message with identity information, and without peer ids. -/
def tokenMessage : BrokerProtocol Unit where
  messageType := MessageType.toString .asyncRpcDispatch
  messageId := octets "44444444-4444-4444-4444-444444444444"
  conversationId := octets "33333333-3333-3333-3333-333333333333"
  sourcePeerId := []
  targetPeerId := []
  principalIdentityInfo := some ⟨some aliceToken, none, ()⟩
  passThrough := ()

/-- The message as it is dispatched. -/
def principalMessage : BrokerProtocol Unit :=
  { tokenMessage with
    sourcePeerId := Conversation.localPeerId
    targetPeerId := Conversation.remotePeerId
    principalIdentityInfo := some ⟨none, some alicePrincipal, ()⟩ }

def tokenText : Octets :=
  octets "\x7b\"messageType\":\"AsyncRpcDispatch\"," ++
    octets "\"messageId\":\"44444444-4444-4444-4444-444444444444\"," ++
    octets "\"conversationId\":\"33333333-3333-3333-3333-333333333333\"," ++
    octets "\"principalIdentityInfo\":\x7b\"authenticationToken\":" ++
    octets "\x7b\"type\":\"cookie\",\"data\":\"token\"\x7d\x7d\x7d"

def principalText : Octets :=
  octets "\x7b\"messageType\":\"AsyncRpcDispatch\"," ++
    octets "\"messageId\":\"44444444-4444-4444-4444-444444444444\"," ++
    octets "\"conversationId\":\"33333333-3333-3333-3333-333333333333\"," ++
    octets "\"sourcePeerId\":\"11111111-1111-1111-1111-111111111111\"," ++
    octets "\"targetPeerId\":\"22222222-2222-2222-2222-222222222222\"," ++
    octets "\"principalIdentityInfo\":\x7b\"securityPrincipal\":\x7b\"sid\":\"alice\"\x7d\x7d\x7d"

/-- The texts of the two messages. -/
def messageJson : Json Unit where
  loadFromJsonText text :=
    if text = principalText then some principalMessage
    else if text = tokenText then some tokenMessage else none
  getDocAsPackedJsonString m := if m = principalMessage then some principalText else none
  roundTrip h := by
    obtain ⟨rfl, h⟩ := Option.ite_none_right_eq_some.mp h
    rw [← Option.some.inj h, if_pos rfl]

def cookieParameters : Parameters Octets Unit Octets where
  uuids := Conversation.textUuids
  json := messageJson
  tokenType := octets "cookie"
  key := id
  sourcePeerId := Conversation.localPeerId
  targetPeerId := Conversation.remotePeerId

def tokenBlock : DataBlock := ⟨512, 7, octets "payload" ++ tokenText⟩

def principalBlock : DataBlock := ⟨512, 7, octets "payload" ++ principalText⟩

def tokenState : State Octets Unit Octets :=
  .create cookieParameters tokenBlock (fun _ => none) (AuthorizationCache.State.init none 10)

/-- The token is not in the cache. -/
def tokenRun : List (Label Octets Octets) :=
  [.parseAndProcessProtocolData 1 ⟨true, fun _ => false⟩, .continuationTask ⟨true, true⟩,
    .authorize (.executed (some alicePrincipal)), .continuationTask ⟨true, true⟩,
    .postAuthorization (fun _ => 2) 2, .continuationTask ⟨true, true⟩]

theorem run_established_authorized :
    ∃ s, Transition.run (step cookieParameters) tokenState tokenRun = some s ∧
      s.dispatched = [(Conversation.remotePeerId, principalBlock)] ∧
      Established cookieParameters tokenBlock s.granted principalBlock := by
  have hdispatched : (Transition.run (step cookieParameters) tokenState tokenRun).map
      (·.dispatched) = some [(Conversation.remotePeerId, principalBlock)] := by decide +kernel
  obtain ⟨s, hrun, hs⟩ := Option.map_eq_some_iff.mp hdispatched
  have hmem : (Conversation.remotePeerId, principalBlock) ∈ s.dispatched := by
    rw [hs]
    exact List.mem_cons_self
  exact ⟨s, hrun, hs, run_established cookieParameters tokenBlock _ _ hrun hmem⟩

end Baselib.Messaging.BrokerBackendProcessing
