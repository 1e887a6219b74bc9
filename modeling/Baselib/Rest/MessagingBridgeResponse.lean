/-
Baselib.Rest.MessagingBridgeResponse — when a request whose wait has
completed without an exception has its response.

The callback of an entry is consumed by the first event, and its response
slot stays: a cancel that comes later puts nothing in it, and a prune takes
the entry away.
-/
import Baselib.Rest.MessagingBridgeTheorems

namespace Baselib.Rest.MessagingBridge

open Lib

variable {κ : Type} [DecidableEq κ] {cfg : Config} {s s' : State κ} {id : κ}

/-- `closeRequest` hands out a message of the conversation whenever the wait
for it has completed without an exception. -/
def Answerable (s : State κ) : Prop :=
  s.isDisposed = false → ∀ id ∈ s.succeeded, ∀ now, ∃ block,
    (closeRequest id now s).2 = some block ∧ block.conversationId = some id

/-! ## The response slot -/

/-- What the entry of the conversation has to hand out. -/
def State.response (id : κ) (s : State κ) : Option (Message κ) :=
  (s.requestsInFlight.lookup id).bind (·.response)

theorem closeRequest_snd (hdisposed : s.isDisposed = false) (id : κ) (now : Int) :
    (closeRequest id now s).2 = s.response id := by
  unfold closeRequest completeRequestInternal State.response
  rw [hdisposed, if_neg Bool.false_ne_true]
  split
  · rename_i hdiscarded
    rw [hdiscarded.2]
    rfl
  · cases hinfo : s.requestsInFlight.lookup id with
    | none =>
      rw [emplaced_of_none hinfo]
      rfl
    | some info =>
      rw [emplaced_of_lookup hinfo]
      rfl

/-- The facts about the table which the responses rest on. -/
structure Inv (s : State κ) : Prop where
  disposed : s.isDisposed = true → s.requestsInFlight = ∅
  blocks : Blocks (fun id block => block.conversationId = some id) s

theorem step_inv {l : Label κ} (h : Inv s) (hstep : step cfg s l = some s') : Inv s' where
  disposed := step_disposed h.disposed hstep
  blocks := step_blocks h.blocks (fun _ _ _ _ hid _ => hid) hstep

/-- The slots of the waits which have completed are taken. -/
def Answered (s : State κ) : Prop :=
  s.isDisposed = false → ∀ id ∈ s.succeeded, (s.response id).isSome = true

theorem Inv.answerable_iff (h : Inv s) : Answerable s ↔ Answered s := by
  refine forall_congr' fun hdisposed => forall₂_congr fun id _ => ?_
  simp only [closeRequest_snd hdisposed, Option.isSome_iff_exists, forall_const]
  refine ⟨fun ⟨block, hblock, _⟩ => ⟨block, hblock⟩, fun ⟨block, hblock⟩ => ⟨block, hblock, ?_⟩⟩
  obtain ⟨info, hinfo, hresponse⟩ := Option.bind_eq_some_iff.mp hblock
  exact h.blocks.response id info block hinfo hresponse

/-- What a completion leaves in the slots. -/
theorem completeRequest_response (hdisposed : s.isDisposed = false) (id id' : κ)
    (dataBlock : Option (Message κ)) (aborted : Bool) (now : Int) :
    (completeRequest id dataBlock aborted now s).response id' =
      if id' = id ∧ ¬ isDiscarded id s then dataBlock else s.response id' := by
  unfold completeRequest completeRequestInternal
  rw [hdisposed, if_neg Bool.false_ne_true]
  split
  · rename_i hdiscarded
    rw [if_neg fun h => h.2 hdiscarded]
  · rename_i hkept
    change ((completedRequests false id dataBlock now s).lookup id').bind _ = _
    obtain rfl | hid := eq_or_ne id' id
    · rw [if_pos ⟨rfl, hkept⟩, lookup_completedRequests]
      rfl
    · rw [if_neg fun h => hid h.1, lookup_completedRequests_ne hid]
      rfl

theorem completeRequest_isDisposed (id : κ) (dataBlock : Option (Message κ)) (aborted : Bool)
    (now : Int) (s : State κ) :
    (completeRequest id dataBlock aborted now s).isDisposed = s.isDisposed := by
  unfold completeRequest completeRequestInternal
  split
  · rfl
  · split <;> rfl

theorem completeRequest_succeeded (id : κ) (dataBlock : Option (Message κ)) (aborted : Bool)
    (now : Int) (s : State κ) :
    (completeRequest id dataBlock aborted now s).succeeded = s.succeeded ∨
      aborted = false ∧ ¬ isDiscarded id s ∧
        (completeRequest id dataBlock aborted now s).succeeded = id :: s.succeeded := by
  unfold completeRequest completeRequestInternal
  split
  · exact .inl rfl
  · split
    · exact .inl rfl
    · rename_i hkept
      cases hcallback : (emplaced id now s).callback <;> cases aborted <;> simp [hcallback, hkept]

/-! ## Steps -/

/-- No step leaves a wait that has completed without a response: a wait does
not register on an entry without one, and the timers spare the entries of
the conversations which are to be closed. -/
def KeepsResponses (cfg : Config) (s : State κ) : Label κ → Prop
  | .registerRequest id _ => ∀ info ∈ s.requestsInFlight.lookup id, info.response.isSome = true
  | .cancelRequest _ => s.isDisposed = false → ∀ id ∈ s.canceling.head?, id ∉ s.succeeded
  | .onTimer clock => ∀ id ∈ s.succeeded, ∀ info ∈ s.requestsInFlight.lookup id,
      isExpired cfg clock ⟨id, info⟩ = false
  | _ => True

instance (cfg : Config) : ∀ (s : State κ) (l : Label κ), Decidable (KeepsResponses cfg s l)
  | s, .registerRequest id _ =>
    inferInstanceAs (Decidable (∀ info ∈ s.requestsInFlight.lookup id, _))
  | _, .processIncomingMessage _ _ => isTrue trivial
  | _, .scheduleForCancel _ => isTrue trivial
  | _, .checkCancelRequests => isTrue trivial
  | s, .cancelRequest _ => inferInstanceAs (Decidable (_ → ∀ id ∈ s.canceling.head?, _))
  | s, .onTimer _ => inferInstanceAs (Decidable (∀ id ∈ s.succeeded, _))
  | _, .closeRequest _ _ => isTrue trivial
  | _, .dispose => isTrue trivial
  | _, .invoke _ => isTrue trivial

theorem registerRequest_answered_iff (h : Inv s) (hanswered : Answered s) (id : κ) (now : Int) :
    Answered (registerRequest id now s).1 ↔
      ∀ info ∈ s.requestsInFlight.lookup id, info.response.isSome = true := by
  unfold registerRequest
  split
  · rename_i hdisposed
    refine iff_of_true hanswered fun info hinfo => ?_
    rw [h.disposed hdisposed, AList.lookup_empty] at hinfo
    cases hinfo
  · rename_i hdisposed
    have hdisposed := Bool.not_eq_true _ ▸ hdisposed
    have hold := hanswered hdisposed
    split
    · rename_i hsome
      obtain ⟨info, hinfo⟩ := Option.isSome_iff_exists.mp hsome
      simp only [Answered, hdisposed, forall_const, List.forall_mem_cons, hinfo, Option.mem_def,
        Option.some.injEq, forall_eq', State.response, Option.bind_some]
      exact ⟨fun hall => hall.1, fun hresponse => ⟨hresponse, hold⟩⟩
    · rename_i hnone
      have hnone := Option.not_isSome_iff_eq_none.mp hnone
      refine iff_of_true (fun _ id' hid' => ?_) (by simp [hnone])
      have hne : id' ≠ id := fun heq => by
        have hresponse := hold id' hid'
        rw [heq, State.response, hnone] at hresponse
        cases hresponse
      have hkept := hold id' hid'
      unfold State.response at hkept ⊢
      rwa [AList.lookup_insert_ne hne]

/-- A completion takes the response away from a wait that has succeeded only
when it brings none. -/
theorem completeRequest_answered_iff (hanswered : Answered s) (id : κ)
    {dataBlock : Option (Message κ)} {aborted : Bool} (hdata : dataBlock.isSome = !aborted)
    (now : Int) : Answered (completeRequest id dataBlock aborted now s) ↔
      (s.isDisposed = false → aborted = true → id ∉ s.succeeded) := by
  unfold Answered
  rw [completeRequest_isDisposed]
  refine forall_congr' fun hdisposed => ?_
  have hold := hanswered hdisposed
  have hresponse := fun id' => completeRequest_response hdisposed id id' dataBlock aborted now
  cases aborted with
  | true =>
    obtain rfl : dataBlock = none := by simpa using hdata
    have hsucceeded : (completeRequest id none true now s).succeeded = s.succeeded := by
      obtain hsame | ⟨haborted, -, -⟩ := completeRequest_succeeded id none true now s
      · exact hsame
      · cases haborted
    rw [hsucceeded]
    constructor
    · intro hall _ hid
      have hnow := hall id hid
      have hkept : ¬ isDiscarded id s := fun hdiscarded => by
        have hnone := hold id hid
        simp [State.response, hdiscarded.2] at hnone
      rw [hresponse, if_pos ⟨rfl, hkept⟩] at hnow
      cases hnow
    · intro hnot id' hid'
      have hne : id' ≠ id := fun heq => hnot rfl (heq ▸ hid')
      rw [hresponse, if_neg fun h => hne h.1]
      exact hold id' hid'
  | false =>
    refine iff_of_true (fun id' hid' => ?_) nofun
    have hsome : dataBlock.isSome = true := by simpa using hdata
    rw [hresponse]
    split
    · exact hsome
    · rename_i hother
      obtain hsame | ⟨-, hkept, hmore⟩ := completeRequest_succeeded id dataBlock false now s
      · exact hold id' (hsame ▸ hid')
      · rw [hmore] at hid'
        obtain rfl | hid' := List.mem_cons.mp hid'
        · exact absurd ⟨rfl, hkept⟩ hother
        · exact hold id' hid'

theorem onTimer_answered_iff (h : Inv s) (hanswered : Answered s) (clock : κ → Int) :
    Answered (onTimer cfg clock s) ↔ ∀ id ∈ s.succeeded,
      ∀ info ∈ s.requestsInFlight.lookup id, isExpired cfg clock ⟨id, info⟩ = false := by
  have hlookup : ∀ id info, (onTimer cfg clock s).requestsInFlight.lookup id = some info ↔
      s.requestsInFlight.lookup id = some info ∧ isExpired cfg clock ⟨id, info⟩ = false := by
    intro id info
    rw [← Option.mem_def, AList.mem_lookup_iff, ← Option.mem_def, AList.mem_lookup_iff]
    simp [onTimer]
  constructor
  · intro hall id hid info hinfo
    by_cases hdisposed : s.isDisposed = true
    · simp [h.disposed hdisposed, AList.lookup_empty] at hinfo
    · have hnow := hall (Bool.not_eq_true _ ▸ hdisposed) id hid
      obtain ⟨block, hblock⟩ := Option.isSome_iff_exists.mp hnow
      obtain ⟨info', hinfo', -⟩ := Option.bind_eq_some_iff.mp hblock
      obtain ⟨hsame, hfresh⟩ := (hlookup id info').mp hinfo'
      obtain rfl := Option.some.inj (hinfo.symm.trans hsame)
      exact hfresh
  · intro hfresh hdisposed id hid
    have hold := hanswered hdisposed id hid
    obtain ⟨block, hblock⟩ := Option.isSome_iff_exists.mp hold
    obtain ⟨info, hinfo, hresponse⟩ := Option.bind_eq_some_iff.mp hblock
    rw [State.response, (hlookup id info).mpr ⟨hinfo, hfresh id hid info hinfo⟩]
    exact Option.isSome_iff_exists.mpr ⟨block, hresponse⟩

theorem closeRequest_answered (hanswered : Answered s) (id : κ) (now : Int) :
    (closeRequest id now s).1.isDisposed = false → ∀ id' ∈ s.succeeded.filter (· ≠ id),
      ((closeRequest id now s).1.response id').isSome = true := by
  intro hdisposed id' hid'
  obtain ⟨hid', hne⟩ := List.mem_filter.mp hid'
  have hne : id' ≠ id := by simpa using hne
  unfold closeRequest completeRequestInternal at hdisposed ⊢
  by_cases hgone : s.isDisposed = true
  · rw [if_pos hgone] at hdisposed
    cases hgone.symm.trans hdisposed
  · have hold := hanswered (Bool.not_eq_true _ ▸ hgone) id' hid'
    rw [if_neg hgone]
    split
    · exact hold
    · change (((completedRequests true id none now s).lookup id').bind _).isSome = true
      rwa [lookup_completedRequests_ne hne]

theorem step_answered_iff {l : Label κ} (h : Inv s) (hanswered : Answered s)
    (hstep : step cfg s l = some s') : Answered s' ↔ KeepsResponses cfg s l := by
  cases l with
  | registerRequest id now =>
    cases hstep
    exact registerRequest_answered_iff h hanswered id now
  | processIncomingMessage data now =>
    cases hstep
    refine iff_of_true ?_ trivial
    unfold processIncomingMessage
    split
    · exact hanswered
    · rename_i id _
      split
      · refine (completeRequest_answered_iff hanswered id rfl now).mpr fun _ haborted => ?_
        cases haborted
      · exact hanswered
  | scheduleForCancel id =>
    cases hstep
    exact iff_of_true hanswered trivial
  | checkCancelRequests =>
    simp only [step] at hstep
    split at hstep
    · cases hstep
      exact iff_of_true hanswered trivial
    · cases hstep
  | cancelRequest now =>
    simp only [step] at hstep
    split at hstep
    · cases hstep
    · rename_i id rest hcanceling
      cases hstep
      have hrest : Answered { s with canceling := rest } := hanswered
      refine (completeRequest_answered_iff hrest id rfl now).trans ?_
      simp [KeepsResponses, hcanceling]
  | onTimer clock =>
    cases hstep
    exact onTimer_answered_iff h hanswered clock
  | closeRequest id now =>
    cases hstep
    exact iff_of_true (closeRequest_answered hanswered id now) trivial
  | dispose =>
    cases hstep
    refine iff_of_true (fun hdisposed => ?_) trivial
    unfold dispose at hdisposed
    split at hdisposed
    · rename_i hgone
      cases hgone.symm.trans hdisposed
    · cases hdisposed
  | invoke i =>
    obtain ⟨completion, -, rfl⟩ := Option.map_eq_some_iff.mp hstep
    exact iff_of_true hanswered trivial

theorem create_inv : Inv (State.create : State κ) where
  disposed hdisposed := by cases hdisposed
  blocks := ⟨by simp [State.create], by simp [State.create]⟩

/-- Over a run a wait which has completed without an exception has its
response, just when no wait registers on an entry without one and no timer
takes the response away. -/
theorem run_answerable (cfg : Config) (labels : List (Label κ)) (s : State κ)
    (hrun : Transition.run (step cfg) State.create labels = some s) :
    Transition.Throughout (step cfg) Answerable State.create labels ↔
      Transition.Along (step cfg) (KeepsResponses cfg) State.create labels := by
  refine Transition.throughout_iff_along (fun _ _ _ h hstep => step_inv h hstep) ?_ create_inv ?_ hrun
  · intro s l s' h hanswerable hstep
    exact (step_inv h hstep).answerable_iff.trans
      (step_answered_iff h (h.answerable_iff.mp hanswerable) hstep)
  · intro _ id hid
    cases hid

theorem run_answerable_answeredRequest :
    Transition.Throughout (step ⟨false, "", 0⟩) Answerable State.create answeredRequest :=
  (run_answerable ⟨false, "", 0⟩ answeredRequest _ rfl).mpr (by decide)

/-- The response comes in while the cancel timer is about to complete the
request. -/
def canceledAnswer : List (Label Nat) :=
  [.registerRequest 1 0, .scheduleForCancel 1, .checkCancelRequests,
    .processIncomingMessage ⟨some 1, none⟩ 5, .cancelRequest 6, .invoke 0]

theorem run_answerable_canceledAnswer :
    ∃ s, Transition.run (step ⟨false, "", 0⟩) State.create canceledAnswer = some s ∧
      s.isDisposed = false ∧ s.invoked = [⟨1, 0, false⟩] ∧ (closeRequest 1 7 s).2 = none ∧
      ¬ Answerable s := by
  refine ⟨_, rfl, rfl, rfl, rfl, fun h => ?_⟩
  obtain ⟨block, hblock, -⟩ := h rfl 1 (by decide) 7
  cases hblock

end Baselib.Rest.MessagingBridge
