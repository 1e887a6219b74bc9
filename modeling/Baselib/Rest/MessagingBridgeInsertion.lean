/-
Baselib.Rest.MessagingBridgeInsertion — two runs of the bridge, one of them
with extra messages for conversations which belong to no request.

The extra messages leave entries without a callback behind. The two tables
agree on the conversations of the requests as long as the limit of the table
does not tell them apart when one of these conversations gets its entry.
-/
import Baselib.Rest.MessagingBridgeTheorems

namespace Baselib.Rest.MessagingBridge

open Lib List

variable {κ : Type} [DecidableEq κ] {cfg : Config} {s s' t t' : State κ} {id : κ}

/-! ## The entries of some conversations -/

variable {requests : List κ} {entries : List (Sigma fun _ : κ => Info κ)}

/-- The entries of the conversations in `requests`. -/
def entriesOf (requests : List κ) (entries : List (Sigma fun _ : κ => Info κ)) :
    List (Sigma fun _ : κ => Info κ) :=
  entries.filter fun e => decide (e.1 ∈ requests)

theorem dlookup_entriesOf (h : id ∈ requests) :
    (entriesOf requests entries).dlookup id = entries.dlookup id := by
  induction entries with
  | nil => rfl
  | cons e entries ih =>
    obtain ⟨a, info⟩ := e
    obtain rfl | ha := eq_or_ne a id
    · rw [entriesOf, filter_cons_of_pos (by simpa using h), dlookup_cons_eq,
        dlookup_cons_eq]
    · rw [dlookup_cons_ne _ _ (Ne.symm ha)]
      by_cases hmem : a ∈ requests
      · rw [entriesOf, filter_cons_of_pos (by simpa using hmem),
          dlookup_cons_ne _ _ (Ne.symm ha)]
        exact ih
      · rw [entriesOf, filter_cons_of_neg (by simpa using hmem)]
        exact ih

theorem kerase_entriesOf_of_not_mem (h : id ∉ requests) :
    (entriesOf requests entries).kerase id = entriesOf requests entries := by
  refine kerase_of_notMem_keys fun hmem => ?_
  obtain ⟨info, hinfo⟩ := exists_of_mem_keys hmem
  exact h (by simpa using (mem_filter.mp hinfo).2)

theorem entriesOf_kerase :
    entriesOf requests (entries.kerase id) = (entriesOf requests entries).kerase id := by
  induction entries with
  | nil => rfl
  | cons e entries ih =>
    obtain ⟨a, info⟩ := e
    obtain rfl | ha := eq_or_ne id a
    · have herase : ∀ l : List (Sigma fun _ : κ => Info κ), (⟨id, info⟩ :: l).kerase id = l :=
        fun _ => kerase_cons_eq rfl
      rw [herase, entriesOf, entriesOf]
      by_cases hmem : id ∈ requests
      · rw [filter_cons_of_pos (by simpa using hmem), herase]
      · rw [filter_cons_of_neg (by simpa using hmem)]
        exact (kerase_entriesOf_of_not_mem hmem).symm
    · rw [kerase_cons_ne (by simpa using ha)]
      by_cases hmem : a ∈ requests
      · rw [entriesOf, entriesOf, filter_cons_of_pos (by simpa using hmem),
          filter_cons_of_pos (by simpa using hmem), kerase_cons_ne (by simpa using ha)]
        exact congrArg _ ih
      · rw [entriesOf, entriesOf, filter_cons_of_neg (by simpa using hmem),
          filter_cons_of_neg (by simpa using hmem)]
        exact ih

theorem entriesOf_filter (p : (Sigma fun _ : κ => Info κ) → Bool) :
    entriesOf requests (entries.filter p) = (entriesOf requests entries).filter p :=
  filter_comm _ _ entries

/-! ## Tables which agree -/

/-- No entry of another conversation holds a callback. -/
def Unclaimed (requests : List κ) (s : State κ) : Prop :=
  ∀ e ∈ s.requestsInFlight.entries, e.1 ∉ requests → e.2.callback = none

/-- What the requests can see of two states is the same. -/
structure Agree (requests : List κ) (s s' : State κ) : Prop where
  entries : entriesOf requests s'.requestsInFlight.entries =
    entriesOf requests s.requestsInFlight.entries
  rest : s' = { s with requestsInFlight := s'.requestsInFlight }
  unclaimed : Unclaimed requests s
  unclaimed' : Unclaimed requests s'
  scheduledForCancel : ∀ id ∈ s.scheduledForCancel, id ∈ requests
  canceling : ∀ id ∈ s.canceling, id ∈ requests

theorem Agree.lookup (h : Agree requests s s') (hid : id ∈ requests) :
    s'.requestsInFlight.lookup id = s.requestsInFlight.lookup id := by
  rw [AList.lookup, AList.lookup, ← dlookup_entriesOf hid, h.entries, dlookup_entriesOf hid]

theorem Agree.emplaced (h : Agree requests s s') (hid : id ∈ requests) (now : Int) :
    emplaced id now s' = emplaced id now s := by
  rw [MessagingBridge.emplaced, MessagingBridge.emplaced, h.lookup hid]

/-- The callbacks which are taken out with some entries are those of the
requests. -/
theorem cancelRequests_entriesOf
    (h : ∀ e ∈ entries, e.1 ∉ requests → e.2.callback = none) :
    cancelRequests (entriesOf requests entries) = cancelRequests entries := by
  induction entries with
  | nil => rfl
  | cons e entries ih =>
    have htail := ih fun e' he' => h e' (mem_cons_of_mem _ he')
    by_cases hmem : e.1 ∈ requests
    · rw [entriesOf, filter_cons_of_pos (by simpa using hmem)]
      simp only [cancelRequests, filterMap_cons]
      cases e.2.callback with
      | none => exact htail
      | some callback => exact congrArg _ htail
    · rw [entriesOf, filter_cons_of_neg (by simpa using hmem)]
      simp only [cancelRequests, filterMap_cons, h e mem_cons_self hmem]
      exact htail

/-! ## One step of both -/

theorem entriesOf_insert (info : Info κ) (h : id ∈ requests) (s : State κ) :
    entriesOf requests (s.requestsInFlight.insert id info).entries =
      ⟨id, info⟩ :: (entriesOf requests s.requestsInFlight.entries).kerase id := by
  rw [AList.entries_insert, entriesOf, filter_cons_of_pos (by simpa using h)]
  exact congrArg _ entriesOf_kerase

theorem entriesOf_insert_of_not_mem (info : Info κ) (h : id ∉ requests) (s : State κ) :
    entriesOf requests (s.requestsInFlight.insert id info).entries =
      entriesOf requests s.requestsInFlight.entries := by
  rw [AList.entries_insert, entriesOf, filter_cons_of_neg (by simpa using h)]
  exact entriesOf_kerase.trans (kerase_entriesOf_of_not_mem h)

theorem Unclaimed.insert (h : Unclaimed requests s) {info : Info κ}
    (hinfo : id ∉ requests → info.callback = none) (hs' : s'.requestsInFlight =
      s.requestsInFlight.insert id info) : Unclaimed requests s' := by
  intro e he hnot
  rw [hs', AList.entries_insert] at he
  obtain rfl | he := mem_cons.mp he
  · exact hinfo hnot
  · exact h e ((kerase_sublist _ _).subset he) hnot

omit [DecidableEq κ] in
theorem Unclaimed.subset (h : Unclaimed requests s)
    (hs' : s'.requestsInFlight.entries ⊆ s.requestsInFlight.entries) : Unclaimed requests s' :=
  fun e he => h e (hs' he)

/-- A message for another conversation is not seen by the requests. -/
theorem completeRequest_unseen (h : Unclaimed requests s) (hid : id ∉ requests)
    (dataBlock : Option (Message κ)) (now : Int) :
    entriesOf requests (completeRequest id dataBlock false now s).requestsInFlight.entries =
        entriesOf requests s.requestsInFlight.entries ∧
      completeRequest id dataBlock false now s = { s with
        requestsInFlight := (completeRequest id dataBlock false now s).requestsInFlight } ∧
      Unclaimed requests (completeRequest id dataBlock false now s) := by
  have hcallback : (emplaced id now s).callback = none := by
    cases hinfo : s.requestsInFlight.lookup id with
    | none => rw [emplaced_of_none hinfo]; rfl
    | some info =>
      rw [emplaced_of_lookup hinfo]
      exact h _ (AList.mem_lookup_iff.mp hinfo) hid
  rw [completeRequest, completeRequestInternal]
  split
  · exact ⟨rfl, rfl, h⟩
  split
  · exact ⟨rfl, rfl, h⟩
  · refine ⟨entriesOf_insert_of_not_mem _ hid s, ?_, h.insert (fun _ => rfl) rfl⟩
    simp [hcallback]

/-- A completion of a request, when the limit does not tell the tables
apart. -/
theorem Agree.completeRequest (h : Agree requests s s') (hid : id ∈ requests)
    (hlimit : isDiscarded id s ↔ isDiscarded id s') (dataBlock : Option (Message κ))
    (aborted : Bool) (now : Int) :
    Agree requests (completeRequest id dataBlock aborted now s)
      (completeRequest id dataBlock aborted now s') := by
  have hinfo := h.emplaced hid now
  obtain ⟨requestsInFlight', rfl⟩ : ∃ r, s' = { s with requestsInFlight := r } := ⟨_, h.rest⟩
  rw [MessagingBridge.completeRequest, MessagingBridge.completeRequest, completeRequestInternal,
    completeRequestInternal]
  by_cases hdisposed : s.isDisposed = true
  · rwa [if_pos hdisposed, if_pos hdisposed]
  rw [if_neg hdisposed, if_neg hdisposed]
  by_cases hdiscarded : isDiscarded id s
  · rwa [if_pos hdiscarded, if_pos (hlimit.mp hdiscarded)]
  rw [if_neg hdiscarded, if_neg fun hd => hdiscarded (hlimit.mpr hd)]
  rw [hinfo]
  refine ⟨?_, rfl, h.unclaimed.insert (fun _ => rfl) rfl, h.unclaimed'.insert (fun _ => rfl) rfl,
    h.scheduledForCancel, h.canceling⟩
  refine (entriesOf_insert _ hid { s with requestsInFlight := requestsInFlight' }).trans
    (Eq.trans ?_ (entriesOf_insert _ hid s).symm)
  exact congrArg _ (congrArg _ h.entries)

/-- An entry which is not there is not missed. -/
theorem closeRequest_of_none (hnone : s.requestsInFlight.lookup id = none) (now : Int) :
    closeRequest id now s = (s, none) := by
  rw [closeRequest, completeRequestInternal]
  split
  · rfl
  split
  · rfl
  · rw [emplaced_of_none hnone]
    have herase : s.requestsInFlight.erase id = s.requestsInFlight := by
      refine AList.ext (kerase_of_notMem_keys ?_)
      exact AList.lookup_eq_none.mp hnone
    simp [Info.empty, herase]

theorem Agree.closeRequest (h : Agree requests s s') (hid : id ∈ requests) (now : Int) :
    Agree requests (closeRequest id now s).1 (closeRequest id now s').1 ∧
      (closeRequest id now s').2 = (closeRequest id now s).2 := by
  have hlookup := h.lookup hid
  have hinfo := h.emplaced hid now
  cases hentry : s.requestsInFlight.lookup id with
  | none =>
    rw [closeRequest_of_none hentry, closeRequest_of_none (hlookup.trans hentry)]
    exact ⟨h, rfl⟩
  | some info =>
    have hnot : ¬isDiscarded id s := fun hd => by simp [isDiscarded, hentry] at hd
    have hnot' : ¬isDiscarded id s' := fun hd => by simp [isDiscarded, hlookup, hentry] at hd
    obtain ⟨requestsInFlight', rfl⟩ : ∃ r, s' = { s with requestsInFlight := r } := ⟨_, h.rest⟩
    rw [MessagingBridge.closeRequest, MessagingBridge.closeRequest, completeRequestInternal,
      completeRequestInternal]
    by_cases hdisposed : s.isDisposed = true
    · rw [if_pos hdisposed, if_pos hdisposed]
      exact ⟨h, rfl⟩
    rw [if_neg hdisposed, if_neg hdisposed, if_neg hnot, if_neg hnot']
    rw [hinfo]
    refine ⟨⟨?_, rfl, ?_, ?_, h.scheduledForCancel, h.canceling⟩, rfl⟩
    · refine entriesOf_kerase.trans (Eq.trans ?_ entriesOf_kerase.symm)
      exact congrArg _ h.entries
    · exact h.unclaimed.subset (kerase_sublist _ _).subset
    · exact h.unclaimed'.subset (kerase_sublist _ _).subset

theorem Agree.registerRequest (h : Agree requests s s') (hid : id ∈ requests) (now : Int) :
    Agree requests (registerRequest id now s).1 (registerRequest id now s').1 := by
  have hlookup := h.lookup hid
  obtain ⟨requestsInFlight', rfl⟩ : ∃ r, s' = { s with requestsInFlight := r } := ⟨_, h.rest⟩
  rw [MessagingBridge.registerRequest, MessagingBridge.registerRequest]
  by_cases hdisposed : s.isDisposed = true
  · rwa [if_pos hdisposed, if_pos hdisposed]
  rw [if_neg hdisposed, if_neg hdisposed]
  rw [hlookup]
  split
  · exact { h with rest := rfl }
  · refine ⟨?_, rfl, h.unclaimed.insert (absurd hid) rfl, h.unclaimed'.insert (absurd hid) rfl,
      h.scheduledForCancel, h.canceling⟩
    refine (entriesOf_insert _ hid { s with requestsInFlight := requestsInFlight' }).trans
      (Eq.trans ?_ (entriesOf_insert _ hid s).symm)
    exact congrArg _ (congrArg _ h.entries)

theorem Agree.onTimer (h : Agree requests s s') (clock : κ → Int) :
    Agree requests (onTimer cfg clock s) (onTimer cfg clock s') := by
  have hcancel : cancelRequests (s'.requestsInFlight.entries.filter (isExpired cfg clock)) =
      cancelRequests (s.requestsInFlight.entries.filter (isExpired cfg clock)) := by
    have hown := cancelRequests_entriesOf fun e he =>
      h.unclaimed e (mem_of_mem_filter (p := isExpired cfg clock) he)
    have hown' := cancelRequests_entriesOf fun e he =>
      h.unclaimed' e (mem_of_mem_filter (p := isExpired cfg clock) he)
    rw [← hown, ← hown', entriesOf_filter, entriesOf_filter, h.entries]
  obtain ⟨requestsInFlight', rfl⟩ : ∃ r, s' = { s with requestsInFlight := r } := ⟨_, h.rest⟩
  rw [MessagingBridge.onTimer, MessagingBridge.onTimer]
  rw [hcancel]
  refine ⟨?_, rfl, h.unclaimed.subset filter_sublist.subset,
    h.unclaimed'.subset filter_sublist.subset, h.scheduledForCancel, h.canceling⟩
  rw [entriesOf_filter, entriesOf_filter]
  exact congrArg (List.filter _) h.entries

theorem Agree.dispose (h : Agree requests s s') :
    Agree requests (dispose s) (dispose s') := by
  have hcancel : cancelRequests s'.requestsInFlight.entries =
      cancelRequests s.requestsInFlight.entries := by
    rw [← cancelRequests_entriesOf h.unclaimed', ← cancelRequests_entriesOf h.unclaimed]
    exact congrArg cancelRequests h.entries
  obtain ⟨requestsInFlight', rfl⟩ : ∃ r, s' = { s with requestsInFlight := r } := ⟨_, h.rest⟩
  rw [MessagingBridge.dispose, MessagingBridge.dispose]
  by_cases hdisposed : s.isDisposed = true
  · rwa [if_pos hdisposed, if_pos hdisposed]
  rw [if_neg hdisposed, if_neg hdisposed]
  rw [hcancel]
  have hempty : ∀ e ∈ (∅ : AList fun _ : κ => Info κ).entries, False := fun _ he =>
    not_mem_nil he
  exact ⟨rfl, rfl, fun e he => (hempty e he).elim, fun e he => (hempty e he).elim,
    h.scheduledForCancel, h.canceling⟩

theorem Agree.unseen (h : Agree requests s s') (hid : id ∉ requests)
    (dataBlock : Option (Message κ)) (now : Int) :
    Agree requests s (MessagingBridge.completeRequest id dataBlock false now s') := by
  obtain ⟨hentries, hrest, hunclaimed⟩ := completeRequest_unseen h.unclaimed' hid dataBlock now
  refine ⟨hentries.trans h.entries, ?_, h.unclaimed, hunclaimed, h.scheduledForCancel,
    h.canceling⟩
  refine hrest.trans ?_
  rw [h.rest]

theorem Agree.symm (h : Agree requests s s') : Agree requests s' s := by
  have hcancel : s'.scheduledForCancel = s.scheduledForCancel ∧ s'.canceling = s.canceling := by
    rw [h.rest]
    exact ⟨rfl, rfl⟩
  refine ⟨h.entries.symm, ?_, h.unclaimed', h.unclaimed, ?_, ?_⟩
  · rw [h.rest]
  · rw [hcancel.1]
    exact h.scheduledForCancel
  · rw [hcancel.2]
    exact h.canceling

/-! ## Runs with inserted messages -/

/-- What happens in both runs, or a message which is inserted into one. -/
inductive Event (κ : Type) where
  | own (l : Label κ)
  | inserted (data : Message κ) (now : Int)

/-- The run without the inserted messages. -/
def ownLabels : List (Event κ) → List (Label κ)
  | [] => []
  | .own l :: events => l :: ownLabels events
  | .inserted _ _ :: events => ownLabels events

/-- The run with them. -/
def Event.label : Event κ → Label κ
  | .own l => l
  | .inserted data now => .processIncomingMessage data now

/-- The conversations of the requests of the bridge. -/
def requestsOf (labels : List (Label κ)) : List κ :=
  labels.filterMap fun
    | .registerRequest id _ => some id
    | .scheduleForCancel id => some id
    | .closeRequest id _ => some id
    | _ => none

/-- Both runs side by side. -/
def pairStep (cfg : Config) (p : State κ × State κ) (e : Event κ) : Option (State κ × State κ) :=
  match e with
  | .own l => (step cfg p.1 l).bind fun s => (step cfg p.2 l).map fun s' => (s, s')
  | .inserted data now => some (p.1, processIncomingMessage cfg data now p.2)

/-- The limit of the table discards a block for a request in both runs or in
neither. -/
def LimitAgrees (cfg : Config) (requests : List κ) (p : State κ × State κ) : Event κ → Prop
  | .own (.processIncomingMessage data _) =>
    ∀ id ∈ data.conversationId, id ∈ requests → isAuthenticated cfg data = true →
      (isDiscarded id p.1 ↔ isDiscarded id p.2)
  | .own (.cancelRequest _) =>
    ∀ id ∈ p.1.canceling.head?, isDiscarded id p.1 ↔ isDiscarded id p.2
  | _ => True

instance (cfg : Config) (requests : List κ) (p : State κ × State κ) :
    ∀ e, Decidable (LimitAgrees cfg requests p e)
  | .own (.processIncomingMessage data _) => inferInstanceAs (Decidable
      (∀ id ∈ data.conversationId, id ∈ requests → isAuthenticated cfg data = true →
        (isDiscarded id p.1 ↔ isDiscarded id p.2)))
  | .own (.cancelRequest _) => inferInstanceAs (Decidable
      (∀ id ∈ p.1.canceling.head?, isDiscarded id p.1 ↔ isDiscarded id p.2))
  | .own (.registerRequest ..) | .own (.scheduleForCancel _) | .own .checkCancelRequests
  | .own (.onTimer _) | .own (.closeRequest ..) | .own .dispose | .own (.invoke _)
  | .inserted .. => isTrue trivial

/-- The step law of two runs. -/
theorem Agree.step {l : Label κ} (h : Agree requests s s')
    (hrequests : ∀ id ∈ requestsOf [l], id ∈ requests)
    (hlimit : LimitAgrees cfg requests (s, s') (.own l)) (hstep : step cfg s l = some t) :
    ∃ t', MessagingBridge.step cfg s' l = some t' ∧ Agree requests t t' := by
  cases l with
  | registerRequest id now =>
    cases hstep
    exact ⟨_, rfl, h.registerRequest (hrequests id mem_cons_self) now⟩
  | processIncomingMessage data now =>
    cases hstep
    refine ⟨_, rfl, ?_⟩
    rw [processIncomingMessage, processIncomingMessage]
    cases hid : data.conversationId with
    | none => exact h
    | some id =>
      dsimp only
      by_cases hauth : isAuthenticated cfg data = true
      · rw [if_pos hauth, if_pos hauth]
        by_cases hmem : id ∈ requests
        · exact h.completeRequest hmem (hlimit id hid hmem hauth) _ _ _
        · exact ((h.unseen hmem _ _).symm.unseen hmem _ _).symm
      · rwa [if_neg hauth, if_neg hauth]
  | scheduleForCancel id =>
    cases hstep
    refine ⟨_, rfl, h.entries, ?_, h.unclaimed, h.unclaimed', ?_, h.canceling⟩
    · rw [h.rest]
    · intro id' hid'
      obtain hid' | hid' := mem_append.mp hid'
      · exact h.scheduledForCancel id' hid'
      · exact hrequests id' (mem_singleton.mp hid' ▸ mem_cons_self)
  | checkCancelRequests =>
    obtain ⟨requestsInFlight', rfl⟩ : ∃ r, s' = { s with requestsInFlight := r } := ⟨_, h.rest⟩
    obtain ⟨hcanceling, rfl⟩ := Option.ite_some_none_eq_some.mp hstep
    exact ⟨_, if_pos hcanceling, h.entries, rfl, h.unclaimed, h.unclaimed',
      fun _ hid => (not_mem_nil hid).elim, h.scheduledForCancel⟩
  | cancelRequest now =>
    obtain ⟨requestsInFlight', rfl⟩ : ∃ r, s' = { s with requestsInFlight := r } := ⟨_, h.rest⟩
    simp only [MessagingBridge.step] at hstep ⊢
    cases hcanceling : s.canceling with
    | nil =>
      rw [hcanceling] at hstep
      cases hstep
    | cons id rest =>
      rw [hcanceling] at hstep
      cases hstep
      have hrest : ∀ id' ∈ id :: rest, id' ∈ requests := hcanceling ▸ h.canceling
      have htaken : Agree requests { s with canceling := rest }
          { s with requestsInFlight := requestsInFlight', canceling := rest } :=
        ⟨h.entries, rfl, h.unclaimed, h.unclaimed', h.scheduledForCancel,
          fun id' hid' => hrest id' (mem_cons_of_mem _ hid')⟩
      refine ⟨_, rfl, htaken.completeRequest (hrest id mem_cons_self) ?_ _ _ _⟩
      exact hlimit id (congrArg head? hcanceling)
  | onTimer clock =>
    cases hstep
    exact ⟨_, rfl, h.onTimer clock⟩
  | closeRequest id now =>
    cases hstep
    obtain ⟨hclosed, hblock⟩ := h.closeRequest (hrequests id mem_cons_self) now
    refine ⟨_, rfl, hclosed.entries, ?_, hclosed.unclaimed, hclosed.unclaimed',
      hclosed.scheduledForCancel, hclosed.canceling⟩
    rw [hblock, hclosed.rest, h.rest]
  | dispose =>
    cases hstep
    exact ⟨_, rfl, h.dispose⟩
  | invoke i =>
    obtain ⟨requestsInFlight', rfl⟩ : ∃ r, s' = { s with requestsInFlight := r } := ⟨_, h.rest⟩
    obtain ⟨completion, hcompletion, rfl⟩ := Option.map_eq_some_iff.mp hstep
    exact ⟨_, Option.map_eq_some_iff.mpr ⟨completion, hcompletion, rfl⟩, h.entries, rfl,
      h.unclaimed, h.unclaimed', h.scheduledForCancel, h.canceling⟩

/-- Every inserted message is for a conversation of no request. -/
def Foreign (requests : List κ) (events : List (Event κ)) : Prop :=
  ∀ e ∈ events, match e with
    | .own _ => True
    | .inserted data _ => ∀ id ∈ data.conversationId, id ∉ requests

/-- What became of the requests. -/
structure SameOutcomes (s s' : State κ) : Prop where
  isDisposed : s'.isDisposed = s.isDisposed
  registered : s'.registered = s.registered
  completing : s'.completing = s.completing
  invoked : s'.invoked = s.invoked
  succeeded : s'.succeeded = s.succeeded
  handedOut : s'.handedOut = s.handedOut

theorem Agree.sameOutcomes (h : Agree requests s s') : SameOutcomes s s' := by
  rw [h.rest]
  exact ⟨rfl, rfl, rfl, rfl, rfl, rfl⟩

theorem Agree.create : Agree requests State.create State.create :=
  ⟨rfl, rfl, fun _ h => (not_mem_nil h).elim, fun _ h => (not_mem_nil h).elim,
    fun _ h => (not_mem_nil h).elim, fun _ h => (not_mem_nil h).elim⟩

theorem Agree.inserted (h : Agree requests s s') {data : Message κ}
    (hforeign : ∀ id ∈ data.conversationId, id ∉ requests) (now : Int) :
    Agree requests s (processIncomingMessage cfg data now s') := by
  rw [processIncomingMessage]
  cases hid : data.conversationId with
  | none => exact h
  | some id =>
    dsimp only
    split
    · exact h.unseen (hforeign id hid) _ _
    · exact h

/-- The run law of two runs. -/
theorem Agree.run {events : List (Event κ)} (hforeign : Foreign requests events)
    (hrequests : ∀ id ∈ requestsOf (ownLabels events), id ∈ requests) :
    ∀ {s s' : State κ}, Agree requests s s' →
      Transition.Along (pairStep cfg) (LimitAgrees cfg requests) (s, s') events →
      Transition.run (MessagingBridge.step cfg) s (ownLabels events) = some t →
      ∃ t', Transition.run (MessagingBridge.step cfg) s' (events.map Event.label) = some t' ∧
        Agree requests t t' := by
  induction events with
  | nil =>
    intro s s' h _ hrun
    cases hrun
    exact ⟨_, rfl, h⟩
  | cons e events ih =>
    intro s s' h hlimit hrun
    have hforeign' : Foreign requests events := fun e' he' =>
      hforeign e' (mem_cons_of_mem _ he')
    cases e with
    | own l =>
      obtain ⟨m, hstep, hrun⟩ := Transition.run_cons_eq_some.mp hrun
      have hsplit : requestsOf (ownLabels (.own l :: events)) =
          requestsOf [l] ++ requestsOf (ownLabels events) := by
        exact filterMap_append (l := [l])
      rw [hsplit] at hrequests
      obtain ⟨m', hstep', hagree⟩ := h.step
        (fun id hid => hrequests id (mem_append_left _ hid)) hlimit.1 hstep
      have hpair : pairStep cfg (s, s') (.own l) = some (m, m') := by
        simp only [pairStep, hstep, hstep', Option.bind_some, Option.map_some]
      obtain ⟨t', hrun', hagree⟩ := ih hforeign'
        (fun id hid => hrequests id (mem_append_right _ hid)) hagree
        (hlimit.2 _ hpair) hrun
      exact ⟨t', Transition.run_cons_eq_some.mpr ⟨m', hstep', hrun'⟩, hagree⟩
    | inserted data now =>
      have hagree : Agree requests s (processIncomingMessage cfg data now s') :=
        h.inserted (hforeign _ mem_cons_self) now
      obtain ⟨t', hrun', hagree⟩ := ih hforeign' hrequests hagree (hlimit.2 _ rfl) hrun
      exact ⟨t', Transition.run_cons_eq_some.mpr ⟨_, rfl, hrun'⟩, hagree⟩

/-- The messages for other conversations change nothing for the requests of
a run, as long as the limit of the table does not discard a block for a
request which the run without them keeps. -/
theorem run_inserted (cfg : Config) (events : List (Event κ)) (s : State κ)
    (hforeign : Foreign (requestsOf (ownLabels events)) events)
    (hlimit : Transition.Along (pairStep cfg) (LimitAgrees cfg (requestsOf (ownLabels events)))
      (State.create, State.create) events)
    (hrun : Transition.run (step cfg) State.create (ownLabels events) = some s) :
    ∃ s', Transition.run (step cfg) State.create (events.map Event.label) = some s' ∧
      SameOutcomes s s' := by
  obtain ⟨s', hrun', hagree⟩ := Agree.run hforeign (fun _ hid => hid) Agree.create hlimit hrun
  exact ⟨s', hrun', hagree.sameOutcomes⟩

/-- A message for another conversation comes in before the response. -/
def disturbedRequest : List (Event Nat) :=
  [.own (.registerRequest 1 0), .inserted ⟨some 2, none⟩ 3,
    .own (.processIncomingMessage ⟨some 1, none⟩ 5), .own (.invoke 0),
    .own (.closeRequest 1 6)]

theorem run_inserted_disturbedRequest :
    ∃ s s', Transition.run (step ⟨false, "", 0⟩) State.create (ownLabels disturbedRequest) =
        some s ∧
      Transition.run (step ⟨false, "", 0⟩) State.create (disturbedRequest.map Event.label) =
        some s' ∧
      s.handedOut = [(1, ⟨some 1, none⟩)] ∧ SameOutcomes s s' := by
  have hforeign : Foreign (requestsOf (ownLabels disturbedRequest)) disturbedRequest := by
    intro e he
    simp only [disturbedRequest, List.mem_cons, List.not_mem_nil, or_false] at he
    obtain rfl | rfl | rfl | rfl | rfl := he <;> trivial
  have hlimit : Transition.Along (pairStep ⟨false, "", 0⟩)
      (LimitAgrees ⟨false, "", 0⟩ (requestsOf (ownLabels disturbedRequest)))
      (State.create, State.create) disturbedRequest := by
    decide
  obtain ⟨s', hrun', houtcomes⟩ := run_inserted ⟨false, "", 0⟩ disturbedRequest _ hforeign
    hlimit rfl
  exact ⟨_, s', rfl, hrun', rfl, houtcomes⟩

/-! ## A full table -/

/-- Messages for the conversations from 1 to `n`. -/
def strayMessages (n : Nat) : List (Event Nat) :=
  (List.range n).map fun i => .inserted ⟨some (i + 1), none⟩ 0

theorem strayMessages_succ (n : Nat) :
    strayMessages (n + 1) = strayMessages n ++ [.inserted ⟨some (n + 1), none⟩ 0] := by
  rw [strayMessages, range_succ, map_append]
  rfl

theorem ownLabels_strayMessages (n : Nat) (events : List (Event Nat)) :
    ownLabels (strayMessages n ++ events) = ownLabels events := by
  induction n generalizing events with
  | zero => rfl
  | succ n ih => rw [strayMessages_succ, append_assoc, ih]; rfl

/-- Each of them adds an entry up to the limit. -/
theorem run_strayMessages {n : Nat} (hn : n ≤ maxRequestsInFlight) :
    ∃ s, Transition.run (step ⟨false, "", 0⟩) State.create ((strayMessages n).map Event.label) =
        some s ∧
      s.isDisposed = false ∧ s.requestsInFlight.keys.length = n ∧
      ∀ id, n < id ∨ id = 0 → s.requestsInFlight.lookup id = none := by
  induction n with
  | zero => exact ⟨_, rfl, rfl, rfl, fun _ _ => rfl⟩
  | succ n ih =>
    obtain ⟨s, hrun, hdisposed, hlength, hnone⟩ := ih (Nat.le_of_succ_le hn)
    have hnew := hnone (n + 1) (.inl (Nat.lt_succ_self n))
    have hkept : ¬isDiscarded (n + 1) s := by
      intro hd
      have := hd.1
      omega
    refine ⟨completeRequest (n + 1) (some ⟨some (n + 1), none⟩) false 0 s, ?_, ?_⟩
    · rw [strayMessages_succ, map_append]
      exact Transition.run_append_eq_some.mpr ⟨s, hrun, rfl⟩
    rw [completeRequest, completeRequestInternal, if_neg (by simp [hdisposed]), if_neg hkept]
    refine ⟨hdisposed, ?_, fun id hid => ?_⟩
    · dsimp only
      rw [if_neg Bool.false_ne_true, AList.keys_insert, length_cons,
        erase_of_not_mem (AList.lookup_eq_none.mp hnew), hlength]
    · dsimp only
      rw [if_neg Bool.false_ne_true, AList.lookup_insert_ne (by omega)]
      exact hnone id (by omega)

/-- A response which comes in before its request is registered, with the
table full of stray messages. -/
def displacedRequest : List (Event Nat) :=
  strayMessages maxRequestsInFlight ++
    [.own (.processIncomingMessage ⟨some 0, none⟩ 0), .own (.registerRequest 0 0)]

theorem run_displacedRequest :
    Foreign (requestsOf (ownLabels displacedRequest)) displacedRequest ∧
      ∃ s s', Transition.run (step ⟨false, "", 0⟩) State.create (ownLabels displacedRequest) =
          some s ∧
        Transition.run (step ⟨false, "", 0⟩) State.create (displacedRequest.map Event.label) =
          some s' ∧
        ¬SameOutcomes s s' := by
  have hown : ownLabels displacedRequest = _ := ownLabels_strayMessages _ _
  rw [hown]
  constructor
  · intro e he
    obtain he | he := List.mem_append.mp he
    · obtain ⟨i, -, rfl⟩ := List.mem_map.mp he
      rintro id ⟨⟩ hid
      exact absurd (List.mem_singleton.mp hid) (Nat.succ_ne_zero i)
    · simp only [List.mem_cons, List.not_mem_nil, or_false] at he
      obtain rfl | rfl := he <;> trivial
  obtain ⟨s', hrun, hdisposed, hlength, hnone⟩ := run_strayMessages (Nat.le_refl _)
  have hdiscarded : isDiscarded 0 s' := ⟨Nat.le_of_eq hlength.symm, hnone 0 (.inr rfl)⟩
  refine ⟨_, (registerRequest 0 0 s').1, rfl, ?_, ?_⟩
  · rw [displacedRequest, List.map_append]
    refine Transition.run_append_eq_some.mpr ⟨s', hrun, ?_⟩
    refine Transition.run_cons_eq_some.mpr ⟨s', ?_, Transition.run_singleton _ _⟩
    have hmessage : completeRequest 0 (some ⟨some 0, none⟩) false 0 s' = s' := by
      rw [completeRequest, completeRequestInternal, if_neg (by simp [hdisposed]),
        if_pos hdiscarded]
    exact congrArg some hmessage
  · intro hsame
    have hregistered := hsame.registered
    rw [registerRequest, if_neg (by simp [hdisposed]), if_neg (by simp [hdiscarded.2])]
      at hregistered
    exact absurd hregistered (List.append_ne_nil_of_right_ne_nil _ (List.cons_ne_nil _ _))

end Baselib.Rest.MessagingBridge
