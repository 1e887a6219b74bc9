/-
Baselib.Rest.MessagingBridgeTheorems — what the table of the requests in
flight keeps: every callback which was accepted is in its entry, being
completed or invoked, and it is in one of these places once; a block is
handed out for the conversation it carries; an entry which no wait
registered is stamped by what created it.
-/
import Mathlib.Data.List.Induction
import Mathlib.Data.List.Perm.Basic
import Baselib.Lib.Transition
import Baselib.Rest.MessagingBridge

namespace Baselib.Rest.MessagingBridge

open Lib List

variable {κ : Type} [DecidableEq κ] {cfg : Config} {s s' : State κ} {id : κ}

/-! ## Callbacks -/

namespace State

/-- The entry of the conversation holds the callback. -/
def waits (id : κ) (i : Nat) (s : State κ) : Bool :=
  (s.requestsInFlight.lookup id).any fun info => info.callback = some i

/-- The completions of the callbacks which were taken out. -/
def taken (s : State κ) : List (Completion κ) := s.completing ++ s.invoked

end State

/-! ## What a section does -/

/-- The reading with which the label can create an entry that no wait has
registered. -/
def Label.stamp : Label κ → Option Int
  | .processIncomingMessage _ now | .cancelRequest now => some now
  | _ => none

/-- A section leaves the table alone, or registers, completes, prunes, closes
or disposes. -/
inductive Moves (cfg : Config) (s : State κ) : Label κ → State κ → Prop where
  | keeps {l : Label κ} {s' : State κ} : (∀ id now, l ≠ .closeRequest id now) →
      s'.requestsInFlight = s.requestsInFlight → s'.handedOut = s.handedOut →
      s'.isDisposed = s.isDisposed → s'.registered = s.registered → s'.taken.Perm s.taken →
      Moves cfg s l s'
  | registers (id : κ) (now : Int) : s.isDisposed = false →
      s.requestsInFlight.lookup id = none →
      Moves cfg s (.registerRequest id now) { s with
        requestsInFlight := s.requestsInFlight.insert id ⟨some s.registered.length, none, now, true⟩
        registered := s.registered ++ [id] }
  | completes {l : Label κ} {now : Int} (id : κ) (dataBlock : Option (Message κ))
      (aborted : Bool) (canceling : List κ) : l.stamp = some now →
      (∀ block, dataBlock = some block → l = .processIncomingMessage block now ∧
        block.conversationId = some id ∧ isAuthenticated cfg block = true) →
      Moves cfg s l (completeRequest id dataBlock aborted now { s with canceling := canceling })
  | prunes (clock : κ → Int) : Moves cfg s (.onTimer clock) (onTimer cfg clock s)
  | closes (id : κ) (now : Int) :
      Moves cfg s (.closeRequest id now) { (closeRequest id now s).1 with
        succeeded := s.succeeded.filter (· ≠ id)
        handedOut := s.handedOut ++
          ((closeRequest id now s).2.map fun block => (id, block)).toList }
  | disposes : s.isDisposed = false →
      Moves cfg s .dispose { s with
        requestsInFlight := ∅
        isDisposed := true
        completing := s.completing ++ cancelRequests s.requestsInFlight.entries }

theorem moves_of_step {l : Label κ} (hstep : step cfg s l = some s') : Moves cfg s l s' := by
  have hkeeps : ∀ {l : Label κ}, (∀ id now, l ≠ .closeRequest id now) → Moves cfg s l s :=
    fun hl => .keeps hl rfl rfl rfl rfl (.refl _)
  cases l with
  | registerRequest id now =>
    cases hstep
    unfold registerRequest
    split
    · exact hkeeps nofun
    · rename_i hopen
      split
      · exact .keeps nofun rfl rfl rfl rfl (.refl _)
      · rename_i hnone
        exact .registers id now (Bool.not_eq_true _ ▸ hopen) (Option.not_isSome_iff_eq_none.mp hnone)
  | processIncomingMessage data now =>
    cases hstep
    unfold processIncomingMessage
    split
    · exact hkeeps nofun
    · rename_i id hid
      split
      · rename_i hauthenticated
        refine .completes id (some data) false s.canceling rfl fun block hblock => ?_
        cases hblock
        exact ⟨rfl, hid, hauthenticated⟩
      · exact hkeeps nofun
  | scheduleForCancel id =>
    cases hstep
    exact .keeps nofun rfl rfl rfl rfl (.refl _)
  | checkCancelRequests =>
    obtain ⟨-, rfl⟩ := Option.ite_some_none_eq_some.mp hstep
    exact .keeps nofun rfl rfl rfl rfl (.refl _)
  | cancelRequest now =>
    simp only [step] at hstep
    split at hstep
    · cases hstep
    · rename_i id rest _
      cases hstep
      exact .completes id none true rest rfl nofun
  | onTimer clock =>
    cases hstep
    exact .prunes clock
  | closeRequest id now =>
    cases hstep
    exact .closes id now
  | dispose =>
    cases hstep
    unfold dispose
    split
    · exact hkeeps nofun
    · rename_i hopen
      exact .disposes (Bool.not_eq_true _ ▸ hopen)
  | invoke i =>
    obtain ⟨c, hc, rfl⟩ := Option.map_eq_some_iff.mp hstep
    refine .keeps nofun rfl rfl rfl rfl ?_
    obtain ⟨hi, rfl⟩ := List.getElem?_eq_some_iff.mp hc
    have hperm := getElem_cons_eraseIdx_perm hi
    rw [State.taken, State.taken, ← append_assoc]
    refine perm_append_comm.trans ?_
    rw [singleton_append, ← cons_append]
    exact hperm.append_right _

/-- A callback is in its own entry, or it is taken out, once. -/
structure Once (s : State κ) : Prop where
  owner : ∀ id i, s.waits id i = true → s.registered[i]? = some id
  completed : ∀ c ∈ s.taken, s.registered[c.callback]? = some c.conversationId
  once : ∀ i id, s.registered[i]? = some id →
    (s.waits id i).toNat + s.taken.countP (·.callback = i) = 1

theorem waits_eq_true {i : Nat} : s.waits id i = true ↔
    ∃ info, s.requestsInFlight.lookup id = some info ∧ info.callback = some i := by
  simp [State.waits, Option.any_eq_true]

omit [DecidableEq κ] in
theorem taken_append (calls : List (Completion κ)) (P : Completion κ → Bool) :
    ({ s with completing := s.completing ++ calls } : State κ).taken.countP P =
      s.taken.countP P + calls.countP P := by
  simp [State.taken, countP_append]
  omega

/-- What takes a callback out of its entry keeps it somewhere. -/
theorem Once.take (h : Once s) (requests : AList fun _ : κ => Info κ)
    (calls : List (Completion κ))
    (hwaits : ∀ id i, State.waits id i { s with requestsInFlight := requests } = true →
      s.waits id i = true)
    (hcalls : ∀ c ∈ calls, s.waits c.conversationId c.callback = true)
    (hcount : ∀ i id, s.registered[i]? = some id →
      (State.waits id i { s with requestsInFlight := requests }).toNat +
        calls.countP (·.callback = i) = (s.waits id i).toNat) :
    Once { s with requestsInFlight := requests, completing := s.completing ++ calls } where
  owner id i hw := h.owner id i (hwaits id i hw)
  completed c hc := by
    simp only [State.taken, mem_append, or_assoc] at hc
    obtain hc | hc | hc := hc
    · exact h.completed c (mem_append_left _ hc)
    · exact h.owner _ _ (hcalls c hc)
    · exact h.completed c (mem_append_right _ hc)
  once i id hi := by
    have honce := h.once i id hi
    have hone := hcount i id hi
    have htaken := taken_append (s := s) calls (·.callback = i)
    simp only [State.taken, State.waits] at honce hone htaken ⊢
    omega

/-- The state the counts read. -/
theorem Once.congr (h : Once s) (hrequests : s'.requestsInFlight = s.requestsInFlight)
    (hregistered : s'.registered = s.registered) (htaken : s'.taken.Perm s.taken) : Once s' where
  owner id i hw := by
    rw [hregistered]
    exact h.owner id i (by simpa [State.waits, hrequests] using hw)
  completed c hc := by
    rw [hregistered]
    exact h.completed c (htaken.mem_iff.mp hc)
  once i id hi := by
    rw [htaken.countP_eq, State.waits, hrequests]
    exact h.once i id (hregistered ▸ hi)

/-- The one entry that can hold a callback. -/
theorem countP_of_key {entries : List (Sigma fun _ : κ => Info κ)} (hnodup : entries.NodupKeys)
    {P : (Sigma fun _ : κ => Info κ) → Bool} (hkey : ∀ e ∈ entries, P e = true → e.1 = id) :
    entries.countP P = ((entries.dlookup id).any fun info => P ⟨id, info⟩).toNat := by
  induction entries with
  | nil => rfl
  | cons e entries ih =>
    obtain ⟨hnot, hnodup⟩ := nodupKeys_cons.mp hnodup
    have hrest := ih hnodup fun e' he' => hkey e' (mem_cons_of_mem _ he')
    obtain ⟨key, info⟩ := e
    obtain rfl | hid := eq_or_ne key id
    · have hzero : entries.dlookup key = none := dlookup_eq_none.mpr hnot
      rw [hzero] at hrest
      rw [dlookup_cons_eq, countP_cons, hrest]
      cases hP : P ⟨key, info⟩ <;> simp [hP]
    · have hP : P ⟨key, info⟩ = false := Bool.eq_false_iff.mpr fun hP =>
        hid (hkey _ mem_cons_self hP)
      have hother : dlookup id (⟨key, info⟩ :: entries) = entries.dlookup id :=
        dlookup_cons_ne entries _ (Ne.symm hid)
      rw [hother, countP_cons_of_neg (by simp [hP]), hrest]

omit [DecidableEq κ] in
theorem mem_cancelRequests {requests : List (Sigma fun _ : κ => Info κ)} {c : Completion κ}
    (hc : c ∈ cancelRequests requests) :
    ∃ e ∈ requests, e.1 = c.conversationId ∧ e.2.callback = some c.callback ∧ c.aborted = true := by
  obtain ⟨e, he, hmap⟩ := mem_filterMap.mp hc
  obtain ⟨callback, hcallback, rfl⟩ := Option.map_eq_some_iff.mp hmap
  exact ⟨e, he, rfl, hcallback, rfl⟩

omit [DecidableEq κ] in
theorem countP_cancelRequests (requests : List (Sigma fun _ : κ => Info κ)) (i : Nat) :
    (cancelRequests requests).countP (·.callback = i) =
      requests.countP fun e => e.2.callback = some i := by
  induction requests with
  | nil => rfl
  | cons e requests ih =>
    unfold cancelRequests at ih ⊢
    rw [filterMap_cons, countP_cons, ← ih]
    cases hcallback : e.2.callback with
    | none => simp
    | some callback => simp [countP_cons]

/-- What removes entries from the table completes their callbacks. -/
theorem Once.remove (h : Once s) (P : (Sigma fun _ : κ => Info κ) → Bool)
    (requests : AList fun _ : κ => Info κ)
    (hentries : requests.entries = s.requestsInFlight.entries.filter fun e => !P e) :
    Once { s with
      requestsInFlight := requests
      completing := s.completing ++ cancelRequests (s.requestsInFlight.entries.filter P) } := by
  have hlookup : ∀ id info, requests.lookup id = some info ↔
      s.requestsInFlight.lookup id = some info ∧ P ⟨id, info⟩ = false := by
    intro id info
    rw [← Option.mem_def, AList.mem_lookup_iff, hentries, mem_filter, ← AList.mem_lookup_iff]
    simp
  refine h.take requests _ (fun id i hw => ?_) (fun c hc => ?_) fun i id hi => ?_
  · obtain ⟨info, hinfo, hcallback⟩ := waits_eq_true.mp hw
    exact waits_eq_true.mpr ⟨info, ((hlookup id info).mp hinfo).1, hcallback⟩
  · obtain ⟨e, he, hid, hcallback, -⟩ := mem_cancelRequests hc
    refine waits_eq_true.mpr ⟨e.2, ?_, hcallback⟩
    rw [← hid]
    exact AList.mem_lookup_iff.mpr (mem_filter.mp he).1
  · have hkey : ∀ e ∈ s.requestsInFlight.entries,
        (decide (e.2.callback = some i) && P e) = true → e.1 = id := by
      intro e he hP
      simp only [Bool.and_eq_true, decide_eq_true_eq] at hP
      have howner := h.owner e.1 i (waits_eq_true.mpr ⟨e.2, AList.mem_lookup_iff.mpr he, hP.1⟩)
      exact Option.some.inj (howner.symm.trans hi)
    rw [countP_cancelRequests, countP_filter, countP_of_key s.requestsInFlight.nodupKeys hkey]
    change _ + ((s.requestsInFlight.lookup id).any _).toNat = _
    unfold State.waits
    cases hold : s.requestsInFlight.lookup id with
    | none =>
      have hnone : requests.lookup id = none := by
        by_contra hne
        obtain ⟨info, hinfo⟩ := Option.ne_none_iff_exists'.mp hne
        cases hold.symm.trans ((hlookup id info).mp hinfo).1
      simp [hnone]
    | some info =>
      cases hP : P ⟨id, info⟩ with
      | true =>
        have hnone : requests.lookup id = none := by
          by_contra hne
          obtain ⟨info', hinfo'⟩ := Option.ne_none_iff_exists'.mp hne
          obtain ⟨hsome, hfalse⟩ := (hlookup id info').mp hinfo'
          obtain rfl := Option.some.inj (hold.symm.trans hsome)
          cases hP.symm.trans hfalse
        simp [hnone, hP]
      | false => simp [(hlookup id info).mpr ⟨hold, hP⟩, hP]

/-! ## The members -/

/-- An entry is stamped once, when it is created. -/
theorem emplaced_of_lookup {info : Info κ} (hinfo : s.requestsInFlight.lookup id = some info)
    (now : Int) : emplaced id now s = info := by
  rw [emplaced, hinfo]
  rfl

theorem emplaced_of_none (hnone : s.requestsInFlight.lookup id = none) (now : Int) :
    emplaced id now s = { Info.empty with utcRegisteredAt := now } := by
  rw [emplaced, hnone]
  rfl

theorem emplaced_callback (id : κ) (now : Int) (i : Nat) (s : State κ) :
    s.waits id i = decide ((emplaced id now s).callback = some i) := by
  unfold State.waits
  cases hinfo : s.requestsInFlight.lookup id with
  | none => simp [emplaced_of_none hinfo, Info.empty]
  | some info => simp [emplaced_of_lookup hinfo]

/-- The table after a completion. -/
def completedRequests (discardInfo : Bool) (id : κ) (dataBlock : Option (Message κ)) (now : Int)
    (s : State κ) : AList fun _ : κ => Info κ :=
  if discardInfo then s.requestsInFlight.erase id
  else s.requestsInFlight.insert id { emplaced id now s with response := dataBlock, callback := none }

theorem lookup_completedRequests_ne {id' : κ} (hne : id' ≠ id) (discardInfo : Bool)
    (dataBlock : Option (Message κ)) (now : Int) :
    (completedRequests discardInfo id dataBlock now s).lookup id' =
      s.requestsInFlight.lookup id' := by
  cases discardInfo with
  | true => exact AList.lookup_erase_ne hne
  | false => exact AList.lookup_insert_ne hne

theorem lookup_completedRequests (discardInfo : Bool) (id : κ) (dataBlock : Option (Message κ))
    (now : Int) (s : State κ) :
    (completedRequests discardInfo id dataBlock now s).lookup id =
      if discardInfo then none
      else some { emplaced id now s with response := dataBlock, callback := none } := by
  cases discardInfo with
  | true => exact AList.lookup_erase id _
  | false => exact AList.lookup_insert _

/-- The callback which a completion takes. -/
def completions (id : κ) (aborted : Bool) (now : Int) (s : State κ) : List (Completion κ) :=
  ((emplaced id now s).callback.map fun callback => ⟨id, callback, aborted⟩).toList

theorem mem_completions {aborted : Bool} {now : Int} {c : Completion κ} :
    c ∈ completions id aborted now s ↔
      c.conversationId = id ∧ c.aborted = aborted ∧ s.waits id c.callback = true := by
  rw [completions, Option.mem_toList, Option.map_eq_some_iff, emplaced_callback id now,
    decide_eq_true_eq]
  constructor
  · rintro ⟨callback, hcallback, rfl⟩
    exact ⟨rfl, rfl, hcallback⟩
  · rintro ⟨rfl, rfl, hcallback⟩
    exact ⟨c.callback, hcallback, rfl⟩

theorem countP_completions (id : κ) (aborted : Bool) (now : Int) (i : Nat) (s : State κ) :
    (completions id aborted now s).countP (·.callback = i) = (s.waits id i).toNat := by
  rw [emplaced_callback id now, completions]
  cases (emplaced id now s).callback with
  | none => simp
  | some callback => by_cases hi : callback = i <;> simp [hi]

/-- An entry which is completed gives its callback away. -/
theorem Once.completeRequestInternal (h : Once s) (discardInfo : Bool) (id : κ)
    (dataBlock : Option (Message κ)) (aborted : Bool) (now : Int) :
    Once (completeRequestInternal discardInfo id dataBlock aborted now s).1 := by
  unfold MessagingBridge.completeRequestInternal
  split
  · exact h
  · split
    · exact h
    · have hsame : ∀ i, State.waits id i { s with
          requestsInFlight := completedRequests discardInfo id dataBlock now s } = false := by
        intro i
        rw [State.waits, lookup_completedRequests]
        cases discardInfo <;> simp
      have hother : ∀ {id'}, id' ≠ id → ∀ i, State.waits id' i { s with
          requestsInFlight := completedRequests discardInfo id dataBlock now s } =
            s.waits id' i := by
        intro id' hne i
        rw [State.waits, lookup_completedRequests_ne hne, State.waits]
      refine (h.take (completedRequests discardInfo id dataBlock now s)
        (completions id aborted now s) (fun id' i hw => ?_) (fun c hc => ?_)
        fun i id' hi => ?_).congr rfl rfl (List.Perm.refl _)
      · by_cases hid : id' = id
        · simp [hid, hsame] at hw
        · exact (hother hid i).symm.trans hw
      · obtain ⟨hid, -, hwaits⟩ := mem_completions.mp hc
        rwa [hid]
      · by_cases hid : id' = id
        · rw [hid, hsame, countP_completions]
          simp
        · have hzero : (completions id aborted now s).countP (·.callback = i) = 0 := by
            rw [countP_completions, Bool.toNat_eq_zero, Bool.eq_false_iff]
            exact fun hw => hid (Option.some.inj (hi.symm.trans (h.owner id i hw)))
          rw [hother hid, hzero, Nat.add_zero]

theorem Once.registerRequest (h : Once s) (id : κ) (now : Int)
    (hnone : s.requestsInFlight.lookup id = none) : Once { s with
      requestsInFlight := s.requestsInFlight.insert id ⟨some s.registered.length, none, now, true⟩
      registered := s.registered ++ [id] } := by
  have hlength : ∀ {i : Nat} {id' : κ}, s.registered[i]? = some id' → i < s.registered.length := by
    intro i id' hi
    exact (List.getElem?_eq_some_iff.mp hi).1
  have hold : ∀ {i : Nat} {id' : κ}, s.registered[i]? = some id' →
      (s.registered ++ [id])[i]? = some id' := by
    intro i id' hi
    rwa [getElem?_append_left (hlength hi)]
  have hwaits : ∀ id' i, State.waits id' i { s with
      requestsInFlight :=
        s.requestsInFlight.insert id ⟨some s.registered.length, none, now, true⟩ } =
      if id' = id then decide (s.registered.length = i) else s.waits id' i := by
    intro id' i
    unfold State.waits
    obtain rfl | hid := eq_or_ne id' id
    · simp [AList.lookup_insert]
    · simp [AList.lookup_insert_ne hid, hid]
  have hempty : ∀ i, s.waits id i = false := fun i => by simp [State.waits, hnone]
  refine ⟨fun id' i hw => ?_, fun c hc => hold (h.completed c hc), fun i id' hi => ?_⟩
  · have hw := (hwaits id' i).symm.trans hw
    by_cases hid : id' = id
    · rw [if_pos hid, decide_eq_true_eq] at hw
      rw [← hw, hid]
      exact getElem?_concat_length
    · rw [if_neg hid] at hw
      exact hold (h.owner id' i hw)
  · suffices hsum : (if id' = id then decide (s.registered.length = i)
        else s.waits id' i).toNat + s.taken.countP (·.callback = i) = 1 by
      rwa [← hwaits] at hsum
    by_cases hlast : i = s.registered.length
    · have hid : id' = id := by
        rw [hlast, getElem?_concat_length] at hi
        exact (Option.some.inj hi).symm
      have hzero : s.taken.countP (·.callback = i) = 0 := by
        refine countP_eq_zero.mpr fun c hc hci => ?_
        rw [decide_eq_true_eq] at hci
        have hlt := hlength (h.completed c hc)
        omega
      rw [if_pos hid, decide_eq_true hlast.symm, hzero]
      rfl
    · have hi : s.registered[i]? = some id' := by
        rw [getElem?_append] at hi
        split at hi
        · exact hi
        · rw [getElem?_singleton] at hi
          split at hi
          · omega
          · cases hi
      have honce := h.once i id' hi
      by_cases hid : id' = id
      · rw [if_pos hid, decide_eq_false (Ne.symm hlast)]
        rwa [hid, hempty] at honce
      · rwa [if_neg hid]

theorem step_once {l : Label κ} (h : Once s) (hstep : step cfg s l = some s') : Once s' := by
  cases moves_of_step hstep with
  | keeps _ hrequests _ _ hregistered htaken => exact h.congr hrequests hregistered htaken
  | registers id now _ hnone => exact h.registerRequest id now hnone
  | completes id dataBlock aborted canceling =>
    have htimer : Once { s with canceling := canceling } := h.congr rfl rfl (.refl _)
    exact htimer.completeRequestInternal false id dataBlock aborted _
  | prunes clock => exact h.remove (isExpired cfg clock) _ rfl
  | closes id now => exact (h.completeRequestInternal true id none true now).congr rfl rfl (.refl _)
  | disposes =>
    have hall := h.remove (fun _ => true) ∅ (by simp)
    rw [filter_true] at hall
    exact hall.congr rfl rfl (.refl _)

/-! ## Responses -/

section

variable {R : κ → Message κ → Prop}

/-- What is known of a block which is completed is known of the blocks in
the table and of those handed out. -/
structure Blocks (R : κ → Message κ → Prop) (s : State κ) : Prop where
  response : ∀ id info block, s.requestsInFlight.lookup id = some info →
    info.response = some block → R id block
  handedOut : ∀ id block, (id, block) ∈ s.handedOut → R id block

theorem Blocks.mono {R' : κ → Message κ → Prop} (h : Blocks R s)
    (hR : ∀ id block, R id block → R' id block) : Blocks R' s where
  response id info block hinfo hblock := hR id block (h.response id info block hinfo hblock)
  handedOut id block hblock := hR id block (h.handedOut id block hblock)

theorem Blocks.congr (h : Blocks R s) (hrequests : s'.requestsInFlight = s.requestsInFlight)
    (hhanded : s'.handedOut = s.handedOut) : Blocks R s' where
  response id info block hinfo := h.response id info block (hrequests ▸ hinfo)
  handedOut id block hblock := h.handedOut id block (hhanded ▸ hblock)

theorem Blocks.emplaced (h : Blocks R s) {now : Int} {block : Message κ}
    (hblock : (emplaced id now s).response = some block) : R id block := by
  cases hinfo : s.requestsInFlight.lookup id with
  | none =>
    rw [emplaced_of_none hinfo] at hblock
    cases hblock
  | some info =>
    rw [emplaced_of_lookup hinfo] at hblock
    exact h.response id info block hinfo hblock

theorem Blocks.completeRequestInternal (h : Blocks R s) (id : κ) (dataBlock : Option (Message κ))
    (hdata : ∀ block, dataBlock = some block → R id block) (discardInfo aborted : Bool)
    (now : Int) :
    Blocks R (completeRequestInternal discardInfo id dataBlock aborted now s).1 ∧
      ∀ block, (completeRequestInternal discardInfo id dataBlock aborted now s).2 = some block →
        R id block := by
  unfold MessagingBridge.completeRequestInternal
  split
  · exact ⟨h, by simp⟩
  · split
    · exact ⟨h, by simp⟩
    · refine ⟨⟨fun id' info block hinfo hblock => ?_, h.handedOut⟩, fun block => h.emplaced⟩
      have hinfo : (completedRequests discardInfo id dataBlock now s).lookup id' = some info := hinfo
      obtain rfl | hid := eq_or_ne id' id
      · rw [lookup_completedRequests] at hinfo
        split at hinfo
        · cases hinfo
        · cases hinfo
          exact hdata block hblock
      · rw [lookup_completedRequests_ne hid] at hinfo
        exact h.response id' info block hinfo hblock

theorem step_blocks {l : Label κ} (h : Blocks R s)
    (hreceived : ∀ data now id, l = .processIncomingMessage data now →
      data.conversationId = some id → isAuthenticated cfg data = true → R id data)
    (hstep : step cfg s l = some s') : Blocks R s' := by
  cases moves_of_step hstep with
  | keeps _ hrequests hhanded => exact h.congr hrequests hhanded
  | registers id now =>
    refine ⟨fun id' info block hinfo hblock => ?_, h.handedOut⟩
    obtain rfl | hid := eq_or_ne id' id
    · rw [AList.lookup_insert] at hinfo
      obtain rfl := Option.some.inj hinfo
      cases hblock
    · rw [AList.lookup_insert_ne hid] at hinfo
      exact h.response id' info block hinfo hblock
  | completes id dataBlock aborted canceling _ hdata =>
    have htimer : Blocks R { s with canceling := canceling } := h.congr rfl rfl
    refine (htimer.completeRequestInternal id dataBlock (fun block hblock => ?_) false aborted _).1
    obtain ⟨rfl, hid, hauthenticated⟩ := hdata block hblock
    exact hreceived block _ id rfl hid hauthenticated
  | prunes clock =>
    refine ⟨fun id info block hinfo hblock => ?_, h.handedOut⟩
    have hmem := (mem_filter.mp (AList.mem_lookup_iff.mp hinfo)).1
    exact h.response id info block (AList.mem_lookup_iff.mpr hmem) hblock
  | closes id now =>
    obtain ⟨hclosed, hresult⟩ := h.completeRequestInternal id none nofun true true now
    refine ⟨hclosed.response, fun id' block hblock => ?_⟩
    obtain hold | hnew := mem_append.mp hblock
    · exact h.handedOut id' block hold
    · obtain ⟨block', hblock', heq⟩ := Option.map_eq_some_iff.mp (Option.mem_toList.mp hnew)
      obtain ⟨rfl, rfl⟩ := Prod.mk.inj heq
      exact hresult block' hblock'
  | disposes => exact ⟨fun id info block hinfo => by simp at hinfo, h.handedOut⟩

end

/-! ## Entries -/

theorem completeRequestInternal_entry {discardInfo aborted : Bool} {dataBlock : Option (Message κ)}
    {now : Int} {id' : κ} {info : Info κ} (hempty : s.isDisposed = true → s.requestsInFlight = ∅)
    (hinfo : (completeRequestInternal discardInfo id dataBlock aborted now
      s).1.requestsInFlight.lookup id' = some info) :
    (∃ old, s.requestsInFlight.lookup id' = some old ∧ old.isRegistered = info.isRegistered ∧
        old.utcRegisteredAt = info.utcRegisteredAt ∧ (discardInfo = true → id' ≠ id)) ∨
      (discardInfo = false ∧ info.isRegistered = false ∧ info.utcRegisteredAt = now) := by
  unfold completeRequestInternal at hinfo
  split at hinfo
  · rename_i hdisposed
    simp [hempty hdisposed, AList.lookup_empty] at hinfo
  · split at hinfo
    · rename_i hdiscarded
      refine .inl ⟨info, hinfo, rfl, rfl, fun _ hid => ?_⟩
      rw [hid, hdiscarded.2] at hinfo
      cases hinfo
    · have hinfo : (completedRequests discardInfo id dataBlock now s).lookup id' = some info := hinfo
      obtain rfl | hid := eq_or_ne id' id
      · rw [lookup_completedRequests] at hinfo
        split at hinfo
        · cases hinfo
        · rename_i hkept
          cases hinfo
          cases hold : s.requestsInFlight.lookup id' with
          | none =>
            rw [emplaced_of_none hold]
            exact .inr ⟨Bool.eq_false_iff.mpr hkept, rfl, rfl⟩
          | some old =>
            rw [emplaced_of_lookup hold]
            exact .inl ⟨old, rfl, rfl, rfl, fun hdiscard => absurd hdiscard hkept⟩
      · rw [lookup_completedRequests_ne hid] at hinfo
        exact .inl ⟨info, hinfo, rfl, rfl, fun _ => hid⟩

/-- Where an entry comes from. -/
theorem step_entry {l : Label κ} {info : Info κ}
    (hempty : s.isDisposed = true → s.requestsInFlight = ∅) (hstep : step cfg s l = some s')
    (hinfo : s'.requestsInFlight.lookup id = some info) :
    (∃ old, s.requestsInFlight.lookup id = some old ∧ old.isRegistered = info.isRegistered ∧
        old.utcRegisteredAt = info.utcRegisteredAt ∧ ∀ now, l ≠ .closeRequest id now) ∨
      (info.isRegistered = true ∧ ∃ now, l = .registerRequest id now) ∨
      (info.isRegistered = false ∧ l.stamp = some info.utcRegisteredAt) := by
  cases moves_of_step hstep with
  | keeps hl hrequests => exact .inl ⟨info, hrequests ▸ hinfo, rfl, rfl, hl id⟩
  | registers id' now =>
    obtain rfl | hid := eq_or_ne id id'
    · rw [AList.lookup_insert] at hinfo
      cases hinfo
      exact .inr (.inl ⟨rfl, now, rfl⟩)
    · rw [AList.lookup_insert_ne hid] at hinfo
      exact .inl ⟨info, hinfo, rfl, rfl, nofun⟩
  | completes id' dataBlock aborted canceling hstamp =>
    obtain ⟨old, hold, hregistered, htime, -⟩ | ⟨-, hregistered, rfl⟩ :=
      @completeRequestInternal_entry _ _ { s with canceling := canceling } _ _ _ _ _ _ _ hempty hinfo
    · refine .inl ⟨old, hold, hregistered, htime, ?_⟩
      rintro now rfl
      cases hstamp
    · exact .inr (.inr ⟨hregistered, hstamp⟩)
  | prunes clock =>
    have hmem := (mem_filter.mp (AList.mem_lookup_iff.mp hinfo)).1
    exact .inl ⟨info, AList.mem_lookup_iff.mpr hmem, rfl, rfl, nofun⟩
  | closes id' now =>
    obtain ⟨old, hold, hregistered, htime, hother⟩ | ⟨hkept, -⟩ :=
      completeRequestInternal_entry hempty hinfo
    · refine .inl ⟨old, hold, hregistered, htime, fun now' heq => ?_⟩
      injection heq with hid
      exact hother rfl hid.symm
    · cases hkept
  | disposes => simp at hinfo

theorem step_disposed {l : Label κ} (hempty : s.isDisposed = true → s.requestsInFlight = ∅)
    (hstep : step cfg s l = some s') : s'.isDisposed = true → s'.requestsInFlight = ∅ := by
  have hcomplete : ∀ (s : State κ) discardInfo id dataBlock aborted now,
      (s.isDisposed = true → s.requestsInFlight = ∅) →
      (completeRequestInternal discardInfo id dataBlock aborted now s).1.isDisposed = true →
      (completeRequestInternal discardInfo id dataBlock aborted now s).1.requestsInFlight = ∅ := by
    intro s discardInfo id dataBlock aborted now hempty hdisposed
    unfold completeRequestInternal at hdisposed ⊢
    split
    · exact hempty ‹_›
    · rename_i hnot
      rw [if_neg hnot] at hdisposed
      split at hdisposed <;> exact absurd hdisposed hnot
  intro hdisposed
  cases moves_of_step hstep with
  | keeps _ hrequests _ hsame => exact hrequests.trans (hempty (hsame ▸ hdisposed))
  | registers _ _ hopen => cases hopen.symm.trans hdisposed
  | completes id dataBlock aborted canceling =>
    exact hcomplete { s with canceling := canceling } false id dataBlock aborted _ hempty hdisposed
  | prunes clock =>
    refine AList.ext ?_
    change s.requestsInFlight.entries.filter _ = []
    rw [hempty hdisposed]
    rfl
  | closes id now => exact hcomplete s true id none true now hempty hdisposed
  | disposes => rfl

/-! ## Runs -/

/-- Every conversation a wait has registered for was closed afterwards. -/
def Closed (labels : List (Label κ)) : Prop :=
  ∀ before id now after, labels = before ++ .registerRequest id now :: after →
    ∃ now', .closeRequest id now' ∈ after

/-- The clock has passed the time-out since the last message and the last
cancel. -/
def Settled (clock : κ → Int) (labels : List (Label κ)) : Prop :=
  ∀ l ∈ labels, ∀ now, l.stamp = some now → ∀ id, now + unregisteredTimeout < clock id

/-- The entries go back to the labels of the run. -/
structure Accounted (labels : List (Label κ)) (s : State κ) : Prop where
  disposed : s.isDisposed = true → s.requestsInFlight = ∅
  registered : ∀ id info, s.requestsInFlight.lookup id = some info → info.isRegistered = true →
    ∃ before now after, labels = before ++ .registerRequest id now :: after ∧
      ∀ now', .closeRequest id now' ∉ after
  stamped : ∀ id info, s.requestsInFlight.lookup id = some info → info.isRegistered = false →
    ∃ l ∈ labels, l.stamp = some info.utcRegisteredAt

theorem Accounted.step {labels : List (Label κ)} {l : Label κ} (h : Accounted labels s)
    (hstep : step cfg s l = some s') : Accounted (labels ++ [l]) s' where
  disposed := step_disposed h.disposed hstep
  registered id info hinfo hregistered := by
    obtain ⟨old, hold, hsame, -, hopen⟩ | ⟨-, now, rfl⟩ | ⟨hnot, -⟩ :=
      step_entry h.disposed hstep hinfo
    · obtain ⟨before, now, after, rfl, hafter⟩ := h.registered id old hold (hsame.trans hregistered)
      refine ⟨before, now, after ++ [l], by simp, fun now' hmem => ?_⟩
      obtain hmem | hmem := mem_append.mp hmem
      · exact hafter now' hmem
      · exact hopen now' (mem_singleton.mp hmem).symm
    · exact ⟨labels, now, [], rfl, by simp⟩
    · cases hnot.symm.trans hregistered
  stamped id info hinfo hnot := by
    obtain ⟨old, hold, hsame, htime, -⟩ | ⟨hregistered, -⟩ | ⟨-, hstamp⟩ :=
      step_entry h.disposed hstep hinfo
    · obtain ⟨l', hl', hstamp⟩ := h.stamped id old hold (hsame.trans hnot)
      exact ⟨l', mem_append_left _ hl', htime ▸ hstamp⟩
    · cases hregistered.symm.trans hnot
    · exact ⟨l, by simp, hstamp⟩

/-- The blocks of a run are messages of their conversation which were
received and passed the identity check. -/
def Received (cfg : Config) (labels : List (Label κ)) (id : κ) (block : Message κ) : Prop :=
  block.conversationId = some id ∧ isAuthenticated cfg block = true ∧
    ∃ now, .processIncomingMessage block now ∈ labels

theorem run_once {labels : List (Label κ)}
    (hrun : Transition.run (step cfg) State.create labels = some s) : Once s := by
  refine Transition.run_invariant (fun _ _ _ h _ => step_once h) ?_ Transition.along_true hrun
  exact
    { owner := by simp [State.waits, State.create]
      completed := by simp [State.taken, State.create]
      once := by simp [State.create] }

theorem run_accounted (labels : List (Label κ)) :
    ∀ {s}, Transition.run (step cfg) State.create labels = some s →
      Accounted labels s ∧ Blocks (Received cfg labels) s := by
  induction labels using reverseRecOn with
  | nil =>
    intro s hrun
    cases hrun
    exact ⟨⟨by simp [State.create], by simp [State.create], by simp [State.create]⟩,
      ⟨by simp [State.create], by simp [State.create]⟩⟩
  | append_singleton labels l ih =>
    intro s hrun
    obtain ⟨m, hm, hstep⟩ := Transition.run_append_eq_some.mp hrun
    rw [Transition.run_singleton] at hstep
    obtain ⟨haccounted, hblocks⟩ := ih hm
    refine ⟨haccounted.step hstep, ?_⟩
    have hmono : Blocks (Received cfg (labels ++ [l])) m := by
      refine hblocks.mono fun id block hreceived => ?_
      obtain ⟨hid, hauthenticated, now, hmem⟩ := hreceived
      exact ⟨hid, hauthenticated, now, mem_append_left _ hmem⟩
    refine step_blocks hmono (fun data now id hl hid hauthenticated => ?_) hstep
    exact ⟨hid, hauthenticated, now, by simp [hl]⟩

/-- What the next prune leaves when every conversation has been closed and
the clock has passed the time-out. -/
theorem Accounted.onTimer {labels : List (Label κ)} (h : Accounted labels s) {clock : κ → Int}
    (hclosed : Closed labels) (hsettled : Settled clock labels) :
    (onTimer cfg clock s).requestsInFlight = ∅ := by
  refine AList.ext (filter_eq_nil_iff.mpr fun e he => ?_)
  have hinfo : s.requestsInFlight.lookup e.1 = some e.2 := AList.mem_lookup_iff.mpr he
  have hnot : e.2.isRegistered = false := Bool.eq_false_iff.mpr fun hregistered => by
    obtain ⟨before, now, after, hlabels, hafter⟩ := h.registered e.1 e.2 hinfo hregistered
    obtain ⟨now', hmem⟩ := hclosed before e.1 now after hlabels
    exact hafter now' hmem
  obtain ⟨l, hl, hstamp⟩ := h.stamped e.1 e.2 hinfo hnot
  have hpassed := hsettled l hl _ hstamp e.1
  simp only [isExpired, hnot, Bool.false_eq_true, if_false, Bool.not_eq_true', decide_eq_false_iff_not,
    not_not]
  omega

/-- The table of the requests in flight over a run: a callback which was
accepted is in its entry, being completed or invoked, and once; what is
handed out for a conversation is a message of it which passed the identity
check; nothing stays in the table once every conversation was closed and the
messages and cancels have stopped for the time-out. -/
theorem run_requestsInFlight (cfg : Config) (labels : List (Label κ)) (s : State κ)
    (hrun : Transition.run (step cfg) State.create labels = some s) :
    (∀ i id, s.registered[i]? = some id →
      (s.waits id i).toNat + s.completing.countP (·.callback = i) +
        s.invoked.countP (·.callback = i) = 1) ∧
    (∀ id block, (id, block) ∈ s.handedOut → Received cfg labels id block) ∧
    ∀ clock, Closed labels → Settled clock labels → (onTimer cfg clock s).requestsInFlight = ∅ := by
  obtain ⟨haccounted, hblocks⟩ := run_accounted labels hrun
  refine ⟨fun i id hi => ?_, hblocks.handedOut, fun clock => haccounted.onTimer⟩
  have honce := (run_once hrun).once i id hi
  rw [State.taken, List.countP_append] at honce
  omega

/-- A request which is answered and closed. -/
def answeredRequest : List (Label Nat) :=
  [.registerRequest 1 0, .processIncomingMessage ⟨some 1, none⟩ 5, .invoke 0, .closeRequest 1 6]

theorem run_requestsInFlight_answeredRequest :
    ∃ s, Transition.run (step ⟨false, "", 0⟩) State.create answeredRequest = some s ∧
      s.invoked = [⟨1, 0, false⟩] ∧ (1, ⟨some 1, none⟩) ∈ s.handedOut ∧
      Received ⟨false, "", 0⟩ answeredRequest 1 ⟨some 1, none⟩ ∧
      (onTimer ⟨false, "", 0⟩ (fun _ => 60000000) s).requestsInFlight = ∅ := by
  obtain ⟨-, hreceived, hempty⟩ := run_requestsInFlight ⟨false, "", 0⟩ answeredRequest _ rfl
  refine ⟨_, rfl, rfl, List.mem_singleton.mpr rfl, hreceived _ _ (List.mem_singleton.mpr rfl),
    hempty _ ?_ ?_⟩
  · intro before id now after hlabels
    rcases before with - | ⟨l, before⟩
    · obtain ⟨hl, rfl⟩ := List.cons.inj hlabels
      injection hl with hid
      exact ⟨6, by simp [← hid]⟩
    · exfalso
      have hmem : Label.registerRequest id now ∈ answeredRequest.tail := by
        rw [hlabels]
        simp
      simp [answeredRequest] at hmem
  · intro l hl now hstamp id
    simp only [answeredRequest, List.mem_cons, List.not_mem_nil, or_false] at hl
    obtain rfl | rfl | rfl | rfl := hl <;> simp [Label.stamp, unregisteredTimeout] at hstamp ⊢
    omega

end Baselib.Rest.MessagingBridge
