/-
Baselib.Messaging.ProxySmallBlocksTheorems — the counter of the small blocks
is the number of references that hold one, and of the calls on their way.

A reference has one owner: the pool, the request that is going on, or a
message. So a step rewrites the reference of its owner, and whatever is
known of the others stays. A block is held exactly for the messages that
are in use; the counter counts in addition the request, from the increment
to the hydration or to the scope guard, and the messages that have given
back their block and not yet counted down.
-/
import Baselib.Messaging.ProxySmallBlocks
import Baselib.Lib.Slots

namespace Baselib.Messaging.ProxySmallBlocks

open Lib List

variable {s s' : State} {maxNoOfSmallBlocks : Int}

/-! ## Owners -/

/-- The reference a request has got. -/
def Request.references : Request → List Nat
  | .referenced _ r => [r]
  | _ => []

/-- A request that only tries, and has been granted. -/
def Request.tried : Request → Bool
  | .granted tryOnly => tryOnly
  | .referenced tryOnly _ => tryOnly
  | _ => false

def Message.isLive (m : Message) : Bool :=
  match m.phase with
  | .live => true
  | _ => false

/-- The block is given back, and the counter is due. -/
def Message.isDehydrating (m : Message) : Bool :=
  match m.phase with
  | .dehydrating _ => true
  | _ => false

@[simp] theorem isLive_live (r : Nat) : (Message.mk r .live).isLive = true := rfl

@[simp] theorem isLive_dehydrating (r : Nat) (toPool : Bool) :
    (Message.mk r (.dehydrating toPool)).isLive = false := rfl

@[simp] theorem isLive_dehydrated (r : Nat) (toPool : Bool) :
    (Message.mk r (.dehydrated toPool)).isLive = false := rfl

@[simp] theorem isDehydrating_live (r : Nat) : (Message.mk r .live).isDehydrating = false := rfl

@[simp] theorem isDehydrating_dehydrating (r : Nat) (toPool : Bool) :
    (Message.mk r (.dehydrating toPool)).isDehydrating = true := rfl

@[simp] theorem isDehydrating_dehydrated (r : Nat) (toPool : Bool) :
    (Message.mk r (.dehydrated toPool)).isDehydrating = false := rfl

def State.requested (s : State) : List Nat := (s.request.map Request.references).getD []

/-- How many references hold a block. -/
def State.holding (s : State) : Nat := s.references.countP (·.dataBlock)

/-- How many calls are on their way: the request, and the dehydrations that have
not yet counted down. -/
def State.inProgress (s : State) : Nat :=
  (if s.request.isSome then 1 else 0) + s.messages.countP Message.isDehydrating

/-- In how many places a reference is. -/
def State.owners (s : State) (r : Nat) : Nat :=
  s.pool.count r + s.requested.count r + (s.messages.map Message.reference).count r

structure Inv (s : State) : Prop where
  once : ∀ r, s.owners r ≤ 1
  pooled : ∀ r ∈ s.pool, s.references[r]? = some ⟨false, true⟩
  requested : ∀ r ∈ s.requested, s.references[r]? = some ⟨false, false⟩
  messages : ∀ m ∈ s.messages, s.references[m.reference]? = some ⟨m.isLive, false⟩
  holding : s.holding = s.messages.countP Message.isLive
  counter : s.noOfSmallBlocksAllocated = s.holding + s.inProgress
  room : ∀ request, s.request = some request → request.tried = true →
    s.noOfSmallBlocksAllocated < s.maxNoOfSmallBlocks
  assertion : s.assertionFailed = false

theorem Inv.init : Inv { maxNoOfSmallBlocks := maxNoOfSmallBlocks } where
  once r := by simp [State.owners, State.requested]
  pooled r hr := by cases hr
  requested r hr := by simp [State.requested] at hr
  messages m hm := by cases hm
  holding := rfl
  counter := by simp [State.holding, State.inProgress]
  room request h := by cases h
  assertion := rfl

/-- What belongs to a message belongs to nobody else. -/
theorem Inv.message_alone (h : Inv s) {i : Nat} {m : Message} (hm : s.messages[i]? = some m) :
    m.reference ∉ s.pool ∧ m.reference ∉ s.requested ∧
      ∀ m' ∈ s.messages.eraseIdx i, m'.reference ≠ m.reference := by
  have hcount := h.once m.reference
  rw [State.owners, ((Slots.perm_cons_eraseIdx hm).map _).count_eq, map_cons,
    count_cons_self] at hcount
  refine ⟨count_eq_zero.mp (by omega), count_eq_zero.mp (by omega), ?_⟩
  intro m' hm' e
  have hin : m.reference ∈ (s.messages.eraseIdx i).map Message.reference :=
    mem_map.mpr ⟨m', hm', e⟩
  have hpos := count_pos_iff.mpr hin
  omega

/-- What belongs to the request belongs to nobody else. -/
theorem Inv.request_alone (h : Inv s) {r : Nat} (hr : r ∈ s.requested) :
    r ∉ s.pool ∧ ∀ m ∈ s.messages, m.reference ≠ r := by
  have hcount := h.once r
  have hpos := count_pos_iff.mpr hr
  rw [State.owners] at hcount
  refine ⟨count_eq_zero.mp (by omega), fun m hm e => ?_⟩
  have hpos' := count_pos_iff.mpr (mem_map.mpr ⟨m, hm, e⟩)
  omega

/-! ## The request -/

/-- A request begins, goes on to another stage or ends, with no reference
more or less. -/
theorem Inv.of_request (h : Inv s) {request : Option Request} {n : Int}
    (hreferences : State.requested { s with request } = s.requested)
    (hn : n + (if s.request.isSome then 1 else 0) =
      s.noOfSmallBlocksAllocated + if request.isSome then 1 else 0)
    (hroom : ∀ r, request = some r → r.tried = true → n < s.maxNoOfSmallBlocks) :
    Inv { s with request, noOfSmallBlocksAllocated := n } := by
  refine ⟨fun r => ?_, h.pooled, ?_, h.messages, h.holding, ?_, hroom, h.assertion⟩
  · have honce := h.once r
    rwa [State.owners, ← hreferences] at honce
  · exact hreferences ▸ h.requested
  · have hcounter := h.counter
    simp only [State.holding, State.inProgress] at hcounter ⊢
    split_ifs at hn hcounter ⊢ <;> omega

theorem Inv.acquire (h : Inv s) {tryOnly : Bool} (hstep : acquire tryOnly s = some s') :
    Inv s' := by
  unfold ProxySmallBlocks.acquire at hstep
  split at hstep <;> cases hstep
  rename_i hnone
  have hrequested :
      State.requested { s with request := some (.incremented tryOnly) } = s.requested := by
    simp [State.requested, hnone, Request.references]
  refine h.of_request hrequested (by simp [hnone]) ?_
  rintro _ ⟨⟩ ⟨⟩

theorem Inv.checkRoom (h : Inv s) (hstep : checkRoom s = some s') : Inv s' := by
  unfold ProxySmallBlocks.checkRoom at hstep
  split at hstep
  · rename_i tryOnly hrequest
    have hrequested : s.requested = [] := by simp [State.requested, hrequest, Request.references]
    dsimp only at hstep
    split_ifs at hstep with hfull <;> cases hstep
    · exact h.of_request hrequested.symm (by simp [hrequest]) nofun
    · refine h.of_request hrequested.symm (by simp [hrequest]) ?_
      rintro _ ⟨⟩ htried
      simp only [Request.tried] at htried
      simp only [htried, Bool.true_and, decide_eq_true_eq] at hfull
      omega
  · cases hstep

theorem Inv.throwing (h : Inv s) (hstep : throwing s = some s') : Inv s' := by
  unfold ProxySmallBlocks.throwing at hstep
  split at hstep <;> cases hstep
  rename_i hrequest
  refine h.of_request ?_ (by simp [hrequest]) nofun
  simp [State.requested, hrequest, Request.references]

theorem Inv.giveUp (h : Inv s) (hstep : giveUp s = some s') : Inv s' := by
  unfold ProxySmallBlocks.giveUp at hstep
  split at hstep <;> cases hstep
  rename_i hrequest
  refine h.of_request ?_ (by simp [hrequest]) nofun
  simp [State.requested, hrequest, Request.references]

theorem Inv.takeReference (h : Inv s) (hstep : takeReference s = some s') : Inv s' := by
  unfold ProxySmallBlocks.takeReference at hstep
  split at hstep
  swap
  · cases hstep
  rename_i tryOnly hrequest
  have hcounter := h.counter
  have hrequested : s.requested = [] := by simp [State.requested, hrequest, Request.references]
  have hroom : ∀ r, (Request.referenced tryOnly r).tried = true →
      s.noOfSmallBlocksAllocated < s.maxNoOfSmallBlocks := fun r ht => h.room _ hrequest ht
  split at hstep
  · rename_i r hlast
    obtain ⟨init, hpool⟩ := getLast?_eq_some_iff.mp hlast
    have hreference := h.pooled r (by simp [hpool])
    rw [hreference] at hstep
    cases hstep
    have honce := h.once
    simp only [State.owners, hrequested, hpool, count_append, count_nil] at honce
    have halone : r ∉ init ∧ ∀ m ∈ s.messages, m.reference ≠ r := by
      have hcount := honce r
      rw [count_singleton_self] at hcount
      refine ⟨count_eq_zero.mp (by omega), fun m hm e => ?_⟩
      have hpos := count_pos_iff.mpr (mem_map.mpr ⟨m, hm, e⟩)
      omega
    have hholding := Slots.countP_set_add (·.dataBlock) hreference ⟨false, false⟩
    refine ⟨fun x => ?_, ?_, ?_, ?_, ?_, ?_, ?_, ?_⟩
    · have hx := honce x
      simp only [State.owners, State.requested, Option.map_some, Option.getD_some,
        Request.references, hpool, dropLast_concat]
      omega
    · intro x hx
      simp only [hpool, dropLast_concat] at hx
      refine Slots.getElem?_set_of_ne (fun e => halone.1 (e ▸ hx)) (h.pooled x ?_)
      simp [hpool, hx]
    · intro x hx
      obtain rfl : x = r := by simpa [State.requested, Request.references] using hx
      have hlt := (List.getElem?_eq_some_iff.mp hreference).1
      simp [getElem?_set_self hlt]
    · intro m hm
      exact Slots.getElem?_set_of_ne (Ne.symm (halone.2 m hm)) (h.messages m hm)
    · have hheld := h.holding
      simp only [State.holding] at hheld hholding ⊢
      simp only [Bool.false_eq_true, if_false] at hholding
      omega
    · simp only [State.holding, State.inProgress, hrequest] at hcounter hholding ⊢
      simp only [Bool.false_eq_true, if_false, Option.isSome_some, if_true] at hcounter hholding ⊢
      omega
    · intro request hs ht
      cases hs
      exact hroom r ht
    · simp [h.assertion]
  · rename_i hlast
    cases hstep
    have hpool : s.pool = [] := getLast?_eq_none_iff.mp hlast
    have hnew : ∀ {x : Nat} {v : DataBlockReference}, s.references[x]? = some v → (s.references ++ [(⟨false, false⟩ : DataBlockReference)])[x]? = some v := by
      intro x v hx
      rw [List.getElem?_append_left (List.getElem?_eq_some_iff.mp hx).1, hx]
    have hfresh : ∀ m ∈ s.messages, m.reference ≠ s.references.length := by
      intro m hm
      have hlt := (List.getElem?_eq_some_iff.mp (h.messages m hm)).1
      omega
    refine ⟨fun x => ?_, ?_, ?_, ?_, ?_, ?_, ?_, h.assertion⟩
    · have hx := h.once x
      simp only [State.owners, State.requested, Option.map_some, Option.getD_some,
        Request.references, hpool, count_nil] at hx ⊢
      by_cases he : x = s.references.length
      · have hzero : (s.messages.map Message.reference).count x = 0 := by
          refine count_eq_zero.mpr fun hin => ?_
          obtain ⟨m, hm, e⟩ := mem_map.mp hin
          exact hfresh m hm (e.trans he)
        rw [he] at hzero ⊢
        rw [count_singleton_self]
        omega
      · have hzero : [s.references.length].count x = 0 := count_eq_zero.mpr (by simpa using he)
        omega
    · intro x hx
      exact hnew (h.pooled x hx)
    · intro x hx
      obtain rfl : x = s.references.length := by
        simpa [State.requested, Request.references] using hx
      simp
    · intro m hm
      exact hnew (h.messages m hm)
    · have hheld := h.holding
      simpa [State.holding] using hheld
    · simpa [State.holding, State.inProgress, hrequest] using hcounter
    · intro request hs ht
      cases hs
      exact hroom _ ht

theorem Inv.hydrate (h : Inv s) (hstep : hydrate s = some s') :
    Inv s' ∧ s'.noOfSmallBlocksAllocated = s.noOfSmallBlocksAllocated := by
  unfold ProxySmallBlocks.hydrate at hstep
  split at hstep
  swap
  · cases hstep
  rename_i tryOnly r hrequest
  have hin : r ∈ s.requested := by simp [State.requested, hrequest, Request.references]
  have hreference := h.requested r hin
  rw [hreference] at hstep
  simp only [DataBlockReference.dehydrate, Bool.false_eq_true, if_false] at hstep
  cases hstep
  refine ⟨?_, rfl⟩
  obtain ⟨hpool, hmessages⟩ := h.request_alone hin
  have hholding := Slots.countP_set_add (·.dataBlock) hreference ⟨true, false⟩
  have hheld := h.holding
  have hcounter := h.counter
  have hlt := (List.getElem?_eq_some_iff.mp hreference).1
  simp only [Bool.false_eq_true, if_false, if_true] at hholding
  simp only [State.holding] at hheld
  refine ⟨fun x => ?_, ?_, ?_, ?_, ?_, ?_, ?_, h.assertion⟩
  · have hx := h.once x
    simp only [State.owners, State.requested, hrequest, Option.map_some, Option.getD_some,
      Request.references] at hx
    simp only [State.owners, State.requested, Option.map_none, Option.getD_none, count_nil,
      map_cons, count_cons] at hx ⊢
    omega
  · intro x hx
    exact Slots.getElem?_set_of_ne (fun e => hpool (e ▸ hx)) (h.pooled x hx)
  · intro x hx
    simp [State.requested] at hx
  · intro m hm
    rcases mem_cons.mp hm with rfl | hm
    · simp [getElem?_set_self hlt, Message.isLive]
    · exact Slots.getElem?_set_of_ne (Ne.symm (hmessages m hm)) (h.messages m hm)
  · simp only [State.holding, countP_cons, isLive_live, if_true]
    omega
  · simp only [State.holding, State.inProgress, hrequest, Option.isSome_some, if_true] at hcounter
    simp only [State.holding, State.inProgress, Option.isSome_none, Bool.false_eq_true, if_false,
      countP_cons, isDehydrating_live]
    omega
  · intro request hnone
    cases hnone

/-! ## The messages -/

theorem Inv.dehydrateMessage (h : Inv s) {i : Nat} {toPool : Bool}
    (hstep : dehydrateMessage i toPool s = some s') : Inv s' := by
  unfold ProxySmallBlocks.dehydrateMessage at hstep
  split at hstep
  swap
  · cases hstep
  rename_i r hm
  have hin : (⟨r, .live⟩ : Message) ∈ s.messages := mem_of_getElem? hm
  have hreference := h.messages _ hin
  simp only [isLive_live] at hreference
  rw [hreference] at hstep
  simp only [DataBlockReference.dehydrate, if_true] at hstep
  cases hstep
  obtain ⟨hpool, hrequested, hothers⟩ := h.message_alone hm
  have hperm := Slots.perm_cons_eraseIdx hm
  have hset := Slots.set_perm hm ⟨r, .dehydrating toPool⟩
  have hholding := Slots.countP_set_add (·.dataBlock) hreference ⟨false, false⟩
  have hheld := h.holding
  have hcounter := h.counter
  have hlt := (List.getElem?_eq_some_iff.mp hreference).1
  simp only [Bool.false_eq_true, if_false, if_true] at hholding
  simp only [State.holding, hperm.countP_eq, countP_cons, isLive_live, if_true] at hheld
  refine ⟨fun x => ?_, ?_, ?_, ?_, ?_, ?_, h.room, h.assertion⟩
  · have hx := h.once x
    simp only [State.owners, State.requested, (hperm.map _).count_eq, (hset.map _).count_eq,
      map_cons] at hx ⊢
    exact hx
  · intro x hx
    exact Slots.getElem?_set_of_ne (fun e => hpool (e ▸ hx)) (h.pooled x hx)
  · intro x hx
    exact Slots.getElem?_set_of_ne (fun e => hrequested (e ▸ hx)) (h.requested x hx)
  · intro m hm'
    rcases mem_cons.mp (hset.mem_iff.mp hm') with rfl | hm'
    · simp [getElem?_set_self hlt]
    · refine Slots.getElem?_set_of_ne (Ne.symm (hothers m hm')) (h.messages m ?_)
      exact hperm.mem_iff.mpr (mem_cons_of_mem _ hm')
  · simp only [State.holding, hset.countP_eq, countP_cons, isLive_dehydrating]
    simp only [Bool.false_eq_true, if_false]
    omega
  · simp only [State.holding, State.inProgress, hperm.countP_eq, countP_cons,
      isDehydrating_live, Bool.false_eq_true, if_false] at hcounter
    simp only [State.holding, State.inProgress, hset.countP_eq, countP_cons,
      isDehydrating_dehydrating, if_true]
    omega

theorem Inv.decrement (h : Inv s) {i : Nat} (hstep : decrement i s = some s') : Inv s' := by
  unfold ProxySmallBlocks.decrement at hstep
  split at hstep
  swap
  · cases hstep
  rename_i r toPool hm
  cases hstep
  have hin : (⟨r, .dehydrating toPool⟩ : Message) ∈ s.messages := mem_of_getElem? hm
  have hperm := Slots.perm_cons_eraseIdx hm
  have hset := Slots.set_perm hm ⟨r, .dehydrated toPool⟩
  have hheld := h.holding
  have hcounter := h.counter
  refine ⟨fun x => ?_, h.pooled, h.requested, ?_, ?_, ?_, ?_, h.assertion⟩
  · have hx := h.once x
    simp only [State.owners, State.requested, (hperm.map _).count_eq, (hset.map _).count_eq,
      map_cons] at hx ⊢
    exact hx
  · intro m hm'
    rcases mem_cons.mp (hset.mem_iff.mp hm') with rfl | hm'
    · have hreference := h.messages _ hin
      simpa only [isLive_dehydrating, isLive_dehydrated] using hreference
    · exact h.messages m (hperm.mem_iff.mpr (mem_cons_of_mem _ hm'))
  · simp only [State.holding, hperm.countP_eq, countP_cons, isLive_dehydrating] at hheld
    simp only [State.holding, hset.countP_eq, countP_cons, isLive_dehydrated]
    exact hheld
  · simp only [State.holding, State.inProgress, hperm.countP_eq, countP_cons,
      isDehydrating_dehydrating, if_true] at hcounter
    simp only [State.holding, State.inProgress, hset.countP_eq, countP_cons,
      isDehydrating_dehydrated, Bool.false_eq_true, if_false]
    omega
  · intro request hrequest htried
    have hroom := h.room request hrequest htried
    simp only
    omega

/-- What is left when a message that has given back its block is gone. -/
theorem Inv.forget_messages (h : Inv s) {i r : Nat} {toPool : Bool}
    (hm : s.messages[i]? = some ⟨r, .dehydrated toPool⟩) :
    (s.messages.eraseIdx i).countP Message.isLive = s.messages.countP Message.isLive ∧
      (s.messages.eraseIdx i).countP Message.isDehydrating
        = s.messages.countP Message.isDehydrating ∧
      (∀ x, s.pool.count x + s.requested.count x + [r].count x +
        ((s.messages.eraseIdx i).map Message.reference).count x ≤ 1) ∧
      ∀ m ∈ s.messages.eraseIdx i, m ∈ s.messages := by
  have hperm := Slots.perm_cons_eraseIdx hm
  refine ⟨?_, ?_, fun x => ?_, fun m hm' => mem_of_mem_eraseIdx hm'⟩
  · simp [hperm.countP_eq]
  · simp [hperm.countP_eq]
  · have hx := h.once x
    simp only [State.owners, (hperm.map _).count_eq, map_cons, count_cons] at hx
    simp only [count_cons, count_nil]
    omega

theorem Inv.put (h : Inv s) {i : Nat} (hstep : put i s = some s') : Inv s' := by
  unfold ProxySmallBlocks.put at hstep
  split at hstep
  swap
  · cases hstep
  rename_i r hm
  have hreference := h.messages _ (mem_of_getElem? hm)
  simp only [isLive_dehydrated] at hreference
  rw [hreference] at hstep
  cases hstep
  obtain ⟨hpool, hrequested, hothers⟩ := h.message_alone hm
  obtain ⟨hlive, hdehydrating, honce, hmem⟩ := h.forget_messages hm
  have hholding := Slots.countP_set_add (·.dataBlock) hreference ⟨false, true⟩
  have hheld := h.holding
  have hcounter := h.counter
  have hlt := (List.getElem?_eq_some_iff.mp hreference).1
  simp only [Bool.false_eq_true, if_false, Nat.add_zero] at hholding
  refine ⟨fun x => ?_, ?_, ?_, ?_, ?_, ?_, h.room, ?_⟩
  · have hx := honce x
    simp only [State.owners, State.requested, count_append] at hx ⊢
    omega
  · intro x hx
    rcases mem_append.mp hx with hx | hx
    · exact Slots.getElem?_set_of_ne (fun e => hpool (e ▸ hx)) (h.pooled x hx)
    · simp [mem_singleton.mp hx, getElem?_set_self hlt]
  · intro x hx
    exact Slots.getElem?_set_of_ne (fun e => hrequested (e ▸ hx)) (h.requested x hx)
  · intro m hm'
    exact Slots.getElem?_set_of_ne (Ne.symm (hothers m hm')) (h.messages m (hmem m hm'))
  · simp only [State.holding] at hheld ⊢
    rw [hholding, hheld, hlive]
  · simp only [State.holding, State.inProgress] at hcounter ⊢
    rwa [hholding, hdehydrating]
  · simp [h.assertion]

theorem Inv.forget (h : Inv s) {i : Nat} (hstep : forget i s = some s') : Inv s' := by
  unfold ProxySmallBlocks.forget at hstep
  split at hstep
  swap
  · cases hstep
  rename_i r toPool hm
  cases hstep
  obtain ⟨hlive, hdehydrating, honce, hmem⟩ := h.forget_messages hm
  have hcounter := h.counter
  refine ⟨fun x => ?_, h.pooled, h.requested, fun m hm' => h.messages m (hmem m hm'), ?_, ?_,
    h.room, h.assertion⟩
  · have hx := honce x
    simp only [State.owners, State.requested] at hx ⊢
    omega
  · exact h.holding.trans hlive.symm
  · simp only [State.holding, State.inProgress] at hcounter ⊢
    rwa [hdehydrating]

/-! ## Runs -/

theorem Inv.step (h : Inv s) {label : Label} (hstep : step s label = some s') : Inv s' := by
  cases label with
  | acquire tryOnly => exact h.acquire hstep
  | checkRoom => exact h.checkRoom hstep
  | throwing => exact h.throwing hstep
  | giveUp => exact h.giveUp hstep
  | takeReference => exact h.takeReference hstep
  | hydrate => exact (h.hydrate hstep).1
  | continuation _ _ | destroyed _ => exact h.dehydrateMessage hstep
  | decrement i => exact h.decrement hstep
  | put i => exact h.put hstep
  | forget i => exact h.forget hstep

theorem Reached.inv (h : Reached maxNoOfSmallBlocks s) : Inv s := by
  refine Transition.Reachable.invariant (P := Inv) ?_ ?_ h
  · rintro s rfl
    exact Inv.init
  · intro s label s' hs hstep
    exact hs.step hstep

/-! ## A request that only tries -/

/-- A step of a thread which completes or destroys a message. -/
structure Frame (s s' : State) : Prop where
  request : s'.request = s.request
  counter : s'.noOfSmallBlocksAllocated ≤ s.noOfSmallBlocksAllocated
  maxNo : s'.maxNoOfSmallBlocks = s.maxNoOfSmallBlocks

theorem dehydrateMessage_frame {i : Nat} {toPool : Bool}
    (hstep : dehydrateMessage i toPool s = some s') : Frame s s' := by
  unfold dehydrateMessage at hstep
  split at hstep
  · split at hstep
    · cases hstep
      exact ⟨rfl, Int.le_refl _, rfl⟩
    · cases hstep
  · cases hstep

theorem decrement_frame {i : Nat} (hstep : decrement i s = some s') : Frame s s' := by
  unfold decrement at hstep
  split at hstep
  · cases hstep
    exact ⟨rfl, Int.sub_le_self _ (by decide), rfl⟩
  · cases hstep

theorem put_frame {i : Nat} (hstep : put i s = some s') : Frame s s' := by
  unfold put at hstep
  split at hstep
  · split at hstep
    · cases hstep
      exact ⟨rfl, Int.le_refl _, rfl⟩
    · cases hstep
  · cases hstep

theorem forget_frame {i : Nat} (hstep : forget i s = some s') : Frame s s' := by
  unfold forget at hstep
  split at hstep
  · cases hstep
    exact ⟨rfl, Int.le_refl _, rfl⟩
  · cases hstep

/-- How far a request that only tries has come, and what the counter is: its
own increment is above what the counter was, until the comparison has found
room. -/
def Trying (initially : Int) (s : State) : Prop :=
  match s.request with
  | some (.incremented tryOnly) =>
    tryOnly = true ∧ s.noOfSmallBlocksAllocated ≤ initially + 1
  | some (.granted tryOnly) =>
    tryOnly = true ∧ s.noOfSmallBlocksAllocated < s.maxNoOfSmallBlocks
  | some (.referenced tryOnly _) =>
    tryOnly = true ∧ s.noOfSmallBlocksAllocated < s.maxNoOfSmallBlocks
  | some .givingUp =>
    s.noOfSmallBlocksAllocated ≤ initially + 1 ∨
      s.noOfSmallBlocksAllocated < s.maxNoOfSmallBlocks
  | none =>
    s.noOfSmallBlocksAllocated ≤ initially ∨
      s.noOfSmallBlocksAllocated < s.maxNoOfSmallBlocks

theorem Trying.frame {initially : Int} (h : Trying initially s) (hframe : Frame s s') :
    Trying initially s' := by
  have hcounter := hframe.counter
  unfold Trying at h ⊢
  rw [hframe.request, hframe.maxNo]
  cases hrequest : s.request with
  | none =>
    rw [hrequest] at h
    simp only at h ⊢
    omega
  | some request =>
    rw [hrequest] at h
    cases request with
    | incremented tryOnly => exact ⟨h.1, Int.le_trans hcounter h.2⟩
    | granted _ | referenced _ _ => exact ⟨h.1, Int.lt_of_le_of_lt hcounter h.2⟩
    | givingUp =>
      simp only at h ⊢
      omega

theorem Trying.step {initially : Int} (hinv : Inv s) (h : Trying initially s) {label : Label}
    (hlabel : ∀ tryOnly, label ≠ .acquire tryOnly) (hstep : step s label = some s') :
    Trying initially s' := by
  cases label with
  | acquire tryOnly => exact absurd rfl (hlabel tryOnly)
  | checkRoom =>
    simp only [ProxySmallBlocks.step, checkRoom] at hstep
    split at hstep
    · rename_i tryOnly hrequest
      simp only [Trying, hrequest] at h
      obtain ⟨rfl, hcounter⟩ := h
      split at hstep
      · cases hstep
        exact .inl hcounter
      · rename_i hfull
        cases hstep
        exact ⟨rfl, by simpa using hfull⟩
    · cases hstep
  | throwing =>
    simp only [ProxySmallBlocks.step, throwing] at hstep
    split at hstep
    · rename_i hrequest
      simp only [Trying, hrequest] at h
      cases hstep
      exact .inr h.2
    · cases hstep
  | giveUp =>
    simp only [ProxySmallBlocks.step, giveUp] at hstep
    split at hstep
    · rename_i hrequest
      simp only [Trying, hrequest] at h
      cases hstep
      simp only [Trying]
      omega
    · cases hstep
  | takeReference =>
    simp only [ProxySmallBlocks.step, takeReference] at hstep
    split at hstep
    · rename_i hrequest
      simp only [Trying, hrequest] at h
      split at hstep
      · split at hstep
        · cases hstep
          exact h
        · cases hstep
      · cases hstep
        exact h
    · cases hstep
  | hydrate =>
    have hcounter := (hinv.hydrate hstep).2
    simp only [ProxySmallBlocks.step, hydrate] at hstep
    split at hstep
    · rename_i hrequest
      simp only [Trying, hrequest] at h
      split at hstep
      · cases hstep
        exact .inr (Int.lt_of_le_of_lt (Int.le_of_eq hcounter) h.2)
      · cases hstep
    · cases hstep
  | continuation _ _ | destroyed _ => exact h.frame (dehydrateMessage_frame hstep)
  | decrement i => exact h.frame (decrement_frame hstep)
  | put i => exact h.frame (put_frame hstep)
  | forget i => exact h.frame (forget_frame hstep)

/-- From its entry to the next request, whatever the other threads do: a request
that only tries has not raised the counter, or it is below the maximum. -/
theorem try_acquire_bounded (h : Inv s) {labels : List Label}
    (hlabels : ∀ tryOnly, Label.acquire tryOnly ∉ labels)
    (hrun : Transition.run step s (.acquire true :: labels) = some s')
    (hreturned : s'.request = none) :
    s'.noOfSmallBlocksAllocated ≤ s.noOfSmallBlocksAllocated ∨
      s'.noOfSmallBlocksAllocated < s'.maxNoOfSmallBlocks := by
  obtain ⟨m, hm, hrun⟩ := Transition.run_cons_eq_some.mp hrun
  have htrying : Trying s.noOfSmallBlocksAllocated m := by
    simp only [step, acquire] at hm
    split at hm
    · cases hm
      exact ⟨rfl, Int.le_refl _⟩
    · cases hm
  have halong : Transition.Along step (fun _ label => ∀ tryOnly, label ≠ .acquire tryOnly)
      m labels := by
    refine Transition.along_of_splits fun ls₁ l ls₂ _ hls _ tryOnly e => ?_
    exact hlabels tryOnly (by simp [hls, e])
  have hend := Transition.run_invariant
    (P := fun s' => Inv s' ∧ Trying s.noOfSmallBlocksAllocated s')
    (fun s₁ l s₂ hs hl hstep => ⟨hs.1.step hstep, hs.2.step hs.1 hl hstep⟩)
    ⟨h.step hm, htrying⟩ halong hrun
  have htry := hend.2
  simpa only [Trying, hreturned] using htry

/-- The counter is the number of references that hold a block, and of the calls
on their way: just the former when no call is. It is never negative. A
request that only tries never raises it above the maximum. When all messages
are finished it is zero. -/
theorem small_blocks_conserved (h : Reached maxNoOfSmallBlocks s) :
    s.noOfSmallBlocksAllocated = s.holding + s.inProgress ∧
    (s.inProgress = 0 → s.noOfSmallBlocksAllocated = s.holding) ∧
    0 ≤ s.noOfSmallBlocksAllocated ∧
    (∀ labels s', (∀ tryOnly, Label.acquire tryOnly ∉ labels) →
      Transition.run step s (.acquire true :: labels) = some s' → s'.request = none →
      s'.noOfSmallBlocksAllocated ≤ s.noOfSmallBlocksAllocated ∨
        s'.noOfSmallBlocksAllocated < s'.maxNoOfSmallBlocks) ∧
    (s.messages = [] → s.request = none → s.noOfSmallBlocksAllocated = 0) := by
  have hcounter := h.inv.counter
  refine ⟨hcounter, fun hidle => ?_, ?_, fun labels s' => try_acquire_bounded h.inv, ?_⟩
  · omega
  · omega
  · intro hmessages hrequest
    have hheld := h.inv.holding
    simp only [hmessages, List.countP_nil] at hheld
    rw [hcounter, hheld, State.inProgress, hrequest, hmessages]
    rfl

/-- A request which is granted, and its message. -/
def granted (tryOnly : Bool) : List Label :=
  [.acquire tryOnly, .checkRoom, .takeReference, .hydrate]

/-- One message, until its reference is in the pool again. -/
theorem small_blocks_conserved_message :
    ∃ s, Transition.run step { maxNoOfSmallBlocks := 6 }
        (granted true ++ [.continuation 0 false, .decrement 0, .put 0]) = some s ∧
      s.pool = [0] ∧ s.noOfSmallBlocksAllocated = 0 := by
  have hrun : Transition.run step { maxNoOfSmallBlocks := 6 }
      (granted true ++ [.continuation 0 false, .decrement 0, .put 0])
      = some { maxNoOfSmallBlocks := 6, references := [⟨false, true⟩], pool := [0] } := rfl
  have hreached : Reached 6
      { maxNoOfSmallBlocks := 6, references := [⟨false, true⟩], pool := [0] } :=
    ⟨_, _, rfl, hrun⟩
  exact ⟨_, hrun, rfl, (small_blocks_conserved hreached).2.2.2.2 rfl rfl⟩

/-- The counter is ahead of the references while a request is on its way, and
that of a request that only tries can be above the maximum until it is given
back. -/
theorem small_blocks_ahead :
    (∃ s, Transition.run step { maxNoOfSmallBlocks := 6 } [.acquire false] = some s ∧
      s.noOfSmallBlocksAllocated = 1 ∧ s.holding = 0) ∧
    ∃ s, Transition.run step { maxNoOfSmallBlocks := 6 }
        ((List.replicate 6 (granted false)).flatten ++ [.acquire true]) = some s ∧
      s.noOfSmallBlocksAllocated = 7 ∧ s.holding = 6 :=
  ⟨⟨_, rfl, rfl, rfl⟩, ⟨_, rfl, rfl, rfl⟩⟩

end Baselib.Messaging.ProxySmallBlocks
