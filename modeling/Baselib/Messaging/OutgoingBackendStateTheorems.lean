/-
Baselib.Messaging.OutgoingBackendStateTheorems — the invariant of the
registry of the outgoing connections (`Consistent`): which queues stand
in which list of which peer. Every member keeps it, and a member that
throws leaves the registry as it was: under the invariant none of the
checks inside the loop of `registerQueue` can fail.
-/
import Mathlib.Data.List.GetD
import Baselib.Messaging.OutgoingBackendState

namespace Baselib.Messaging.OutgoingBackendState

open Lib Baselib.Core List
open Core.SortedVector (Ascending)
open SortedVector (ascending_insert erase_eq mem_insert)

variable {π κ : Type} [DecidableEq π]

/-! ## The lists of a peer -/

section

variable {s : State π κ} {remotePeerId : π}

def State.activeQueues (s : State π κ) (remotePeerId : π) : List (QueuePtr κ) :=
  (s.peerInfo remotePeerId).activeQueues

def State.unconfirmedQueues (s : State π κ) (remotePeerId : π) : List (QueuePtr κ) :=
  (s.peerInfo remotePeerId).unconfirmedQueues

theorem State.peerInfo_of_lookup {peerInfo : PeerInfo κ}
    (h : s.peersInfo.lookup remotePeerId = some peerInfo) :
    s.peerInfo remotePeerId = peerInfo := by
  rw [State.peerInfo, h, Option.getD_some]

theorem State.lists_of_lookup {peerInfo : PeerInfo κ}
    (h : s.peersInfo.lookup remotePeerId = some peerInfo) :
    s.activeQueues remotePeerId = peerInfo.activeQueues ∧
      s.unconfirmedQueues remotePeerId = peerInfo.unconfirmedQueues :=
  have hinfo := State.peerInfo_of_lookup h
  ⟨congrArg _ hinfo, congrArg _ hinfo⟩

@[simp] theorem activeQueues_insert (peersInfo : AList fun _ : π => PeerInfo κ)
    (connections : AList fun _ : QueuePtr κ => ConnectionInfo π) (peerInfo : PeerInfo κ) :
    State.activeQueues ⟨peersInfo.insert remotePeerId peerInfo, connections⟩ remotePeerId =
      peerInfo.activeQueues := by
  simp [State.activeQueues, State.peerInfo]

@[simp] theorem unconfirmedQueues_insert (peersInfo : AList fun _ : π => PeerInfo κ)
    (connections : AList fun _ : QueuePtr κ => ConnectionInfo π) (peerInfo : PeerInfo κ) :
    State.unconfirmedQueues ⟨peersInfo.insert remotePeerId peerInfo, connections⟩ remotePeerId =
      peerInfo.unconfirmedQueues := by
  simp [State.unconfirmedQueues, State.peerInfo]

@[simp] theorem activeQueues_erase (peersInfo : AList fun _ : π => PeerInfo κ)
    (connections : AList fun _ : QueuePtr κ => ConnectionInfo π) :
    State.activeQueues ⟨peersInfo.erase remotePeerId, connections⟩ remotePeerId = [] := by
  simp [State.activeQueues, State.peerInfo]

@[simp] theorem unconfirmedQueues_erase (peersInfo : AList fun _ : π => PeerInfo κ)
    (connections : AList fun _ : QueuePtr κ => ConnectionInfo π) :
    State.unconfirmedQueues ⟨peersInfo.erase remotePeerId, connections⟩ remotePeerId = [] := by
  simp [State.unconfirmedQueues, State.peerInfo]

end

variable [LinearOrder κ] {s s' : State π κ} {nil remotePeerId : π} {queue : κ}
variable {remoteAddress : Octets}

/-! ## The invariant -/

structure Consistent (s : State π κ) : Prop where
  /-- A registered queue is in one list of the peer recorded for it. -/
  placed : ∀ queue info, s.connections2PeerId.lookup queue = some info →
    Xor (queue ∈ s.activeQueues info.peerId) (queue ∈ s.unconfirmedQueues info.peerId)
  /-- The lists of a peer hold queues recorded for it. -/
  recorded : ∀ remotePeerId queue,
    queue ∈ s.activeQueues remotePeerId ∨ queue ∈ s.unconfirmedQueues remotePeerId →
      ∃ info, s.connections2PeerId.lookup queue = some info ∧ info.peerId = remotePeerId
  ascending : ∀ remotePeerId,
    Ascending (s.activeQueues remotePeerId) ∧ Ascending (s.unconfirmedQueues remotePeerId)
  notNull : ∀ remotePeerId,
    ⊥ ∉ s.activeQueues remotePeerId ∧ ⊥ ∉ s.unconfirmedQueues remotePeerId
  /-- A peer has an entry as long as it has queues. -/
  entry : ∀ remotePeerId, remotePeerId ∈ s.peersInfo ↔
    s.activeQueues remotePeerId ≠ [] ∨ s.unconfirmedQueues remotePeerId ≠ []

theorem consistent_empty : Consistent (State.empty : State π κ) where
  placed queue info h := by cases h
  recorded remotePeerId queue h := by
    obtain h | h := h <;> cases h
  ascending remotePeerId := ⟨List.Pairwise.nil, List.Pairwise.nil⟩
  notNull remotePeerId := ⟨not_mem_nil, not_mem_nil⟩
  entry remotePeerId := by
    simp [State.empty, State.activeQueues, State.unconfirmedQueues, State.peerInfo]

theorem Consistent.disjoint (h : Consistent s) {queue : QueuePtr κ}
    (hactive : queue ∈ s.activeQueues remotePeerId) :
    queue ∉ s.unconfirmedQueues remotePeerId := by
  obtain ⟨info, hinfo, rfl⟩ := h.recorded remotePeerId queue (.inl hactive)
  obtain hxor | hxor := h.placed queue info hinfo
  · exact hxor.2
  · exact absurd hactive hxor.2

theorem Consistent.congr (h : Consistent s)
    (hactive : ∀ peer, s'.activeQueues peer = s.activeQueues peer)
    (hunconfirmed : ∀ peer, s'.unconfirmedQueues peer = s.unconfirmedQueues peer)
    (hrecords : s'.connections2PeerId = s.connections2PeerId)
    (hentry : ∀ peer, peer ∈ s'.peersInfo ↔ peer ∈ s.peersInfo) : Consistent s' where
  placed queue info := by
    rw [hactive, hunconfirmed, hrecords]
    exact h.placed queue info
  recorded peer queue := by
    rw [hactive, hunconfirmed, hrecords]
    exact h.recorded peer queue
  ascending peer := by
    rw [hactive, hunconfirmed]
    exact h.ascending peer
  notNull peer := by
    rw [hactive, hunconfirmed]
    exact h.notNull peer
  entry peer := by
    rw [hactive, hunconfirmed, hentry]
    exact h.entry peer

/-- A member works on the lists of one peer and on the record of one
queue: what it has to keep there. -/
theorem Consistent.update (h : Consistent s) (remotePeerId : π) (queue : κ)
    (hpeers : ∀ peer, peer ≠ remotePeerId →
      s'.peersInfo.lookup peer = s.peersInfo.lookup peer)
    (hrecords : ∀ q, q ≠ (queue : QueuePtr κ) →
      s'.connections2PeerId.lookup q = s.connections2PeerId.lookup q)
    (hascending : Ascending (s'.activeQueues remotePeerId) ∧
      Ascending (s'.unconfirmedQueues remotePeerId))
    (hothers : ∀ q, q ≠ (queue : QueuePtr κ) →
      (q ∈ s'.activeQueues remotePeerId ∨ q ∈ s'.unconfirmedQueues remotePeerId ↔
        q ∈ s.activeQueues remotePeerId ∨ q ∈ s.unconfirmedQueues remotePeerId))
    (hdisjoint : ∀ q ∈ s'.activeQueues remotePeerId, q ∉ s'.unconfirmedQueues remotePeerId)
    (hqueue : (queue : QueuePtr κ) ∈ s'.activeQueues remotePeerId ∨
        (queue : QueuePtr κ) ∈ s'.unconfirmedQueues remotePeerId ↔
      (s'.connections2PeerId.lookup (queue : QueuePtr κ)).isSome)
    (hbefore : ∀ info, s.connections2PeerId.lookup (queue : QueuePtr κ) = some info →
      info.peerId = remotePeerId)
    (hafter : ∀ info, s'.connections2PeerId.lookup (queue : QueuePtr κ) = some info →
      info.peerId = remotePeerId)
    (hentry : remotePeerId ∈ s'.peersInfo ↔
      s'.activeQueues remotePeerId ≠ [] ∨ s'.unconfirmedQueues remotePeerId ≠ []) :
    Consistent s' := by
  have hinfo : ∀ peer, peer ≠ remotePeerId → s'.peerInfo peer = s.peerInfo peer :=
    fun peer hne => congrArg (Option.getD · _) (hpeers peer hne)
  have hactive : ∀ peer, peer ≠ remotePeerId → s'.activeQueues peer = s.activeQueues peer :=
    fun peer hne => congrArg PeerInfo.activeQueues (hinfo peer hne)
  have hunconfirmed : ∀ peer, peer ≠ remotePeerId →
      s'.unconfirmedQueues peer = s.unconfirmedQueues peer :=
    fun peer hne => congrArg PeerInfo.unconfirmedQueues (hinfo peer hne)
  refine ⟨fun q info hq => ?_, fun peer q hq => ?_, fun peer => ?_, fun peer => ?_, fun peer => ?_⟩
  · by_cases hpeer : info.peerId = remotePeerId
    · have hin : q ∈ s'.activeQueues remotePeerId ∨ q ∈ s'.unconfirmedQueues remotePeerId := by
        obtain rfl | hne := eq_or_ne q queue
        · exact hqueue.mpr (Option.isSome_iff_exists.mpr ⟨info, hq⟩)
        · rw [hrecords q hne] at hq
          exact (hothers q hne).mpr (hpeer ▸ (h.placed q info hq).imp And.left And.left)
      rw [hpeer]
      obtain hin | hin := hin
      · exact .inl ⟨hin, hdisjoint q hin⟩
      · exact .inr ⟨hin, fun ha => hdisjoint q ha hin⟩
    · have hne : q ≠ queue := fun heq => hpeer (hafter info (heq ▸ hq))
      rw [hactive _ hpeer, hunconfirmed _ hpeer]
      exact h.placed q info ((hrecords q hne).symm.trans hq)
  · obtain rfl | hpeer := eq_or_ne peer remotePeerId
    · by_cases hne : q = queue
      · subst hne
        obtain ⟨info, hinfo⟩ := Option.isSome_iff_exists.mp (hqueue.mp hq)
        exact ⟨info, hinfo, hafter info hinfo⟩
      · rw [hrecords q hne]
        exact h.recorded peer q ((hothers q hne).mp hq)
    · rw [hactive _ hpeer, hunconfirmed _ hpeer] at hq
      obtain ⟨info, hrecord, hid⟩ := h.recorded peer q hq
      have hne : q ≠ queue := by
        rintro rfl
        exact hpeer (hid.symm.trans (hbefore info hrecord))
      exact ⟨info, (hrecords q hne).trans hrecord, hid⟩
  · by_cases hpeer : peer = remotePeerId
    · exact hpeer ▸ hascending
    · rw [hactive _ hpeer, hunconfirmed _ hpeer]
      exact h.ascending peer
  · obtain rfl | hpeer := eq_or_ne peer remotePeerId
    · have hbot : ¬ (⊥ ∈ s'.activeQueues peer ∨ ⊥ ∈ s'.unconfirmedQueues peer) := by
        rw [hothers ⊥ WithBot.bot_ne_coe, not_or]
        exact h.notNull peer
      exact not_or.mp hbot
    · rw [hactive _ hpeer, hunconfirmed _ hpeer]
      exact h.notNull peer
  · by_cases hpeer : peer = remotePeerId
    · exact hpeer ▸ hentry
    · rw [hactive _ hpeer, hunconfirmed _ hpeer, ← AList.lookup_isSome, hpeers peer hpeer,
        AList.lookup_isSome]
      exact h.entry peer

/-! ## `registerQueue` -/

/-- The registration leaves the queue active. -/
def retains (connections : AList fun _ : QueuePtr κ => ConnectionInfo π)
    (remoteAddress : Octets) (queue : QueuePtr κ) : Bool :=
  match connections.lookup queue with
  | none => false
  | some info => differentKnown remoteAddress info.remoteAddress

omit [DecidableEq π] in
/-- The loop over active queues which are all registered and none of
which is unconfirmed. -/
theorem demoteQueues_spec {connections : AList fun _ : QueuePtr κ => ConnectionInfo π}
    {active : List (QueuePtr κ)} :
    ∀ {unconfirmed : List (QueuePtr κ)},
      (∀ q ∈ active, (connections.lookup q).isSome) → active.Nodup → Ascending unconfirmed →
      (∀ q ∈ active, q ∉ unconfirmed) →
      ∃ left unconfirmed', demoteQueues connections remoteAddress active unconfirmed =
          (.ok (), left, unconfirmed', active.filter (retains connections remoteAddress)) ∧
        Ascending unconfirmed' ∧
        ∀ q, q ∈ unconfirmed' ↔
          q ∈ unconfirmed ∨ q ∈ active ∧ retains connections remoteAddress q = false := by
  induction active with
  | nil =>
    intro unconfirmed _ _ hascending _
    exact ⟨[], unconfirmed, rfl, hascending, fun q => by simp⟩
  | cons localQueue active ih =>
    intro unconfirmed hregistered hnodup hascending hdisjoint
    obtain ⟨hlocal, hregistered⟩ := forall_mem_cons.mp hregistered
    obtain ⟨hnotLocal, hnodup⟩ := nodup_cons.mp hnodup
    obtain ⟨hfree, hdisjoint⟩ := forall_mem_cons.mp hdisjoint
    obtain ⟨info, hinfo⟩ := Option.isSome_iff_exists.mp hlocal
    by_cases hkeep : differentKnown remoteAddress info.remoteAddress = true
    · obtain ⟨left, unconfirmed', heq, hasc, hmem⟩ := ih hregistered hnodup hascending hdisjoint
      have hretains : retains connections remoteAddress localQueue = true := by
        simp [retains, hinfo, hkeep]
      refine ⟨⊥ :: left, unconfirmed', ?_, hasc, fun q => ?_⟩
      · simp [demoteQueues, hinfo, hkeep, heq, hretains]
      · rw [hmem q, mem_cons]
        refine or_congr_right (and_congr_left fun hq => ⟨.inr, fun h => h.resolve_left ?_⟩)
        rintro rfl
        exact absurd (hretains.symm.trans hq) (by decide)
    · rw [Bool.not_eq_true] at hkeep
      have hinserted := (SortedVector.insert_inserted hascending).mpr hfree
      have hdisjoint' : ∀ q ∈ active,
          q ∉ (SortedVector.insert unconfirmed localQueue).1 := by
        intro q hq hin
        obtain heq | hin := (mem_insert hascending).mp hin
        · exact hnotLocal (heq ▸ hq)
        · exact hdisjoint q hq hin
      obtain ⟨left, unconfirmed', heq, hasc, hmem⟩ :=
        ih hregistered hnodup (ascending_insert hascending) hdisjoint'
      have hretains : retains connections remoteAddress localQueue = false := by
        simp [retains, hinfo, hkeep]
      refine ⟨⊥ :: left, unconfirmed', ?_, hasc, fun q => ?_⟩
      · simp [demoteQueues, hinfo, hkeep, heq, hretains, hinserted]
      · rw [hmem q, mem_insert hascending, mem_cons, or_comm (a := q = _),
          or_assoc, or_and_right]
        refine or_congr_right (or_congr_left ?_)
        exact ⟨fun h => ⟨h, h ▸ hretains⟩, And.left⟩

/-- A registration which passes its checks. -/
theorem registerQueue_registered (h : Consistent s) (hnil : remotePeerId ≠ nil)
    (hnew : s.connections2PeerId.lookup (queue : QueuePtr κ) = none) :
    ∃ unconfirmed, Ascending unconfirmed ∧
      (∀ q, q ∈ unconfirmed ↔ q ∈ s.unconfirmedQueues remotePeerId ∨
        q ∈ s.activeQueues remotePeerId ∧
          retains s.connections2PeerId remoteAddress q = false) ∧
      registerQueue nil remotePeerId queue remoteAddress s =
        (.ok (s.activeQueues remotePeerId),
          { peersInfo := s.peersInfo.insert remotePeerId
              { activeQueues := (SortedVector.insert ((s.activeQueues remotePeerId).filter
                  (retains s.connections2PeerId remoteAddress)) (queue : QueuePtr κ)).1
                unconfirmedQueues := unconfirmed
                currentPos := 0 }
            connections2PeerId := s.connections2PeerId.insert (queue : QueuePtr κ)
              ⟨remotePeerId, remoteAddress⟩ }) := by
  have hregistered : ∀ q ∈ s.activeQueues remotePeerId,
      (s.connections2PeerId.lookup q).isSome := fun q hq => by
    obtain ⟨info, hinfo, -⟩ := h.recorded remotePeerId q (.inl hq)
    exact Option.isSome_iff_exists.mpr ⟨info, hinfo⟩
  obtain ⟨left, unconfirmed, heq, hascending, hmem⟩ :=
    @demoteQueues_spec _ _ _ remoteAddress _ _ _ hregistered
      (h.ascending remotePeerId).1.nodup (h.ascending remotePeerId).2 fun q => h.disjoint
  refine ⟨unconfirmed, hascending, hmem, ?_⟩
  rw [State.activeQueues, State.unconfirmedQueues] at heq
  simp [registerQueue, hnil, hnew, heq, State.activeQueues]

theorem not_listed (h : Consistent s)
    (hnew : s.connections2PeerId.lookup (queue : QueuePtr κ) = none) :
    (queue : QueuePtr κ) ∉ s.activeQueues remotePeerId ∧
      (queue : QueuePtr κ) ∉ s.unconfirmedQueues remotePeerId := by
  refine not_or.mp fun hin => ?_
  obtain ⟨info, hinfo, -⟩ := h.recorded _ _ hin
  exact absurd (hnew.symm.trans hinfo) (by simp)

theorem registerQueue_consistent (h : Consistent s) :
    Consistent (registerQueue nil remotePeerId queue remoteAddress s).2 := by
  by_cases hnil : remotePeerId = nil
  · simpa [registerQueue, hnil] using h
  cases hlookup : s.connections2PeerId.lookup (queue : QueuePtr κ) with
  | some info => simpa [registerQueue, hnil, hlookup] using h
  | none =>
    obtain ⟨unconfirmed, hascending, hmem, heq⟩ :=
      @registerQueue_registered _ _ _ _ _ _ _ _ remoteAddress h hnil hlookup
    have hfree := @not_listed _ _ _ _ _ remotePeerId _ h hlookup
    have hretained : Ascending ((s.activeQueues remotePeerId).filter
        (retains s.connections2PeerId remoteAddress)) :=
      (h.ascending remotePeerId).1.filter _
    rw [heq]
    refine h.update remotePeerId queue (fun peer hne => AList.lookup_insert_ne hne)
      (fun q hne => AList.lookup_insert_ne hne) ?_ ?_ ?_ ?_ ?_ ?_ ?_
    · simp [ascending_insert hretained, hascending]
    · intro q hne
      simp only [activeQueues_insert, unconfirmedQueues_insert,
        mem_insert hretained, mem_filter, hmem, hne, false_or]
      cases retains s.connections2PeerId remoteAddress q <;> simp [or_comm]
    · intro q hq
      simp only [activeQueues_insert, unconfirmedQueues_insert,
        mem_insert hretained, mem_filter, hmem] at hq ⊢
      obtain rfl | ⟨hactive, hretains⟩ := hq
      · simp [hfree]
      · simp [h.disjoint hactive, hretains]
    · simp [mem_insert hretained]
    · simp [hlookup]
    · simp
    · refine iff_of_true (AList.mem_insert _ |>.mpr (.inl rfl)) (.inl ?_)
      rw [activeQueues_insert]
      exact ne_nil_of_mem ((mem_insert hretained).mpr (.inl rfl))

/-! ## The other members -/

/-- What the checks of a queue establish. -/
theorem verifyRegisteredQueue_ok {peerInfo : PeerInfo κ}
    (h : verifyRegisteredQueue remotePeerId queue s = .ok peerInfo) :
    (∃ info, s.connections2PeerId.lookup (queue : QueuePtr κ) = some info ∧
      info.peerId = remotePeerId) ∧ s.peersInfo.lookup remotePeerId = some peerInfo := by
  unfold verifyRegisteredQueue at h
  split at h
  · cases h
  · rename_i info hinfo
    split at h
    · rename_i hid
      split at h
      · cases h
      · rename_i found hfound
        cases h
        exact ⟨⟨info, hinfo, hid⟩, hfound⟩
    · cases h

/-- A queue which is recorded for the peer passes the checks. -/
theorem verifyRegisteredQueue_recorded (h : Consistent s) {info : ConnectionInfo π}
    (hinfo : s.connections2PeerId.lookup (queue : QueuePtr κ) = some info)
    (hid : info.peerId = remotePeerId) :
    verifyRegisteredQueue remotePeerId queue s = .ok (s.peerInfo remotePeerId) := by
  have hmem : remotePeerId ∈ s.peersInfo := by
    refine (h.entry remotePeerId).mpr ?_
    obtain hin | hin := hid ▸ h.placed _ info hinfo
    · exact .inl (ne_nil_of_mem hin.1)
    · exact .inr (ne_nil_of_mem hin.1)
  obtain ⟨peerInfo, hpeer⟩ := Option.isSome_iff_exists.mp (AList.lookup_isSome.mpr hmem)
  simp [verifyRegisteredQueue, hinfo, hid, hpeer, State.peerInfo_of_lookup hpeer]

theorem confirmQueue_consistent (h : Consistent s) :
    Consistent (confirmQueue remotePeerId queue s).2 := by
  unfold confirmQueue
  split
  · exact h
  rename_i peerInfo hverify
  obtain ⟨⟨info, hinfo, hid⟩, hpeer⟩ := verifyRegisteredQueue_ok hverify
  obtain ⟨hactives, hunconfirmeds⟩ := State.lists_of_lookup hpeer
  obtain ⟨hactive, hunconfirmed⟩ := h.ascending remotePeerId
  rw [hactives] at hactive
  rw [hunconfirmeds] at hunconfirmed
  split
  · exact h
  rename_i before rest hfind
  have hcut := SortedVector.find_some hunconfirmed hfind
  obtain ⟨hleft, hgone⟩ := SortedVector.ascending_cut (hcut ▸ hunconfirmed)
  have hmem : ∀ q, q ∈ s.unconfirmedQueues remotePeerId ↔
      q = (queue : QueuePtr κ) ∨ q ∈ before ++ rest := fun q => by
    rw [hunconfirmeds, hcut, mem_append, mem_append, mem_cons, or_left_comm]
  have hsame : ∀ info', s.connections2PeerId.lookup (queue : QueuePtr κ) = some info' →
      info'.peerId = remotePeerId := fun info' hinfo' => by
    rwa [← Option.some.inj (hinfo.symm.trans hinfo')]
  refine h.update remotePeerId queue (fun peer hne => AList.lookup_insert_ne hne)
    (fun q _ => rfl) ?_ ?_ ?_ ?_ hsame hsame ?_
  · simp [ascending_insert hactive, hleft]
  · intro q hne
    simp only [activeQueues_insert, unconfirmedQueues_insert, hactives,
      mem_insert hactive, hmem, hne, false_or]
  · intro q hq
    simp only [activeQueues_insert, unconfirmedQueues_insert,
      mem_insert hactive] at hq ⊢
    obtain rfl | hq := hq
    · exact hgone
    · exact fun hin => h.disjoint (hactives ▸ hq) ((hmem q).mpr (.inr hin))
  · simp [hinfo, mem_insert hactive]
  · refine iff_of_true (AList.mem_insert _ |>.mpr (.inl rfl)) (.inl ?_)
    rw [activeQueues_insert]
    exact ne_nil_of_mem ((mem_insert hactive).mpr (.inl rfl))

theorem unregisterQueue_consistent (h : Consistent s) :
    Consistent (unregisterQueue remotePeerId queue s).2 := by
  unfold unregisterQueue
  split
  · exact h
  rename_i peerInfo hverify
  obtain ⟨⟨info, hinfo, hid⟩, hpeer⟩ := verifyRegisteredQueue_ok hverify
  obtain ⟨hactives, hunconfirmeds⟩ := State.lists_of_lookup hpeer
  obtain ⟨hactive, hunconfirmed⟩ := h.ascending remotePeerId
  rw [hactives] at hactive
  rw [hunconfirmeds] at hunconfirmed
  have hbefore : ∀ info', s.connections2PeerId.lookup (queue : QueuePtr κ) = some info' →
      info'.peerId = remotePeerId := fun info' hinfo' => by
    rwa [← Option.some.inj (hinfo.symm.trans hinfo')]
  have hothers : ∀ q, q ≠ (queue : QueuePtr κ) →
      (q ∈ peerInfo.activeQueues.erase queue ∨ q ∈ peerInfo.unconfirmedQueues.erase queue ↔
        q ∈ s.activeQueues remotePeerId ∨ q ∈ s.unconfirmedQueues remotePeerId) := by
    intro q hne
    rw [mem_erase_of_ne hne, mem_erase_of_ne hne, hactives, hunconfirmeds]
  dsimp only
  rw [erase_eq hactive, erase_eq hunconfirmed]
  split
  · rename_i hnone
    simp only [Bool.and_eq_true, List.isEmpty_iff] at hnone
    refine h.update remotePeerId queue (fun peer hne => AList.lookup_erase_ne hne)
      (fun q hne => AList.lookup_erase_ne hne) ?_ ?_ ?_ ?_ hbefore ?_ ?_
    · simp [Ascending]
    · simpa [hnone] using hothers
    · simp
    · simp
    · simp
    · simp [AList.mem_erase]
  · rename_i hsome
    refine h.update remotePeerId queue (fun peer hne => AList.lookup_insert_ne hne)
      (fun q hne => AList.lookup_erase_ne hne) ?_ ?_ ?_ ?_ hbefore ?_ ?_
    · rw [activeQueues_insert, unconfirmedQueues_insert]
      exact ⟨hactive.sublist erase_sublist, hunconfirmed.sublist erase_sublist⟩
    · simpa using hothers
    · intro q hq
      simp only [activeQueues_insert, unconfirmedQueues_insert] at hq ⊢
      exact fun hin => h.disjoint (hactives ▸ mem_of_mem_erase hq)
        (hunconfirmeds ▸ mem_of_mem_erase hin)
    · simp [hactive.nodup.mem_erase_iff, hunconfirmed.nodup.mem_erase_iff]
    · simp
    · refine iff_of_true (AList.mem_insert _ |>.mpr (.inl rfl)) ?_
      rw [activeQueues_insert, unconfirmedQueues_insert, ← not_and_or]
      simpa only [Bool.and_eq_true, List.isEmpty_iff] using hsome

theorem confirmQueue_error {failure : Failure π}
    (h : (confirmQueue remotePeerId queue s).1 = .error failure) :
    (confirmQueue remotePeerId queue s).2 = s := by
  unfold confirmQueue at h ⊢
  split at h
  · rfl
  · split at h
    · rfl
    · cases h

theorem unregisterQueue_error {failure : Failure π}
    (h : (unregisterQueue remotePeerId queue s).1 = .error failure) :
    (unregisterQueue remotePeerId queue s).2 = s := by
  unfold unregisterQueue at h ⊢
  split at h
  · rfl
  · cases h

omit [LinearOrder κ] in
theorem lists_insert_ne (peersInfo : AList fun _ : π => PeerInfo κ)
    (connections : AList fun _ : QueuePtr κ => ConnectionInfo π) {peer : π}
    (hne : peer ≠ remotePeerId) (peerInfo : PeerInfo κ) :
    State.activeQueues ⟨peersInfo.insert remotePeerId peerInfo, connections⟩ peer =
        State.activeQueues ⟨peersInfo, connections⟩ peer ∧
      State.unconfirmedQueues ⟨peersInfo.insert remotePeerId peerInfo, connections⟩ peer =
        State.unconfirmedQueues ⟨peersInfo, connections⟩ peer := by
  simp [State.activeQueues, State.unconfirmedQueues, State.peerInfo, AList.lookup_insert_ne hne]

omit [LinearOrder κ] in
theorem tryGetQueue_lists (remotePeerId : π) (s : State π κ) :
    (∀ peer, (tryGetQueue remotePeerId s).2.activeQueues peer = s.activeQueues peer ∧
        (tryGetQueue remotePeerId s).2.unconfirmedQueues peer = s.unconfirmedQueues peer) ∧
      (tryGetQueue remotePeerId s).2.connections2PeerId = s.connections2PeerId ∧
      ∀ peer, peer ∈ (tryGetQueue remotePeerId s).2.peersInfo ↔ peer ∈ s.peersInfo := by
  unfold tryGetQueue
  split
  · exact ⟨fun peer => ⟨rfl, rfl⟩, rfl, fun peer => Iff.rfl⟩
  rename_i peerInfo hpeer
  obtain ⟨hactives, hunconfirmeds⟩ := State.lists_of_lookup hpeer
  split
  · exact ⟨fun peer => ⟨rfl, rfl⟩, rfl, fun peer => Iff.rfl⟩
  refine ⟨fun peer => ?_, rfl, fun peer => ?_⟩
  · by_cases hne : peer = remotePeerId
    · rw [hne, activeQueues_insert, unconfirmedQueues_insert, hactives, hunconfirmeds]
      exact ⟨rfl, rfl⟩
    · exact lists_insert_ne s.peersInfo s.connections2PeerId hne _
  · have hin : remotePeerId ∈ s.peersInfo := AList.lookup_isSome.mp (hpeer ▸ rfl)
    rw [AList.mem_insert]
    exact ⟨fun hp => hp.elim (fun heq => heq ▸ hin) id, .inr⟩

theorem tryGetQueue_consistent (h : Consistent s) :
    Consistent (tryGetQueue remotePeerId s).2 := by
  obtain ⟨hlists, hrecords, hentry⟩ := tryGetQueue_lists remotePeerId s
  exact h.congr (fun peer => (hlists peer).1) (fun peer => (hlists peer).2) hrecords hentry

/-! ## Calls which pass their checks -/

/-- The queue is recorded for the peer. -/
def State.Records (s : State π κ) (queue : κ) (remotePeerId : π) : Prop :=
  ∃ info, s.connections2PeerId.lookup (queue : QueuePtr κ) = some info ∧
    info.peerId = remotePeerId

theorem registerQueue_unconfirmed (h : Consistent s) (hnil : remotePeerId ≠ nil)
    (hnew : s.connections2PeerId.lookup (queue : QueuePtr κ) = none)
    (hretains : ∀ q ∈ s.activeQueues remotePeerId,
      retains s.connections2PeerId remoteAddress q = false) :
    ∃ s', registerQueue nil remotePeerId queue remoteAddress s =
        (.ok (s.activeQueues remotePeerId), s') ∧
      s'.connections2PeerId =
        s.connections2PeerId.insert (queue : QueuePtr κ) ⟨remotePeerId, remoteAddress⟩ ∧
      ∀ peer q, q ∈ s'.unconfirmedQueues peer ↔ q ∈ s.unconfirmedQueues peer ∨
        peer = remotePeerId ∧ q ∈ s.activeQueues remotePeerId := by
  obtain ⟨unconfirmed, -, hmem, heq⟩ :=
    @registerQueue_registered _ _ _ _ _ _ _ _ remoteAddress h hnil hnew
  refine ⟨_, heq, rfl, fun peer q => ?_⟩
  by_cases hne : peer = remotePeerId
  · rw [hne, unconfirmedQueues_insert, hmem]
    exact or_congr_right ⟨fun hq => ⟨rfl, hq.1⟩, fun hq => ⟨hq.2, hretains q hq.2⟩⟩
  · rw [(lists_insert_ne s.peersInfo _ hne _).2]
    exact (or_iff_left fun hq => hne hq.1).symm

theorem confirmQueue_confirmed (h : Consistent s) (hrecorded : s.Records queue remotePeerId)
    (hin : (queue : QueuePtr κ) ∈ s.unconfirmedQueues remotePeerId) :
    ∃ s', confirmQueue remotePeerId queue s = (.ok (), s') ∧
      s'.connections2PeerId = s.connections2PeerId ∧
      ∀ peer q, q ∈ s'.unconfirmedQueues peer ↔
        q ∈ s.unconfirmedQueues peer ∧ ¬ (peer = remotePeerId ∧ q = queue) := by
  obtain ⟨info, hinfo, hid⟩ := hrecorded
  have hsorted := (h.ascending remotePeerId).2
  obtain ⟨before, rest, hfind, hcut⟩ := SortedVector.find_of_mem hsorted hin
  have hgone := (SortedVector.ascending_cut (hcut ▸ hsorted)).2
  rw [State.unconfirmedQueues] at hfind
  unfold confirmQueue
  simp only [verifyRegisteredQueue_recorded h hinfo hid, hfind]
  refine ⟨_, rfl, rfl, fun peer q => ?_⟩
  by_cases hne : peer = remotePeerId
  · rw [hne, unconfirmedQueues_insert, hcut]
    simp only [mem_append, mem_cons] at hgone ⊢
    grind
  · rw [(lists_insert_ne s.peersInfo _ hne _).2]
    exact (and_iff_left fun hq => hne hq.1).symm

theorem unregisterQueue_unregistered (h : Consistent s) (hrecorded : s.Records queue remotePeerId) :
    ∃ s', unregisterQueue remotePeerId queue s = (.ok (), s') ∧
      s'.connections2PeerId = s.connections2PeerId.erase (queue : QueuePtr κ) ∧
      ∀ peer q, q ≠ (queue : QueuePtr κ) →
        (q ∈ s'.unconfirmedQueues peer ↔ q ∈ s.unconfirmedQueues peer) := by
  obtain ⟨info, hinfo, hid⟩ := hrecorded
  have hsorted := (h.ascending remotePeerId).2
  unfold unregisterQueue
  simp only [verifyRegisteredQueue_recorded h hinfo hid]
  refine ⟨_, rfl, rfl, fun peer q hne => ?_⟩
  have herase := @erase_eq _ _ _ (queue : QueuePtr κ) hsorted
  rw [State.unconfirmedQueues] at herase
  have hkept : q ∈ (s.unconfirmedQueues remotePeerId).erase queue ↔
      q ∈ s.unconfirmedQueues remotePeerId :=
    mem_erase_of_ne hne
  rw [herase]
  obtain rfl | hpeer := eq_or_ne peer remotePeerId
  · split
    · rename_i hnone
      simp only [Bool.and_eq_true, List.isEmpty_iff] at hnone
      rw [unconfirmedQueues_erase, ← hkept, State.unconfirmedQueues, hnone.2]
    · rwa [unconfirmedQueues_insert]
  · split
    · simp only [State.unconfirmedQueues, State.peerInfo, AList.lookup_erase_ne hpeer]
    · rw [(lists_insert_ne s.peersInfo _ hpeer _).2]
      rfl

/-! ## Sequences of calls -/

theorem Consistent.after (h : Consistent s) (call : Call π κ) :
    Consistent (s.after nil call) := by
  cases call with
  | registerQueue remotePeerId queue remoteAddress => exact registerQueue_consistent h
  | confirmQueue remotePeerId queue => exact confirmQueue_consistent h
  | unregisterQueue remotePeerId queue => exact unregisterQueue_consistent h
  | tryGetQueue remotePeerId => exact tryGetQueue_consistent h
  | getAllActiveQueuesIds => exact h

theorem Consistent.calls (nil : π) (calls : List (Call π κ)) :
    ∀ {s : State π κ}, Consistent s → Consistent (calls.foldl (State.after nil) s) := by
  induction calls with
  | nil => exact fun h => h
  | cons call calls ih => exact fun h => ih (h.after call)

theorem State.after_failure (h : Consistent s) {call : Call π κ}
    (hfailure : (call.failure nil s).isSome) : s.after nil call = s := by
  cases call with
  | registerQueue remotePeerId queue remoteAddress =>
    by_cases hnil : remotePeerId = nil
    · simp [State.after, OutgoingBackendState.registerQueue, hnil]
    cases hlookup : s.connections2PeerId.lookup (queue : QueuePtr κ) with
    | some info => simp [State.after, OutgoingBackendState.registerQueue, hnil, hlookup]
    | none =>
      obtain ⟨unconfirmed, -, -, heq⟩ :=
        @registerQueue_registered _ _ _ _ _ _ _ _ remoteAddress h hnil hlookup
      simp [Call.failure, heq] at hfailure
  | confirmQueue remotePeerId queue =>
    cases hresult : (OutgoingBackendState.confirmQueue remotePeerId queue s).1 with
    | ok _ => simp [Call.failure, hresult] at hfailure
    | error failure => exact confirmQueue_error hresult
  | unregisterQueue remotePeerId queue =>
    cases hresult : (OutgoingBackendState.unregisterQueue remotePeerId queue s).1 with
    | ok _ => simp [Call.failure, hresult] at hfailure
    | error failure => exact unregisterQueue_error hresult
  | tryGetQueue remotePeerId => cases hfailure
  | getAllActiveQueuesIds => cases hfailure

omit [LinearOrder κ] in
/-- The queue which is answered is one of the active queues, whenever
there are any. -/
theorem tryGetQueue_mem (h : s.activeQueues remotePeerId ≠ []) :
    (tryGetQueue remotePeerId s).1 ∈ s.activeQueues remotePeerId := by
  unfold tryGetQueue
  cases hlookup : s.peersInfo.lookup remotePeerId with
  | none =>
    rw [State.activeQueues, State.peerInfo, hlookup] at h
    exact absurd rfl h
  | some peerInfo =>
    rw [(State.lists_of_lookup hlookup).1] at h ⊢
    have hpos := length_pos_iff.mpr h
    simp only [List.isEmpty_iff, h, if_false]
    split
    · rw [List.getD_eq_getElem _ _  hpos]
      exact getElem_mem hpos
    · rename_i hlt
      rw [List.getD_eq_getElem _ _  (not_le.mp hlt)]
      exact getElem_mem _

/-- A registration from a known address leaves the queues of other known
addresses active. -/
theorem registerQueue_active (h : Consistent s) {peer : π} {q : QueuePtr κ}
    {info : ConnectionInfo π} (hq : q ∈ s.activeQueues peer)
    (hinfo : s.connections2PeerId.lookup q = some info)
    (hknown : differentKnown remoteAddress info.remoteAddress = true) :
    q ∈ (registerQueue nil remotePeerId queue remoteAddress s).2.activeQueues peer := by
  by_cases hnil : remotePeerId = nil
  · simpa [registerQueue, hnil] using hq
  cases hlookup : s.connections2PeerId.lookup (queue : QueuePtr κ) with
  | some info => simpa [registerQueue, hnil, hlookup] using hq
  | none =>
    obtain ⟨unconfirmed, -, -, heq⟩ :=
      @registerQueue_registered _ _ _ _ _ _ _ _ remoteAddress h hnil hlookup
    rw [heq]
    obtain rfl | hne := eq_or_ne peer remotePeerId
    · rw [activeQueues_insert, mem_insert ((h.ascending peer).1.filter _)]
      exact .inr (mem_filter.mpr ⟨hq, by simp [retains, hinfo, hknown]⟩)
    · rwa [State.activeQueues, State.peerInfo, AList.lookup_insert_ne hne]

/-- After every sequence of calls, whatever they are given and whichever
of them throw. -/
theorem after_calls (nil : π) (calls : List (Call π κ)) :
    let s := calls.foldl (State.after nil) State.empty
    Consistent s ∧
      (∀ call : Call π κ, (call.failure nil s).isSome → s.after nil call = s) ∧
      (∀ remotePeerId, s.activeQueues remotePeerId ≠ [] →
        (tryGetQueue remotePeerId s).1 ∈ s.activeQueues remotePeerId) ∧
      ∀ remotePeerId queue remoteAddress peer, ∀ q ∈ s.activeQueues peer, ∀ info,
        s.connections2PeerId.lookup q = some info → remoteAddress ≠ [] →
        info.remoteAddress ≠ [] → info.remoteAddress ≠ remoteAddress →
          q ∈ (s.after nil (.registerQueue remotePeerId queue remoteAddress)).activeQueues
            peer := by
  have hs := consistent_empty.calls nil calls
  refine ⟨hs, fun call => State.after_failure hs, fun peer => tryGetQueue_mem,
    fun peer queue address other q hq info hinfo haddress hinfoAddress hne => ?_⟩
  refine registerQueue_active hs hq hinfo ?_
  simp [differentKnown, haddress, hinfoAddress, hne.symm]

end Baselib.Messaging.OutgoingBackendState
