/-
Baselib.Messaging.ProxyClientsStateTheorems — the pruning takes no client
that was seen active.

A time in the prune state is the time a client was looked at in some check
that found it inactive, and no check since has found it active: a check
drops the ids that are active before it looks at the others. So a client
whose time is old enough was inactive at both ends of the interval. The
loop over the inactive clients touches each of them once, and what it does
to a client is a matter of that client's time alone.
-/
import Baselib.Messaging.ProxyClientsState

namespace Baselib.Messaging.ProxyClientsState

open Lib List

variable {π κ : Type} {s : System π κ}

/-! ## The history -/

/-- The client was looked at then, in a check that found it inactive, and no
check since has found it active. -/
def InactiveSince (history : List (Observation π)) (p : π) (t : Int) : Prop :=
  ∃ before o after, history = before ++ o :: after ∧ p ∈ o.inactive ∧ o.now p = t ∧
    ∀ o' ∈ after, p ∉ o'.active

/-- A check prunes clients that are inactive and have been for the interval. -/
def PrunesSafely (history : List (Observation π)) (o : Observation π) : Prop :=
  ∀ p ∈ o.pruned, p ∈ o.inactive ∧
    ∃ t, InactiveSince history p t ∧ o.interval ≤ o.now p - t

theorem InactiveSince.append {history : List (Observation π)} {p : π} {t : Int}
    (h : InactiveSince history p t) {o : Observation π} (ho : p ∉ o.active) :
    InactiveSince (history ++ [o]) p t := by
  obtain ⟨before, o', after, rfl, hinactive, htime, hafter⟩ := h
  refine ⟨before, o', after ++ [o], by simp, hinactive, htime, fun o'' ho'' => ?_⟩
  rcases mem_append.mp ho'' with h | h
  · exact hafter o'' h
  · exact mem_singleton.mp h ▸ ho

theorem inactiveSince_now {history : List (Observation π)} {p : π} {o : Observation π}
    (h : p ∈ o.inactive) : InactiveSince (history ++ [o]) p (o.now p) :=
  ⟨history, o, [], rfl, h, rfl, nofun⟩

variable [DecidableEq π]

/-! ## The maps -/

theorem mem_emplace {ν : Type} {p q : π} {v : ν} {m : AList fun _ : π => ν} :
    q ∈ emplace p v m ↔ q = p ∨ q ∈ m := by
  unfold emplace
  split_ifs with h
  · constructor
    · exact .inr
    · rintro (rfl | hq)
      · exact h
      · exact hq
  · exact AList.mem_insert m

theorem mem_foldl_emplace {ν : Type} {v : ν} {q : π} {ps : List π} {m : AList fun _ : π => ν} :
    q ∈ ps.foldl (fun m p => emplace p v m) m ↔ q ∈ ps ∨ q ∈ m := by
  induction ps generalizing m with
  | nil => simp
  | cons p ps ih =>
    rw [foldl_cons, ih, mem_emplace, mem_cons]
    constructor
    · rintro (h | h | h)
      · exact .inl (.inr h)
      · exact .inl (.inl h)
      · exact .inr h
    · rintro ((h | h) | h)
      · exact .inr (.inl h)
      · exact .inl h
      · exact .inr (.inr h)

theorem lookup_foldl_erase {ν : Type} {q : π} {ps : List π} {m : AList fun _ : π => ν} :
    (ps.foldl (fun m p => m.erase p) m).lookup q = if q ∈ ps then none else m.lookup q := by
  induction ps generalizing m with
  | nil => simp
  | cons p ps ih =>
    rw [foldl_cons, ih]
    obtain rfl | hq := eq_or_ne q p
    · simp
    · simp [hq, AList.lookup_erase_ne hq]

omit [DecidableEq π] in
/-- A loop whose turns keep the keys keeps the keys. -/
theorem mem_foldl {q : π} {turn : (AList fun _ : π => ClientInfo κ) → π →
    AList fun _ : π => ClientInfo κ} (hturn : ∀ m p, q ∈ turn m p ↔ q ∈ m) (ps : List π) :
    ∀ m, q ∈ ps.foldl turn m ↔ q ∈ m := by
  induction ps with
  | nil => intro m; rfl
  | cons p ps ih =>
    intro m
    rw [foldl_cons, ih, hturn]

theorem mem_configureMissing {connected : κ → Bool} {reached : π → Bool} {q : π}
    {clients : AList fun _ : π => ClientInfo κ} :
    q ∈ configureMissing connected reached clients ↔ q ∈ clients := by
  refine mem_foldl (fun m p => ?_) clients.keys clients
  split
  · split_ifs
    · exact AList.mem_replace
    · rfl
  · rfl

/-! ## The loop over the inactive clients -/

variable (interval : Int) (now : π → Int)

/-- The client has a time, and it is old enough. -/
def Stale (interval : Int) (now : π → Int) (l : Pruning π κ) (p : π) : Prop :=
  ∃ since, l.clientsPruneState.lookup p = some since ∧ ¬now p - since < interval

/-- A round leaves every other client alone. -/
theorem pruneInactive_of_ne {l : Pruning π κ} {p q : π} (h : q ≠ p) :
    (pruneInactive interval now l p).clientsPruneState.lookup q = l.clientsPruneState.lookup q ∧
      (q ∈ (pruneInactive interval now l p).clientsState ↔ q ∈ l.clientsState) ∧
      (q ∈ (pruneInactive interval now l p).pruned ↔ q ∈ l.pruned) := by
  unfold pruneInactive
  split
  · exact ⟨AList.lookup_insert_ne h, Iff.rfl, Iff.rfl⟩
  · split_ifs
    · exact ⟨rfl, Iff.rfl, Iff.rfl⟩
    · refine ⟨AList.lookup_erase_ne h, ?_, ?_⟩
      · simp [AList.mem_erase, h]
      · simp [h]

/-- What a round does to its client. -/
theorem pruneInactive_self {l : Pruning π κ} {p : π} (hp : p ∉ l.pruned) :
    (∀ t, (pruneInactive interval now l p).clientsPruneState.lookup p = some t →
      (t = now p ∨ l.clientsPruneState.lookup p = some t) ∧
        (p ∈ (pruneInactive interval now l p).clientsState ↔ p ∈ l.clientsState)) ∧
    (p ∈ (pruneInactive interval now l p).pruned → Stale interval now l p) := by
  unfold pruneInactive
  split
  · refine ⟨fun t ht => ⟨.inl ?_, Iff.rfl⟩, fun h => absurd h hp⟩
    rw [AList.lookup_insert] at ht
    exact (Option.some.inj ht).symm
  · rename_i since hsince
    split_ifs with hrecent
    · exact ⟨fun t ht => ⟨.inr ht, Iff.rfl⟩, fun h => absurd h hp⟩
    · refine ⟨fun t ht => ?_, fun _ => ⟨since, hsince, hrecent⟩⟩
      rw [AList.lookup_erase] at ht
      cases ht

theorem foldl_pruneInactive_of_not_mem {q : π} {ps : List π} {l : Pruning π κ} (hq : q ∉ ps) :
    (ps.foldl (pruneInactive interval now) l).clientsPruneState.lookup q
        = l.clientsPruneState.lookup q ∧
      (q ∈ (ps.foldl (pruneInactive interval now) l).clientsState ↔ q ∈ l.clientsState) ∧
      (q ∈ (ps.foldl (pruneInactive interval now) l).pruned ↔ q ∈ l.pruned) := by
  induction ps generalizing l with
  | nil => exact ⟨rfl, Iff.rfl, Iff.rfl⟩
  | cons p ps ih =>
    have hne : q ≠ p := fun e => hq (e ▸ mem_cons_self)
    obtain ⟨h₁, h₂, h₃⟩ := pruneInactive_of_ne interval now (l := l) hne
    obtain ⟨h₁', h₂', h₃'⟩ :=
      ih (l := pruneInactive interval now l p) fun h => hq (mem_cons_of_mem _ h)
    exact ⟨h₁'.trans h₁, h₂'.trans h₂, h₃'.trans h₃⟩

/-- What the loop does to one of its clients, which it meets once. -/
theorem foldl_pruneInactive_of_mem {q : π} {ps : List π} {l : Pruning π κ} (hnodup : ps.Nodup)
    (hq : q ∈ ps) (hpruned : q ∉ l.pruned) :
    (∀ t, (ps.foldl (pruneInactive interval now) l).clientsPruneState.lookup q = some t →
      (t = now q ∨ l.clientsPruneState.lookup q = some t) ∧
        (q ∈ (ps.foldl (pruneInactive interval now) l).clientsState ↔ q ∈ l.clientsState)) ∧
    (q ∈ (ps.foldl (pruneInactive interval now) l).pruned → Stale interval now l q) := by
  induction ps generalizing l with
  | nil => cases hq
  | cons p ps ih =>
    rw [nodup_cons] at hnodup
    rw [foldl_cons]
    obtain rfl | hqp := eq_or_ne q p
    · obtain ⟨h₁, h₂, h₃⟩ := foldl_pruneInactive_of_not_mem interval now
        (l := pruneInactive interval now l q) hnodup.1
      rw [h₁, h₂, h₃]
      exact pruneInactive_self interval now hpruned
    · obtain ⟨h₁, h₂, h₃⟩ := pruneInactive_of_ne interval now (l := l) hqp
      have hrest := ih (l := pruneInactive interval now l p) hnodup.2
        ((mem_cons.mp hq).resolve_left hqp) (mt h₃.mp hpruned)
      rwa [Stale, h₁, h₂] at hrest

/-! ## The invariant -/

/-- Every time is that of an inactive client, and every pruning was safe. -/
structure Inv (s : System π κ) : Prop where
  keys_subset : ∀ p ∈ s.state.clientsPruneState, p ∈ s.state.clientsState
  inactive_since : ∀ p t, s.state.clientsPruneState.lookup p = some t →
    InactiveSince s.history p t
  prunes_safely : ∀ before o after, s.history = before ++ o :: after → PrunesSafely before o

theorem Inv.init (now : Int) : Inv (System.init π κ now) where
  keys_subset p hp := absurd hp (AList.notMem_empty p)
  inactive_since p t h := by
    simp [System.init, State.init, AList.lookup_empty] at h
  prunes_safely before o after h := by
    simp [System.init] at h

/-- The prune state is as it was, and no client is gone. -/
theorem Inv.of_grown {s' : System π κ} (h : Inv s)
    (hprune : s'.state.clientsPruneState = s.state.clientsPruneState)
    (hclients : ∀ p ∈ s.state.clientsState, p ∈ s'.state.clientsState)
    (hhistory : s'.history = s.history) : Inv s' where
  keys_subset p hp := hclients p (h.keys_subset p (hprune ▸ hp))
  inactive_since p t ht := hhistory ▸ h.inactive_since p t (hprune ▸ ht)
  prunes_safely before o after heq := h.prunes_safely before o after (hhistory ▸ heq)

/-- A check that ran keeps the invariant, with what it has seen and done at
the end of the history. -/
theorem Inv.check (h : Inv s) {clock : Clock π} {activePeerIds : Option (List π)}
    {state : State π κ} {observation : Observation π}
    (hcheck : checkToPruneStaleClientsStateNoLock clock activePeerIds s.state
      = (state, .done observation)) : Inv ⟨state, s.history ++ [observation]⟩ := by
  unfold checkToPruneStaleClientsStateNoLock at hcheck
  split_ifs at hcheck
  · simp at hcheck
  · simp at hcheck
  cases activePeerIds with
  | none => simp at hcheck
  | some active =>
    simp only [Prod.mk.injEq, Check.done.injEq] at hcheck
    obtain ⟨hstate, hobservation⟩ := hcheck
    set inactive := s.state.clientsState.keys.filter fun p => p ∉ active with hinactive
    set l₀ : Pruning π κ :=
      { clientsState := s.state.clientsState
        clientsPruneState := active.foldl (fun m p => m.erase p) s.state.clientsPruneState
        pruned := [] } with hl₀
    set l := inactive.foldl (pruneInactive s.state.clientsPruneInterval clock.now) l₀
    have hnodup : inactive.Nodup := (AList.keys_nodup _).filter _
    have hmem : ∀ p, p ∈ inactive ↔ p ∈ s.state.clientsState ∧ p ∉ active := by
      intro p
      simp [hinactive, AList.mem_keys]
    -- A time that is left from before the check is that of a client which is not active now.
    have hleft : ∀ {p t}, l₀.clientsPruneState.lookup p = some t →
        p ∈ inactive ∧ InactiveSince s.history p t := by
      intro p t ht
      rw [hl₀, lookup_foldl_erase] at ht
      split_ifs at ht with hactive
      have hin : p ∈ s.state.clientsPruneState := by
        rw [← AList.lookup_isSome, ht]
        rfl
      exact ⟨(hmem p).mpr ⟨h.keys_subset p hin, hactive⟩, h.inactive_since p t ht⟩
    have hloop : ∀ {p}, p ∈ inactive → _ := fun hp =>
      foldl_pruneInactive_of_mem s.state.clientsPruneInterval clock.now (l := l₀) hnodup hp
        not_mem_nil
    have hkept : ∀ {p t}, l.clientsPruneState.lookup p = some t → p ∈ inactive := by
      intro p t ht
      by_contra hp
      have hsame := (foldl_pruneInactive_of_not_mem s.state.clientsPruneInterval clock.now
        (l := l₀) hp).1
      exact hp (hleft (hsame.symm.trans ht)).1
    subst hstate hobservation
    refine ⟨fun p hp => ?_, fun p t ht => ?_, fun before o after heq => ?_⟩
    · obtain ⟨t, ht⟩ := Option.isSome_iff_exists.mp (AList.lookup_isSome.mpr hp)
      have hin := hkept ht
      have hclients := (((hloop hin).1 t ht).2).mpr ((hmem p).mp hin).1
      exact mem_foldl_emplace.mpr (.inr hclients)
    · have hin := hkept ht
      rcases ((hloop hin).1 t ht).1 with rfl | hold
      · exact inactiveSince_now hin
      · exact (hleft hold).2.append ((hmem p).mp hin).2
    · rcases eq_nil_or_concat after with rfl | ⟨init, last, rfl⟩
      · obtain ⟨rfl, ho⟩ := append_inj' heq rfl
        obtain rfl := (List.cons.inj ho).1
        intro p hp
        have hin : p ∈ inactive := by
          by_contra hout
          have hsame := (foldl_pruneInactive_of_not_mem s.state.clientsPruneInterval clock.now
            (l := l₀) hout).2.2
          exact absurd (hsame.mp hp) not_mem_nil
        obtain ⟨since, hsince, hold⟩ := (hloop hin).2 hp
        exact ⟨hin, since, (hleft hsince).2, not_lt.mp hold⟩
      · rw [concat_eq_append, ← cons_append, ← append_assoc] at heq
        exact h.prunes_safely before o init (append_inj' heq rfl).1

variable [DecidableEq κ]

theorem Inv.timer (h : Inv s) (timer : Timer π κ) : Inv (step s (.timer timer)) := by
  have hsame : Inv ⟨s.state, s.history⟩ := h
  rw [step, onTimer]
  by_cases hdisposed : s.state.isDisposed = true
  · simpa [hdisposed] using hsame
  simp only [hdisposed]
  cases hcheck : checkToPruneStaleClientsStateNoLock timer.clock timer.activePeerIds s.state with
  | mk state check =>
    have hrun : ∀ history, Inv ⟨state, history⟩ → Inv ⟨{ state with
        clientsState := configureMissing timer.connected timer.reached state.clientsState },
        history⟩ :=
      fun history hi => hi.of_grown rfl (fun p hp => mem_configureMissing.mpr hp) rfl
    have hstate : (∀ observation, check ≠ .done observation) → state = s.state := by
      intro hcheck'
      unfold checkToPruneStaleClientsStateNoLock at hcheck
      split_ifs at hcheck
      · exact (Prod.mk.inj hcheck).1.symm
      · exact (Prod.mk.inj hcheck).1.symm
      · split at hcheck
        · exact (Prod.mk.inj hcheck).1.symm
        · exact absurd (Prod.mk.inj hcheck).2.symm (hcheck' _)
    cases check with
    | notDue =>
      have hi : Inv ⟨state, s.history⟩ := hstate (by simp) ▸ hsame
      by_cases hdisconnected : timer.fullyDisconnected = true
      · simpa [hdisconnected] using hi
      · simpa [hdisconnected] using hrun s.history hi
    | failed =>
      have hi : Inv ⟨state, s.history⟩ := hstate (by simp) ▸ hsame
      simpa using hi
    | done observation =>
      have hi := h.check hcheck
      by_cases hdisconnected : timer.fullyDisconnected = true
      · simpa [hdisconnected] using hi
      · simpa [hdisconnected] using hrun _ hi

theorem Inv.step (h : Inv s) (label : Label π κ) : Inv (ProxyClientsState.step s label) := by
  cases label with
  | timer timer => exact h.timer timer
  | peerConnected peerId =>
    exact h.of_grown rfl (fun p hp => (AList.mem_insert _).mpr (.inr hp)) rfl
  | associateCompleted failed channelId peerId =>
    refine h.of_grown ?_ (fun p hp => ?_) rfl
    · simp only [ProxyClientsState.step, onPeerIdAssociateTaskCompletedCallback]
      split_ifs <;> rfl
    · simp only [ProxyClientsState.step, onPeerIdAssociateTaskCompletedCallback]
      split_ifs
      · exact hp
      · exact (AList.mem_insert _).mpr (.inr hp)
  | setIntervals _ _ | setHostServices _ => exact h.of_grown rfl (fun _ hp => hp) rfl
  | dispose =>
    have hdispose : (disposeInternal s.state).clientsPruneState = s.state.clientsPruneState ∧
        (disposeInternal s.state).clientsState = s.state.clientsState := by
      unfold disposeInternal baseDisposeInternal
      split_ifs <;> exact ⟨rfl, rfl⟩
    exact h.of_grown hdispose.1 (fun p hp => hdispose.2 ▸ hp) rfl

theorem Reached.inv {time : Int} (h : Reached time s) : Inv s := by
  refine Transition.Reachable.invariant (P := Inv) ?_ ?_ h
  · rintro s rfl
    exact Inv.init time
  · intro s label s' hs hstep
    cases hstep
    exact hs.step label

/-- In every run a client is pruned only in a check that finds it inactive,
when an earlier check has found it inactive the interval before and none
since has found it active; and the prune state has no client that is not in
the state of the clients. -/
theorem pruning_safe {time : Int} {s : System π κ} (h : Reached time s) :
    (∀ p ∈ s.state.clientsPruneState.keys, p ∈ s.state.clientsState.keys) ∧
    ∀ before o after p, s.history = before ++ o :: after → p ∈ o.pruned →
      p ∈ o.inactive ∧
      ∃ before' o' between, before = before' ++ o' :: between ∧ p ∈ o'.inactive ∧
        o.interval ≤ o.now p - o'.now p ∧ ∀ o'' ∈ between, p ∉ o''.active := by
  refine ⟨fun p hp => ?_, fun before o after p heq hp => ?_⟩
  · exact AList.mem_keys.mp (h.inv.keys_subset p (AList.mem_keys.mpr hp))
  · obtain ⟨hinactive, t, hsince, hinterval⟩ := h.inv.prunes_safely before o after heq p hp
    obtain ⟨before', o', between, hbefore, hin, rfl, hbetween⟩ := hsince
    exact ⟨hinactive, before', o', between, hbefore, hin, hinterval, hbetween⟩

/-- A check with no active ids, at one time. -/
def checkAt (time : Int) : Label ℕ ℕ :=
  .timer
    { clock := { start := time, now := fun _ => time, finish := time }
      activePeerIds := some []
      fullyDisconnected := false
      connected := fun _ => true
      reached := fun _ => true }

/-- A peer connects and is found inactive twice, half a minute apart. -/
def twoChecks : List (Label ℕ ℕ) :=
  [.setHostServices true, .peerConnected 7, checkAt 10000000, checkAt 40000000]

theorem pruning_safe_twoChecks :
    let s := twoChecks.foldl step (System.init ℕ ℕ 0)
    s.history.map Observation.pruned = [[], [7]] ∧ s.state.clientsState.keys = [] ∧
      ∀ p ∈ s.state.clientsPruneState.keys, p ∈ s.state.clientsState.keys := by
  have hreached : Reached 0 (twoChecks.foldl step (System.init ℕ ℕ 0)) :=
    ⟨_, twoChecks, rfl, rfl⟩
  exact ⟨by decide, by decide, (pruning_safe hreached).1⟩

end Baselib.Messaging.ProxyClientsState
