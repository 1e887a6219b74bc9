/-
Baselib.Security.AuthorizationCacheTheorems — what the cache answers, and
how much it holds, after any sequence of lock sections.

An entry only appears through an update which has a principal, and it
stays or goes with every other section. So the entry of a token is traced
back to the last such update of that token, with no eviction since. The
size grows by at most the one entry of an update, which looks at it first.
-/
import Mathlib.Data.List.Induction
import Mathlib.Order.Basic
import Baselib.Security.AuthorizationCache

namespace Baselib.Security.AuthorizationCache

open List

variable {τ κ π : Type} [DecidableEq κ] {key : τ → κ} {s : State κ π} {t : τ}
variable {info : AuthorizationInfo π}

/-! ## The sweep -/

variable {interval : Int} {now : κ → Int} {cache : AList fun _ : κ => AuthorizationInfo π}

theorem sweepEntry_lookup {k k' : κ} (h : (sweepEntry interval now cache k).lookup k' = some info) :
    cache.lookup k' = some info := by
  unfold sweepEntry at h
  split at h
  · split_ifs at h
    · obtain rfl | hk := eq_or_ne k' k
      · simp [AList.lookup_erase] at h
      · rwa [AList.lookup_erase_ne hk] at h
    · exact h
  · exact h

theorem sweepEntry_size (k : κ) :
    (sweepEntry interval now cache k).keys.length ≤ cache.keys.length := by
  unfold sweepEntry
  split
  · split_ifs
    · rw [AList.keys_erase]
      exact length_erase_le
    · exact Nat.le_refl _
  · exact Nat.le_refl _

theorem foldl_sweepEntry (ks : List κ) :
    (∀ k info, (ks.foldl (sweepEntry interval now) cache).lookup k = some info →
      cache.lookup k = some info) ∧
    (ks.foldl (sweepEntry interval now) cache).keys.length ≤ cache.keys.length := by
  induction ks generalizing cache with
  | nil => exact ⟨fun _ _ h => h, Nat.le_refl _⟩
  | cons k ks ih =>
    rw [foldl_cons]
    obtain ⟨hlookup, hsize⟩ := @ih (sweepEntry interval now cache k)
    exact ⟨fun k' info h => sweepEntry_lookup (hlookup k' info h),
      Nat.le_trans hsize (sweepEntry_size k)⟩

theorem sweep_lookup {k : κ} (h : (sweepStaleEntriesNoLock now s).cache.lookup k = some info) :
    s.cache.lookup k = some info := (foldl_sweepEntry s.cache.keys).1 k info h

/-! ## One section -/

/-- The section is an update of a token which has got a principal. -/
def Updates (t : τ) (p : π) (time : Int) (l : Label τ κ π) : Prop :=
  ∃ tryOnly sweepNow, l = .update t (.executed (some p)) tryOnly sweepNow time

/-- The section neither evicts a token nor gets a principal for it. -/
def Keeps (t : τ) (l : Label τ κ π) : Prop :=
  l ≠ .evict t ∧ ∀ p time, ¬ Updates t p time l

theorem insert_size {k : κ} {n : Nat}
    (h : cache.keys.length ≤ n) (hroom : cache.keys.length < n ∨ k ∈ cache) :
    (cache.insert k info).keys.length ≤ n := by
  rw [AList.keys_insert, length_cons]
  cases hroom with
  | inl hlt =>
    have hle : (cache.keys.erase k).length ≤ cache.keys.length := length_erase_le
    omega
  | inr hmem =>
    have hpos := length_pos_of_mem (AList.mem_keys.mp hmem)
    rw [length_erase_of_mem (AList.mem_keys.mp hmem)]
    omega

/-- What storing a principal does to the entries. -/
theorem store_spec (token : τ) (p : π) (sweepNow : κ → Int) (time : Int)
    (h : s.size ≤ s.maxEntries) :
    (store key token p sweepNow time s).size ≤ s.maxEntries ∧
    (∀ k info, (store key token p sweepNow time s).cache.lookup k = some info →
      k = key token ∧ info = ⟨p, time⟩ ∨ k ≠ key token ∧ s.cache.lookup k = some info) ∧
    (store key token p sweepNow time s).maxEntries = s.maxEntries := by
  have hinsert : ∀ (c : AList fun _ : κ => AuthorizationInfo π) k info,
      (c.insert (key token) ⟨p, time⟩).lookup k = some info →
      k = key token ∧ info = ⟨p, time⟩ ∨ k ≠ key token ∧ c.lookup k = some info := by
    intro c k info hk
    by_cases heq : k = key token
    · subst heq
      rw [AList.lookup_insert, Option.some.injEq] at hk
      exact .inl ⟨rfl, hk.symm⟩
    · rw [AList.lookup_insert_ne heq] at hk
      exact .inr ⟨heq, hk⟩
  unfold store
  split_ifs with hfull
  · obtain ⟨-, hnew⟩ := hfull
    have hsweep := (foldl_sweepEntry s.cache.keys : _ ∧
      (s.cache.keys.foldl (sweepEntry s.freshnessInterval sweepNow) s.cache).keys.length
        ≤ s.cache.keys.length).2
    dsimp only
    split_ifs with hstill
    · refine ⟨Nat.le_trans hsweep h, fun k info hk => .inr ⟨fun heq => ?_, sweep_lookup hk⟩, rfl⟩
      have hold := sweep_lookup hk
      rw [heq, Option.isNone_iff_eq_none.mp hnew] at hold
      cases hold
    · refine ⟨insert_size (Nat.le_trans hsweep h) (.inl (Nat.lt_of_not_le hstill)), ?_, rfl⟩
      intro k info hk
      exact (hinsert _ k info hk).imp_right fun hold => ⟨hold.1, sweep_lookup hold.2⟩
  · refine ⟨insert_size h ?_, hinsert s.cache, rfl⟩
    by_cases hlt : s.cache.keys.length < s.maxEntries
    · exact .inl hlt
    · refine .inr (AList.lookup_isSome.mp ?_)
      cases hlookup : s.cache.lookup (key token) with
      | none => exact absurd ⟨Nat.le_of_not_lt hlt, by rw [hlookup]; rfl⟩ hfull
      | some info => rfl

variable (key s) in
theorem update_state (token : τ) (task : AuthorizationTask π) (tryOnly : Bool)
    (sweepNow : κ → Int) (time : Int) :
    (∃ p, task = .executed (some p) ∧
      updateInternal key token task tryOnly sweepNow time s =
        (.ok (some p), store key token p sweepNow time s)) ∨
    (∀ p, (updateInternal key token task tryOnly sweepNow time s).1 ≠ .ok (some p)) ∧
      (updateInternal key token task tryOnly sweepNow time s).2 = s := by
  cases task with
  | notReady => exact .inr ⟨fun _ h => (nomatch h), rfl⟩
  | failed => cases tryOnly <;> exact .inr ⟨fun _ h => (nomatch h), rfl⟩
  | executed principal =>
    cases principal with
    | some p => exact .inl ⟨p, rfl, rfl⟩
    | none => cases tryOnly <;> exact .inr ⟨fun _ h => (nomatch h), rfl⟩

/-- Where the entry of a token comes from. -/
theorem step_entry (hkey : Function.Injective key) (hsize : s.size ≤ s.maxEntries)
    {l : Label τ κ π}
    (h : (step key s l).cache.lookup (key t) = some info) :
    Updates t info.principal info.timestamp l ∨
      Keeps t l ∧ s.cache.lookup (key t) = some info := by
  cases l with
  | createAuthorizationTask _ | configureFreshnessInterval _ => exact .inr ⟨⟨nofun, nofun⟩, h⟩
  | update token task tryOnly sweepNow time =>
    obtain ⟨p, rfl, heq⟩ | ⟨hnone, heq⟩ :=
      update_state key s token task tryOnly sweepNow time
    · rw [step, heq] at h
      obtain ⟨htoken, rfl⟩ | ⟨hother, hold⟩ :=
        (store_spec token p sweepNow time hsize).2.1 (key t) info h
      · cases hkey htoken
        exact .inl ⟨tryOnly, sweepNow, rfl⟩
      · refine .inr ⟨⟨nofun, fun p' time' hupdates => ?_⟩, hold⟩
        obtain ⟨_, _, hlabel⟩ := hupdates
        cases hlabel
        exact hother rfl
    · rw [step, heq] at h
      refine .inr ⟨⟨nofun, fun p' time' hupdates => ?_⟩, h⟩
      obtain ⟨_, _, hlabel⟩ := hupdates
      cases hlabel
      exact hnone p' rfl
  | tryGetAuthorizedPrinciplal token now =>
    refine .inr ⟨⟨nofun, nofun⟩, ?_⟩
    rw [step, tryGetAuthorizedPrinciplal] at h
    split at h
    · exact h
    · split_ifs at h
      · by_cases hk : key t = key token
        · rw [hk, AList.lookup_erase] at h
          cases h
        · rwa [AList.lookup_erase_ne hk] at h
      · exact h
  | evict token =>
    by_cases hk : key t = key token
    · rw [step, evict, hk, AList.lookup_erase] at h
      cases h
    · rw [step, evict, AList.lookup_erase_ne hk] at h
      exact .inr ⟨⟨fun hlabel => hk (by cases hlabel; rfl), nofun⟩, h⟩

theorem step_size (hsize : s.size ≤ s.maxEntries) (l : Label τ κ π) :
    (step key s l).size ≤ s.maxEntries ∧ (step key s l).maxEntries = s.maxEntries := by
  have herase : ∀ k, (s.cache.erase k).keys.length ≤ s.maxEntries := by
    intro k
    rw [AList.keys_erase]
    exact Nat.le_trans length_erase_le hsize
  cases l with
  | createAuthorizationTask token => exact ⟨hsize, rfl⟩
  | configureFreshnessInterval interval => exact ⟨hsize, rfl⟩
  | update token task tryOnly sweepNow time =>
    obtain ⟨p, -, heq⟩ | ⟨-, heq⟩ :=
      update_state key s token task tryOnly sweepNow time
    · rw [step, heq]
      obtain ⟨hle, -, hmax⟩ := store_spec token p sweepNow time hsize
      exact ⟨hle, hmax⟩
    · rw [step, heq]
      exact ⟨hsize, rfl⟩
  | tryGetAuthorizedPrinciplal token now =>
    rw [step, tryGetAuthorizedPrinciplal]
    split
    · exact ⟨hsize, rfl⟩
    · split_ifs
      · exact ⟨herase _, rfl⟩
      · exact ⟨hsize, rfl⟩
  | evict token => exact ⟨herase _, rfl⟩

/-! ## Runs -/

variable {ls : List (Label τ κ π)}

theorem run_append (ls ls' : List (Label τ κ π)) :
    run key s (ls ++ ls') = run key (run key s ls) ls' := foldl_append

variable (key) in
theorem run_size (interval : Option Int) (maxEntries : Nat) (ls : List (Label τ κ π)) :
    (run key (.init interval maxEntries) ls).size ≤ maxEntries ∧
      (run key (.init interval maxEntries) ls).maxEntries = maxEntries := by
  induction ls using reverseRecOn with
  | nil => exact ⟨Nat.zero_le _, rfl⟩
  | append_singleton ls l ih =>
    obtain ⟨hsize, hmax⟩ := ih
    rw [run_append]
    obtain ⟨hsize', hmax'⟩ := step_size (hsize.trans_eq hmax.symm) l
    exact ⟨hsize'.trans_eq hmax, hmax'.trans hmax⟩

/-- The last update of a token in a sequence which got a principal got it
at `time`, and the token has not been evicted since. -/
def LastUpdate (ls : List (Label τ κ π)) (t : τ) (p : π) (time : Int) : Prop :=
  ∃ before l after, ls = before ++ l :: after ∧ Updates t p time l ∧ ∀ l' ∈ after, Keeps t l'

theorem run_entry (hkey : Function.Injective key) (interval : Option Int) (maxEntries : Nat)
    (h : (run key (.init interval maxEntries) ls).cache.lookup (key t) = some info) :
    LastUpdate ls t info.principal info.timestamp := by
  induction ls using reverseRecOn with
  | nil => cases h
  | append_singleton ls l ih =>
    rw [run_append] at h
    obtain ⟨hsize, hmax⟩ := run_size key interval maxEntries ls
    obtain hupdates | ⟨hkeeps, hold⟩ := step_entry hkey (hsize.trans_eq hmax.symm) h
    · exact ⟨ls, l, [], rfl, hupdates, fun _ hmem => absurd hmem not_mem_nil⟩
    · obtain ⟨before, l', after, rfl, hupdates, hafter⟩ := ih hold
      refine ⟨before, l', after ++ [l], by rw [append_assoc]; rfl, hupdates, ?_⟩
      intro l'' hmem
      rw [mem_append, mem_singleton] at hmem
      cases hmem with
      | inl hmem => exact hafter l'' hmem
      | inr heq => exact heq ▸ hkeeps

/-- After any sequence of lock sections: the cache holds no more than its
maximum; a principal which is answered for a token is the one the last
update of the token got, with no eviction since, at a time no later than
now and no longer ago than the freshness interval; and an update which
gets no principal leaves the cache alone. -/
theorem run_safe (key : τ → κ) (hkey : Function.Injective key) (interval : Option Int)
    (maxEntries : Nat) (ls : List (Label τ κ π)) (s : State κ π)
    (hrun : run key (.init interval maxEntries) ls = s) :
    s.size ≤ maxEntries ∧
    (∀ t now p, (tryGetAuthorizedPrinciplal key t now s).1 = some p →
      ∃ time, LastUpdate ls t p time ∧ time ≤ now ∧ now - time ≤ s.freshnessInterval) ∧
    ∀ t task tryOnly sweepNow now,
      (∀ p, (updateInternal key t task tryOnly sweepNow now s).1 ≠ .ok (some p)) →
      (updateInternal key t task tryOnly sweepNow now s).2 = s := by
  subst hrun
  refine ⟨(run_size key interval maxEntries ls).1, fun t now p hlookup => ?_,
    fun t task tryOnly sweepNow now hfails => ?_⟩
  · unfold tryGetAuthorizedPrinciplal at hlookup
    split at hlookup
    · cases hlookup
    · rename_i info hinfo
      split_ifs at hlookup with hstale
      cases Option.some.inj hlookup
      unfold isStale at hstale
      simp only [Bool.or_eq_true, decide_eq_true_eq, not_or] at hstale
      exact ⟨info.timestamp, run_entry hkey interval maxEntries hinfo,
        Int.not_lt.mp hstale.1, Int.not_lt.mp hstale.2⟩
  · obtain ⟨p, -, heq⟩ | ⟨-, heq⟩ := update_state key
      (run key (.init interval maxEntries) ls) t task tryOnly sweepNow now
    · exact absurd (congrArg Prod.fst heq) (hfails p)
    · exact heq

/-- Two tokens and a cache of one entry: the second token is not cached
while the first one is fresh. -/
def twoTokens : List (Label Nat Nat String) :=
  [.update 1 (.executed (some "a")) false (fun _ => 100) 100,
    .update 2 (.executed (some "b")) false (fun _ => 105) 105]

theorem run_safe_twoTokens :
    (run id (.init (some 10) 1) twoTokens).size ≤ 1 ∧
      ∃ time, LastUpdate twoTokens 1 "a" time ∧ time ≤ 110 ∧ 110 - time ≤ 10 := by
  have h := run_safe id Function.injective_id (some 10) 1 twoTokens _ rfl
  exact ⟨h.1, h.2.1 1 110 "a" (by decide)⟩

end Baselib.Security.AuthorizationCache
