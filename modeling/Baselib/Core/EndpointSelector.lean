/-
Baselib.Core.EndpointSelector — the circular iterators over endpoints:
`core/EndpointSelectorImpl.h`.

An iterator stands on an endpoint and counts how often it was moved on to each
of them. A retry is allowed while the count of the endpoint it stands on is
below the maximum, so the endpoint it started on, which it was not moved on to,
has one retry more than the others (`canRetry_iff`).

A clock reading, in milliseconds, is an argument; `none` is the time of
negative infinity.
-/
import Baselib.Lib.Octets
import Baselib.Lib.Rotation

namespace Baselib.Core.EndpointSelector

open Lib

structure Endpoint where
  host : Octets
  port : Nat
  deriving DecidableEq

/-- `EndpointSelectorIteratorImpl` with its base class. -/
structure EndpointCircularIterator where
  entries : List Endpoint
  maxRetryCount : Nat
  retryTimeout : Int
  index : Nat
  retryCounts : Nat → Nat
  approxLastRetryTime : Option Int
  index_lt : index < entries.length

namespace EndpointCircularIterator

def DEFAULT_MAX_RETRY_COUNT : Nat := 15

def DEFAULT_RETRY_TIMEOUT_IN_SECONDS : Nat := 6

/-- `createIterator`; `none` is the exception of an empty selector. -/
def create (entries : List Endpoint) (maxRetryCount : Nat) (retryTimeout : Int) :
    Option EndpointCircularIterator :=
  if h : 0 < entries.length then
    some ⟨entries, maxRetryCount, retryTimeout, 0, fun _ => 0, none, h⟩
  else none

def count (it : EndpointCircularIterator) : Nat := it.entries.length

def endpoint (it : EndpointCircularIterator) : Endpoint := it.entries.get ⟨it.index, it.index_lt⟩

def canRetry (it : EndpointCircularIterator) : Bool := it.retryCounts it.index < it.maxRetryCount

def nextIndex (it : EndpointCircularIterator) : Nat :=
  if it.index + 1 = it.entries.length then 0 else it.index + 1

theorem nextIndex_lt (it : EndpointCircularIterator) : it.nextIndex < it.entries.length := by
  have h := it.index_lt
  unfold nextIndex
  split <;> omega

def selectNext (it : EndpointCircularIterator) (now : Int) : EndpointCircularIterator :=
  { it with
    index := it.nextIndex
    retryCounts := fun j =>
      if j = it.nextIndex then it.retryCounts j + 1 else it.retryCounts j
    approxLastRetryTime := some now
    index_lt := it.nextIndex_lt }

def resetRetry (it : EndpointCircularIterator) : EndpointCircularIterator :=
  { it with retryCounts := fun _ => 0, approxLastRetryTime := none }

/-- `canRetryNow`, with the timeout it leaves behind. -/
def canRetryNow (it : EndpointCircularIterator) (now timeout : Int) :
    Bool × Int × EndpointCircularIterator :=
  if it.canRetry = false then (false, 0, it)
  else
    match it.approxLastRetryTime with
    | none => (true, timeout, { it with approxLastRetryTime := some now })
    | some last =>
      let nextAttempt := last + it.retryTimeout
      if nextAttempt ≤ now then (true, 0, { it with approxLastRetryTime := some now })
      else (false, nextAttempt - now + 200, it)

variable {it : EndpointCircularIterator} {now timeout : Int} {i k : Nat}

/-- The time gate changes nothing but the time. -/
theorem canRetryNow_eq (it : EndpointCircularIterator) (now timeout : Int) :
    ∃ last, (it.canRetryNow now timeout).2.2 = { it with approxLastRetryTime := last } := by
  unfold canRetryNow
  split
  · exact ⟨it.approxLastRetryTime, rfl⟩
  · split
    · exact ⟨some now, rfl⟩
    · dsimp only
      split
      · exact ⟨some now, rfl⟩
      · exact ⟨it.approxLastRetryTime, rfl⟩

/-- The gate opens when the time has come, and the first time at once. -/
theorem canRetryNow_iff (now timeout : Int) (hretry : it.canRetry = true) :
    (it.canRetryNow now timeout).1 = true ↔
      ∀ last ∈ it.approxLastRetryTime, last + it.retryTimeout ≤ now := by
  unfold canRetryNow
  rw [if_neg (by simp [hretry])]
  cases hlast : it.approxLastRetryTime with
  | none => simp
  | some last =>
    dsimp only
    split <;> simp_all

/-! ## Rounds -/

/-- The iterator after it was moved on `k` times from the position `i`, with
all retries left. -/
structure Moved (it : EndpointCircularIterator) (i k : Nat) : Prop where
  index : it.index = (i + k) % it.count
  retryCounts : ∀ j, it.retryCounts j = (rotation it.count (i + 1) k).count j

theorem nextIndex_eq (it : EndpointCircularIterator) : it.nextIndex = (it.index + 1) % it.count := by
  have h := it.index_lt
  unfold nextIndex count
  split
  next hwrap => rw [hwrap, Nat.mod_self]
  next hnot => exact (Nat.mod_eq_of_lt (by omega)).symm

theorem Moved.selectNext (h : it.Moved i k) (now : Int) : (it.selectNext now).Moved i (k + 1) := by
  have hnext : it.nextIndex = (i + 1 + k) % it.count := by
    rw [nextIndex_eq, h.index, Nat.mod_add_mod]
    congr 1
    omega
  refine ⟨?_, fun j => ?_⟩
  · change it.nextIndex = (i + (k + 1)) % it.count
    rw [hnext]
    congr 1
    omega
  · change (if j = it.nextIndex then it.retryCounts j + 1 else it.retryCounts j) =
      (rotation it.count (i + 1) (k + 1)).count j
    have hlast : rotation it.count (i + 1 + k) 1 = [it.nextIndex] := by
      rw [Lib.rotation, List.range_one, List.map_singleton, Nat.add_zero, hnext]
    rw [rotation_add, List.count_append, hlast, List.count_singleton, h.retryCounts]
    by_cases hj : j = it.nextIndex
    · rw [if_pos hj, if_pos (by simp [hj])]
    · rw [if_neg hj, if_neg (by simpa using Ne.symm hj)]
      rfl

theorem Moved.canRetryNow (h : it.Moved i k) : (it.canRetryNow now timeout).2.2.Moved i k := by
  obtain ⟨last, heq⟩ := canRetryNow_eq it now timeout
  rw [heq]
  exact ⟨h.index, h.retryCounts⟩

theorem moved_resetRetry (it : EndpointCircularIterator) : it.resetRetry.Moved it.index 0 :=
  ⟨(Nat.mod_eq_of_lt it.index_lt).symm, fun _ => rfl⟩

theorem moved_create {entries : List Endpoint} {maxRetryCount : Nat} {retryTimeout : Int}
    (h : create entries maxRetryCount retryTimeout = some it) : it.Moved 0 0 := by
  unfold create at h
  split at h
  · cases h
    exact ⟨(Nat.zero_mod _).symm, fun _ => rfl⟩
  · cases h

/-- The retries of one start: the first endpoint has one more than the
others. -/
theorem Moved.canRetry_iff (h : it.Moved i k) (hmax : 0 < it.maxRetryCount) :
    it.canRetry = true ↔ k ≤ (it.maxRetryCount - 1) * it.count := by
  have hpos : 0 < it.count := Nat.zero_lt_of_lt it.index_lt
  rw [EndpointCircularIterator.canRetry, decide_eq_true_eq, h.retryCounts, h.index]
  cases k with
  | zero => simpa [rotation_zero] using hmax
  | succ k =>
    have hk : it.count * (k / it.count) + k % it.count = k := Nat.div_add_mod k it.count
    have hlast := count_rotation_last (i := i + 1) (q := k / it.count)
      (Nat.mod_lt k hpos)
    rw [Nat.mul_comm, hk] at hlast
    have hindex : i + (k + 1) = i + 1 + k := by omega
    rw [hindex, hlast]
    constructor
    · intro hlt
      have hq : k / it.count + 1 ≤ it.maxRetryCount - 1 := by omega
      calc k + 1 ≤ k / it.count * it.count + it.count := Nat.lt_div_mul_add hpos
        _ = (k / it.count + 1) * it.count := (Nat.succ_mul _ _).symm
        _ ≤ (it.maxRetryCount - 1) * it.count := Nat.mul_le_mul_right _ hq
    · intro hle
      have hq : k / it.count < it.maxRetryCount - 1 :=
        (Nat.div_lt_iff_lt_mul hpos).mpr (by omega)
      omega

/-! ## Before a reconnect -/

/-- The check with which a reconnect begins: when the endpoint has no retry
left the iterator is moved on, and when the next one has none either it is
time to bail. -/
def chkRetry (it : EndpointCircularIterator) (now : Int) : Bool × EndpointCircularIterator :=
  if it.canRetry then (true, it) else ((it.selectNext now).canRetry, it.selectNext now)

/-- The check is never saved by the endpoint after. -/
theorem Moved.chkRetry (h : it.Moved i k) (hmax : 0 < it.maxRetryCount) (now : Int) :
    if k ≤ (it.maxRetryCount - 1) * it.count then it.chkRetry now = (true, it)
    else it.chkRetry now = (false, it.selectNext now) := by
  unfold EndpointCircularIterator.chkRetry
  split
  next hle => rw [if_pos ((h.canRetry_iff hmax).mpr hle)]
  next hgt =>
    have hnext : (it.selectNext now).canRetry = false := by
      rw [Bool.eq_false_iff, Ne, (h.selectNext now).canRetry_iff hmax]
      exact fun hle => hgt (Nat.le_trans (Nat.le_succ k) hle)
    rw [if_neg (fun hretry => hgt ((h.canRetry_iff hmax).mp hretry)), hnext]

/-- How many attempts the retries of one start allow. -/
def budget (it : EndpointCircularIterator) : Nat := (it.maxRetryCount - 1) * it.count + 1

/-- The attempts of a start come to its first endpoint as often as the maximum
says, and to each other one once less. -/
theorem count_rotation_budget (hmax : 0 < it.maxRetryCount) (hi : i < it.count) {t : Nat}
    (ht : t < it.count) : (rotation it.count i it.budget).count t =
      if t = i then it.maxRetryCount else it.maxRetryCount - 1 := by
  rw [budget, count_rotation_succ _ hi ht]
  split <;> omega

theorem chkRetry_eq (it : EndpointCircularIterator) (now : Int) :
    (it.chkRetry now).2 = it ∨ (it.chkRetry now).2 = it.selectNext now := by
  unfold chkRetry
  split
  · exact .inl rfl
  · exact .inr rfl

/-- The endpoints and the maximum are those of the other iterator. -/
def SameSelector (it it' : EndpointCircularIterator) : Prop :=
  it.entries = it'.entries ∧ it.maxRetryCount = it'.maxRetryCount

theorem sameSelector_chkRetry (it : EndpointCircularIterator) (now : Int) : SameSelector (it.chkRetry now).2 it := by
  rcases chkRetry_eq it now with h | h <;> rw [h] <;> exact ⟨rfl, rfl⟩

theorem sameSelector_canRetryNow (it : EndpointCircularIterator) (now timeout : Int) :
    SameSelector (it.canRetryNow now timeout).2.2 it := by
  obtain ⟨last, h⟩ := canRetryNow_eq it now timeout
  rw [h]
  exact ⟨rfl, rfl⟩

theorem SameSelector.trans {it it' it'' : EndpointCircularIterator} (h : SameSelector it it')
    (h' : SameSelector it' it'') : SameSelector it it'' :=
  ⟨h.1.trans h'.1, h.2.trans h'.2⟩

theorem SameSelector.count_eq {it it' : EndpointCircularIterator} (h : SameSelector it it') :
    it.count = it'.count := congrArg List.length h.1

theorem SameSelector.budget_eq {it it' : EndpointCircularIterator} (h : SameSelector it it') :
    it.budget = it'.budget := by
  rw [budget, budget, h.2, h.count_eq]

end EndpointCircularIterator

/-! ## One endpoint -/

/-- `SimpleEndpointCircularIterator` -/
structure SimpleEndpointCircularIterator where
  host : Octets
  port : Nat
  maxRetryCount : Nat
  retryTimeout : Int
  retryCount : Nat
  approxLastRetryTime : Option Int

namespace SimpleEndpointCircularIterator

def canRetry (it : SimpleEndpointCircularIterator) : Bool := it.retryCount < it.maxRetryCount

def selectNext (it : SimpleEndpointCircularIterator) (now : Int) : SimpleEndpointCircularIterator :=
  { it with retryCount := it.retryCount + 1, approxLastRetryTime := some now }

def resetRetry (it : SimpleEndpointCircularIterator) : SimpleEndpointCircularIterator :=
  { it with retryCount := 0, approxLastRetryTime := none }

/-- It is the iterator over a list of one endpoint. -/
def toCircular (it : SimpleEndpointCircularIterator) : EndpointCircularIterator where
  entries := [⟨it.host, it.port⟩]
  maxRetryCount := it.maxRetryCount
  retryTimeout := it.retryTimeout
  index := 0
  retryCounts j := if j = 0 then it.retryCount else 0
  approxLastRetryTime := it.approxLastRetryTime
  index_lt := Nat.zero_lt_one

variable (it : SimpleEndpointCircularIterator) (now : Int)

theorem toCircular_canRetry : it.toCircular.canRetry = it.canRetry := rfl

theorem toCircular_selectNext :
    it.toCircular.selectNext now = (it.selectNext now).toCircular := by
  have hcounts : (it.toCircular.selectNext now).retryCounts =
      (it.selectNext now).toCircular.retryCounts := by
    funext j
    change (if j = 0 then (if j = 0 then it.retryCount else 0) + 1
      else if j = 0 then it.retryCount else 0) = if j = 0 then it.retryCount + 1 else 0
    split <;> rfl
  unfold EndpointCircularIterator.selectNext at hcounts ⊢
  unfold toCircular at hcounts ⊢
  congr 1

theorem toCircular_resetRetry : it.toCircular.resetRetry = it.resetRetry.toCircular := by
  have hcounts : it.toCircular.resetRetry.retryCounts = it.resetRetry.toCircular.retryCounts := by
    funext j
    change 0 = if j = 0 then 0 else 0
    split <;> rfl
  unfold EndpointCircularIterator.resetRetry at hcounts ⊢
  unfold toCircular at hcounts ⊢
  congr 1

end SimpleEndpointCircularIterator

end Baselib.Core.EndpointSelector
