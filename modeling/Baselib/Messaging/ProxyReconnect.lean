/-
Baselib.Messaging.ProxyReconnect — how the proxy storage connects to a blob
server: `createClient` and `reconnect` of
`messaging/ProxyDataChunkStorageImpl.h`.

A new client tries the next endpoint of an iterator of its own, once. What has
failed since is left to the loop of `reconnect`, in which the iterator it
shares with all other clients counts the retries. `reconnect` holds a lock, so
its loops do not interleave.

A turn of the loop comes with what the environment decides in it.
-/
import Baselib.Core.EndpointSelector

namespace Baselib.Messaging.ProxyReconnect

open Lib Core.EndpointSelector
open EndpointCircularIterator

/-- What a connection or a connector has failed with. -/
inductive Failure where
  | serverError
  | systemError (isOperationAborted : Bool)
  | other
  deriving DecidableEq

structure Turn where
  isCanceled : Bool
  /-- The clock in the check of the retries. -/
  selected : Int
  /-- The clock in `canRetryNow`. -/
  now : Int
  isFailed : Bool
  /-- The clock after the connector has failed. -/
  failed : Int

inductive Outcome where
  | connected
  | operationAborted
  | serverNoConnection
  | rethrown (failure : Failure)
  /-- The turns have run out. -/
  | running
  deriving DecidableEq

/-- A connector: the position of its endpoint, and how long it was waited
before. -/
structure Attempt where
  index : Nat
  slept : Option Int
  deriving DecidableEq

structure Reconnected where
  attempts : List Attempt
  outcome : Outcome
  iterator : EndpointCircularIterator

def Reconnected.indices (r : Reconnected) : List Nat := r.attempts.map Attempt.index

/-- The loop of `reconnect`. -/
def reconnectLoop : EndpointCircularIterator → List Turn → Reconnected
  | it, [] => ⟨[], .running, it⟩
  | it, turn :: turns =>
    if turn.isCanceled then ⟨[], .operationAborted, it⟩
    else
      let (isRetry, it) := it.chkRetry turn.selected
      if isRetry = false then ⟨[], .serverNoConnection, it⟩
      else
        let (isNow, duration, it) := it.canRetryNow turn.now 0
        let attempt : Attempt := ⟨it.index, if isNow then none else some duration⟩
        if turn.isFailed then
          let rest := reconnectLoop (it.selectNext turn.failed) turns
          { rest with attempts := attempt :: rest.attempts }
        else ⟨[attempt], .connected, it.resetRetry⟩

def reconnect (it : EndpointCircularIterator) (failure : Failure) (turns : List Turn) :
    Reconnected :=
  if failure = .systemError false then reconnectLoop it turns else ⟨[], .rethrown failure, it⟩

/-- The iterators of the storage. -/
structure Iterators where
  connectIterator : EndpointCircularIterator
  reconnectIterator : EndpointCircularIterator

/-- What the environment decides in `createClient`. -/
structure Connect where
  isCanceled : Bool
  now : Int
  /-- What the connector of a new client has failed with. -/
  failure : Option Failure
  turns : List Turn

/-- The connectors of a new client. -/
structure Created where
  first : Option Nat
  reconnected : Reconnected
  connectIterator : EndpointCircularIterator

/-- `createClient`; `current` is what the connection of the client has failed
with, if it has one. -/
def createClient (s : Iterators) (current : Option Failure) (env : Connect) : Created :=
  if env.isCanceled then ⟨none, ⟨[], .operationAborted, s.reconnectIterator⟩, s.connectIterator⟩
  else
    match current with
    | some failure =>
      ⟨none, reconnect s.reconnectIterator failure env.turns, s.connectIterator⟩
    | none =>
      let connectIterator := s.connectIterator.selectNext env.now
      match env.failure with
      | some failure =>
        ⟨some connectIterator.index, reconnect s.reconnectIterator failure env.turns,
          connectIterator⟩
      | none =>
        ⟨some connectIterator.index, ⟨[], .connected, s.reconnectIterator⟩, connectIterator⟩

/-! ## The loop -/

variable {it : EndpointCircularIterator} {i k : Nat} {turns : List Turn} {turn : Turn}

/-- A turn in which a retry is left. -/
theorem reconnectLoop_cons (turns : List Turn) (h : it.Moved i k) (hmax : 0 < it.maxRetryCount)
    (hcanceled : turn.isCanceled = false) (hle : k ≤ (it.maxRetryCount - 1) * it.count) :
    ∃ last slept, reconnectLoop it (turn :: turns) =
      if turn.isFailed then
        let rest := reconnectLoop ({ it with approxLastRetryTime := last }.selectNext turn.failed) turns
        { rest with attempts := ⟨it.index, slept⟩ :: rest.attempts }
      else ⟨[⟨it.index, slept⟩], .connected, it.resetRetry⟩ := by
  have hcheck := h.chkRetry hmax turn.selected
  rw [if_pos hle] at hcheck
  obtain ⟨last, hlast⟩ := canRetryNow_eq it turn.now 0
  refine ⟨last, if (it.canRetryNow turn.now 0).1 then none else some (it.canRetryNow turn.now 0).2.1,
    ?_⟩
  rw [reconnectLoop, if_neg (by simp [hcanceled]), hcheck]
  dsimp only
  rw [hlast]
  rfl

/-- A turn in which none is left. -/
theorem reconnectLoop_bails (h : it.Moved i k) (hmax : 0 < it.maxRetryCount)
    (hcanceled : turn.isCanceled = false) (hgt : ¬ k ≤ (it.maxRetryCount - 1) * it.count) :
    reconnectLoop it (turn :: turns) =
      ⟨[], .serverNoConnection, it.selectNext turn.selected⟩ := by
  have hcheck := h.chkRetry hmax turn.selected
  rw [if_neg hgt] at hcheck
  rw [reconnectLoop, if_neg (by simp [hcanceled]), hcheck]
  rfl

/-- Every attempt of the turns fails, and none is canceled. -/
def AllFail (turns : List Turn) : Prop :=
  ∀ turn ∈ turns, turn.isCanceled = false ∧ turn.isFailed = true

instance : Decidable (AllFail turns) :=
  inferInstanceAs (Decidable (∀ turn ∈ turns, turn.isCanceled = false ∧ turn.isFailed = true))

/-- As long as every attempt fails the endpoints are tried in turn, until the
retries are used up. -/
theorem reconnectLoop_fails (hfail : AllFail turns) : ∀ {it : EndpointCircularIterator} {k : Nat},
    it.Moved i k → 0 < it.maxRetryCount → k ≤ it.budget →
    (reconnectLoop it turns).indices =
        rotation it.count (i + k) (min turns.length (it.budget - k)) ∧
      (reconnectLoop it turns).outcome =
        if it.budget - k < turns.length then .serverNoConnection else .running := by
  induction turns with
  | nil =>
    intro it k _ _ _
    rw [List.length_nil, Nat.zero_min, if_neg (Nat.not_lt_zero _)]
    exact ⟨rfl, rfl⟩
  | cons turn turns ih =>
    intro it k h hmax hk
    obtain ⟨⟨hcanceled, hfailed⟩, hrest⟩ := List.forall_mem_cons.mp hfail
    have hbudget : it.budget = (it.maxRetryCount - 1) * it.count + 1 := rfl
    by_cases hle : k ≤ (it.maxRetryCount - 1) * it.count
    · obtain ⟨last, slept, hloop⟩ := reconnectLoop_cons turns h hmax hcanceled hle
      have hmoved := @Moved.selectNext { it with approxLastRetryTime := last } i k
        ⟨h.index, h.retryCounts⟩ turn.failed
      obtain ⟨hindices, houtcome⟩ := ih hrest hmoved hmax (by
        change k + 1 ≤ it.budget
        omega)
      have hcount : it.budget - k = it.budget - (k + 1) + 1 := by omega
      rw [hloop, if_pos hfailed, hcount, List.length_cons, Nat.add_min_add_right]
      refine ⟨?_, houtcome.trans ?_⟩
      · have hstep := rotation_add it.count (i + k) 1 (min turns.length (it.budget - (k + 1)))
        rw [Nat.add_comm 1] at hstep
        rw [hstep]
        exact congrArg₂ List.cons h.index hindices
      · change (if it.budget - (k + 1) < turns.length then _ else _) = _
        simp only [Nat.add_lt_add_iff_right]
    · rw [reconnectLoop_bails h hmax hcanceled hle]
      have hzero : it.budget - k = 0 := by omega
      rw [hzero, Nat.min_zero, if_pos (by simp)]
      exact ⟨rfl, rfl⟩

/-- After a success all retries are left. -/
theorem reconnectLoop_connected : ∀ {turns : List Turn} {it : EndpointCircularIterator},
    (reconnectLoop it turns).outcome = .connected →
    (reconnectLoop it turns).iterator.Moved (reconnectLoop it turns).iterator.index 0 ∧
      (reconnectLoop it turns).indices.getLast? = some (reconnectLoop it turns).iterator.index ∧
      SameSelector (reconnectLoop it turns).iterator it
  | [], it, h => by cases h
  | turn :: turns, it, h => by
      rw [reconnectLoop] at h ⊢
      split at h
      · cases h
      next hcanceled =>
        rw [if_neg hcanceled]
        dsimp only at h ⊢
        split at h
        · cases h
        next hretry =>
          rw [if_neg hretry]
          have hsame := (sameSelector_canRetryNow (it.chkRetry turn.selected).2 turn.now 0).trans
            (sameSelector_chkRetry it turn.selected)
          split at h
          next hfailed =>
            rw [if_pos hfailed]
            obtain ⟨hmoved, hlast, hrest⟩ := reconnectLoop_connected h
            refine ⟨hmoved, ?_, hrest.trans hsame⟩
            change (_ :: Reconnected.indices _).getLast? = _
            rw [List.getLast?_cons, hlast]
            rfl
          next hconnected =>
            rw [if_neg hconnected]
            exact ⟨moved_resetRetry _, rfl, hsame⟩

/-! ## Losses -/

/-- The iterator as it is when a connection is lost: as it was created, or as
a reconnect which has succeeded has left it. -/
inductive Ready (entries : List Endpoint) (maxRetryCount : Nat) (retryTimeout : Int) :
    EndpointCircularIterator → Prop
  | create {it' : EndpointCircularIterator}
      (h : EndpointCircularIterator.create entries maxRetryCount retryTimeout = some it') :
      Ready entries maxRetryCount retryTimeout it'
  | connected {it' : EndpointCircularIterator} {turns' : List Turn}
      (h : Ready entries maxRetryCount retryTimeout it')
      (hconnected : (reconnectLoop it' turns').outcome = .connected) :
      Ready entries maxRetryCount retryTimeout (reconnectLoop it' turns').iterator

theorem Ready.moved {entries : List Endpoint} {maxRetryCount : Nat} {retryTimeout : Int}
    (h : Ready entries maxRetryCount retryTimeout it) :
    it.entries = entries ∧ it.maxRetryCount = maxRetryCount ∧ it.Moved it.index 0 := by
  induction h with
  | create h =>
    have hmoved := moved_create h
    unfold EndpointCircularIterator.create at h
    split at h
    · cases h
      exact ⟨rfl, rfl, hmoved⟩
    · cases h
  | @connected it turns h hconnected ih =>
    obtain ⟨hmoved, -, hsame⟩ := reconnectLoop_connected hconnected
    exact ⟨hsame.1.trans ih.1, hsame.2.trans ih.2.1, hmoved⟩

end Baselib.Messaging.ProxyReconnect
