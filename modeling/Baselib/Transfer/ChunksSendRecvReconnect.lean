/-
Baselib.Transfer.ChunksSendRecvReconnect — the retries of a reconnect, in the
units which transfer chunks and in the proxy storage.

Both ask the endpoint iterator in the same way and move it on after an
attempt. In a unit `getSuccessfulTopTask` makes one attempt a call, and
`pushReadyTask` takes its result; a call before the retry timeout has passed
does nothing. A run keeps the attempts since the connection was lost to be the
positions the iterator was moved through (`Inv`).

`attempts` records what was tried; the code does not keep it.
-/
import Baselib.Messaging.ProxyReconnect
import Baselib.Transfer.ChunksSendRecv

namespace Baselib.Transfer.ChunksSendRecv.Reconnect

open Lib Lib.Transition Core.EndpointSelector
open EndpointCircularIterator

/-- The readings of the clock in a call. -/
structure Clock where
  selected : Int
  now : Int
  started : Int

/-- What the iterator answers to a reconnect, where it is left, and the
position of the endpoint a connection is started to. -/
def answer (it : EndpointCircularIterator) (clock : Clock) (pooled : Bool) :
    Retry × EndpointCircularIterator × Option Nat :=
  let (isRetry, it) := it.chkRetry clock.selected
  if isRetry = false then (.exhausted, it, none)
  else
    let (isNow, _, it) := it.canRetryNow clock.now 0
    if isNow then (.now pooled, it.selectNext clock.started, some it.index) else (.later, it, none)

/-- How the unit fails. -/
inductive End where
  | rethrown (exception : Exception)
  | exhausted
  deriving DecidableEq

def End.exception : End → Exception
  | .rethrown exception => exception
  | .exhausted => .noConnection

structure State where
  iterator : EndpointCircularIterator
  reconnecting : Bool
  isDroppedConnection : Bool
  ended : Option End
  attempts : List Nat

def State.create (it : EndpointCircularIterator) : State := ⟨it, false, false, none, []⟩

inductive Label where
  /-- The top task has failed with the exception. -/
  | getSuccessfulTopTask (exception : Exception) (clock : Clock) (pooled : Bool)
  /-- `m_reconnectTask` is ready. -/
  | pushReadyTask (isFailed : Bool)

def getSuccessfulTopTask (cfg : Config χ) (s : State) (exception : Exception) (clock : Clock)
    (pooled : Bool) : State :=
  if s.reconnecting then s
  else if !s.isDroppedConnection && !isRetried cfg exception then
    { s with ended := some (.rethrown exception) }
  else
    match answer s.iterator clock pooled with
    | (.exhausted, it, _) =>
      { s with iterator := it, isDroppedConnection := true, ended := some .exhausted }
    | (.later, it, _) => { s with iterator := it, isDroppedConnection := true }
    | (.now _, it, attempt) =>
      { s with
        iterator := it
        isDroppedConnection := true
        reconnecting := true
        attempts := s.attempts ++ attempt.toList }

def pushReadyTask (s : State) (isFailed : Bool) : State :=
  if isFailed then { s with reconnecting := false }
  else
    { s with
      iterator := s.iterator.resetRetry
      reconnecting := false
      isDroppedConnection := false
      attempts := [] }

def step (cfg : Config χ) (s : State) (label : Label) : Option State :=
  if s.ended.isSome then none
  else
    match label with
    | .getSuccessfulTopTask exception clock pooled =>
      some (Reconnect.getSuccessfulTopTask cfg s exception clock pooled)
    | .pushReadyTask isFailed => if s.reconnecting then some (pushReadyTask s isFailed) else none

variable {cfg : Config χ} {s s' : State} {it : EndpointCircularIterator} {clock : Clock}
  {pooled : Bool} {exception : Exception} {i k : Nat}

/-- The unit does what the iterator answers. -/
theorem getSuccessfulTopTask_refines {u : ChunksSendRecv.State χ} {top : TransferTask χ}
    {rest : List (TransferTask χ)} (hready : u.ready = top :: rest)
    (hstop : u.stopRequested = false) (hexception : top.exception = some exception)
    (hreconnecting : u.reconnecting = s.reconnecting)
    (hdropped : u.isDroppedConnection = s.isDroppedConnection) (hended : s.ended = none) :
    let (u', result) := ChunksSendRecv.getSuccessfulTopTask cfg (answer s.iterator clock pooled).1 u
    let s' := Reconnect.getSuccessfulTopTask cfg s exception clock pooled
    u'.reconnecting = s'.reconnecting ∧ u'.isDroppedConnection = s'.isDroppedConnection ∧
      ∀ ended ∈ s'.ended, result = .error ended.exception := by
  rw [ChunksSendRecv.getSuccessfulTopTask, hready, Reconnect.getSuccessfulTopTask]
  simp only [hstop, hexception, hreconnecting, hdropped, Bool.false_eq_true, if_false]
  by_cases hwaits : s.reconnecting = true
  · rw [if_pos hwaits, if_pos hwaits]
    exact ⟨hreconnecting, hdropped, by simp [hended]⟩
  rw [if_neg hwaits, if_neg hwaits]
  by_cases hrethrown : (!s.isDroppedConnection && !isRetried cfg exception) = true
  · rw [if_pos hrethrown, if_pos hrethrown]
    exact ⟨hreconnecting, hdropped, by simp [End.exception]⟩
  rw [if_neg hrethrown, if_neg hrethrown]
  obtain ⟨retry, it, attempt⟩ := answer s.iterator clock pooled
  cases retry with
  | exhausted => exact ⟨rfl, rfl, by simp [End.exception]⟩
  | later => exact ⟨rfl, rfl, by simp [hended]⟩
  | now pooled =>
    unfold startConnection
    dsimp only
    split <;> exact ⟨rfl, rfl, by simp [hended]⟩

/-! ## One call -/

/-- What the iterator answers while it has retries left, and then. -/
theorem answer_cases (h : it.Moved i k) (hmax : 0 < it.maxRetryCount) (clock : Clock)
    (pooled : Bool) :
    (k < it.budget ∧ (∀ last ∈ it.approxLastRetryTime, last + it.retryTimeout ≤ clock.now) ∧
      ∃ it', answer it clock pooled = (.now pooled, it', some it.index) ∧ it'.Moved i (k + 1) ∧
        SameSelector it' it) ∨
    (k < it.budget ∧ (¬ ∀ last ∈ it.approxLastRetryTime, last + it.retryTimeout ≤ clock.now) ∧
      ∃ it', answer it clock pooled = (.later, it', none) ∧ it'.Moved i k ∧ SameSelector it' it) ∨
    (it.budget ≤ k ∧
      ∃ it', answer it clock pooled = (.exhausted, it', none) ∧ SameSelector it' it) := by
  have hcheck := h.chkRetry hmax clock.selected
  have hbudget : it.budget = (it.maxRetryCount - 1) * it.count + 1 := rfl
  split at hcheck
  next hle =>
    have hgate := canRetryNow_iff clock.now 0 ((h.canRetry_iff hmax).mpr hle)
    obtain ⟨last, hlast⟩ := canRetryNow_eq it clock.now 0
    cases hnow : (it.canRetryNow clock.now 0).1 with
    | true =>
      refine .inl ⟨by omega, hgate.mp hnow,
        (it.canRetryNow clock.now 0).2.2.selectNext clock.started, ?_, h.canRetryNow.selectNext _,
        sameSelector_canRetryNow it clock.now 0⟩
      simp only [answer, hcheck, hnow, Bool.true_eq_false, if_false, if_true]
      rw [hlast]
    | false =>
      refine .inr (.inl ⟨by omega, fun hopen => ?_, (it.canRetryNow clock.now 0).2.2, ?_,
        h.canRetryNow, sameSelector_canRetryNow it clock.now 0⟩)
      · simp [hgate.mpr hopen] at hnow
      · simp only [answer, hcheck, hnow, Bool.true_eq_false, Bool.false_eq_true, if_false]
  next hgt =>
    refine .inr (.inr ⟨by omega, it.selectNext clock.selected, ?_, ⟨rfl, rfl⟩⟩)
    simp only [answer, hcheck, if_true]

/-! ## Runs -/

/-- The attempts so far are the positions the iterator was moved through. -/
structure Inv (it₀ : EndpointCircularIterator) (s : State) : Prop where
  selector : SameSelector s.iterator it₀
  attempts : ∃ i < it₀.count, s.attempts = rotation it₀.count i s.attempts.length ∧
    (s.ended = none → s.iterator.Moved i s.attempts.length)
  le_budget : s.attempts.length ≤ it₀.budget
  exhausted : s.ended = some .exhausted → s.attempts.length = it₀.budget
  not_dropped : s.isDroppedConnection = false → s.attempts = []

theorem inv_create {entries : List Endpoint} {maxRetryCount : Nat} {retryTimeout : Int}
    (h : EndpointCircularIterator.create entries maxRetryCount retryTimeout = some it) :
    Inv it (.create it) where
  selector := ⟨rfl, rfl⟩
  attempts := ⟨0, Nat.zero_lt_of_lt it.index_lt, rfl, fun _ => moved_create h⟩
  le_budget := Nat.zero_le _
  exhausted h := by cases h
  not_dropped _ := rfl

variable {it₀ : EndpointCircularIterator}

theorem Inv.getSuccessfulTopTask (h : Inv it₀ s) (hmax : 0 < it₀.maxRetryCount)
    (hended : s.ended = none) :
    Inv it₀ (Reconnect.getSuccessfulTopTask cfg s exception clock pooled) := by
  obtain ⟨i, hi, hattempts, hmoved⟩ := h.attempts
  have hmoved := hmoved hended
  unfold Reconnect.getSuccessfulTopTask
  split
  · exact h
  split
  · exact { h with
      attempts := ⟨i, hi, hattempts, nofun⟩
      exhausted := fun hexhausted => by cases hexhausted }
  have hcases := answer_cases hmoved (h.selector.2 ▸ hmax) clock pooled
  rw [h.selector.budget_eq] at hcases
  rcases hcases with ⟨hlt, -, it', hanswer, hmoved', hsame⟩ |
    ⟨hlt, -, it', hanswer, hmoved', hsame⟩ | ⟨hle, it', hanswer, hsame⟩
  · rw [hanswer]
    have hlength : (s.attempts ++ [s.iterator.index]).length = s.attempts.length + 1 := by simp
    refine ⟨hsame.trans h.selector, ⟨i, hi, ?_, fun _ => ?_⟩, ?_, fun hexhausted => ?_,
      fun hdropped => ?_⟩
    · have hlast : rotation it₀.count (i + s.attempts.length) 1 = [s.iterator.index] := by
        rw [hmoved.index, h.selector.count_eq]
        rfl
      change s.attempts ++ [s.iterator.index] = rotation _ _ (s.attempts ++ [s.iterator.index]).length
      rw [hlength, rotation_add, hlast, ← hattempts]
    · change it'.Moved i (s.attempts ++ [s.iterator.index]).length
      rwa [hlength]
    · change (s.attempts ++ [s.iterator.index]).length ≤ _
      rwa [hlength]
    · exact absurd (hended.symm.trans hexhausted) (by simp)
    · cases hdropped
  · rw [hanswer]
    exact ⟨hsame.trans h.selector, ⟨i, hi, hattempts, fun _ => hmoved'⟩, h.le_budget,
      fun hexhausted => absurd (hended.symm.trans hexhausted) (by simp), fun hdropped => by
        cases hdropped⟩
  · rw [hanswer]
    exact ⟨hsame.trans h.selector, ⟨i, hi, hattempts, nofun⟩, h.le_budget,
      fun _ => Nat.le_antisymm h.le_budget hle, nofun⟩

theorem Inv.pushReadyTask (h : Inv it₀ s) (hended : s.ended = none) (isFailed : Bool) :
    Inv it₀ (Reconnect.pushReadyTask s isFailed) := by
  cases isFailed with
  | true => exact { h with }
  | false =>
    refine ⟨h.selector, ⟨s.iterator.index, ?_, rfl, fun _ => moved_resetRetry s.iterator⟩,
      Nat.zero_le _, fun hexhausted => ?_, fun _ => rfl⟩
    · rw [← h.selector.count_eq]
      exact s.iterator.index_lt
    · exact absurd (hended.symm.trans hexhausted) (by simp)

theorem Inv.step {label : Label} (h : Inv it₀ s) (hmax : 0 < it₀.maxRetryCount)
    (hstep : step cfg s label = some s') : Inv it₀ s' := by
  unfold Reconnect.step at hstep
  split at hstep
  · cases hstep
  next hended =>
    have hended : s.ended = none := by simpa using hended
    cases label with
    | getSuccessfulTopTask exception clock pooled =>
      cases hstep
      exact h.getSuccessfulTopTask hmax hended
    | pushReadyTask isFailed =>
      dsimp only at hstep
      split at hstep
      · cases hstep
        exact h.pushReadyTask hended isFailed
      · cases hstep

theorem inv_of_run {entries : List Endpoint} {maxRetryCount : Nat} {retryTimeout : Int}
    {labels : List Label} (hmax : 0 < maxRetryCount)
    (hcreate : EndpointCircularIterator.create entries maxRetryCount retryTimeout = some it)
    (hrun : Transition.run (step cfg) (State.create it) labels = some s) : Inv it s := by
  have hmax' : 0 < it.maxRetryCount := by
    rwa [(Messaging.ProxyReconnect.Ready.create hcreate).moved.2.1]
  exact run_invariant (C := fun _ _ => True) (fun s l s' h _ hstep => h.step hmax' hstep)
    (inv_create hcreate) along_true hrun

/-- A call with a lost connection and nothing pending makes an attempt as soon
as the time has come, and fails the unit when all attempts are made. -/
theorem Inv.progress (h : Inv it₀ s) (hmax : 0 < it₀.maxRetryCount) (hended : s.ended = none)
    (hreconnecting : s.reconnecting = false)
    (hlost : s.isDroppedConnection = true ∨ isRetried cfg exception = true) :
    let s' := Reconnect.getSuccessfulTopTask cfg s exception clock pooled
    if s.attempts.length < it₀.budget then
      (∀ last ∈ s.iterator.approxLastRetryTime, last + s.iterator.retryTimeout ≤ clock.now) →
        s'.reconnecting = true ∧ s'.attempts.length = s.attempts.length + 1
    else s'.ended = some .exhausted := by
  obtain ⟨i, hi, hattempts, hmoved⟩ := h.attempts
  have hcases := answer_cases (hmoved hended) (h.selector.2 ▸ hmax) clock pooled
  rw [h.selector.budget_eq] at hcases
  have hretried : ¬ (!s.isDroppedConnection && !isRetried cfg exception) = true := by
    rcases hlost with h | h <;> simp [h]
  have hidle : ¬ s.reconnecting = true := by simp [hreconnecting]
  unfold Reconnect.getSuccessfulTopTask
  rw [if_neg hidle, if_neg hretried]
  rcases hcases with ⟨hlt, -, it', hanswer, -⟩ | ⟨hlt, hclosed, it', hanswer, -⟩ |
    ⟨hle, it', hanswer, -⟩
  · rw [if_pos hlt, hanswer]
    exact fun _ => ⟨rfl, by simp⟩
  · rw [if_pos hlt]
    exact fun hopen => absurd hopen hclosed
  · rw [if_neg (Nat.not_lt.mpr hle), hanswer]

/-! ## The budget -/

/-- The attempts when all retries are used up, from the position `i` on. -/
structure UsesBudget (n maxRetryCount i : Nat) (attempts : List Nat) : Prop where
  rotation : attempts = rotation n i ((maxRetryCount - 1) * n + 1)
  first : attempts.count i = maxRetryCount
  others : ∀ t < n, t ≠ i → attempts.count t = maxRetryCount - 1

theorem usesBudget_rotation (hmax : 0 < it.maxRetryCount) (hi : i < it.count) :
    UsesBudget it.count it.maxRetryCount i (rotation it.count i it.budget) where
  rotation := rfl
  first := by rw [count_rotation_budget hmax hi hi, if_pos rfl]
  others t ht hne := by rw [count_rotation_budget hmax hi ht, if_neg hne]

section

open Messaging.ProxyReconnect

variable {entries : List Endpoint} {maxRetryCount : Nat} {retryTimeout : Int}

/-- A loss of the connection of a client. -/
theorem reconnect_fails (h : Ready entries maxRetryCount retryTimeout it)
    (hmax : 0 < maxRetryCount) {turns : List Messaging.ProxyReconnect.Turn}
    (hfail : AllFail turns) :
    (reconnect it (.systemError false) turns).indices = rotation entries.length it.index
        (min turns.length ((maxRetryCount - 1) * entries.length + 1)) ∧
      ((maxRetryCount - 1) * entries.length + 1 < turns.length →
        (reconnect it (.systemError false) turns).outcome = .serverNoConnection ∧
        UsesBudget entries.length maxRetryCount it.index
          (reconnect it (.systemError false) turns).indices) := by
  obtain ⟨rfl, rfl, hmoved⟩ := h.moved
  obtain ⟨hindices, houtcome⟩ := reconnectLoop_fails hfail hmoved hmax (Nat.zero_le _)
  rw [reconnect, if_pos rfl, hindices, houtcome]
  refine ⟨rfl, fun hlt => ⟨if_pos hlt, ?_⟩⟩
  have hmin : min turns.length (it.budget - 0) = it.budget := Nat.min_eq_right (Nat.le_of_lt hlt)
  rw [hmin]
  exact usesBudget_rotation hmax it.index_lt

theorem reconnect_connected (h : Ready entries maxRetryCount retryTimeout it)
    {turns : List Messaging.ProxyReconnect.Turn}
    (hconnected : (reconnect it (.systemError false) turns).outcome = .connected) :
    Ready entries maxRetryCount retryTimeout (reconnect it (.systemError false) turns).iterator ∧
      (reconnect it (.systemError false) turns).indices.getLast? =
        some (reconnect it (.systemError false) turns).iterator.index := by
  rw [reconnect, if_pos rfl] at hconnected ⊢
  exact ⟨.connected h hconnected, (reconnectLoop_connected hconnected).2.1⟩

/-- The retries of the proxy storage and of a unit: from where the iterator
stands, the first endpoint is tried as often as the maximum says and each
other one once less, in turn, and then the reconnect is given up; and a
success leaves all retries. -/
theorem reconnect_budget (cfg : Config χ) (entries : List Endpoint) (maxRetryCount : Nat)
    (retryTimeout : Int) (hmax : 0 < maxRetryCount) :
    let n := entries.length
    let budget := (maxRetryCount - 1) * n + 1
    (∀ it, Ready entries maxRetryCount retryTimeout it → ∀ turns, AllFail turns →
      (reconnect it (.systemError false) turns).indices =
        rotation n it.index (min turns.length budget) ∧
      (budget < turns.length →
        (reconnect it (.systemError false) turns).outcome = .serverNoConnection ∧
        UsesBudget n maxRetryCount it.index (reconnect it (.systemError false) turns).indices)) ∧
    (∀ it, Ready entries maxRetryCount retryTimeout it → ∀ turns,
      (reconnect it (.systemError false) turns).outcome = .connected →
      Ready entries maxRetryCount retryTimeout (reconnect it (.systemError false) turns).iterator ∧
      (reconnect it (.systemError false) turns).indices.getLast? =
        some (reconnect it (.systemError false) turns).iterator.index) ∧
    (∀ iterators env, env.isCanceled = false → env.failure = some (.systemError false) →
      createClient iterators none env =
        ⟨some ((iterators.connectIterator.index + 1) % iterators.connectIterator.count),
          reconnect iterators.reconnectIterator (.systemError false) env.turns,
          iterators.connectIterator.selectNext env.now⟩) ∧
    ∀ it, EndpointCircularIterator.create entries maxRetryCount retryTimeout = some it →
      ∀ labels s, Transition.run (step cfg) (State.create it) labels = some s →
      (∃ i < n, s.attempts = rotation n i s.attempts.length) ∧ s.attempts.length ≤ budget ∧
      (s.isDroppedConnection = false → s.attempts = []) ∧
      (s.ended = some .exhausted → ∃ i < n, UsesBudget n maxRetryCount i s.attempts) ∧
      ∀ exception clock pooled, s.ended = none → s.reconnecting = false →
        s.isDroppedConnection = true ∨ isRetried cfg exception = true →
        let s' := Reconnect.getSuccessfulTopTask cfg s exception clock pooled
        if s.attempts.length < budget then
          (∀ last ∈ s.iterator.approxLastRetryTime,
            last + s.iterator.retryTimeout ≤ clock.now) →
          s'.reconnecting = true ∧ s'.attempts.length = s.attempts.length + 1
        else s'.ended = some .exhausted := by
  intro n budget
  refine ⟨fun it h turns hfail => reconnect_fails h hmax hfail,
    fun it h turns hconnected => reconnect_connected h hconnected,
    fun iterators env hcanceled hfailure => ?_, fun it hcreate labels s hrun => ?_⟩
  · rw [createClient, if_neg (by simp [hcanceled]), ← nextIndex_eq]
    simp only [hfailure]
    rfl
  · obtain ⟨rfl, rfl, -⟩ := (Ready.create hcreate).moved
    have hinv := inv_of_run hmax hcreate hrun
    obtain ⟨i, hi, hattempts, hmoved⟩ := hinv.attempts
    refine ⟨⟨i, hi, hattempts⟩, hinv.le_budget, hinv.not_dropped, fun hexhausted => ⟨i, hi, ?_⟩,
      fun exception clock pooled hended hreconnecting hlost =>
        hinv.progress hmax hended hreconnecting hlost⟩
    rw [hattempts, hinv.exhausted hexhausted]
    exact usesBudget_rotation hmax hi

/-- Three endpoints, on the first of which the iterator stands. -/
def three (maxRetryCount : Nat) : EndpointCircularIterator where
  entries := [⟨octets "a", 1⟩, ⟨octets "b", 2⟩, ⟨octets "c", 3⟩]
  maxRetryCount := maxRetryCount
  retryTimeout := 6000
  index := 0
  retryCounts _ := 0
  approxLastRetryTime := none
  index_lt := by decide

def failingTurn : Messaging.ProxyReconnect.Turn where
  isCanceled := false
  selected := 0
  now := 0
  isFailed := true
  failed := 0

theorem three_budget :
    (reconnect (three 2) (.systemError false) (List.replicate 5 failingTurn)).outcome =
      .serverNoConnection :=
  have h := (reconnect_budget (χ := Nat) ⟨.receiver, false, false, 1, []⟩ (three 2).entries 2 6000
    (by decide)).1 (three 2) (.create rfl) (List.replicate 5 failingTurn) (by decide)
  (h.2 (by decide)).1

/-- A new client of a storage with three endpoints and one retry: the third
endpoint is never tried before the connection is given up. -/
theorem third_never_tried :
    let created := createClient ⟨three 1, three 1⟩ none
      ⟨false, 0, some (.systemError false), List.replicate 9 failingTurn⟩
    created.first = some 1 ∧ created.reconnected.indices = [0] ∧
      created.reconnected.outcome = .serverNoConnection ∧
      created.reconnected.indices.count 2 ≠ (three 1).maxRetryCount := by
  decide

end

end Baselib.Transfer.ChunksSendRecv.Reconnect
