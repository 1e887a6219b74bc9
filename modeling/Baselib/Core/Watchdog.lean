/-
Baselib.Core.Watchdog — monitors which are to be extended before they
expire: `core/Watchdog.h`.

A label is one atomic operation: a section under the mutex of the names, a
load or a store of an expiration, or a decrement. `extendExpiration` is the
section which finds or adds the monitor and the store after it, and any
number of calls may be between the two; a monitor set up alone is a call
whose store never comes. `run` loads the number of monitors once in every
iteration, and decrements and tests in one operation. The thread which runs
it may start it again after a run which reached its limit; one which
returned before leads to termination.

A duration is finite and not negative, and the interval not zero: the code
refuses any other before it does anything.
-/
import Baselib.Lib.Transition

namespace Baselib.Core

open Lib

/-- The microseconds of a `time_duration`. -/
abbrev Duration := { micros : Nat // micros < 2 ^ 63 }

abbrev Interval := { micros : Nat // 0 < micros ∧ micros < 2 ^ 63 }

namespace Watchdog

def MAX_MONITORS : Nat := 4096

def timeDurationInCheckingIntervals (interval : Interval) (duration : Duration) : UInt64 :=
  (UInt64.ofNat duration.1 + UInt64.ofNat interval.1 - 1) / UInt64.ofNat interval.1

/-- Where the thread is which powers the watchdog. -/
inductive Runner where
  | idle
  /-- About to compare `iteration` with `maxIterations`. -/
  | head (maxIterations iteration : UInt64)
  /-- In the inner loop, about to compare `i` with `monitorCount`. -/
  | inner (maxIterations iteration : UInt64) (monitorCount i : Nat)
  | returned (maxIterations value : UInt64)
  deriving DecidableEq

/-- A call of `expiringMonitors`, which holds the mutex of the names. -/
structure Report where
  horizonInIntervals : UInt64
  remaining : List (String × Nat)
  result : List String
  deriving DecidableEq

structure State where
  /-- `m_checkingInterval` -/
  interval : Interval
  /-- `m_expirations` -/
  expirations : Nat → UInt64
  /-- `m_monitorCount` -/
  monitorCount : Nat
  /-- `m_names` -/
  names : List (String × Nat)
  /-- The calls of `extendExpiration` which have found their monitor. -/
  pending : List (Nat × Duration)
  report : Option Report
  runner : Runner

/-- The constructor. -/
def init (interval : Interval) : State where
  interval := interval
  expirations := fun _ => 18446744073709551615
  monitorCount := 0
  names := []
  pending := []
  report := none
  runner := .idle

/-- `setupMonitor` when the name is not there; `none` is the exception. -/
def addMonitor (s : State) (name : String) : Option State :=
  if MAX_MONITORS ≤ s.monitorCount then none
  else some
    { s with
      monitorCount := s.monitorCount + 1
      names := (name, s.monitorCount) :: s.names }

/-- The first part of `extendExpiration`. -/
def setupMonitor (s : State) (name : String) (extension : Duration) : State :=
  match s.names.lookup name with
  | some i => { s with pending := (i, extension) :: s.pending }
  | none =>
    match addMonitor s name with
    | none => s
    | some s' => { s' with pending := (s.monitorCount, extension) :: s.pending }

/-- The second part of `extendExpiration`. -/
def store (s : State) (i : Nat) (extension : Duration) : State :=
  { s with
    expirations := Function.update s.expirations i
      (timeDurationInCheckingIntervals s.interval extension + 1)
    pending := s.pending.erase (i, extension) }

/-- `--m_expirations[ i ]` and the test of its value. -/
def decrement (s : State) (maxIterations iteration : UInt64) (monitorCount i : Nat) : State :=
  { s with
    expirations := Function.update s.expirations i (s.expirations i - 1)
    runner :=
      if s.expirations i - 1 = 0 then .returned maxIterations iteration
      else .inner maxIterations iteration monitorCount (i + 1) }

/-- Is the monitor on the list? -/
def expires (s : State) (horizonInIntervals : UInt64) (i : Nat) : Bool :=
  decide (s.expirations i ≤ horizonInIntervals)

/-- `expiringMonitors`, when no other operation comes between its loads. -/
def expiringMonitors (s : State) (horizon : Duration) : List String :=
  (s.names.filter fun entry =>
    expires s (timeDurationInCheckingIntervals s.interval horizon) entry.2).map Prod.fst

/-- The load of the next entry. -/
def Report.load (r : Report) (s : State) : Option Report :=
  match r.remaining with
  | [] => none
  | (name, i) :: remaining => some
      { r with
        remaining := remaining
        result := if expires s r.horizonInIntervals i then r.result ++ [name] else r.result }

inductive Label where
  | setupMonitor (name : String) (extension : Duration)
  | store (i : Nat) (extension : Duration)
  | start (maxIterations : UInt64)
  /-- The head of the loop of `run`, with the load of the number of monitors. -/
  | next
  | decrement (i : Nat)
  | sleep
  | lockNames (horizon : Duration)
  | load
  | unlockNames

def step (s : State) : Label → Option State
  | .setupMonitor name extension =>
    if s.report.isSome then none else some (setupMonitor s name extension)
  | .store i extension =>
    if (i, extension) ∈ s.pending then some (store s i extension) else none
  | .start maxIterations =>
    match s.runner with
    | .idle => some { s with runner := .head maxIterations 0 }
    | .returned limit value =>
      if value < limit then none else some { s with runner := .head maxIterations 0 }
    | _ => none
  | .next =>
    match s.runner with
    | .head maxIterations iteration =>
      if iteration < maxIterations then
        some { s with runner := .inner maxIterations iteration s.monitorCount 0 }
      else some { s with runner := .returned maxIterations maxIterations }
    | _ => none
  | .decrement j =>
    match s.runner with
    | .inner maxIterations iteration monitorCount i =>
      if i = j ∧ i < monitorCount then
        some (decrement s maxIterations iteration monitorCount i)
      else none
    | _ => none
  | .sleep =>
    match s.runner with
    | .inner maxIterations iteration monitorCount i =>
      if i < monitorCount then none
      else some { s with runner := .head maxIterations (iteration + 1) }
    | _ => none
  | .lockNames horizon =>
    if s.report.isSome then none
    else some
      { s with
        report := some
          { horizonInIntervals := timeDurationInCheckingIntervals s.interval horizon
            remaining := s.names
            result := [] } }
  | .load =>
    match s.report with
    | none => none
    | some r => (r.load s).map fun r' => { s with report := some r' }
  | .unlockNames =>
    match s.report with
    | some ⟨_, [], _⟩ => some { s with report := none }
    | _ => none

/-- `run` has returned before its limit. -/
def Fired (s : State) : Prop := ∃ limit value, s.runner = .returned limit value ∧ value < limit

/-! ## What the steps do -/

/-- The intervals which cover a duration. -/
def intervalsOf (interval : Interval) (duration : Duration) : Nat :=
  (duration.1 + interval.1 - 1) / interval.1

/-- The conversion is exact. -/
theorem toNat_timeDurationInCheckingIntervals (interval : Interval) (duration : Duration) :
    (timeDurationInCheckingIntervals interval duration).toNat = intervalsOf interval duration := by
  obtain ⟨d, hd⟩ := duration
  obtain ⟨n, hpos, hn⟩ := interval
  have hnat : (UInt64.ofNat n).toNat = n := UInt64.toNat_ofNat_of_lt' (by
    simp only [UInt64.size]
    omega)
  have hdur : (UInt64.ofNat d).toNat = d := UInt64.toNat_ofNat_of_lt' (by
    simp only [UInt64.size]
    omega)
  have hsum : (UInt64.ofNat d + UInt64.ofNat n).toNat = d + n := by
    rw [UInt64.toNat_add, hnat, hdur]
    omega
  have hsub : (UInt64.ofNat d + UInt64.ofNat n - 1).toNat = d + n - 1 := by
    rw [UInt64.toNat_sub_of_le _ _ (by rw [UInt64.le_iff_toNat_le, hsum]; simp; omega), hsum]
    rfl
  rw [timeDurationInCheckingIntervals, UInt64.toNat_div, hsub, hnat]
  rfl

theorem intervalsOf_lt (interval : Interval) (duration : Duration) :
    intervalsOf interval duration < 2 ^ 63 := by
  obtain ⟨d, hd⟩ := duration
  obtain ⟨n, hpos, hn⟩ := interval
  have hle : (d + n - 1) / n ≤ d := by
    rw [Nat.div_le_iff_le_mul_add_pred hpos]
    have hmul := Nat.le_mul_of_pos_left d hpos
    omega
  exact Nat.lt_of_le_of_lt hle hd

/-- The intervals cover the duration. -/
theorem le_intervalsOf_mul (interval : Interval) (duration : Duration) :
    duration.1 ≤ intervalsOf interval duration * interval.1 := by
  obtain ⟨d, hd⟩ := duration
  obtain ⟨n, hpos, hn⟩ := interval
  have hdiv := Nat.div_add_mod' (d + n - 1) n
  have hmod := Nat.mod_lt (d + n - 1) hpos
  simp only [intervalsOf]
  omega

theorem step_setupMonitor {s s' : State} {name : String} {extension : Duration}
    (h : step s (.setupMonitor name extension) = some s') :
    s'.interval = s.interval ∧ s'.expirations = s.expirations ∧ s'.runner = s.runner := by
  simp only [step] at h
  split at h
  · cases h
  · cases h
    unfold setupMonitor addMonitor
    split
    · exact ⟨rfl, rfl, rfl⟩
    · split
      · exact ⟨rfl, rfl, rfl⟩
      · next h =>
          split at h
          · cases h
          · cases h
            exact ⟨rfl, rfl, rfl⟩

theorem step_store {s s' : State} {i : Nat} {extension : Duration}
    (h : step s (.store i extension) = some s') : s' = store s i extension := by
  simp only [step] at h
  split at h
  · exact (Option.some.inj h).symm
  · cases h

theorem step_start {s s' : State} {maxIterations : UInt64}
    (h : step s (.start maxIterations) = some s') :
    ¬ Fired s ∧ s' = { s with runner := .head maxIterations 0 } := by
  simp only [step] at h
  split at h
  · next hrunner =>
      refine ⟨?_, (Option.some.inj h).symm⟩
      rintro ⟨limit, value, hfired, -⟩
      simp [hrunner] at hfired
  · next limit value hrunner =>
      split at h
      · cases h
      · next hlimit =>
          refine ⟨?_, (Option.some.inj h).symm⟩
          rintro ⟨limit', value', hfired, hlt⟩
          rw [hrunner] at hfired
          cases hfired
          exact hlimit hlt
  · cases h

/-- An iteration is begun below the limit, and the limit is returned at it. -/
theorem step_next {s s' : State} (h : step s .next = some s') :
    ∃ maxIterations iteration, s.runner = .head maxIterations iteration ∧
      ((iteration < maxIterations ∧
          s' = { s with runner := .inner maxIterations iteration s.monitorCount 0 }) ∨
        s' = { s with runner := .returned maxIterations maxIterations }) := by
  simp only [step] at h
  split at h
  · next maxIterations iteration hrunner =>
      refine ⟨maxIterations, iteration, hrunner, ?_⟩
      split at h
      · next hlt => exact .inl ⟨hlt, (Option.some.inj h).symm⟩
      · exact .inr (Option.some.inj h).symm
  · cases h

theorem step_decrement {s s' : State} {i : Nat} (h : step s (.decrement i) = some s') :
    ∃ maxIterations iteration monitorCount,
      s.runner = .inner maxIterations iteration monitorCount i ∧
        s' = decrement s maxIterations iteration monitorCount i := by
  simp only [step] at h
  split at h
  · next maxIterations iteration monitorCount j hrunner =>
      split at h
      · next hj =>
          obtain ⟨rfl, -⟩ := hj
          exact ⟨maxIterations, iteration, monitorCount, hrunner, (Option.some.inj h).symm⟩
      · cases h
  · cases h

theorem step_sleep {s s' : State} (h : step s .sleep = some s') :
    ∃ maxIterations iteration monitorCount i,
      s.runner = .inner maxIterations iteration monitorCount i ∧
        s' = { s with runner := .head maxIterations (iteration + 1) } := by
  simp only [step] at h
  split at h
  · next maxIterations iteration monitorCount i hrunner =>
      split at h
      · cases h
      · exact ⟨maxIterations, iteration, monitorCount, i, hrunner, (Option.some.inj h).symm⟩
  · cases h

theorem step_report {s s' : State} {l : Label}
    (hl : l = .load ∨ l = .unlockNames ∨ ∃ horizon, l = .lockNames horizon)
    (h : step s l = some s') : ∃ report, s' = { s with report := report } := by
  rcases hl with rfl | rfl | ⟨horizon, rfl⟩
  · simp only [step] at h
    split at h
    · cases h
    · obtain ⟨r, -, hr⟩ := Option.map_eq_some_iff.mp h
      exact ⟨some r, hr.symm⟩
  · simp only [step] at h
    split at h
    · exact ⟨none, (Option.some.inj h).symm⟩
    · cases h
  · simp only [step] at h
    split at h
    · cases h
    · exact ⟨_, (Option.some.inj h).symm⟩

end Watchdog

end Baselib.Core
