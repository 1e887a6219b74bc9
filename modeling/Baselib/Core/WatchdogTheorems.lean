/-
Baselib.Core.WatchdogTheorems — when the watchdog fires.

A history is what the labels say of each monitor: its last extension, and
the decrements and the sleeps since. As long as `run` has not returned
before its limit, the expiration of a monitor and the decrements since its
last extension make up what that extension allows (`Observed.counts`), so
the decrement which fires is exactly the one which uses it up, and every
monitor has some of it left until then. A monitor which was never extended
starts at the greatest value of the counter.
-/
import Mathlib.Data.List.Induction
import Baselib.Core.Watchdog

namespace Baselib.Core.Watchdog

open Lib Transition List
open Function (update update_of_ne update_self)

variable {labels : List Label} {interval : Interval}

/-! ## Histories -/

/-- What the labels say of each monitor. -/
structure History where
  extension : Nat → Option Duration
  decrements : Nat → Nat
  sleeps : Nat → Nat

namespace History

def start : History := ⟨fun _ => none, fun _ => 0, fun _ => 0⟩

def observe (h : History) : Label → History
  | .store i extension =>
    { extension := update h.extension i (some extension)
      decrements := update h.decrements i 0
      sleeps := update h.sleeps i 0 }
  | .decrement i =>
    { h with decrements := update h.decrements i (h.decrements i + 1) }
  | .sleep => { h with sleeps := fun i => h.sleeps i + 1 }
  | _ => h

end History

def historyOf (labels : List Label) : History := labels.foldl History.observe .start

theorem historyOf_concat (labels : List Label) (l : Label) :
    historyOf (labels ++ [l]) = (historyOf labels).observe l := by
  rw [historyOf, foldl_append]
  rfl

/-- The decrements after which a monitor fires. -/
def allowance (interval : Interval) : Option Duration → Nat
  | some extension => intervalsOf interval extension + 1
  | none => 2 ^ 64 - 1

/-- The decrements since the last extension have reached what it allows. -/
def Expired (interval : Interval) (labels : List Label) (i : Nat) : Prop :=
  (historyOf labels).decrements i = allowance interval ((historyOf labels).extension i)

/-! ## The invariant -/

/-- A monitor may have been decremented once more than the thread has slept
since. -/
def slack : Runner → Nat → Nat
  | .idle, _ => 0
  | .head _ _, _ => 0
  | .inner _ _ _ j, i => if i < j then 1 else 0
  | .returned limit value, _ => if value < limit then 1 else 0

theorem slack_le_one (r : Runner) (i : Nat) : slack r i ≤ 1 := by
  cases r with
  | idle => exact Nat.zero_le _
  | head => exact Nat.zero_le _
  | inner | returned =>
    simp only [slack]
    split
    · exact Nat.le_refl _
    · exact Nat.zero_le _

structure Observed (interval : Interval) (h : History) (s : State) : Prop where
  same : s.interval = interval
  counts : ¬ Fired s → ∀ i,
    (s.expirations i).toNat + h.decrements i = allowance interval (h.extension i)
  positive : ¬ Fired s → ∀ i, 0 < (s.expirations i).toNat
  /-- The loop compares the iteration with the limit first. -/
  below : ∀ limit value count i, s.runner = .inner limit value count i → value < limit
  slept : ∀ i, h.decrements i ≤ h.sleeps i + slack s.runner i

theorem fired_iff_of_runner {s s' : State} (h : s'.runner = s.runner) : Fired s' ↔ Fired s := by
  unfold Fired
  rw [h]

namespace Observed

variable {interval : Interval} {h : History} {s s' : State}

theorem init (interval : Interval) : Observed interval .start (Watchdog.init interval) where
  same := rfl
  counts _ _ := rfl
  positive _ _ := show 0 < (18446744073709551615 : UInt64).toNat by decide
  below _ _ _ _ hrunner := by cases hrunner
  slept _ := Nat.le_refl _

/-- A step which changes neither the expirations nor the runner. -/
theorem frame (inv : Observed interval h s) (hinterval : s'.interval = s.interval)
    (hexpirations : s'.expirations = s.expirations) (hrunner : s'.runner = s.runner) :
    Observed interval h s' where
  same := hinterval.trans inv.same
  counts hfired i := by
    rw [hexpirations]
    exact inv.counts (mt (fired_iff_of_runner hrunner).mpr hfired) i
  positive hfired i := by
    rw [hexpirations]
    exact inv.positive (mt (fired_iff_of_runner hrunner).mpr hfired) i
  below limit value count i hinner := inv.below limit value count i (hrunner.symm.trans hinner)
  slept i := by
    rw [hrunner]
    exact inv.slept i

/-- A step of the runner between decrements, into a place with no slack. -/
theorem move (inv : Observed interval h s) {r : Runner} (hnot : ¬ Fired s)
    (hbelow : ∀ limit value count i, r = .inner limit value count i → value < limit)
    (hslack : ∀ i, h.decrements i ≤ h.sleeps i + slack r i) :
    Observed interval h { s with runner := r } where
  same := inv.same
  counts _ := inv.counts hnot
  positive _ := inv.positive hnot
  below := hbelow
  slept := hslack

theorem store (inv : Observed interval h s) (i : Nat) (extension : Duration) :
    Observed interval (h.observe (.store i extension)) (Watchdog.store s i extension) where
  same := inv.same
  counts hfired j := by
    have hlt := intervalsOf_lt s.interval extension
    have hvalue : (timeDurationInCheckingIntervals s.interval extension + 1).toNat =
        intervalsOf s.interval extension + 1 := by
      rw [UInt64.toNat_add, toNat_timeDurationInCheckingIntervals]
      simp only [UInt64.reduceToNat]
      omega
    obtain rfl | hj := eq_or_ne j i
    · simp only [Watchdog.store, History.observe, update_self, hvalue, allowance,
        ← inv.same]
    · simp only [Watchdog.store, History.observe, update_of_ne hj]
      exact inv.counts hfired j
  positive hfired j := by
    have hlt := intervalsOf_lt s.interval extension
    obtain rfl | hj := eq_or_ne j i
    · simp only [Watchdog.store, update_self, UInt64.toNat_add,
        toNat_timeDurationInCheckingIntervals, UInt64.reduceToNat]
      omega
    · simp only [Watchdog.store, update_of_ne hj]
      exact inv.positive hfired j
  below := inv.below
  slept j := by
    obtain rfl | hj := eq_or_ne j i
    · simp only [History.observe, update_self]
      exact Nat.zero_le _
    · simp only [History.observe, update_of_ne hj]
      exact inv.slept j

/-- A decrement fires when the expiration was one. -/
theorem fired_decrement (inv : Observed interval h s) {limit value : UInt64} {count i : Nat}
    (hrunner : s.runner = .inner limit value count i) :
    Fired (Watchdog.decrement s limit value count i) ↔ s.expirations i - 1 = 0 := by
  have hlt := inv.below _ _ _ _ hrunner
  unfold Fired Watchdog.decrement
  constructor
  · rintro ⟨limit', value', hfired, -⟩
    split at hfired
    · assumption
    · cases hfired
  · intro hzero
    rw [if_pos hzero]
    exact ⟨limit, value, rfl, hlt⟩

theorem toNat_sub_one (inv : Observed interval h s) (hnot : ¬ Fired s) (i : Nat) :
    (s.expirations i - 1).toNat = (s.expirations i).toNat - 1 := by
  have hpos := inv.positive hnot i
  rw [UInt64.toNat_sub_of_le]
  · rfl
  · rwa [UInt64.le_iff_toNat_le]

theorem not_fired_inner {limit value : UInt64} {count i : Nat}
    (hrunner : s.runner = .inner limit value count i) : ¬ Fired s := by
  rintro ⟨limit', value', hfired, -⟩
  rw [hrunner] at hfired
  cases hfired

theorem decrement (inv : Observed interval h s) {limit value : UInt64} {count i : Nat}
    (hrunner : s.runner = .inner limit value count i) :
    Observed interval (h.observe (.decrement i)) (Watchdog.decrement s limit value count i) := by
  have hnot := not_fired_inner hrunner
  have hsub := inv.toNat_sub_one hnot i
  have hpos := inv.positive hnot i
  refine ⟨inv.same, fun hfired j => ?_, fun hfired j => ?_, ?_, fun j => ?_⟩
  · have hcounts := inv.counts hnot j
    obtain rfl | hj := eq_or_ne j i
    · simp only [Watchdog.decrement, History.observe, update_self, hsub]
      omega
    · simp only [Watchdog.decrement, History.observe, update_of_ne hj]
      exact hcounts
  · rw [inv.fired_decrement hrunner] at hfired
    obtain rfl | hj := eq_or_ne j i
    · simp only [Watchdog.decrement, update_self]
      exact Nat.pos_of_ne_zero fun hzero => hfired (UInt64.toNat.inj hzero)
    · simp only [Watchdog.decrement, update_of_ne hj]
      exact inv.positive hnot j
  · intro limit' value' count' i' hinner
    simp only [Watchdog.decrement] at hinner
    split at hinner
    · cases hinner
    · cases hinner
      exact inv.below _ _ _ _ hrunner
  · have hslept := inv.slept j
    have hlt := inv.below _ _ _ _ hrunner
    rw [hrunner] at hslept
    have hslack : slack (Watchdog.decrement s limit value count i).runner j =
        if s.expirations i - 1 = 0 ∨ j < i + 1 then 1 else 0 := by
      simp only [Watchdog.decrement]
      by_cases hzero : s.expirations i - 1 = 0
      · simp [hzero, slack, hlt]
      · simp [hzero, slack]
    rw [hslack]
    simp only [slack] at hslept
    obtain rfl | hj := eq_or_ne j i
    · simp only [History.observe, update_self]
      rw [if_pos (.inr (Nat.lt_succ_self j))]
      rw [if_neg (Nat.lt_irrefl j)] at hslept
      omega
    · simp only [History.observe, update_of_ne hj]
      split at hslept
      · rwa [if_pos (.inr (by omega))]
      · split
        · omega
        · exact hslept

theorem step {l : Label} (inv : Observed interval h s) (hstep : Watchdog.step s l = some s') :
    Observed interval (h.observe l) s' := by
  cases l with
  | setupMonitor name extension =>
    obtain ⟨hinterval, hexpirations, hrunner⟩ := step_setupMonitor hstep
    exact inv.frame hinterval hexpirations hrunner
  | store i extension =>
    rw [step_store hstep]
    exact inv.store i extension
  | start maxIterations =>
    obtain ⟨hnot, rfl⟩ := step_start hstep
    refine inv.move hnot (fun _ _ _ _ hr => by cases hr) fun i => ?_
    have hslept := inv.slept i
    have hslack : slack s.runner i = 0 := by
      cases hrunner : s.runner with
      | idle => rfl
      | head => rfl
      | inner => simp [Watchdog.step, hrunner] at hstep
      | returned limit value => exact if_neg fun hlt => hnot ⟨limit, value, hrunner, hlt⟩
    rwa [hslack] at hslept
  | next =>
    obtain ⟨limit, value, hrunner, ⟨hlt, rfl⟩ | rfl⟩ := step_next hstep
    · have hnot : ¬ Fired s := by
        rintro ⟨_, _, hfired, -⟩
        simp [hrunner] at hfired
      refine inv.move hnot (fun _ _ _ _ hr => ?_) fun i => ?_
      · cases hr
        exact hlt
      · have hslept := inv.slept i
        rw [hrunner] at hslept
        exact Nat.le_add_right_of_le hslept
    · have hnot : ¬ Fired s := by
        rintro ⟨_, _, hfired, -⟩
        simp [hrunner] at hfired
      refine inv.move hnot (fun _ _ _ _ hr => by cases hr) fun i => ?_
      have hslept := inv.slept i
      rw [hrunner] at hslept
      exact Nat.le_add_right_of_le hslept
  | decrement i =>
    obtain ⟨limit, value, count, hrunner, rfl⟩ := step_decrement hstep
    exact inv.decrement hrunner
  | sleep =>
    obtain ⟨limit, value, count, i, hrunner, rfl⟩ := step_sleep hstep
    have hmove : Observed interval (h.observe .sleep)
        { s with runner := .head limit (value + 1) } := by
      refine ⟨inv.same, fun _ => inv.counts (not_fired_inner hrunner), fun _ =>
        inv.positive (not_fired_inner hrunner), (fun _ _ _ _ hr => by cases hr), fun j => ?_⟩
      have hslept := inv.slept j
      have hone := slack_le_one s.runner j
      simp only [History.observe, slack]
      omega
    exact hmove
  | lockNames horizon =>
    obtain ⟨report, rfl⟩ := step_report (.inr (.inr ⟨horizon, rfl⟩)) hstep
    exact inv.frame rfl rfl rfl
  | load =>
    obtain ⟨report, rfl⟩ := step_report (.inl rfl) hstep
    exact inv.frame rfl rfl rfl
  | unlockNames =>
    obtain ⟨report, rfl⟩ := step_report (.inr (.inl rfl)) hstep
    exact inv.frame rfl rfl rfl

end Observed

theorem run_observedOf {s : State} (hrun : run step (init interval) labels = some s) :
    Observed interval (historyOf labels) s := by
  refine run_observed (P := Observed interval) ?_ (Observed.init interval) hrun
  exact fun h s l s' inv hstep => inv.step hstep

/-! ## When it fires -/

/-- The step which fires is the decrement which uses up what a monitor was
allowed. -/
theorem fired_step {s s' : State} {l : Label}
    (hrun : run step (init interval) labels = some s) (hstep : step s l = some s')
    (hnot : ¬ Fired s) :
    Fired s' ↔ ∃ i, l = .decrement i ∧ Expired interval (labels ++ [l]) i := by
  have inv := run_observedOf hrun
  have hcase : ∀ i, l = .decrement i → (Fired s' ↔ Expired interval (labels ++ [l]) i) := by
    rintro i rfl
    obtain ⟨limit, value, count, hrunner, rfl⟩ := step_decrement hstep
    have hcounts := inv.counts hnot i
    have hpos := inv.positive hnot i
    have hsub := inv.toNat_sub_one hnot i
    rw [inv.fired_decrement hrunner, ← UInt64.toNat_inj, hsub, Expired, historyOf_concat]
    simp only [History.observe, update_self, UInt64.reduceToNat]
    omega
  constructor
  · intro hfired
    have hdecrement : ∃ i, l = .decrement i := by
      cases l with
      | decrement i => exact ⟨i, rfl⟩
      | setupMonitor name extension =>
        exact absurd ((fired_iff_of_runner (step_setupMonitor hstep).2.2).mp hfired) hnot
      | store i extension =>
        rw [step_store hstep] at hfired
        exact absurd hfired hnot
      | start maxIterations =>
        rw [(step_start hstep).2] at hfired
        obtain ⟨_, _, hr, -⟩ := hfired
        cases hr
      | next =>
        obtain ⟨limit, value, -, ⟨-, rfl⟩ | rfl⟩ := step_next hstep
        · obtain ⟨_, _, hr, -⟩ := hfired
          cases hr
        · obtain ⟨_, _, hr, hlt⟩ := hfired
          cases hr
          exact absurd hlt (UInt64.lt_irrefl _)
      | sleep =>
        obtain ⟨_, _, _, _, -, rfl⟩ := step_sleep hstep
        obtain ⟨_, _, hr, -⟩ := hfired
        cases hr
      | lockNames horizon =>
        obtain ⟨report, rfl⟩ := step_report (.inr (.inr ⟨horizon, rfl⟩)) hstep
        exact absurd hfired hnot
      | load =>
        obtain ⟨report, rfl⟩ := step_report (.inl rfl) hstep
        exact absurd hfired hnot
      | unlockNames =>
        obtain ⟨report, rfl⟩ := step_report (.inr (.inl rfl)) hstep
        exact absurd hfired hnot
    obtain ⟨i, hi⟩ := hdecrement
    exact ⟨i, hi, (hcase i hi).mp hfired⟩
  · rintro ⟨i, hi, hexpired⟩
    exact (hcase i hi).mpr hexpired

/-- After it has fired the thread does nothing more. -/
theorem runner_of_fired {s s' : State} {l : Label} (hfired : Fired s)
    (hstep : step s l = some s') : s'.runner = s.runner ∧ ∀ i, l ≠ .decrement i := by
  obtain ⟨limit, value, hrunner, hlt⟩ := hfired
  cases l with
  | setupMonitor name extension => exact ⟨(step_setupMonitor hstep).2.2, fun _ => nofun⟩
  | store i extension => exact ⟨by rw [step_store hstep]; rfl, fun _ => nofun⟩
  | start maxIterations => exact absurd ⟨limit, value, hrunner, hlt⟩ (step_start hstep).1
  | next =>
    obtain ⟨_, _, hr, -⟩ := step_next hstep
    rw [hrunner] at hr
    cases hr
  | decrement i =>
    obtain ⟨_, _, _, hr, -⟩ := step_decrement hstep
    rw [hrunner] at hr
    cases hr
  | sleep =>
    obtain ⟨_, _, _, _, hr, -⟩ := step_sleep hstep
    rw [hrunner] at hr
    cases hr
  | lockNames horizon =>
    obtain ⟨report, rfl⟩ := step_report (.inr (.inr ⟨horizon, rfl⟩)) hstep
    exact ⟨rfl, fun _ => nofun⟩
  | load =>
    obtain ⟨report, rfl⟩ := step_report (.inl rfl) hstep
    exact ⟨rfl, fun _ => nofun⟩
  | unlockNames =>
    obtain ⟨report, rfl⟩ := step_report (.inr (.inl rfl)) hstep
    exact ⟨rfl, fun _ => nofun⟩

theorem run_of_fired : ∀ {s s' : State}, Fired s →
    run step s labels = some s' → Fired s' ∧ ∀ i, .decrement i ∉ labels := by
  induction labels with
  | nil =>
    intro s s' hfired hrun
    cases hrun
    exact ⟨hfired, fun _ => not_mem_nil⟩
  | cons l labels ih =>
    intro s s' hfired hrun
    obtain ⟨m, hm, hrun⟩ := run_cons_eq_some.mp hrun
    obtain ⟨hrunner, hl⟩ := runner_of_fired hfired hm
    obtain ⟨hfired', hrest⟩ := ih ((fired_iff_of_runner hrunner).mpr hfired) hrun
    refine ⟨hfired', fun i hi => ?_⟩
    rcases mem_cons.mp hi with hi | hi
    · exact hl i hi.symm
    · exact hrest i hi

/-- The watchdog has fired when some decrement has used up what its monitor
was allowed. -/
theorem fired_iff_expired {s : State} (hrun : run step (init interval) labels = some s) :
    Fired s ↔ ∃ before i after, labels = before ++ .decrement i :: after ∧
      Expired interval (before ++ [.decrement i]) i := by
  induction labels using reverseRecOn generalizing s with
  | nil =>
    cases hrun
    constructor
    · rintro ⟨_, _, hr, -⟩
      cases hr
    · rintro ⟨before, i, after, hnil, -⟩
      simp at hnil
  | append_singleton labels l ih =>
    obtain ⟨m, hm, hstep⟩ := run_append_eq_some.mp hrun
    rw [run_singleton] at hstep
    by_cases hfired : Fired m
    · obtain ⟨before, i, after, rfl, hexpired⟩ := (ih hm).mp hfired
      have hafter := (fired_iff_of_runner (runner_of_fired hfired hstep).1).mpr hfired
      exact iff_of_true hafter ⟨before, i, after ++ [l], by simp, hexpired⟩
    · rw [fired_step hm hstep hfired]
      constructor
      · rintro ⟨i, rfl, hexpired⟩
        exact ⟨labels, i, [], rfl, hexpired⟩
      · rintro ⟨before, i, after, hsplit, hexpired⟩
        rcases eq_nil_or_concat' after with rfl | ⟨after, l', rfl⟩
        · obtain ⟨rfl, hl⟩ := append_inj' hsplit rfl
          obtain rfl := singleton_inj.mp hl
          exact ⟨i, rfl, hexpired⟩
        · have hinit : labels = before ++ .decrement i :: after := by
            rw [← cons_append, ← append_assoc] at hsplit
            exact (append_inj' hsplit rfl).1
          exact absurd ((ih hm).mpr ⟨before, i, after, hinit, hexpired⟩) hfired

/-! ## What is reported -/

/-- Within `n` further decrements the monitor fires, if it is not extended. -/
def WouldFire (interval : Interval) (labels : List Label) (i n : Nat) : Prop :=
  ∃ k ≤ n, (historyOf labels).decrements i + k =
    allowance interval ((historyOf labels).extension i)

theorem expires_iff {s : State}
    (hrun : run step (init interval) labels = some s) (hnot : ¬ Fired s) (n : UInt64) (i : Nat) :
    expires s n i = true ↔ WouldFire interval labels i n.toNat := by
  have hcounts := (run_observedOf hrun).counts hnot i
  rw [expires, decide_eq_true_eq, UInt64.le_iff_toNat_le]
  constructor
  · exact fun hle => ⟨(s.expirations i).toNat, hle, by omega⟩
  · rintro ⟨k, hk, hsum⟩
    omega

theorem mem_expiringMonitors_iff {s : State}
    (hrun : run step (init interval) labels = some s) (hnot : ¬ Fired s) (horizon : Duration)
    (name : String) :
    name ∈ expiringMonitors s horizon ↔
      ∃ i, (name, i) ∈ s.names ∧
        WouldFire interval labels i (intervalsOf interval horizon) := by
  simp only [expiringMonitors, mem_map, mem_filter, expires_iff hrun hnot,
    toNat_timeDurationInCheckingIntervals, (run_observedOf hrun).same]
  constructor
  · rintro ⟨⟨_, i⟩, ⟨hmem, hfire⟩, rfl⟩
    exact ⟨i, hmem, hfire⟩
  · rintro ⟨i, hmem, hfire⟩
    exact ⟨(name, i), ⟨hmem, hfire⟩, rfl⟩

/-- In every run the watchdog has fired just when some decrement has used up
what the last extension of its monitor allowed, and then that decrement is
the last one; before it every monitor has something left, and the thread has
slept at least as long as the extension. Until it fires, a monitor is
reported just when it would fire within the horizon, be it by one load among
other operations or by a report as a whole. -/
theorem run_fires_exactly {interval : Interval} {labels : List Label} {s : State}
    (hrun : run step (init interval) labels = some s) :
    (Fired s ↔ ∃ before i after, labels = before ++ .decrement i :: after ∧
      Expired interval (before ++ [.decrement i]) i) ∧
    (∀ before i after, labels = before ++ .decrement i :: after →
      Expired interval (before ++ [.decrement i]) i →
        (∀ j, .decrement j ∉ after) ∧
        (∀ m, run step (init interval) before = some m → ¬ Fired m) ∧
        (∀ j, (historyOf before).decrements j <
          allowance interval ((historyOf before).extension j)) ∧
        ∀ d, (historyOf before).extension i = some d →
          d.1 ≤ (historyOf before).sleeps i * interval.1) ∧
    (¬ Fired s →
      (∀ i, (historyOf labels).decrements i <
        allowance interval ((historyOf labels).extension i)) ∧
      (∀ n i, expires s n i = true ↔ WouldFire interval labels i n.toNat) ∧
      ∀ horizon name, name ∈ expiringMonitors s horizon ↔
        ∃ i, (name, i) ∈ s.names ∧
          WouldFire interval labels i (intervalsOf interval horizon)) := by
  have hleft : ∀ {labels' : List Label} {m : State},
      run step (init interval) labels' = some m → ¬ Fired m →
        ∀ j, (historyOf labels').decrements j <
          allowance interval ((historyOf labels').extension j) := by
    intro labels' m hm hnot j
    have hcounts := (run_observedOf hm).counts hnot j
    have hpos := (run_observedOf hm).positive hnot j
    omega
  refine ⟨fired_iff_expired hrun, ?_, fun hnot => ⟨hleft hrun hnot, expires_iff hrun hnot,
    mem_expiringMonitors_iff hrun hnot⟩⟩
  rintro before i after rfl hexpired
  obtain ⟨m, hm, hrest⟩ := run_append_eq_some.mp hrun
  obtain ⟨m', hstep, hafter⟩ := run_cons_eq_some.mp hrest
  obtain ⟨limit, value, count, hrunner, -⟩ := step_decrement hstep
  have hnot : ¬ Fired m := Observed.not_fired_inner hrunner
  have hfired : Fired m' := (fired_step hm hstep hnot).mpr ⟨i, rfl, hexpired⟩
  refine ⟨(run_of_fired hfired hafter).2, ?_, hleft hm hnot, fun d hd => ?_⟩
  · intro m₁ hm₁
    obtain rfl := Option.some.inj (hm.symm.trans hm₁)
    exact hnot
  · have hslept := (run_observedOf hm).slept i
    have hslack : slack m.runner i = 0 := by
      rw [hrunner]
      exact if_neg (Nat.lt_irrefl i)
    rw [Expired, historyOf_concat] at hexpired
    simp only [History.observe, Function.update_self, hd, allowance] at hexpired
    have hcover := le_intervalsOf_mul interval d
    have hmul := Nat.mul_le_mul_right interval.1
      (show intervalsOf interval d ≤ (historyOf before).sleeps i by omega)
    omega

/-! ## Runs -/

/-- One millisecond. -/
def millisecond : Interval := ⟨1000, by decide, by decide⟩

/-- A monitor which is extended by a millisecond and then left alone. -/
def stuckRun : List Label :=
  [.setupMonitor "stuck" ⟨1000, by decide⟩, .store 0 ⟨1000, by decide⟩, .start 100,
    .next, .decrement 0, .sleep, .next, .decrement 0]

theorem run_fires_exactly_stuckRun :
    ∃ s, run step (init millisecond) stuckRun = some s ∧ Fired s := by
  obtain ⟨s, hs⟩ := Option.isSome_iff_exists.mp
    (by decide : (run step (init millisecond) stuckRun).isSome = true)
  refine ⟨s, hs, (run_fires_exactly hs).1.mpr ⟨stuckRun.dropLast, 0, [], rfl, ?_⟩⟩
  rfl

/-- `n` iterations over one monitor. -/
def iterations (n : Nat) : List Label :=
  (List.replicate n [Label.next, .decrement 0, .sleep]).flatten

/-- A call of `extendExpiration` stays between its two parts while the
thread goes through `n` iterations and one decrement more. -/
def untouchedRun (n : Nat) : List Label :=
  [.setupMonitor "late" ⟨1000, by decide⟩, .start 18446744073709551615] ++
    (iterations n ++ [.next, .decrement 0])

/-- The state after `k` of the iterations. -/
def untouched (k : Nat) : State where
  interval := millisecond
  expirations := update (init millisecond).expirations 0
    (UInt64.ofNat (18446744073709551615 - k))
  monitorCount := 1
  names := [("late", 0)]
  pending := [(0, ⟨1000, by decide⟩)]
  report := none
  runner := .head 18446744073709551615 (UInt64.ofNat k)

theorem run_untouched_next {k : Nat} (hk : k < 18446744073709551615) :
    run step (untouched k) [.next, .decrement 0] =
      some (decrement
        { untouched k with
          runner := .inner 18446744073709551615 (UInt64.ofNat k) 1 0 }
        18446744073709551615 (UInt64.ofNat k) 1 0) := by
  have hvalue : (UInt64.ofNat k).toNat = k := UInt64.toNat_ofNat_of_lt' (by
    simp only [UInt64.size]
    omega)
  have hlt : UInt64.ofNat k < 18446744073709551615 := by
    rwa [UInt64.lt_iff_toNat_lt, hvalue]
  simp [run, step, untouched, hlt]

theorem run_untouched_iteration {k : Nat} (hk : k < 18446744073709551614) :
    run step (untouched k) [.next, .decrement 0, .sleep] = some (untouched (k + 1)) := by
  have hvalue : (UInt64.ofNat (18446744073709551615 - k)).toNat = 18446744073709551615 - k :=
    UInt64.toNat_ofNat_of_lt' (by
      simp only [UInt64.size]
      omega)
  have hless : (UInt64.ofNat (18446744073709551614 - k)).toNat = 18446744073709551614 - k :=
    UInt64.toNat_ofNat_of_lt' (by
      simp only [UInt64.size]
      omega)
  have hsub : UInt64.ofNat (18446744073709551615 - k) - 1 =
      UInt64.ofNat (18446744073709551614 - k) := by
    apply UInt64.toNat.inj
    rw [UInt64.toNat_sub_of_le, hvalue, hless]
    · simp only [UInt64.reduceToNat]
      omega
    · rw [UInt64.le_iff_toNat_le, hvalue]
      simp only [UInt64.reduceToNat]
      omega
  have hzero : UInt64.ofNat (18446744073709551614 - k) ≠ 0 := by
    intro h
    have := congrArg UInt64.toNat h
    rw [hless] at this
    simp only [UInt64.reduceToNat] at this
    omega
  rw [show [Label.next, .decrement 0, .sleep] = [.next, .decrement 0] ++ [.sleep] from rfl,
    run_append, run_untouched_next (by omega)]
  simp [decrement, untouched, hsub, hzero, run, step]

theorem run_untouched_iterations (n : Nat) : ∀ {k : Nat}, k + n ≤ 18446744073709551614 →
    run step (untouched k) (iterations n) = some (untouched (k + n)) := by
  induction n with
  | zero => exact fun _ => rfl
  | succ n ih =>
    intro k hk
    rw [iterations, replicate_succ, flatten_cons, ← iterations, run_append,
      run_untouched_iteration (by omega), Option.bind_some, ih (by omega), Nat.add_right_comm,
      Nat.add_assoc]

theorem extension_eq_none (h : ∀ l ∈ labels, ∀ i d, l ≠ .store i d)
    (i : Nat) : (historyOf labels).extension i = none := by
  induction labels using reverseRecOn with
  | nil => rfl
  | append_singleton labels l ih =>
    have hl := h l (by simp)
    rw [historyOf_concat]
    cases l with
    | store i d => exact absurd rfl (hl i d)
    | _ => exact ih fun l' hl' => h l' (by simp [hl'])

theorem not_store_untouchedRun (n : Nat) :
    ∀ l ∈ untouchedRun n, ∀ i d, l ≠ .store i d := by
  rintro l hl i d rfl
  simp [untouchedRun, iterations] at hl

theorem run_start :
    run step (init millisecond) [.setupMonitor "late" ⟨1000, by decide⟩,
      .start 18446744073709551615] = some (untouched 0) := by
  have hsame : (untouched 0).expirations = (init millisecond).expirations :=
    Function.update_eq_self 0 _
  have hstate : untouched 0 =
      { untouched 0 with expirations := (init millisecond).expirations } := by
    rw [← hsame]
  rw [hstate]
  rfl

/-- The last decrement takes the expiration to zero. -/
theorem run_untouched_fires :
    ∃ s, run step (untouched 18446744073709551614) [.next, .decrement 0] = some s ∧
      Fired s := by
  refine ⟨_, run_untouched_next (by decide), 18446744073709551615,
    UInt64.ofNat 18446744073709551614, ?_, by decide⟩
  have hzero : (untouched 18446744073709551614).expirations 0 - 1 = 0 := by decide
  simp only [decrement, hzero, if_true]

/-- A monitor which is set up and never extended fires all the same, after
as many decrements as the counter has values. -/
theorem untouchedRun_fires :
    ∃ s, run step (init millisecond) (untouchedRun 18446744073709551614) = some s ∧ Fired s ∧
      ∀ i, (historyOf (untouchedRun 18446744073709551614)).extension i = none := by
  obtain ⟨s, hlast, hfired⟩ := run_untouched_fires
  have hrun := run_untouched_iterations 18446744073709551614 (k := 0) (by omega)
  rw [Nat.zero_add] at hrun
  refine ⟨s, ?_, hfired, extension_eq_none (not_store_untouchedRun _)⟩
  rw [untouchedRun, run_append, run_start, Option.bind_some, run_append, hrun, Option.bind_some,
    hlast]

end Baselib.Core.Watchdog
