/-
Baselib.Tasks.RetryableWrapperTaskTheorems — how a retry sequence goes on and
how it ends.

As long as the sequence goes on no attempt was judged ok and the budget is
not used up, so the number of work tasks is known from the verdicts
(`Going`). What holds at the end (`Settled`) follows from what held before
the last step. A request which has got the lock finds the wrapper outside of
a decision, and from then on every look at the latch ends the sequence; one
which has only set the latch can come in the middle of a decision.
-/
import Mathlib.Order.Basic
import Baselib.Tasks.RetryableWrapperTask

namespace Baselib.Tasks.RetryableWrapperTask

open Lib List
open Lib.Transition (run run_cons_eq_some run_append_eq_some run_invariant along_true)
open Option (ite_none_right_eq_some)

variable {ε : Type} {cfg : Config ε} {s s' : State ε} {labels : List (Label ε)}

/-! ## The invariant -/

/-- The sequence goes on. -/
structure Going (cfg : Config ε) (s : State ε) : Prop where
  not_ok : ∀ v ∈ s.verdicts, v = false
  budget : s.verdicts = [] ∨ s.verdicts.length < cfg.maxRetryCount
  workTasks_eq : s.workTasks = s.verdicts.length + if s.wrapped = .work then 1 else 0

/-- Why the sequence has ended. -/
def Reason (cfg : Config ε) (s : State ε) : Prop :=
  s.verdicts.getLast? = some true ∨ cfg.maxRetryCount ≤ s.verdicts.length ∨
    s.cancelRequested = true ∨ s.lastSleep ≠ none

/-- The exception which is reported. -/
def Reported (cfg : Config ε) (s : State ε) : Prop :=
  (s.wrapped = .work ∧ s.exception = s.lastAttempt) ∨
  (s.exception = some cfg.operationAborted ∧ s.cancelRequested = true ∧
    ∀ v ∈ s.verdicts, v = false) ∨
  (s.wrapped = .sleep ∧ s.exception = s.lastSleep ∧ s.lastSleep ≠ none)

/-- The sequence has ended. -/
structure Settled (cfg : Config ε) (s : State ε) : Prop where
  budget : s.workTasks ≤ max 1 cfg.maxRetryCount
  first_ok : ∀ v ∈ s.verdicts.dropLast, v = false
  reason : Reason cfg s
  reported : Reported cfg s

/-- The wrapped task has completed and was not replaced. -/
def Phase.finished : Phase → Bool
  | .completed | .continuing | .deciding => true
  | _ => false

structure Inv (cfg : Config ε) (s : State ε) : Prop where
  retrying_iff : s.retrying = true ↔ s.wrapped = .sleep
  count_eq : s.currentRetryCount = s.verdicts.length
  attempt : s.phase.finished = true → s.wrapped = .work → s.exception = s.lastAttempt
  slept : s.phase.finished = true → s.wrapped = .sleep → s.exception = s.lastSleep
  going : s.phase ≠ .ended → Going cfg s
  settled : s.phase = .ended → Settled cfg s

theorem create_inv : Inv cfg (State.create : State ε) where
  retrying_iff := by simp [State.create]
  count_eq := rfl
  attempt := by simp [State.create]
  slept := by simp [State.create]
  going := fun _ => ⟨by simp [State.create], .inl rfl, rfl⟩
  settled := by simp [State.create]

theorem Going.workTasks_le (h : Going cfg s) : s.workTasks ≤ max 1 cfg.maxRetryCount := by
  have hle := h.workTasks_eq
  rcases h.budget with hnil | hlt
  · simp only [hnil, length_nil] at hle
    split at hle <;> omega
  · split at hle <;> omega

theorem Inv.workTasks_le (h : Inv cfg s) : s.workTasks ≤ max 1 cfg.maxRetryCount := by
  by_cases hphase : s.phase = .ended
  · exact (h.settled hphase).budget
  · exact (h.going hphase).workTasks_le

/-! ## Steps -/

theorem Inv.phase (h : Inv cfg s) (phase : Phase) (hbefore : s.phase ≠ .ended)
    (hafter : phase ≠ .ended) (hfinished : phase.finished = true → s.phase.finished = true) :
    Inv cfg { s with phase := phase } where
  retrying_iff := h.retrying_iff
  count_eq := h.count_eq
  attempt := fun hphase => h.attempt (hfinished hphase)
  slept := fun hphase => h.slept (hfinished hphase)
  going := fun _ => ⟨(h.going hbefore).not_ok, (h.going hbefore).budget,
    (h.going hbefore).workTasks_eq⟩
  settled := fun hphase => absurd hphase hafter

theorem Inv.complete (h : Inv cfg s) (hphase : s.phase = .running) (eptr : Option ε) :
    Inv cfg (complete eptr s) := by
  have hgoing := h.going (by rw [hphase]; exact nofun)
  exact
    { retrying_iff := h.retrying_iff
      count_eq := h.count_eq
      attempt := fun _ hwork => (if_pos hwork).symm
      slept := fun _ hsleep => (if_pos hsleep).symm
      going := fun _ => ⟨hgoing.not_ok, hgoing.budget, hgoing.workTasks_eq⟩
      settled := nofun }

theorem Inv.handleContinuationForward (h : Inv cfg s) (hphase : s.phase = .completed)
    {continuation : Bool} (hstep : handleContinuationForward continuation s = some s') :
    Inv cfg s' := by
  have hgoing := h.going (by rw [hphase]; exact nofun)
  unfold RetryableWrapperTask.handleContinuationForward at hstep
  cases continuation with
  | false =>
    cases hstep
    exact h.phase .continuing (by rw [hphase]; exact nofun) nofun
      fun _ => by rw [hphase]; rfl
  | true =>
    rw [if_pos rfl] at hstep
    split at hstep
    · cases hstep
      exact
        { retrying_iff := h.retrying_iff
          count_eq := h.count_eq
          attempt := nofun
          slept := nofun
          going := fun _ => ⟨hgoing.not_ok, hgoing.budget, hgoing.workTasks_eq⟩
          settled := nofun }
    · cases hstep

theorem Wrapped.work_or_sleep : ∀ w : Wrapped, w = .work ∨ w = .sleep
  | .work => .inl rfl
  | .sleep => .inr rfl

/-- The latch ends the sequence with the exception of what is wrapped, or as
aborted. -/
theorem Inv.reported_of_latch (h : Inv cfg s) (hphase : s.phase = .continuing)
    (hcancel : s.cancelRequested = true) :
    Reported cfg
      { s with phase := .ended, exception := s.exception.or (some cfg.operationAborted) } := by
  have hgoing := h.going (by rw [hphase]; exact nofun)
  have hfinished : s.phase.finished = true := by rw [hphase]; rfl
  rcases hexception : s.exception with _ | e
  · exact .inr (.inl ⟨rfl, hcancel, hgoing.not_ok⟩)
  · rcases s.wrapped.work_or_sleep with hwork | hsleep
    · exact .inl ⟨hwork, hexception.symm.trans (h.attempt hfinished hwork)⟩
    · have hslept := hexception.symm.trans (h.slept hfinished hsleep)
      refine .inr (.inr ⟨hsleep, hslept, ?_⟩)
      rw [← hslept]
      exact Option.some_ne_none e

theorem Inv.checkCancel (h : Inv cfg s) (hphase : s.phase = .continuing) :
    Inv cfg (checkCancel cfg s) := by
  have hgoing := h.going (by rw [hphase]; exact nofun)
  unfold RetryableWrapperTask.checkCancel
  split
  next hcancel =>
    exact
      { retrying_iff := h.retrying_iff
        count_eq := h.count_eq
        attempt := nofun
        slept := nofun
        going := fun hended => absurd rfl hended
        settled := fun _ =>
          { budget := hgoing.workTasks_le
            first_ok := fun v hv => hgoing.not_ok v (dropLast_subset _ hv)
            reason := .inr (.inr (.inl hcancel))
            reported := h.reported_of_latch hphase hcancel } }
  next =>
    exact h.phase .deciding (by rw [hphase]; exact nofun) nofun
      fun _ => by rw [hphase]; rfl

theorem Inv.decideAttempt (h : Inv cfg s) (hphase : s.phase = .deciding)
    (hretrying : s.retrying = false) (verdict : Bool) :
    Inv cfg (decideContinuation cfg verdict s) := by
  have hgoing := h.going (by rw [hphase]; exact nofun)
  have hwork : s.wrapped = .work := s.wrapped.work_or_sleep.resolve_right fun hsleep => by
    simp [h.retrying_iff.mpr hsleep] at hretrying
  have hfinished : s.phase.finished = true := by rw [hphase]; rfl
  have hworkTasks := hgoing.workTasks_eq
  rw [if_pos hwork] at hworkTasks
  have hcount := h.count_eq
  generalize hok : isTaskOk cfg verdict s = ok
  simp only [decideContinuation, hretrying, Bool.not_false, if_true, hok]
  split
  next hends =>
    exact
      { retrying_iff := hretrying ▸ h.retrying_iff
        count_eq := by simp [hcount]
        attempt := nofun
        slept := nofun
        going := fun hended => absurd rfl hended
        settled := fun _ =>
          { budget := hworkTasks ▸ by
              have hle := hgoing.workTasks_le
              omega
            first_ok := fun v hv => by
              rw [dropLast_concat] at hv
              exact hgoing.not_ok v hv
            reason := by
              rcases hends with hok | hbudget
              · exact .inl (by simp [hok])
              · refine .inr (.inl ?_)
                rwa [length_append, length_singleton, ← hcount]
            reported := .inl ⟨hwork, h.attempt hfinished hwork⟩ } }
  next hgoes =>
    obtain ⟨hnot, hbudget⟩ := not_or.mp hgoes
    exact
      { retrying_iff := ⟨fun _ => rfl, fun _ => rfl⟩
        count_eq := by simp [hcount]
        attempt := nofun
        slept := nofun
        going := fun _ =>
          { not_ok := fun v hv => by
              rcases mem_append.mp hv with hv | hv
              · exact hgoing.not_ok v hv
              · rw [mem_singleton.mp hv]
                simpa using hnot
            budget := .inr (by
              rw [length_append, length_singleton, ← hcount]
              exact Nat.lt_of_not_le hbudget)
            workTasks_eq := by
              rw [length_append, length_singleton]
              exact hworkTasks }
        settled := nofun }

theorem Inv.decideSleep (h : Inv cfg s) (hphase : s.phase = .deciding)
    (hretrying : s.retrying = true) (verdict : Bool) :
    Inv cfg (decideContinuation cfg verdict s) := by
  have hgoing := h.going (by rw [hphase]; exact nofun)
  have hsleep := h.retrying_iff.mp hretrying
  have hfinished : s.phase.finished = true := by rw [hphase]; rfl
  have hworkTasks := hgoing.workTasks_eq
  rw [if_neg (by rw [hsleep]; exact nofun)] at hworkTasks
  simp only [decideContinuation, hretrying, Bool.not_true, Bool.false_eq_true, if_false]
  split
  next hfailed =>
    have hslept := h.slept hfinished hsleep
    have hne : s.lastSleep ≠ none := by
      rw [← hslept]
      exact Option.isSome_iff_ne_none.mp hfailed
    exact
      { retrying_iff := hretrying ▸ h.retrying_iff
        count_eq := h.count_eq
        attempt := nofun
        slept := nofun
        going := fun hended => absurd rfl hended
        settled := fun _ =>
          { budget := hgoing.workTasks_le
            first_ok := fun v hv => hgoing.not_ok v (dropLast_subset _ hv)
            reason := .inr (.inr (.inr hne))
            reported := .inr (.inr ⟨hsleep, hslept, hne⟩) } }
  next =>
    exact
      { retrying_iff := ⟨nofun, nofun⟩
        count_eq := h.count_eq
        attempt := nofun
        slept := nofun
        going := fun _ => ⟨hgoing.not_ok, hgoing.budget, congrArg (· + 1) hworkTasks⟩
        settled := nofun }

/-- A request which is made leaves the sequence as it is. -/
theorem Inv.latch (h : Inv cfg s) : Inv cfg { s with cancelRequested := true } :=
  { h with
    going := fun hphase =>
      ⟨(h.going hphase).not_ok, (h.going hphase).budget, (h.going hphase).workTasks_eq⟩
    settled := fun hphase =>
      { budget := (h.settled hphase).budget
        first_ok := (h.settled hphase).first_ok
        reason := by
          rcases (h.settled hphase).reason with hok | hbudget | - | hsleep
          · exact .inl hok
          · exact .inr (.inl hbudget)
          · exact .inr (.inr (.inl rfl))
          · exact .inr (.inr (.inr hsleep))
        reported := by
          rcases (h.settled hphase).reported with hwork | ⟨haborted, -, hnot⟩ | hsleep
          · exact .inl hwork
          · exact .inr (.inl ⟨haborted, rfl, hnot⟩)
          · exact .inr (.inr hsleep) } }

theorem step_inv {l : Label ε} (h : Inv cfg s) (hstep : step cfg s l = some s') : Inv cfg s' := by
  cases l with
  | scheduleNothrow =>
    obtain ⟨hphase, hs⟩ := ite_none_right_eq_some.mp hstep
    cases hs
    exact h.phase .running (by rw [hphase]; exact nofun) nofun
      nofun
  | complete eptr =>
    obtain ⟨hphase, hs⟩ := ite_none_right_eq_some.mp hstep
    cases hs
    exact h.complete hphase eptr
  | forward continuation =>
    obtain ⟨hphase, hs⟩ := ite_none_right_eq_some.mp hstep
    exact h.handleContinuationForward hphase hs
  | checkCancel =>
    obtain ⟨hphase, hs⟩ := ite_none_right_eq_some.mp hstep
    cases hs
    exact h.checkCancel hphase
  | decideContinuation verdict =>
    obtain ⟨hphase, hs⟩ := ite_none_right_eq_some.mp hstep
    cases hs
    cases hretrying : s.retrying with
    | false => exact h.decideAttempt hphase hretrying verdict
    | true => exact h.decideSleep hphase hretrying verdict
  | latch =>
    cases hstep
    exact h.latch
  | requestCancel =>
    obtain ⟨-, hs⟩ := ite_none_right_eq_some.mp hstep
    cases hs
    exact h

theorem run_inv (hrun : run (step cfg) State.create labels = some s) : Inv cfg s :=
  run_invariant (fun _ _ _ hinv _ hstep => step_inv hinv hstep) create_inv along_true hrun

/-! ## Requests -/

/-- A request has been forwarded: the wrapper is not in the middle of a
decision, and will not be again. -/
def Stopped (workTasks : Nat) (s : State ε) : Prop :=
  s.cancelRequested = true ∧ s.phase ≠ .deciding ∧ s.workTasks = workTasks

theorem step_stopped {workTasks : Nat} {l : Label ε} (h : Stopped workTasks s)
    (hstep : step cfg s l = some s') : Stopped workTasks s' := by
  obtain ⟨hcancel, hphase, hworkTasks⟩ := h
  cases l with
  | scheduleNothrow | complete _ =>
    obtain ⟨-, hs⟩ := ite_none_right_eq_some.mp hstep
    cases hs
    exact ⟨hcancel, nofun, hworkTasks⟩
  | forward continuation =>
    obtain ⟨-, hs⟩ := ite_none_right_eq_some.mp hstep
    cases continuation with
    | false =>
      cases hs
      exact ⟨hcancel, nofun, hworkTasks⟩
    | true =>
      obtain ⟨-, hs⟩ := ite_none_right_eq_some.mp hs
      cases hs
      exact ⟨hcancel, nofun, hworkTasks⟩
  | checkCancel =>
    obtain ⟨-, hs⟩ := ite_none_right_eq_some.mp hstep
    cases hs
    rw [checkCancel, if_pos hcancel]
    exact ⟨hcancel, nofun, hworkTasks⟩
  | decideContinuation verdict =>
    obtain ⟨hdeciding, -⟩ := ite_none_right_eq_some.mp hstep
    exact absurd hdeciding hphase
  | latch =>
    cases hstep
    exact ⟨rfl, hphase, hworkTasks⟩
  | requestCancel =>
    obtain ⟨-, hs⟩ := ite_none_right_eq_some.mp hstep
    cases hs
    exact ⟨hcancel, hphase, hworkTasks⟩

theorem run_stopped {workTasks : Nat} (h : Stopped workTasks s)
    (hrun : run (step cfg) s labels = some s') : s'.workTasks = workTasks :=
  (run_invariant (fun _ _ _ hstopped _ hstep => step_stopped hstopped hstep) h along_true hrun).2.2

/-- The decision which is being made makes one work task at most. -/
theorem decideContinuation_workTasks (cfg : Config ε) (verdict : Bool) (s : State ε) :
    (decideContinuation cfg verdict s).phase ≠ .deciding ∧
      (decideContinuation cfg verdict s).cancelRequested = s.cancelRequested ∧
      ((decideContinuation cfg verdict s).workTasks = s.workTasks ∨
        s.retrying = true ∧ (decideContinuation cfg verdict s).workTasks = s.workTasks + 1) := by
  unfold decideContinuation
  cases hretrying : s.retrying with
  | false =>
    simp only [Bool.not_false, if_true]
    split <;> exact ⟨nofun, rfl, .inl rfl⟩
  | true =>
    simp only [Bool.not_true, Bool.false_eq_true, if_false]
    split
    · exact ⟨nofun, rfl, .inl rfl⟩
    · exact ⟨nofun, rfl, .inr ⟨trivial, rfl⟩⟩

/-- A request which is made in the middle of a decision. -/
theorem run_deciding : ∀ {s s' : State ε}, s.cancelRequested = true →
    s.phase = .deciding → run (step cfg) s labels = some s' →
    s'.workTasks = s.workTasks ∨ s.retrying = true ∧ s'.workTasks = s.workTasks + 1 := by
  induction labels with
  | nil =>
    intro s s' _ _ hrun
    cases hrun
    exact .inl rfl
  | cons l labels ih =>
    intro s s' hcancel hphase hrun
    obtain ⟨m, hstep, hrun⟩ := run_cons_eq_some.mp hrun
    cases l with
    | decideContinuation verdict =>
      rw [step, if_pos hphase] at hstep
      cases hstep
      obtain ⟨hdecided, hlatch, hworkTasks⟩ := decideContinuation_workTasks cfg verdict s
      rwa [run_stopped ⟨hlatch.trans hcancel, hdecided, rfl⟩ hrun]
    | latch =>
      cases hstep
      exact ih (s := { s with cancelRequested := true }) rfl hphase hrun
    | requestCancel =>
      rw [step, if_neg fun h => h.1 hphase] at hstep
      cases hstep
    | scheduleNothrow | complete | forward | checkCancel =>
      rw [step, if_neg (by rw [hphase]; exact nofun)] at hstep
      cases hstep

theorem run_latch (h : Inv cfg s) (hrun : run (step cfg) s (.latch :: labels) = some s') :
    s'.workTasks = s.workTasks ∨
      s.phase = .deciding ∧ s.wrapped = .sleep ∧ s'.workTasks = s.workTasks + 1 := by
  obtain ⟨m, hstep, hrun⟩ := run_cons_eq_some.mp hrun
  have hm : { s with cancelRequested := true } = m := Option.some.inj hstep
  by_cases hphase : s.phase = .deciding
  · rcases run_deciding (by rw [← hm]) (by rw [← hm]; exact hphase) hrun with
      heq | ⟨hretrying, hmore⟩
    · rw [← hm] at heq
      exact .inl heq
    · rw [← hm] at hretrying hmore
      exact .inr ⟨hphase, h.retrying_iff.mp hretrying, hmore⟩
  · exact .inl (run_stopped ⟨by rw [← hm], by rw [← hm]; exact hphase, by rw [← hm]⟩ hrun)

theorem run_requestCancel (hrun : run (step cfg) s (.requestCancel :: labels) = some s') :
    s'.workTasks = s.workTasks := by
  obtain ⟨m, hstep, hrun⟩ := run_cons_eq_some.mp hrun
  obtain ⟨⟨hphase, hcancel⟩, hs⟩ := ite_none_right_eq_some.mp hstep
  cases hs
  exact run_stopped ⟨hcancel, hphase, rfl⟩ hrun

/-- In every run the work tasks stay within the budget. The sequence goes on
while no attempt is judged ok and the budget lasts, and ends with the first
one judged ok, with the budget, with a request or with a sleep which failed;
the exception is the one of the last attempt, or of that sleep, or the task
is aborted by a request which came before an attempt was judged ok. After a
request was forwarded there is no new work task; after it was only made there
may be the one of the decision which was being made. -/
theorem retry_sequence (cfg : Config ε) (labels : List (Label ε)) (s : State ε)
    (hrun : run (step cfg) State.create labels = some s) :
    s.workTasks ≤ max 1 cfg.maxRetryCount ∧
    (s.phase ≠ .ended → (∀ v ∈ s.verdicts, v = false) ∧
      (s.verdicts = [] ∨ s.verdicts.length < cfg.maxRetryCount)) ∧
    (s.phase = .ended → (∀ v ∈ s.verdicts.dropLast, v = false) ∧ Reason cfg s ∧ Reported cfg s) ∧
    (∀ before after m, labels = before ++ .requestCancel :: after →
      run (step cfg) State.create before = some m → s.workTasks = m.workTasks) ∧
    (∀ before after m, labels = before ++ .latch :: after →
      run (step cfg) State.create before = some m →
      s.workTasks = m.workTasks ∨
        m.phase = .deciding ∧ m.wrapped = .sleep ∧ s.workTasks = m.workTasks + 1) := by
  have hinv := run_inv hrun
  refine ⟨hinv.workTasks_le, fun hphase => ?_, fun hphase => ?_, ?_, ?_⟩
  · exact ⟨(hinv.going hphase).not_ok, (hinv.going hphase).budget⟩
  · have hsettled := hinv.settled hphase
    exact ⟨hsettled.first_ok, hsettled.reason, hsettled.reported⟩
  · intro before after m hlabels hbefore
    rw [hlabels] at hrun
    obtain ⟨m', hm', hrest⟩ := run_append_eq_some.mp hrun
    obtain rfl := Option.some.inj (hbefore.symm.trans hm')
    exact run_requestCancel hrest
  · intro before after m hlabels hbefore
    rw [hlabels] at hrun
    obtain ⟨m', hm', hrest⟩ := run_append_eq_some.mp hrun
    obtain rfl := Option.some.inj (hbefore.symm.trans hm')
    exact run_latch (run_inv hbefore) hrest

/-! Runs of a wrapper with three attempts and without a callback. -/

def threeAttempts : Config Nat := ⟨3, false, 0⟩

/-- The first attempt fails, and the sleep after it completes as told; the
latch is looked at. -/
def afterSleep (eptr : Option Nat) : List (Label Nat) :=
  [.scheduleNothrow, .complete (some 7), .forward false, .checkCancel, .decideContinuation false,
    .scheduleNothrow, .complete eptr, .forward false, .checkCancel]

/-- The second attempt has been made. -/
def secondAttempt : State Nat :=
  { State.create with
    currentRetryCount := 1
    workTasks := 2
    cancelRequested := true
    lastAttempt := some 7
    verdicts := [false] }

theorem retry_sequence_secondAttempt :
    run (step threeAttempts) State.create (afterSleep none ++ [.latch, .decideContinuation false]) =
        some secondAttempt ∧
      secondAttempt.workTasks ≤ 3 ∧ ∀ v ∈ secondAttempt.verdicts, v = false := by
  have hrun : run (step threeAttempts) State.create
      (afterSleep none ++ [.latch, .decideContinuation false]) = some secondAttempt := by decide
  have h := retry_sequence threeAttempts _ secondAttempt hrun
  exact ⟨hrun, h.1, (h.2.1 (by decide)).1⟩

/-- A work task is made after the latch was set in the middle of a decision;
an attempt which is ok completes before the request, and the task is aborted
all the same; and a sleep which fails gives its exception to the task. -/
theorem requests_and_decisions :
    (∃ m s, run (step threeAttempts) State.create (afterSleep none) = some m ∧
      run (step threeAttempts) m [.latch, .decideContinuation false] = some s ∧
      m.workTasks = 1 ∧ s.workTasks = 2) ∧
    (∃ m s, run (step threeAttempts) State.create [.scheduleNothrow, .complete none] = some m ∧
      m.phase = .completed ∧ isTaskOk threeAttempts false m = true ∧ m.cancelRequested = false ∧
      run (step threeAttempts) m [.latch, .forward false, .checkCancel] = some s ∧
      s.phase = .ended ∧ s.lastAttempt = none ∧
      s.exception = some threeAttempts.operationAborted) ∧
    (∃ s, run (step threeAttempts) State.create
        (afterSleep (some 5) ++ [.decideContinuation false]) = some s ∧
      s.phase = .ended ∧ s.lastAttempt = some 7 ∧ s.exception = some 5) := by
  refine ⟨⟨_, _, rfl, rfl, rfl, rfl⟩, ⟨_, _, rfl, rfl, rfl, rfl, rfl, rfl, rfl, rfl⟩,
    ⟨_, rfl, rfl, rfl, rfl⟩⟩

end Baselib.Tasks.RetryableWrapperTask
