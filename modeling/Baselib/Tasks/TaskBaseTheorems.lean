/-
Baselib.Tasks.TaskBaseTheorems — what the notifications of a run do.

A notification which the finish continuation does not postpone calls
`onTaskStoppedNothrow`; the first of these in a run decides its exception and
its state and takes the ready callback. Everything is derived from what a
notification does by its three cases.
-/
import Mathlib.Data.List.Perm.Basic
import Baselib.Tasks.TaskBase

namespace Baselib.Tasks.TaskBase

open Lib List
open ExecutionQueue (TaskState)

variable {ε : Type} {cfg : Config ε} {s s' : State ε} {n : Notification ε} {hooks : Hooks ε}

/-! ## Notifications -/

/-- What the finish continuation of the notification does. -/
def Notification.finish (n : Notification ε) (hooks : Hooks ε) : FinishContinuation ε :=
  if n.allowFinishContinuations then hooks.scheduleTaskFinishContinuation n.eptr else .proceeds

/-- The finish continuation does not answer true. -/
def Notification.Completes (n : Notification ε) (hooks : Hooks ε) : Prop :=
  n.finish hooks ≠ .postpones

/-- The exception a run ends with when the notification is the one that
decides: the one its finish continuation throws, the one the task has
already, or what `onTaskStoppedNothrow` makes of its own. -/
def Notification.decided (n : Notification ε) (hooks : Hooks ε) (exception : Option ε) :
    Option ε :=
  match n.finish hooks with
  | .throws eptr => some eptr
  | _ => exception.or (hooks.onTaskStoppedNothrow n.eptr)

/-- A notification which is postponed has called the finish continuation and
nothing else. -/
theorem notifyReadyImpl_postpones (h : n.finish hooks = .postpones) :
    notifyReadyImpl n hooks s = { s with finishes := s.finishes ++ [s.schedules] } := by
  unfold Notification.finish at h
  unfold notifyReadyImpl finishContinuation
  split at h
  · rename_i hallow
    simp [hallow, h]
  · cases h

/-- A notification of a run which is notified already. -/
theorem notifyReadyImpl_notified (h : n.Completes hooks) (hnotified : s.notifyCalled = true) :
    ∃ finishes exception, notifyReadyImpl n hooks s =
        { s with
          finishes := finishes
          stops := s.stops ++ [s.schedules]
          exception := exception } ∧
      ((∀ eptr, n.finish hooks ≠ .throws eptr) → exception = s.exception) := by
  unfold Notification.Completes Notification.finish at h
  unfold Notification.finish notifyReadyImpl finishContinuation
  cases hallow : n.allowFinishContinuations with
  | false => exact ⟨s.finishes, s.exception, by simp [hnotified], fun _ => rfl⟩
  | true =>
    simp only [hallow, if_true] at h ⊢
    cases hfinish : hooks.scheduleTaskFinishContinuation n.eptr with
    | postpones => exact absurd hfinish h
    | proceeds =>
      exact ⟨s.finishes ++ [s.schedules], s.exception, by simp [hnotified], fun _ => rfl⟩
    | throws eptr =>
      exact ⟨s.finishes ++ [s.schedules], some eptr, by simp [hnotified],
        fun hnot => absurd rfl (hnot eptr)⟩

/-- The notification which decides. -/
theorem notifyReadyImpl_decides (h : n.Completes hooks) (hopen : s.notifyCalled = false) :
    ∃ finishes, notifyReadyImpl n hooks s =
      { s with
        finishes := finishes
        stops := s.stops ++ [s.schedules]
        exception := n.decided hooks s.exception
        cbReady := none
        completing := s.completing ++ s.cbReady.toList
        state := .pendingCompletion
        notifyCalled := true } := by
  unfold Notification.Completes Notification.finish at h
  unfold Notification.decided Notification.finish notifyReadyImpl finishContinuation
  cases hallow : n.allowFinishContinuations with
  | false => exact ⟨s.finishes, by simp [hopen, complete]⟩
  | true =>
    simp only [hallow, if_true] at h ⊢
    cases hfinish : hooks.scheduleTaskFinishContinuation n.eptr with
    | postpones => exact absurd hfinish h
    | proceeds | throws _ => exact ⟨s.finishes ++ [s.schedules], by simp [hopen, complete]⟩

/-! ## The invariant -/

/-- The callbacks which were swapped out. -/
def State.taken (s : State ε) : List Nat := s.completing ++ s.invoked

/-- The callback of a run is taken when `onTaskStoppedNothrow` is first
called in it, and the guard remembers this for the last run. -/
structure Inv (s : State ε) : Prop where
  created : s.state = .created → s.schedules = 0
  running : s.state = .running → s.notifyCalled = false
  cbReady : s.schedules ≠ 0 → s.notifyCalled = false → s.cbReady = some s.schedules
  notified : s.notifyCalled = true ↔ s.schedules ∈ s.stops
  stops : ∀ i ∈ s.stops, 0 < i ∧ i ≤ s.schedules
  posted : s.posted ≠ [] → s.schedules ≠ 0
  taken : ∀ i, s.taken.count i = if i ∈ s.stops then 1 else 0

theorem create_inv : Inv (State.create : State ε) where
  created _ := rfl
  running h := by cases h
  cbReady h := absurd rfl h
  notified := by simp [State.create]
  stops := by simp [State.create]
  posted h := absurd rfl h
  taken i := by simp [State.create, State.taken]

/-- The parts the invariant reads. -/
theorem Inv.congr (h : Inv s) (hstate : s'.state = s.state ∨
      s'.state = .completed ∧ s.state ≠ .running) (hcbReady : s'.cbReady = s.cbReady)
    (hnotifyCalled : s'.notifyCalled = s.notifyCalled) (hschedules : s'.schedules = s.schedules)
    (hstops : s'.stops = s.stops) (hposted : s'.posted ≠ [] → s.posted ≠ [])
    (htaken : s'.taken.Perm s.taken) : Inv s' where
  created hcreated := by
    rw [hschedules]
    obtain hsame | ⟨hcompleted, -⟩ := hstate
    · exact h.created (hsame ▸ hcreated)
    · cases hcompleted.symm.trans hcreated
  running hrunning := by
    rw [hnotifyCalled]
    obtain hsame | ⟨hcompleted, -⟩ := hstate
    · exact h.running (hsame ▸ hrunning)
    · cases hcompleted.symm.trans hrunning
  cbReady := by
    rw [hschedules, hnotifyCalled, hcbReady]
    exact h.cbReady
  notified := by
    rw [hnotifyCalled, hschedules, hstops]
    exact h.notified
  stops := by
    rw [hstops, hschedules]
    exact h.stops
  posted hne := by
    rw [hschedules]
    exact h.posted (hposted hne)
  taken i := by
    rw [htaken.count_eq, hstops]
    exact h.taken i

/-- What a schedule leaves of what the invariant reads. -/
theorem scheduleNothrow_eq (cfg : Config ε) (scheduleTask : Option ε) (s : State ε) :
    ∃ exception notifyCalled cancelRequested posted, scheduleNothrow cfg scheduleTask s =
        { s with
          state := .running
          exception := exception
          cbReady := some (s.schedules + 1)
          notifyCalled := notifyCalled
          cancelRequested := cancelRequested
          posted := posted
          schedules := s.schedules + 1 } ∧
      (s.state = .created → exception = s.exception ∧ notifyCalled = s.notifyCalled ∧
        cancelRequested = s.cancelRequested) ∧
      (s.state ≠ .created → exception = none ∧ notifyCalled = false ∧ cancelRequested = false) := by
  by_cases hcreated : s.state = .created
  · refine ⟨s.exception, s.notifyCalled, s.cancelRequested,
      (scheduleNothrow cfg scheduleTask s).posted, ?_, fun _ => ⟨rfl, rfl, rfl⟩,
      fun hnot => absurd hcreated hnot⟩
    simp [scheduleNothrow, hcreated]
  · refine ⟨none, false, false, (scheduleNothrow cfg scheduleTask s).posted, ?_,
      fun h => absurd h hcreated, fun _ => ⟨rfl, rfl, rfl⟩⟩
    simp [scheduleNothrow, hcreated]

theorem Inv.scheduleNothrow (h : Inv s) (cfg : Config ε) (scheduleTask : Option ε) :
    Inv (scheduleNothrow cfg scheduleTask s) := by
  have hfresh : s.schedules + 1 ∉ s.stops := fun hmem => by
    have hle := (h.stops _ hmem).2
    omega
  obtain ⟨exception, notifyCalled, cancelRequested, posted, heq, hcreated, hagain⟩ :=
    scheduleNothrow_eq cfg scheduleTask s
  have hopen : notifyCalled = false := by
    by_cases hstate : s.state = .created
    · rw [(hcreated hstate).2.1, Bool.eq_false_iff]
      intro hcalled
      have hmem := h.notified.mp hcalled
      have hbounds := h.stops _ hmem
      have hzero := h.created hstate
      omega
    · exact (hagain hstate).2.1
  subst hopen
  rw [heq]
  exact
    { created := nofun
      running := fun _ => rfl
      cbReady := fun _ _ => rfl
      notified := iff_of_false Bool.false_ne_true hfresh
      stops := fun i hi => ⟨(h.stops i hi).1, Nat.le_succ_of_le (h.stops i hi).2⟩
      posted := fun _ => Nat.succ_ne_zero _
      taken := h.taken }

theorem Inv.notifyReadyImpl (h : Inv s) (hschedules : s.schedules ≠ 0) (n : Notification ε)
    (hooks : Hooks ε) : Inv (notifyReadyImpl n hooks s) := by
  by_cases hpostpones : n.finish hooks = .postpones
  · rw [notifyReadyImpl_postpones hpostpones]
    exact h.congr (.inl rfl) rfl rfl rfl rfl (fun hne => hne) (.refl _)
  · have hstops : ∀ i ∈ s.stops ++ [s.schedules], 0 < i ∧ i ≤ s.schedules := by
      intro i hi
      obtain hi | hi := mem_append.mp hi
      · exact h.stops i hi
      · rw [mem_singleton.mp hi]
        exact ⟨Nat.pos_of_ne_zero hschedules, Nat.le_refl _⟩
    have hmem : s.schedules ∈ s.stops ++ [s.schedules] := by simp
    cases hcalled : s.notifyCalled with
    | true =>
      obtain ⟨finishes, exception, heq, -⟩ := notifyReadyImpl_notified hpostpones hcalled
      rw [heq]
      have hold := h.notified.mp hcalled
      exact
        { created := h.created
          running := h.running
          cbReady := h.cbReady
          notified := iff_of_true hcalled hmem
          stops := hstops
          posted := h.posted
          taken := fun i => by
            have hsame : i ∈ s.stops ++ [s.schedules] ↔ i ∈ s.stops := by
              simp only [mem_append, mem_singleton, or_iff_left_iff_imp]
              rintro rfl
              exact hold
            simp only [hsame]
            exact h.taken i }
    | false =>
      obtain ⟨finishes, heq⟩ := notifyReadyImpl_decides hpostpones hcalled
      rw [heq]
      have hnot : s.schedules ∉ s.stops := fun hmem => by
        cases hcalled.symm.trans (h.notified.mpr hmem)
      exact
        { created := nofun
          running := nofun
          cbReady := nofun
          notified := iff_of_true rfl hmem
          stops := hstops
          posted := h.posted
          taken := fun i => by
            have htaken := h.taken i
            simp only [State.taken, count_append, h.cbReady hschedules hcalled,
              Option.toList_some, count_singleton] at htaken ⊢
            obtain rfl | hi := eq_or_ne i s.schedules
            · rw [if_neg hnot] at htaken
              simp
              omega
            · simp [hi, Ne.symm hi]
              omega }

theorem step_inv {l : Label ε} (h : Inv s) (hstep : step cfg s l = some s') : Inv s' := by
  cases l with
  | scheduleNothrow scheduleTask =>
    simp only [step] at hstep
    split at hstep
    · cases hstep
    · cases hstep
      exact h.scheduleNothrow cfg scheduleTask
  | notifyReady eptr hooks =>
    simp only [step] at hstep
    split at hstep
    · cases hstep
    · rename_i hschedules
      cases hstep
      exact h.notifyReadyImpl hschedules _ hooks
  | posted i hooks =>
    obtain ⟨eptr, heptr, rfl⟩ := Option.map_eq_some_iff.mp hstep
    have hne : s.posted ≠ [] := fun hnil => by
      simp [hnil] at heptr
    have hrest : Inv { s with posted := s.posted.eraseIdx i } :=
      h.congr (.inl rfl) rfl rfl rfl rfl (fun _ => hne) (.refl _)
    exact hrest.notifyReadyImpl (h.posted hne) _ hooks
  | requestCancel | exception _ =>
    cases hstep
    exact h.congr (.inl rfl) rfl rfl rfl rfl (fun hne => hne) (.refl _)
  | setCompletedState =>
    simp only [step] at hstep
    split at hstep
    · rename_i hpending
      cases hstep
      refine h.congr (.inr ⟨rfl, fun hrunning => ?_⟩) rfl rfl rfl rfl (fun hne => hne) (.refl _)
      cases hpending.symm.trans hrunning
    · cases hstep
  | invoke i =>
    obtain ⟨callback, hcallback, rfl⟩ := Option.map_eq_some_iff.mp hstep
    refine h.congr (.inl rfl) rfl rfl rfl rfl (fun hne => hne) ?_
    obtain ⟨hi, rfl⟩ := List.getElem?_eq_some_iff.mp hcallback
    have hperm := getElem_cons_eraseIdx_perm hi
    unfold State.taken
    rw [← append_assoc]
    exact perm_append_singleton _ _ |>.trans (hperm.append_right s.invoked)

theorem run_inv {labels : List (Label ε)}
    (hrun : Transition.run (step cfg) State.create labels = some s) : Inv s :=
  Transition.run_invariant (fun _ _ _ h _ hstep => step_inv h hstep) create_inv
    Transition.along_true hrun

/-! ## Runs -/

/-- Over a run the ready callback of a schedule is taken once if some
notification of it was not postponed, and not at all otherwise. The first
such notification decides the exception and the state, and
`onTaskStoppedNothrow` is called once by then; later ones change neither, a
finish continuation that throws apart; one that is postponed changes
nothing. -/
theorem run_notifyReadyImpl (cfg : Config ε) (labels : List (Label ε)) (s : State ε)
    (hrun : Transition.run (step cfg) State.create labels = some s) :
    (∀ i, s.completing.count i + s.invoked.count i = if i ∈ s.stops then 1 else 0) ∧
    (∀ n hooks, s.schedules ≠ 0 → n.Completes hooks → s.schedules ∉ s.stops →
      (notifyReadyImpl n hooks s).state = .pendingCompletion ∧
        (notifyReadyImpl n hooks s).exception = n.decided hooks s.exception ∧
        (notifyReadyImpl n hooks s).completing = s.completing ++ [s.schedules] ∧
        (notifyReadyImpl n hooks s).stops.count s.schedules = 1) ∧
    (∀ n hooks, s.schedules ∈ s.stops →
      (notifyReadyImpl n hooks s).state = s.state ∧
        (notifyReadyImpl n hooks s).completing = s.completing ∧
        ((∀ eptr, n.finish hooks ≠ .throws eptr) →
          (notifyReadyImpl n hooks s).exception = s.exception)) ∧
    ∀ n hooks, ¬ n.Completes hooks →
      notifyReadyImpl n hooks s = { s with finishes := s.finishes ++ [s.schedules] } := by
  have h := run_inv hrun
  refine ⟨fun i => ?_, fun n hooks hschedules hcompletes hnot => ?_, fun n hooks hmem => ?_,
    fun n hooks hpostpones => notifyReadyImpl_postpones (not_not.mp hpostpones)⟩
  · rw [← List.count_append]
    exact h.taken i
  · have hopen : s.notifyCalled = false :=
      Bool.eq_false_iff.mpr fun hcalled => hnot (h.notified.mp hcalled)
    obtain ⟨finishes, heq⟩ := notifyReadyImpl_decides hcompletes hopen
    rw [heq]
    refine ⟨rfl, rfl, ?_, ?_⟩
    · simp [h.cbReady hschedules hopen]
    · simp [List.count_eq_zero.mpr hnot]
  · have hcalled := h.notified.mpr hmem
    by_cases hpostpones : n.finish hooks = .postpones
    · rw [notifyReadyImpl_postpones hpostpones]
      exact ⟨rfl, rfl, fun _ => rfl⟩
    · obtain ⟨finishes, exception, heq, hkept⟩ := notifyReadyImpl_notified hpostpones hcalled
      rw [heq]
      exact ⟨rfl, rfl, hkept⟩

/-- A derived class whose finish continuation does this. -/
def hooksOf (finish : FinishContinuation Nat) : Hooks Nat := ⟨fun _ => finish, fun eptr => eptr⟩

def cancellable : Config Nat := ⟨false, 0⟩

/-- A shutdown is scheduled first, and two handlers notify after it. -/
def postponedTask : List (Label Nat) :=
  [.scheduleNothrow none, .notifyReady (some 1) (hooksOf .postpones),
    .notifyReady (some 2) (hooksOf .proceeds), .notifyReady (some 3) (hooksOf .proceeds), .invoke 0]

theorem run_notifyReadyImpl_postponedTask :
    ∃ s, Transition.run (step cancellable) State.create postponedTask = some s ∧
      s.exception = some 2 ∧ s.completing.count 1 + s.invoked.count 1 = 1 ∧
      (notifyReadyImpl ⟨true, some 4⟩ (hooksOf .proceeds) s).exception = some 2 := by
  obtain ⟨htaken, -, hlater, -⟩ := run_notifyReadyImpl cancellable postponedTask _ rfl
  refine ⟨_, rfl, rfl, htaken 1, ?_⟩
  exact (hlater ⟨true, some 4⟩ (hooksOf .proceeds) (by decide)).2.2 fun eptr heq => by cases heq

/-- A finish continuation throws in the second notification. -/
theorem run_notifyReadyImpl_thrown :
    ∃ s s' t, Transition.run (step cancellable) State.create
        [.scheduleNothrow none, .notifyReady none (hooksOf .proceeds)] = some s ∧
      step cancellable s (.notifyReady none (hooksOf (.throws 7))) = some s' ∧
      s.exception = none ∧ s'.exception = some 7 ∧ s'.finishes.count 1 = 2 ∧
      s'.stops.count 1 = 2 ∧
      Transition.run (step cancellable) State.create
        [.scheduleNothrow none, .notifyReady (some 1) (hooksOf .postpones)] = some t ∧
      t.state = .running ∧ t.exception = none :=
  ⟨_, _, _, rfl, rfl, rfl, rfl, rfl, rfl, rfl, rfl, rfl⟩

end Baselib.Tasks.TaskBase
