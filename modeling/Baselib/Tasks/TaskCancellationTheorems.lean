/-
Baselib.Tasks.TaskCancellationTheorems — when a request to cancel a task
reaches all its later runs.

A schedule clears the flag of a task which has run before, and a wrapper
does not hand a request on to the task it takes in. So a request is observed
as long as what runs after it has been asked itself and has not run before;
a wrapper with a latch which takes in fresh tasks sees to it.
-/
import Baselib.Tasks.TaskBaseTheorems
import Baselib.Tasks.TaskCancellation

namespace Baselib.Tasks.TaskCancellation

open Lib
open ExecutionQueue (OwnerQueue TaskState)
open Option (map_eq_some_iff)

variable {ε : Type} {cfg : Config ε} {s s' : State ε}

/-- A target which runs after a request is cancelled. -/
def Observes (s : State ε) : Prop :=
  s.requested = true → s.target.state = .running → s.target.cancelRequested = true

/-- What is scheduled after a request was asked itself, and has not run
before. -/
def KeepsRequest (s : State ε) : Label ε → Prop
  | .schedule _ => s.requested = true →
      s.target.state = .created ∧ s.target.cancelRequested = true
  | _ => True

instance (s : State ε) : ∀ l : Label ε, Decidable (KeepsRequest s l)
  | .schedule _ => inferInstanceAs (Decidable (_ → _ ∧ _))
  | .notifyReady _ _ => isTrue trivial
  | .posted _ _ => isTrue trivial
  | .onReady _ _ => isTrue trivial
  | .requestCancel => isTrue trivial
  | .cancel => isTrue trivial
  | .cancelAll => isTrue trivial

/-! ## Steps -/

/-- A notification leaves the flag, and starts no run. -/
theorem notifyReadyImpl_cancelRequested (n : TaskBase.Notification ε) (hooks : TaskBase.Hooks ε)
    (t : TaskBase.State ε) :
    (TaskBase.notifyReadyImpl n hooks t).cancelRequested = t.cancelRequested ∧
      ((TaskBase.notifyReadyImpl n hooks t).state = .running → t.state = .running) := by
  by_cases hpostpones : n.finish hooks = .postpones
  · rw [TaskBase.notifyReadyImpl_postpones hpostpones]
    exact ⟨rfl, fun h => h⟩
  · cases hcalled : t.notifyCalled with
    | true =>
      obtain ⟨finishes, exception, heq, -⟩ := TaskBase.notifyReadyImpl_notified hpostpones hcalled
      rw [heq]
      exact ⟨rfl, fun h => h⟩
    | false =>
      obtain ⟨finishes, heq⟩ := TaskBase.notifyReadyImpl_decides hpostpones hcalled
      rw [heq]
      exact ⟨rfl, nofun⟩

theorem Observes.congr (h : Observes s) (hrequested : s'.requested = s.requested)
    (hstate : s'.target.state = .running → s.target.state = .running)
    (hcancelRequested : s'.target.cancelRequested = s.target.cancelRequested) : Observes s' := by
  intro hr hrunning
  rw [hcancelRequested]
  exact h (hrequested ▸ hr) (hstate hrunning)

theorem requestCancel_observes (s : State ε) : Observes (requestCancel s) := fun _ _ => rfl

/-- A task which has completed does not run, whatever comes next. -/
theorem onReady_observes {continuation : Continuation ε} (hnot : s.target.state ≠ .running)
    (h : onReady cfg continuation s = some s') : Observes s' := by
  unfold onReady at h
  cases continuation with
  | completes =>
    cases h
    intro _ hrunning
    cases hrunning
  | self =>
    cases h
    exact fun _ hrunning => absurd hrunning hnot
  | forwards target =>
    dsimp only at h
    split at h
    · cases h
    · rename_i htarget
      cases h
      exact fun _ hrunning => absurd hrunning htarget
  | continues target =>
    dsimp only at h
    split at h
    · cases h
      nofun
    · split at h
      · cases h
      · rename_i htarget
        cases h
        exact fun _ hrunning => absurd hrunning htarget

/-- A step loses a request exactly when it schedules what the request has
not reached. -/
theorem step_observes_iff {l : Label ε} (h : Observes s) (hstep : step cfg s l = some s') :
    Observes s' ↔ KeepsRequest s l := by
  cases l with
  | schedule scheduleTask =>
    simp only [step] at hstep
    split at hstep
    · obtain ⟨target, htarget, rfl⟩ := map_eq_some_iff.mp hstep
      simp only [TaskBase.step] at htarget
      split at htarget
      · cases htarget
      · cases htarget
        obtain ⟨exception, notifyCalled, cancelRequested, posted, heq, hcreated, hagain⟩ :=
          TaskBase.scheduleNothrow_eq cfg.toConfig scheduleTask s.target
        simp only [Observes, KeepsRequest, heq, forall_const]
        by_cases hstate : s.target.state = .created
        · simp [hstate, (hcreated hstate).2.2]
        · simp [hstate, (hagain hstate).2.2]
    · cases hstep
  | notifyReady eptr hooks =>
    obtain ⟨target, htarget, rfl⟩ := map_eq_some_iff.mp hstep
    simp only [TaskBase.step] at htarget
    split at htarget
    · cases htarget
    · cases htarget
      obtain ⟨hflag, hrunning⟩ := notifyReadyImpl_cancelRequested ⟨true, eptr⟩ hooks s.target
      exact iff_of_true (h.congr rfl hrunning hflag) trivial
  | posted i hooks =>
    obtain ⟨target, htarget, rfl⟩ := map_eq_some_iff.mp hstep
    obtain ⟨eptr, -, rfl⟩ := map_eq_some_iff.mp htarget
    obtain ⟨hflag, hrunning⟩ := notifyReadyImpl_cancelRequested ⟨false, some eptr⟩ hooks
      { s.target with posted := s.target.posted.eraseIdx i }
    exact iff_of_true (h.congr rfl hrunning hflag) trivial
  | onReady i continuation =>
    simp only [step] at hstep
    split at hstep
    · rename_i hpending
      obtain ⟨target, htarget, hready⟩ := Option.bind_eq_some_iff.mp hstep
      obtain ⟨callback, -, rfl⟩ := map_eq_some_iff.mp htarget
      refine iff_of_true (onReady_observes (fun hrunning => ?_) hready) trivial
      cases hpending.2.symm.trans hrunning
    · cases hstep
  | requestCancel =>
    cases hstep
    exact iff_of_true (requestCancel_observes s) trivial
  | cancel =>
    cases hstep
    refine iff_of_true ?_ trivial
    split <;> exact h
  | cancelAll =>
    cases hstep
    refine iff_of_true ?_ trivial
    split
    · exact h
    · split
      · exact requestCancel_observes s
      · exact h

/-- Every run after a request observes it, just when what is scheduled after
the request was asked itself and has not run before. -/
theorem run_observes (cfg : Config ε) (target : TaskBase.State ε) (labels : List (Label ε))
    (s : State ε) (hrun : Transition.run (step cfg) (State.push target) labels = some s) :
    Transition.Throughout (step cfg) Observes (State.push target) labels ↔
      Transition.Along (step cfg) KeepsRequest (State.push target) labels :=
  Transition.throughout_iff_along (I := fun _ => True) (fun _ _ _ _ _ => trivial)
    (fun _ _ _ _ h hstep => step_observes_iff h hstep) trivial
    nofun hrun

def plain : Config Nat := ⟨TaskBase.cancellable, false⟩

def finishing : TaskBase.Hooks Nat := TaskBase.hooksOf .proceeds

/-- A request comes while the task runs, and it completes. -/
def canceledTask : List (Label Nat) :=
  [.schedule none, .requestCancel, .notifyReady (some 0) finishing, .onReady 0 .completes]

theorem run_observes_canceledTask :
    Transition.Throughout (step plain) Observes (State.push TaskBase.State.create) canceledTask :=
  (run_observes plain TaskBase.State.create canceledTask _ rfl).mpr (by decide)

/-- A request comes while the task runs, and it is its own continuation. -/
def continuedTask : List (Label Nat) :=
  [.schedule none, .requestCancel, .notifyReady none finishing, .onReady 0 .self, .schedule none]

/-- A request comes while the wrapped task runs, and its continuation is
taken in. -/
def forwardedTask : List (Label Nat) :=
  [.schedule none, .requestCancel, .notifyReady none finishing,
    .onReady 0 (.forwards TaskBase.State.create), .schedule none]

theorem run_observes_continuedTask :
    ∃ s t, Transition.run (step plain) (State.push TaskBase.State.create) continuedTask = some s ∧
      s.requested = true ∧ s.target.state = .running ∧ s.target.cancelRequested = false ∧
      s.target.posted = [] ∧ ¬ Observes s ∧
      Transition.run (step plain) (State.push TaskBase.State.create) forwardedTask = some t ∧
      ¬ Observes t :=
  ⟨_, _, rfl, rfl, rfl, rfl, rfl, fun h => Bool.false_ne_true (h rfl rfl), rfl,
    fun h => Bool.false_ne_true (h rfl rfl)⟩

/-! ## A latch -/

/-- The wrapper takes in tasks of its own choice only, and fresh ones. -/
def TakesFresh : Label ε → Prop
  | .onReady _ .self | .onReady _ (.forwards _) => False
  | .onReady _ (.continues target) => target = TaskBase.State.create
  | _ => True

/-- A pending target is fresh, but for the request which has reached it. -/
structure Latched (s : State ε) : Prop where
  fresh : s.owner = some .pending → s.target.state = .created ∧ s.target.schedules = 0 ∧
    s.target.posted = []
  latch : s.requested = true → s.cancelRequested = true
  reached : s.requested = true → s.owner = some .pending → s.target.cancelRequested = true

/-- Of a target which is not pending only the latch is asked. -/
theorem Latched.of_not_pending (hnot : s.owner ≠ some .pending)
    (hlatch : s.requested = true → s.cancelRequested = true) : Latched s where
  fresh howner := absurd howner hnot
  latch := hlatch
  reached _ howner := absurd howner hnot

theorem Latched.requestCancel (h : Latched s) : Latched (requestCancel s) where
  fresh := h.fresh
  latch _ := rfl
  reached _ _ := rfl

/-- A wrapper with a latch takes in nothing after a request. -/
theorem Latched.onReady {continuation : Continuation ε} {i : Nat} (hlatched : cfg.latched = true)
    (h : s.requested = true → s.cancelRequested = true)
    (hfresh : TakesFresh (.onReady i continuation))
    (hready : onReady cfg continuation s = some s') : Latched s' := by
  unfold TaskCancellation.onReady at hready
  cases continuation with
  | completes =>
    cases hready
    exact .of_not_pending (by simp [completeTask]) h
  | self => exact hfresh.elim
  | forwards target => exact hfresh.elim
  | continues target =>
    obtain rfl : target = TaskBase.State.create := hfresh
    dsimp only at hready
    split at hready
    · cases hready
      exact .of_not_pending (by simp [completeTask]) h
    · rename_i hopen
      split at hready
      · cases hready
      · cases hready
        refine ⟨fun _ => ⟨rfl, rfl, rfl⟩, h, fun hrequested => ?_⟩
        have hlatch := h hrequested
        rw [hlatched, hlatch] at hopen
        exact absurd rfl hopen

theorem step_latched {l : Label ε} (hlatched : cfg.latched = true) (h : Latched s)
    (hfresh : TakesFresh l) (hstep : step cfg s l = some s') : Latched s' ∧ KeepsRequest s l := by
  cases l with
  | schedule scheduleTask =>
    simp only [step] at hstep
    split at hstep
    · rename_i hpending
      obtain ⟨target, -, rfl⟩ := map_eq_some_iff.mp hstep
      exact ⟨.of_not_pending (by simp) h.latch,
        fun hrequested => ⟨(h.fresh hpending).1, h.reached hrequested hpending⟩⟩
    · cases hstep
  | notifyReady eptr hooks =>
    obtain ⟨target, htarget, rfl⟩ := map_eq_some_iff.mp hstep
    have hnot : s.owner ≠ some .pending := fun hpending => by
      simp [TaskBase.step, (h.fresh hpending).2.1] at htarget
    exact ⟨.of_not_pending hnot h.latch, trivial⟩
  | posted i hooks =>
    obtain ⟨target, htarget, rfl⟩ := map_eq_some_iff.mp hstep
    have hnot : s.owner ≠ some .pending := fun hpending => by
      simp [TaskBase.step, (h.fresh hpending).2.2] at htarget
    exact ⟨.of_not_pending hnot h.latch, trivial⟩
  | onReady i continuation =>
    simp only [step] at hstep
    split at hstep
    · obtain ⟨target, -, hready⟩ := Option.bind_eq_some_iff.mp hstep
      exact ⟨@Latched.onReady _ _ { s with target := target } _ _ i hlatched h.latch hfresh hready,
        trivial⟩
    · cases hstep
  | requestCancel =>
    cases hstep
    exact ⟨h.requestCancel, trivial⟩
  | cancel =>
    cases hstep
    refine ⟨?_, trivial⟩
    split
    · exact .of_not_pending (by simp) h.latch
    · exact h
  | cancelAll =>
    cases hstep
    refine ⟨?_, trivial⟩
    split
    · exact .of_not_pending (by simp) h.latch
    · split
      · exact h.requestCancel
      · exact h

/-- No request is lost by a wrapper with a latch which takes in fresh tasks. -/
theorem throughout_latched (hlatched : cfg.latched = true) {labels : List (Label ε)}
    (hfresh : ∀ l ∈ labels, TakesFresh l) : ∀ {s : State ε}, Latched s → Observes s →
      Transition.Throughout (step cfg) Observes s labels := by
  induction labels with
  | nil => intros; trivial
  | cons l labels ih =>
    intro s h hobserves s' hstep
    obtain ⟨hnext, hkeeps⟩ := step_latched hlatched h (hfresh l List.mem_cons_self) hstep
    have hobserves' := (step_observes_iff hobserves hstep).mpr hkeeps
    exact ⟨hobserves', ih (fun l' hl' => hfresh l' (List.mem_cons_of_mem _ hl')) hnext hobserves'⟩

/-- So it is from a push on. -/
theorem throughout_push_latched (hlatched : cfg.latched = true) {labels : List (Label ε)}
    (hfresh : ∀ l ∈ labels, TakesFresh l) :
    Transition.Throughout (step cfg) Observes (State.push TaskBase.State.create) labels := by
  refine throughout_latched hlatched hfresh ⟨fun _ => ⟨rfl, rfl, rfl⟩, ?_, ?_⟩ ?_
  · nofun
  · nofun
  · intro hrequested
    cases hrequested

def latched : Config Nat := ⟨TaskBase.cancellable, true⟩

/-- A request comes while the wrapped task runs, and another was to follow. -/
def swappedTask : List (Label Nat) :=
  [.schedule none, .requestCancel, .notifyReady none finishing,
    .onReady 0 (.continues TaskBase.State.create)]

theorem throughout_push_latched_swappedTask :
    Transition.Throughout (step latched) Observes (State.push TaskBase.State.create) swappedTask :=
  throughout_push_latched rfl (by simp [swappedTask, TakesFresh])

end Baselib.Tasks.TaskCancellation
