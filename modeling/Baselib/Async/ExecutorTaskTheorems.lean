/-
Baselib.Async.ExecutorTaskTheorems — what the counters of the executor task
count.

`m_callsExpected` is one for the termination and one for the pending call,
except for a continuation call whose operation state task is still in
progress: that one is not counted yet. `m_remainingToExecute` is the counted
call and the call being executed. A call of `onExecute` is posted for the
pending call and for the termination, unless it is still owed by the queue of
the workers or by the operation state task.
-/
import Baselib.Async.AsyncExecutor

namespace Baselib.Async.AsyncExecutor

variable {created : Created}

/-! ## The history of an operation -/

/-- What happens to one call, in order. -/
def served (callback : Callback) : List Event :=
  [.started callback, .called callback, .returned callback]

/-- The calls served one after the other. -/
def history (calls : List Callback) : List Event := calls.flatMap served

/-- The end of the task of an operation. -/
def closing : List Event := [.resourcesReleased, .ready]

@[simp] theorem history_nil : history [] = [] := rfl

theorem history_concat (calls : List Callback) (c : Callback) :
    history (calls ++ [c]) = history calls ++ [.started c, .called c, .returned c] := by
  simp [history, served]

namespace OnExecute

/-- The call in hand. -/
def current : OnExecute → List Callback
  | .executing c _ _ | .calling c _ | .called c _ => [c]
  | .idle | .terminating => []

/-- What has happened to it. -/
def progress : OnExecute → List Event
  | .executing c _ _ | .calling c _ => [.started c]
  | .called c _ => [.started c, .called c]
  | .idle | .terminating => []

def isExecuting : OnExecute → Bool
  | .executing _ _ _ => true
  | _ => false

def isCalling : OnExecute → Bool
  | .calling _ _ => true
  | _ => false

def isTerminating : OnExecute → Bool
  | .terminating => true
  | _ => false

end OnExecute

namespace ExecutorTask

/-! ## The invariant of a task -/

/-- The operation state task is in progress. -/
def running (t : ExecutorTask) : Bool :=
  t.operationStateTaskInProgress.any fun task => !task.completed

/-- It is in progress for a call which is not the first. -/
def runningNewCall (t : ExecutorTask) : Bool :=
  t.operationStateTaskInProgress.any fun task => !task.completed && task.newCall

/-- `scheduleTask` is still to come. -/
def unscheduled (t : ExecutorTask) : Bool := t.worker == .assigned || t.worker == .pending

/-- A pending call which the counters know of. -/
def counted (t : ExecutorTask) : Bool := t.callback.isSome && !t.runningNewCall

/-- A task which serves an operation, whose calls and their log are given. -/
structure Serves (t : ExecutorTask) (accepted : List Callback) (log : List Event) : Prop where
  history : ∃ done, accepted = done ++ t.onExecute.current ++ t.callback.toList ∧
    log = history done ++ t.onExecute.progress
  expected : t.callsExpected = t.counted.toNat + (!t.onExecute.isTerminating).toNat
  remaining : t.remainingToExecute = t.counted.toNat + t.onExecute.isExecuting.toNat
  posted : t.posted + t.unscheduled.toNat + t.running.toNat =
    t.callback.isSome.toNat + (t.stopped && !t.onExecute.isTerminating).toNat
  inProgress : t.operationStateTaskInProgress.isSome →
    t.callback.isSome ∧ t.unscheduled = false ∧ t.stopped = false
  cancelPending : t.cancelPending → t.operationStateTaskInProgress.isSome
  terminating : t.onExecute.isTerminating → t.stopped ∧ t.callback = none
  busy : t.onExecute.isExecuting ∨ t.onExecute.isCalling → t.callback = none

/-- A task which serves no operation. -/
structure Free (t : ExecutorTask) : Prop where
  onExecute : t.onExecute = .idle
  posted : t.posted = 0
  worker : t.worker = .ready
  inProgress : t.operationStateTaskInProgress = none

/-- No call is pending, and none is on its way to its callback. -/
@[mk_iff]
structure Quiet (t : ExecutorTask) : Prop where
  callback : t.callback = none
  remaining : t.remainingToExecute = 0
  calling : t.onExecute.isCalling = false

/-- A cancellation has reached the task. -/
def canceled (t : ExecutorTask) : Bool := t.stopped || t.cancelPending

variable {t t' : ExecutorTask} {accepted : List Callback} {log : List Event}

theorem free_createInstance : Free createInstance := ⟨rfl, rfl, rfl, rfl⟩

/-- A task which takes its first call. -/
theorem Free.serves (h : Free t) (o : Option OperationId) (c : Callback) :
    Serves { t.resetState with callback := some c, operationState := o, worker := .assigned }
      [c] [] := by
  constructor <;> simp [resetState, h.onExecute, h.posted, counted, runningNewCall, running,
    unscheduled, OnExecute.current, OnExecute.progress, OnExecute.isTerminating,
    OnExecute.isExecuting, OnExecute.isCalling]

/-! ## Scheduling a call -/

/-- What a task without an operation state task in progress looks like when a
call of `onExecute` is due for its pending call. -/
structure Owes (newCall : Bool) (t : ExecutorTask) (accepted : List Callback)
    (log : List Event) : Prop where
  history : ∃ done, accepted = done ++ t.onExecute.current ++ t.callback.toList ∧
    log = AsyncExecutor.history done ++ t.onExecute.progress
  expected : t.callsExpected + newCall.toNat =
    t.callback.isSome.toNat + (!t.onExecute.isTerminating).toNat
  remaining : t.remainingToExecute + newCall.toNat =
    t.callback.isSome.toNat + t.onExecute.isExecuting.toNat
  posted : t.posted + 1 + t.unscheduled.toNat =
    t.callback.isSome.toNat + (t.stopped && !t.onExecute.isTerminating).toNat
  inProgress : t.operationStateTaskInProgress = none
  scheduled : t.stopped = false → t.unscheduled = false
  cancelPending : t.cancelPending = false
  terminating : t.onExecute.isTerminating → t.stopped ∧ t.callback = none
  busy : t.onExecute.isExecuting ∨ t.onExecute.isCalling → t.callback = none

/-- Either the call is posted at once, perhaps with a task which carries an
exception, or the operation state task will post it. -/
theorem scheduleCall_cases {newCall : Bool} (htask : t.operationStateTaskInProgress = none)
    (h : t.scheduleCall newCall created = some t') :
    (∃ task : Option OperationTask, (task.isSome → t.stopped = false) ∧
        (task.all fun task => task.completed) ∧
        t' = scheduleAsyncCall newCall { t with operationStateTaskInProgress := task }) ∨
      (t.stopped = false ∧
        t' = { t with operationStateTaskInProgress := some ⟨newCall, false, false⟩ }) := by
  unfold scheduleCall at h
  split at h
  next hstopped =>
    refine .inl ⟨none, by simp, by simp, ?_⟩
    rw [← htask]
    exact (Option.some.inj h).symm
  next hstopped =>
    have hstopped : t.stopped = false := by simpa using hstopped
    split at h
    next => cases h
    next =>
      cases created with
      | null => exact .inl ⟨none, by simp, by simp, (Option.some.inj h).symm⟩
      | task => exact .inr ⟨hstopped, (Option.some.inj h).symm⟩
      | exception =>
        refine .inl ⟨some (t.failedTask newCall), fun _ => hstopped, ?_,
          (Option.some.inj h).symm⟩
        simp [failedTask, htask]

/-- Without a termination the call of `onExecute` is for a pending call. -/
theorem Owes.isSome {newCall : Bool} (h : Owes newCall t accepted log)
    (hstopped : t.stopped = false) : t.callback.isSome := by
  have hposted := h.posted
  rw [hstopped, Bool.false_and, Bool.toNat_false] at hposted
  cases hc : t.callback.isSome with
  | true => rfl
  | false => simp [hc] at hposted

theorem Owes.scheduleCall {newCall : Bool} (h : Owes newCall t accepted log)
    (ht : t.scheduleCall newCall created = some t') : Serves t' accepted log := by
  have hposted := h.posted
  have hexpected := h.expected
  have hremaining := h.remaining
  obtain ⟨task, hstopped, hcompleted, rfl⟩ | ⟨hstopped, rfl⟩ := scheduleCall_cases h.inProgress ht
  · have hrunning : (task.any fun task => !task.completed) = false := by
      cases task <;> simp_all
    have hnew : (task.any fun task => !task.completed && task.newCall) = false := by
      cases task <;> simp_all
    refine ⟨h.history, ?_, ?_, ?_, ?_, ?_, h.terminating, h.busy⟩
    · simpa [scheduleAsyncCall, counted, runningNewCall, hnew] using hexpected
    · simpa [scheduleAsyncCall, counted, runningNewCall, hnew] using hremaining
    · simp only [scheduleAsyncCall, running, hrunning, Bool.toNat_false]
      exact hposted
    · intro htask
      have hs := hstopped htask
      exact ⟨h.isSome hs, h.scheduled hs, hs⟩
    · simp [scheduleAsyncCall, h.cancelPending]
  · have hcallback := h.isSome hstopped
    have hscheduled := h.scheduled hstopped
    simp only [hcallback, Bool.toNat_true, hstopped, Bool.false_and, Bool.toNat_false,
      hscheduled] at hposted hexpected hremaining
    refine ⟨h.history, ?_, ?_, ?_, fun _ => ⟨hcallback, hscheduled, hstopped⟩, fun _ => rfl,
      h.terminating, h.busy⟩
    · cases newCall <;> simp_all [counted, runningNewCall]; omega
    · cases newCall <;> simp_all [counted, runningNewCall]; omega
    · have : t.unscheduled = false := hscheduled
      simp_all [running, unscheduled]

theorem scheduleTask_eq_some (h : t.scheduleTask created = some t') :
    t.worker = .pending ∧ scheduleCall false created { t with worker := .executing } = some t' := by
  simpa [ExecutorTask.scheduleTask, and_comm] using h

/-- The first call is still to be posted when the task is scheduled. -/
theorem Serves.owes (h : Serves t accepted log) (hworker : t.worker = .pending) :
    Owes false { t with worker := .executing } accepted log := by
  have hunscheduled : t.unscheduled = true := by simp [unscheduled, hworker]
  have htask : t.operationStateTaskInProgress = none := by
    simpa [hunscheduled] using h.inProgress
  have hexpected := h.expected
  have hremaining := h.remaining
  have hposted := h.posted
  have hcancel := h.cancelPending
  refine ⟨h.history, ?_, ?_, ?_, htask, fun _ => rfl, ?_, h.terminating, h.busy⟩
  · simpa [counted, runningNewCall, htask] using hexpected
  · simpa [counted, runningNewCall, htask] using hremaining
  · change t.posted + 1 + Bool.toNat false = _
    simpa [running, htask, hunscheduled] using hposted
  · simpa [htask] using hcancel

theorem Serves.scheduleTask (h : Serves t accepted log)
    (ht : t.scheduleTask created = some t') : Serves t' accepted log := by
  obtain ⟨hworker, ht⟩ := scheduleTask_eq_some ht
  exact (h.owes hworker).scheduleCall ht

/-- No operation state task is in progress without a pending call. -/
theorem Serves.inProgress_eq_none (h : Serves t accepted log) (hcallback : t.callback = none) :
    t.operationStateTaskInProgress = none := by
  cases htask : t.operationStateTaskInProgress with
  | none => rfl
  | some task =>
    have := (h.inProgress (by simp [htask])).1
    simp [hcallback] at this

/-- A new call is owed as soon as its callback is set. -/
theorem Serves.owes_newCall (h : Serves t accepted log) (hquiet : Quiet t)
    (hexpects : t.callsExpected ≠ 0) (c : Callback) :
    Owes true { t with callback := some c } (accepted ++ [c]) log := by
  have htask := h.inProgress_eq_none hquiet.callback
  have hexpected := h.expected
  have hremaining := h.remaining
  have hposted := h.posted
  have hcancel := h.cancelPending
  simp only [counted, hquiet.callback, Option.isSome_none, Bool.false_and, Bool.toNat_false,
    running, htask, Option.any_none, hquiet.remaining] at hexpected hremaining hposted
  have hterminating : t.onExecute.isTerminating = false := by
    cases ht : t.onExecute.isTerminating with
    | false => rfl
    | true => exact absurd (by simpa [ht] using hexpected) hexpects
  have hexecuting : t.onExecute.isExecuting = false := by
    cases he : t.onExecute.isExecuting with
    | false => rfl
    | true => simp [he] at hremaining
  refine ⟨?_, ?_, ?_, ?_, htask, ?_, ?_, ?_, ?_⟩
  · obtain ⟨done, hdone, hlog⟩ := h.history
    rw [hquiet.callback, Option.toList_none, List.append_nil] at hdone
    exact ⟨done, by rw [hdone]; rfl, hlog⟩
  · simp [hexpected, hterminating]
  · simp [hquiet.remaining, hexecuting]
  · simp only [Option.isSome_some, Bool.toNat_true, unscheduled] at hposted ⊢
    omega
  · intro hstopped
    have hstopped : t.stopped = false := hstopped
    simp only [hstopped, Bool.false_and, Bool.toNat_false] at hposted
    have hunscheduled : t.unscheduled.toNat = 0 := by omega
    exact Bool.toNat_eq_zero.mp hunscheduled
  · simpa [htask] using hcancel
  · simp [hterminating]
  · simp [hexecuting, hquiet.calling]

theorem Serves.requestNewAsyncCall {c : Callback}
    (h : Serves t accepted log) (hquiet : Quiet t) (hexpects : t.callsExpected ≠ 0)
    (ht : t.requestNewAsyncCall c created = some t') : Serves t' (accepted ++ [c]) log := by
  unfold ExecutorTask.requestNewAsyncCall at ht
  split at ht
  next => exact (h.owes_newCall hquiet hexpects c).scheduleCall ht
  next => cases ht

/-! ## The operation state task and cancellation -/

/-- The task which ends is the one in progress, and it carries the argument of
its call on. -/
theorem onOperationTaskReady_cases {outcome : Outcome}
    (ht : t.onOperationTaskReady outcome = some t') :
    ∃ task, t.operationStateTaskInProgress = some task ∧ task.completed = false ∧
      (t' = t ∨ ∃ failed, t' = scheduleAsyncCall task.newCall
        { t with operationStateTaskInProgress := some ⟨task.newCall, true, failed⟩ }) := by
  unfold ExecutorTask.onOperationTaskReady at ht
  split at ht
  next => cases ht
  next task htask =>
    split at ht
    next => cases ht
    next hcompleted =>
      refine ⟨task, htask, by simpa using hcompleted, ?_⟩
      cases outcome with
      | continuation => exact .inl (Option.some.inj ht).symm
      | success => exact .inr ⟨task.failed, (Option.some.inj ht).symm⟩
      | exception => exact .inr ⟨true, (Option.some.inj ht).symm⟩

theorem Serves.onOperationTaskReady {outcome : Outcome} (h : Serves t accepted log)
    (ht : t.onOperationTaskReady outcome = some t') : Serves t' accepted log := by
  obtain ⟨task, htask, hcompleted, rfl | ⟨failed, rfl⟩⟩ := onOperationTaskReady_cases ht
  · exact h
  · have hinProgress := h.inProgress (by simp [htask])
    have hexpected := h.expected
    have hremaining := h.remaining
    have hposted := h.posted
    simp only [counted, runningNewCall, running, htask, Option.any_some, hcompleted,
      hinProgress.1, Bool.not_false, Bool.true_and, Bool.toNat_true]
      at hexpected hremaining hposted
    refine ⟨h.history, ?_, ?_, ?_, fun _ => hinProgress, fun _ => rfl, h.terminating, h.busy⟩
    · cases hnew : task.newCall <;>
        simp_all [scheduleAsyncCall, counted, runningNewCall, Nat.add_comm]
    · cases hnew : task.newCall <;>
        simp_all [scheduleAsyncCall, counted, runningNewCall, Nat.add_comm]
    · simpa [scheduleAsyncCall, running, unscheduled, hinProgress.1, Nat.add_right_comm]
        using hposted

theorem Serves.requestCancel (h : Serves t accepted log) :
    Serves t.requestCancel accepted log := by
  unfold ExecutorTask.requestCancel
  split
  next => exact h
  next hstopped =>
    have hstopped : t.stopped = false := by simpa using hstopped
    split
    next htask => exact { h with cancelPending := fun _ => htask }
    next htask =>
      have hposted := h.posted
      have hterminating : t.onExecute.isTerminating = false := by
        cases ht : t.onExecute.isTerminating with
        | false => rfl
        | true => simpa [hstopped] using (h.terminating ht).1
      refine ⟨h.history, h.expected, h.remaining, ?_, fun hs => absurd hs htask,
        h.cancelPending, fun ht => ⟨rfl, (h.terminating ht).2⟩, h.busy⟩
      simp only [hstopped, hterminating, Bool.false_and, Bool.toNat_false, Bool.not_false,
        Bool.and_self, Bool.toNat_true, scheduleAsyncCall] at hposted ⊢
      simp only [running, unscheduled] at hposted ⊢
      omega

theorem canceled_requestCancel (t : ExecutorTask) : t.requestCancel.canceled := by
  unfold ExecutorTask.requestCancel
  split
  next hstopped => simp [canceled, hstopped]
  next =>
    split
    next => simp [canceled]
    next => rfl

/-! ## Serving a call -/

/-- When a call of `onExecute` is posted, the operation state task has ended. -/
theorem Serves.running_eq_false (h : Serves t accepted log) (hposted : t.posted ≠ 0) :
    t.running = false := by
  cases hrunning : t.running with
  | false => rfl
  | true =>
    have hsome : t.operationStateTaskInProgress.isSome := by
      cases htask : t.operationStateTaskInProgress with
      | none => simp [running, htask] at hrunning
      | some task => rfl
    obtain ⟨hcallback, hunscheduled, hstopped⟩ := h.inProgress hsome
    have := h.posted
    simp [hrunning, hcallback, hunscheduled, hstopped] at this
    exact absurd this hposted

theorem runningNewCall_of_running (h : t.running = false) : t.runningNewCall = false := by
  cases htask : t.operationStateTaskInProgress with
  | none => simp [runningNewCall, htask]
  | some task => simp_all [running, runningNewCall]

/-- Either the task has a call to serve, or it is the one which ends it. -/
theorem enterExecute_cases (h : Serves t accepted log) (ht : t.enterExecute = some t') :
    t.onExecute = .idle ∧ t.posted ≠ 0 ∧
      ((∃ c, t.callback = some c ∧ t' = takeCall c
          { t with posted := t.posted - 1, callsExpected := t.callsExpected - 1 }) ∨
        (t.callback = none ∧ t' = { t with
          posted := t.posted - 1
          callsExpected := t.callsExpected - 1
          onExecute := .terminating })) := by
  unfold ExecutorTask.enterExecute at ht
  split at ht
  next hidle =>
    refine ⟨hidle.1, hidle.2, ?_⟩
    have hexpected := h.expected
    have hnew := runningNewCall_of_running (h.running_eq_false hidle.2)
    cases hcallback : t.callback with
    | none =>
      rw [if_pos (by simp [hexpected, counted, hcallback, hidle.1, OnExecute.isTerminating])]
        at ht
      exact .inr ⟨rfl, by rw [← Option.some.inj ht, hcallback]⟩
    | some c =>
      rw [if_neg (by simp [hexpected, counted, hcallback, hnew, hidle.1,
        OnExecute.isTerminating]), hcallback] at ht
      exact .inl ⟨c, rfl, (Option.some.inj ht).symm⟩
  next => cases ht

theorem startedEvents_takeCall (c : Callback) (t : ExecutorTask) :
    Executor.startedEvents (t.takeCall c) = [.started c] := by
  unfold takeCall scheduleTermination
  split <;> rfl

/-- The pending call is taken; a cancellation which was waiting for its
operation state task posts the termination. -/
theorem Serves.takeCall {c : Callback} (h : Serves t accepted log) (hidle : t.onExecute = .idle)
    (hposts : t.posted ≠ 0) (hcallback : t.callback = some c) :
    Serves (ExecutorTask.takeCall c
      { t with posted := t.posted - 1, callsExpected := t.callsExpected - 1 })
      accepted (log ++ [.started c]) := by
  have hrunning := h.running_eq_false hposts
  have hexpected := h.expected
  have hremaining := h.remaining
  have hposted := h.posted
  simp only [hidle, hcallback, hrunning, counted, runningNewCall_of_running hrunning,
    OnExecute.isTerminating, OnExecute.isExecuting, Option.isSome_some, Bool.not_false,
    Bool.and_true, Bool.toNat_true, Bool.toNat_false] at hexpected hremaining hposted
  have hhistory : ∃ done, accepted = done ++ [c] ++ [] ∧
      log ++ [.started c] = AsyncExecutor.history done ++ [.started c] := by
    obtain ⟨done, hdone, hlog⟩ := h.history
    simp only [hidle, hcallback, OnExecute.current, OnExecute.progress, List.append_nil,
      Option.toList_some] at hdone hlog
    exact ⟨done, by rw [hdone, List.append_nil], by rw [hlog]⟩
  unfold ExecutorTask.takeCall scheduleTermination
  split
  next hcancel =>
    have hcancel : t.cancelPending = true := hcancel
    have hstopped := (h.inProgress (h.cancelPending hcancel)).2.2
    constructor
    · exact hhistory
    all_goals simp_all [scheduleAsyncCall, counted, runningNewCall, running, unscheduled,
      OnExecute.isTerminating, OnExecute.isExecuting, OnExecute.isCalling]
    omega
  next hcancel =>
    have hcancel : t.cancelPending = false := by simpa using hcancel
    constructor
    · exact hhistory
    all_goals simp_all [counted, runningNewCall, running, unscheduled,
      OnExecute.isTerminating, OnExecute.isExecuting, OnExecute.isCalling]
    omega

/-- Without a pending call, what was posted is the termination. -/
theorem Serves.lastCall (h : Serves t accepted log) (hidle : t.onExecute = .idle)
    (hposts : t.posted ≠ 0) (hcallback : t.callback = none) :
    Serves { t with
      posted := t.posted - 1
      callsExpected := t.callsExpected - 1
      onExecute := .terminating } accepted log := by
  have htask := h.inProgress_eq_none hcallback
  have hexpected := h.expected
  have hremaining := h.remaining
  have hposted := h.posted
  simp only [hidle, hcallback, counted, running, htask, OnExecute.isTerminating,
    OnExecute.isExecuting, Option.any_none, Option.isSome_none, Bool.not_false, Bool.and_true,
    Bool.false_and, Bool.toNat_true, Bool.toNat_false, Nat.zero_add, Nat.add_zero]
    at hexpected hremaining hposted
  have hstopped : t.stopped = true := by
    cases hs : t.stopped with
    | true => rfl
    | false => simp [hs, hposts] at hposted
  refine ⟨?_, ?_, ?_, ?_, ?_, ?_, ?_, ?_⟩
  · obtain ⟨done, hdone, hlog⟩ := h.history
    rw [hidle] at hdone hlog
    exact ⟨done, hdone, hlog⟩
  · simp [hexpected, counted, hcallback, OnExecute.isTerminating]
  · simp [hremaining, counted, hcallback, OnExecute.isExecuting]
  · have : t.posted - 1 + t.unscheduled.toNat = 0 := by
      rw [hstopped, Bool.toNat_true] at hposted
      omega
    simpa [running, htask, hcallback, OnExecute.isTerminating, unscheduled] using this
  · simp [htask]
  · exact h.cancelPending
  · exact fun _ => ⟨hstopped, hcallback⟩
  · exact fun _ => hcallback

theorem Serves.enterExecute (h : Serves t accepted log) (ht : t.enterExecute = some t') :
    Serves t' accepted (log ++ Executor.startedEvents t') := by
  obtain ⟨hidle, hposts, ⟨c, hcallback, rfl⟩ | ⟨hcallback, rfl⟩⟩ := enterExecute_cases h ht
  · rw [startedEvents_takeCall]
    exact h.takeCall hidle hposts hcallback
  · simpa [Executor.startedEvents] using h.lastCall hidle hposts hcallback

/-- The thread inside `onExecute` goes on. -/
theorem Serves.moves {phase : OnExecute} {remaining : Nat} {log' : List Event}
    (h : Serves t accepted log) (hphase : t.onExecute.isTerminating = false)
    (hphase' : phase.isTerminating = false)
    (hhistory : ∃ done, accepted = done ++ phase.current ++ t.callback.toList ∧
      log' = AsyncExecutor.history done ++ phase.progress)
    (hremaining : remaining = t.counted.toNat + phase.isExecuting.toNat)
    (hbusy : phase.isExecuting ∨ phase.isCalling → t.callback = none) :
    Serves { t with onExecute := phase, remainingToExecute := remaining } accepted log' := by
  have hexpected := h.expected
  have hposted := h.posted
  rw [hphase] at hexpected hposted
  rw [← hphase'] at hexpected hposted
  exact ⟨hhistory, hexpected, hremaining, hposted, h.inProgress, h.cancelPending,
    fun ht => absurd ht (by simp [hphase']), hbusy⟩

theorem Serves.executeCall {executed : Result} (h : Serves t accepted log)
    (ht : t.executeCall executed = some t') : Serves t' accepted log := by
  unfold ExecutorTask.executeCall at ht
  split at ht
  next c stopped task hphase =>
    split at ht
    next => cases ht
    next =>
      cases ht
      have hhistory := h.history
      have hremaining := h.remaining
      rw [hphase] at hhistory hremaining
      refine h.moves (by rw [hphase]; rfl) rfl hhistory ?_ fun _ => h.busy ?_
      · rw [hremaining]
        rfl
      · exact .inl (by rw [hphase]; rfl)
  next => cases ht

theorem Serves.enterCallback (h : Serves t accepted log) (ht : t.enterCallback = some t') :
    Serves t' accepted (log ++ Executor.calledEvents t') := by
  unfold ExecutorTask.enterCallback at ht
  split at ht
  next c result hphase =>
    cases ht
    obtain ⟨done, hdone, hlog⟩ := h.history
    have hremaining := h.remaining
    rw [hphase] at hdone hlog hremaining
    refine h.moves (by rw [hphase]; rfl) rfl ⟨done, hdone, ?_⟩ hremaining ?_
    · rw [hlog, List.append_assoc]
      rfl
    · simp [OnExecute.isExecuting, OnExecute.isCalling]
  next => cases ht

theorem Serves.leaveCallback (h : Serves t accepted log) (ht : t.leaveCallback = some t') :
    Serves t' accepted (log ++ Executor.returnedEvents t) := by
  unfold ExecutorTask.leaveCallback at ht
  split at ht
  next c result hphase =>
    cases ht
    obtain ⟨done, hdone, hlog⟩ := h.history
    have hremaining := h.remaining
    rw [hphase] at hdone hlog hremaining
    refine h.moves (by rw [hphase]; rfl) rfl ⟨done ++ [c], ?_, ?_⟩ hremaining ?_
    · simpa [OnExecute.current] using hdone
    · simp [hlog, history_concat, Executor.returnedEvents, hphase, OnExecute.progress]
    · simp [OnExecute.isExecuting, OnExecute.isCalling]
  next => cases ht

/-- The task ends when every accepted call has been served. -/
theorem Serves.terminate (h : Serves t accepted log) (ht : t.terminate = some t') :
    Free t' ∧ t'.operationState = none ∧ t'.callsExpected = 0 ∧
      log = AsyncExecutor.history accepted := by
  unfold ExecutorTask.terminate at ht
  split at ht
  next hphase =>
    cases ht
    obtain ⟨hstopped, hcallback⟩ := h.terminating (by rw [hphase.1]; rfl)
    obtain ⟨done, hdone, hlog⟩ := h.history
    have htask := h.inProgress_eq_none hcallback
    have hposted := h.posted
    have hexpected := h.expected
    simp [hphase.1, hcallback, hstopped, OnExecute.isTerminating, running, htask] at hposted
    simp [hphase.1, hcallback, counted, OnExecute.isTerminating] at hexpected
    refine ⟨⟨rfl, hposted.1, rfl, htask⟩, rfl, hexpected, ?_⟩
    simp [hphase.1, hcallback, OnExecute.current, OnExecute.progress] at hdone hlog
    rw [hlog, hdone]
  next => cases ht

/-- It was cancelled, and it has left the queue of the workers. -/
theorem Serves.terminate_canceled (h : Serves t accepted log) (ht : t.terminate = some t') :
    t.canceled ∧ t.worker ≠ .assigned := by
  unfold ExecutorTask.terminate at ht
  split at ht
  next hphase =>
    obtain ⟨hstopped, hcallback⟩ := h.terminating (by rw [hphase.1]; rfl)
    have hposted := h.posted
    simp [hphase.1, hcallback, hstopped, OnExecute.isTerminating, unscheduled] at hposted
    exact ⟨by simp [canceled, hstopped], hposted.1.2.1⟩
  next => cases ht

/-! ## What the members leave alone -/

/-- A member which serves the calls of its operation. -/
structure Keeps (t t' : ExecutorTask) : Prop where
  operationState : t'.operationState = t.operationState
  canceled : t'.canceled = t.canceled
  assigned : t'.worker = .assigned ↔ t.worker = .assigned
  quiet : Quiet t → Quiet t'

theorem Serves.keeps_scheduleTask (h : Serves t accepted log)
    (ht : t.scheduleTask created = some t') : Keeps t t' := by
  obtain ⟨hworker, ht⟩ := scheduleTask_eq_some ht
  have htask := (h.owes hworker).inProgress
  obtain ⟨task, -, -, rfl⟩ | ⟨-, rfl⟩ := scheduleCall_cases htask ht
  · exact ⟨rfl, rfl, by simp [scheduleAsyncCall, hworker], fun hq => ⟨hq.callback, hq.remaining, hq.calling⟩⟩
  · exact ⟨rfl, rfl, by simp [hworker], fun hq => ⟨hq.callback, hq.remaining, hq.calling⟩⟩

theorem Serves.keeps_onOperationTaskReady {outcome : Outcome} (h : Serves t accepted log)
    (ht : t.onOperationTaskReady outcome = some t') : Keeps t t' := by
  obtain ⟨task, htask, -, rfl | ⟨failed, rfl⟩⟩ := onOperationTaskReady_cases ht
  · exact ⟨rfl, rfl, Iff.rfl, id⟩
  · refine ⟨rfl, rfl, Iff.rfl, fun hquiet => ?_⟩
    rw [h.inProgress_eq_none hquiet.callback] at htask
    cases htask

theorem canceled_takeCall (c : Callback) (t : ExecutorTask) :
    (t.takeCall c).canceled = t.canceled := by
  unfold takeCall scheduleTermination
  split
  next hcancel =>
    have hcancel : t.cancelPending = true := hcancel
    simp [canceled, scheduleAsyncCall, hcancel]
  next => rfl

theorem operationState_takeCall (c : Callback) (t : ExecutorTask) :
    (t.takeCall c).operationState = t.operationState := by
  unfold takeCall scheduleTermination
  split <;> rfl

theorem worker_takeCall (c : Callback) (t : ExecutorTask) : (t.takeCall c).worker = t.worker := by
  unfold takeCall scheduleTermination
  split <;> rfl

theorem Serves.keeps_enterExecute (h : Serves t accepted log) (ht : t.enterExecute = some t') :
    Keeps t t' := by
  obtain ⟨hidle, hposts, ⟨c, hcallback, rfl⟩ | ⟨hcallback, rfl⟩⟩ := enterExecute_cases h ht
  · refine ⟨operationState_takeCall c _, canceled_takeCall c _, ?_, fun hquiet => ?_⟩
    · rw [worker_takeCall]
    · simp [hquiet.callback] at hcallback
  · exact ⟨rfl, rfl, Iff.rfl, fun hquiet => ⟨hquiet.callback, hquiet.remaining, rfl⟩⟩

theorem Serves.keeps_executeCall {executed : Result} (h : Serves t accepted log)
    (ht : t.executeCall executed = some t') : Keeps t t' := by
  unfold ExecutorTask.executeCall at ht
  split at ht
  next c stopped task hphase =>
    split at ht
    next => cases ht
    next =>
      cases ht
      refine ⟨rfl, rfl, Iff.rfl, fun hquiet => ?_⟩
      have hremaining := h.remaining
      simp [hquiet.remaining, hphase, OnExecute.isExecuting] at hremaining
  next => cases ht

theorem keeps_enterCallback (ht : t.enterCallback = some t') : Keeps t t' := by
  unfold ExecutorTask.enterCallback at ht
  split at ht
  next c result hphase =>
    cases ht
    exact ⟨rfl, rfl, Iff.rfl, fun hquiet => ⟨hquiet.callback, hquiet.remaining, rfl⟩⟩
  next => cases ht

theorem keeps_leaveCallback (ht : t.leaveCallback = some t') : Keeps t t' := by
  unfold ExecutorTask.leaveCallback at ht
  split at ht
  next c result hphase =>
    cases ht
    exact ⟨rfl, rfl, Iff.rfl, fun hquiet => ⟨hquiet.callback, hquiet.remaining, rfl⟩⟩
  next => cases ht

theorem quiet_terminate (ht : t.terminate = some t') (hquiet : Quiet t) : Quiet t' := by
  unfold ExecutorTask.terminate at ht
  split at ht
  next =>
    cases ht
    exact ⟨hquiet.callback, hquiet.remaining, rfl⟩
  next => cases ht

theorem quiet_requestCancel (h : Quiet t) : Quiet t.requestCancel := by
  unfold ExecutorTask.requestCancel
  split
  next => exact h
  next =>
    split
    next => exact ⟨h.callback, h.remaining, h.calling⟩
    next => exact ⟨h.callback, h.remaining, h.calling⟩

theorem requestCancel_operationState (t : ExecutorTask) :
    t.requestCancel.operationState = t.operationState := by
  unfold ExecutorTask.requestCancel
  split
  next => rfl
  next => split <;> rfl

theorem requestCancel_worker (t : ExecutorTask) : t.requestCancel.worker = t.worker := by
  unfold ExecutorTask.requestCancel
  split
  next => rfl
  next => split <;> rfl

/-- A new call leaves the rest of the task as it was. -/
theorem Serves.keeps_requestNewAsyncCall {c : Callback}
    (h : Serves t accepted log) (hquiet : Quiet t) (hexpects : t.callsExpected ≠ 0)
    (ht : t.requestNewAsyncCall c created = some t') :
    t'.operationState = t.operationState ∧ t'.canceled = t.canceled ∧ t'.worker = t.worker := by
  unfold ExecutorTask.requestNewAsyncCall at ht
  split at ht
  next =>
    have htask := (h.owes_newCall hquiet hexpects c).inProgress
    obtain ⟨task, -, -, rfl⟩ | ⟨-, rfl⟩ := scheduleCall_cases htask ht <;> exact ⟨rfl, rfl, rfl⟩
  next => cases ht

/-- The push of the task to the queue of the workers. -/
theorem Serves.pushed (h : Serves t accepted log) (hworker : t.worker = .assigned) :
    Serves { t with worker := .pending } accepted log := by
  have hunscheduled : t.unscheduled = true := by simp [unscheduled, hworker]
  have hposted := h.posted
  have hinProgress := h.inProgress
  rw [hunscheduled] at hposted hinProgress
  exact ⟨h.history, h.expected, h.remaining, hposted, hinProgress, h.cancelPending,
    h.terminating, h.busy⟩

/-! ## Progress -/

/-- A task which can do nothing has no call to serve: everything it waits for
is the callback of an operation state task, or the queue of the workers. -/
structure Stalled (t : ExecutorTask) : Prop where
  scheduleTask : ∀ created, t.scheduleTask created = none
  onOperationTaskReady : ∀ outcome, t.onOperationTaskReady outcome = none
  enterExecute : t.enterExecute = none
  executeCall : ∀ executed, t.executeCall executed = none
  enterCallback : t.enterCallback = none
  leaveCallback : t.leaveCallback = none
  terminate : t.terminate = none

theorem Stalled.onExecute_eq_idle (h : Stalled t) (hstate : t.operationState ≠ none) :
    t.onExecute = .idle := by
  cases hphase : t.onExecute with
  | idle => rfl
  | executing c stopped task =>
    have := h.executeCall .success
    simp [ExecutorTask.executeCall, hphase, hstate] at this
  | calling c result =>
    have := h.enterCallback
    simp [ExecutorTask.enterCallback, hphase] at this
  | called c result =>
    have := h.leaveCallback
    simp [ExecutorTask.leaveCallback, hphase] at this
  | terminating =>
    have := h.terminate
    simp [ExecutorTask.terminate, hphase, hstate] at this

theorem Stalled.running_eq_false (h : Stalled t) : t.running = false := by
  have := h.onOperationTaskReady .success
  cases htask : t.operationStateTaskInProgress with
  | none => simp [running, htask]
  | some task => simpa [ExecutorTask.onOperationTaskReady, htask, running] using this

theorem Stalled.worker_ne_pending (h : Stalled t) (hstate : t.operationState ≠ none) :
    t.worker ≠ .pending := by
  intro hworker
  have := h.scheduleTask .null
  simp only [ExecutorTask.scheduleTask, scheduleCall, hworker, hstate, if_true, if_false] at this
  split at this <;> cases this

theorem Serves.posted_eq_zero (h : Serves t accepted log) (hidle : t.onExecute = .idle)
    (hstalled : Stalled t) : t.posted = 0 := by
  by_contra hposts
  have hexecute := hstalled.enterExecute
  have hexpected := h.expected
  cases hcallback : t.callback with
  | none =>
    simp [ExecutorTask.enterExecute, hidle, hposts, hexpected, counted, hcallback,
      OnExecute.isTerminating] at hexecute
  | some c =>
    simp only [ExecutorTask.enterExecute, hidle, hposts, hcallback, ne_eq, not_false_eq_true,
      and_self, if_true, Option.map_some] at hexecute
    split at hexecute <;> cases hexecute

/-- A task which serves an operation and is not waiting to be pushed goes on
until it has served every call, and ends if it was cancelled. -/
theorem Serves.stalled (h : Serves t accepted log) (hstate : t.operationState ≠ none)
    (hworker : t.worker ≠ .assigned) (hstalled : Stalled t) :
    log = AsyncExecutor.history accepted ∧ t.canceled = false := by
  have hidle := hstalled.onExecute_eq_idle hstate
  have hunscheduled : t.unscheduled = false := by
    simp [unscheduled, hworker, hstalled.worker_ne_pending hstate]
  have hposted := h.posted
  rw [h.posted_eq_zero hidle hstalled, hunscheduled, hstalled.running_eq_false, hidle] at hposted
  obtain ⟨hcallback, hstopped⟩ : t.callback = none ∧ t.stopped = false := by
    simpa [OnExecute.isTerminating] using hposted.symm
  have htask := h.inProgress_eq_none hcallback
  have hcancel : t.cancelPending = false := by simpa [htask] using h.cancelPending
  obtain ⟨done, hdone, hlog⟩ := h.history
  simp only [hidle, hcallback, OnExecute.current, OnExecute.progress, Option.toList_none,
    List.append_nil] at hdone hlog
  exact ⟨by rw [hlog, hdone], by simp [canceled, hstopped, hcancel]⟩

end ExecutorTask

end Baselib.Async.AsyncExecutor
