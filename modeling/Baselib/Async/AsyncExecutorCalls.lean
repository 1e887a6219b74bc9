/-
Baselib.Async.AsyncExecutorCalls — the calls of an operation over whole
runs.

`cancel` takes neither `m_lock` nor the task out of the hands of a call which
is being begun. When it comes between the copy of the task pointer and its
use, the call can find a task which has ended, or has no operation state; and
a continuation call whose operation state is a task is not counted as pending
until that task has ended.
-/
import Baselib.Async.AsyncExecutorTheorems
import Baselib.Lib.Transition

namespace Baselib.Async.AsyncExecutor

open Lib List
open ExecutorTask (Serves Free Quiet Keeps)

variable {s s' : Executor} {t : TaskId} {o : OperationId} {c : Callback} {l : Label}
  {ls : List Label}

/-! ## What a caller and a cancellation may do -/

def Event.isCalled : Event → Bool
  | .called _ => true
  | _ => false

/-- A call was accepted and its callback has not been entered. -/
def Operation.pending (operation : Operation) : Prop :=
  operation.log.countP Event.isCalled ≠ operation.accepted.length

instance (operation : Operation) : Decidable operation.pending :=
  inferInstanceAs (Decidable (_ ≠ _))

/-- The pending call of the operation is not counted: it is a continuation
whose operation state task is in progress, or it is just about to enter its
callback. -/
def Executor.uncounted (s : Executor) (o : OperationId) : Bool :=
  (s.operations o).task.any fun t =>
    (s.tasks t).runningNewCall || (s.tasks t).onExecute.isCalling

/-- The operation whose first call is being begun without a task. -/
def Lock.inHand : Lock → Option OperationId
  | .copied o _ none | .assigned o _ => some o
  | _ => none

/-- The task a call which is being begun has found. -/
def Lock.existingTask : Lock → Option TaskId
  | .copied _ _ existingTask => existingTask
  | _ => none

/-- The operation a new call is begun on. -/
def Label.begins : Label → Option OperationId
  | .asyncBegin o _ => some o
  | _ => none

def Label.cancels : Label → Option OperationId
  | .cancel o => some o
  | _ => none

def Label.requests : Label → Bool
  | .requestNewAsyncCall _ => true
  | _ => false

/-- A new call begins from within or after the previous callback, and not
after a cancellation or the release. -/
def Disciplined (s : Executor) (l : Label) : Prop :=
  ∀ o ∈ l.begins, (s.operations o).active = true ∧ ¬ (s.operations o).pending

/-- A new call begins on an operation in use, and not while one is pending
which is not counted. -/
def Counted (s : Executor) (l : Label) : Prop :=
  ∀ o ∈ l.begins, (s.operations o).active = true ∧
    ((s.operations o).pending → s.uncounted o = false)

/-- No cancellation comes while the first call is being begun, and none has
ended the task when a new call is requested on it. -/
def Undisturbed (s : Executor) (l : Label) : Prop :=
  (∀ o ∈ l.cancels, s.lock.inHand ≠ some o) ∧
    (l.requests = true → ∀ t ∈ s.lock.existingTask, (s.tasks t).callsExpected ≠ 0)

instance (s : Executor) (l : Label) : Decidable (Disciplined s l) :=
  inferInstanceAs (Decidable (∀ _ ∈ _, _ ∧ _))

instance (s : Executor) (l : Label) : Decidable (Counted s l) :=
  inferInstanceAs (Decidable (∀ _ ∈ _, _ ∧ (_ → _)))

instance (s : Executor) (l : Label) : Decidable (Undisturbed s l) :=
  inferInstanceAs (Decidable ((∀ _ ∈ _, _) ∧ (_ → ∀ _ ∈ _, _)))

theorem Disciplined.counted (h : Disciplined s l) : Counted s l :=
  fun o ho => ⟨(h o ho).1, fun hpending => absurd hpending (h o ho).2⟩

/-! ## Pending calls -/

theorem countP_history (calls : List Callback) :
    (history calls).countP Event.isCalled = calls.length := by
  induction calls with
  | nil => rfl
  | cons c calls ih =>
    simp only [history, flatMap_cons, countP_append, length_cons] at ih ⊢
    rw [ih, Nat.add_comm]
    rfl

/-- A call is pending when the task has its callback, or is on the way to it. -/
theorem pending_iff {task : ExecutorTask} {operation : Operation}
    (h : Serves task operation.accepted operation.log) :
    operation.pending ↔
      task.callback.isSome ∨ task.onExecute.isExecuting ∨ task.onExecute.isCalling := by
  obtain ⟨done, hdone, hlog⟩ := h.history
  rw [Operation.pending, hdone, hlog, countP_append, countP_history]
  cases hphase : task.onExecute <;> cases hcallback : task.callback <;>
    simp [OnExecute.current, OnExecute.progress, OnExecute.isExecuting, OnExecute.isCalling,
      Event.isCalled]

/-- Only a continuation whose operation state task is in progress is not
counted from the moment it is accepted to the one before its callback. -/
theorem ensureNoCallsPending_iff {task : ExecutorTask} {operation : Operation}
    (h : Serves task operation.accepted operation.log) (hpending : operation.pending) :
    task.ensureNoCallsPending = true ↔
      (task.runningNewCall || task.onExecute.isCalling) = true := by
  have hremaining := h.remaining
  rw [pending_iff h] at hpending
  rw [ExecutorTask.ensureNoCallsPending, beq_iff_eq, hremaining, Nat.add_eq_zero_iff,
    Bool.toNat_eq_zero, Bool.toNat_eq_zero, Bool.or_eq_true]
  constructor
  · rintro ⟨hcounted, hexecuting⟩
    obtain hcallback | hexecuting' | hcalling := hpending
    · simpa [ExecutorTask.counted, hcallback] using Or.inl hcounted
    · simp [hexecuting] at hexecuting'
    · exact .inr hcalling
  · rintro (hrunning | hcalling)
    · have hcallback : task.callback.isSome := by
        refine (h.inProgress ?_).1
        cases htask : task.operationStateTaskInProgress with
        | none => simp [ExecutorTask.runningNewCall, htask] at hrunning
        | some _ => rfl
      refine ⟨by simp [ExecutorTask.counted, hrunning], ?_⟩
      cases hexecuting : task.onExecute.isExecuting with
      | false => rfl
      | true => simp [h.busy (.inl hexecuting)] at hcallback
    · have hcallback := h.busy (.inr hcalling)
      refine ⟨by simp [ExecutorTask.counted, hcallback], ?_⟩
      cases hphase : task.onExecute <;>
        simp_all [OnExecute.isExecuting, OnExecute.isCalling]

/-- A task which passes `ensureNoCallsPending` has nothing pending, unless what
is pending is not counted. -/
theorem quiet_of_ensureNoCallsPending {task : ExecutorTask} {operation : Operation}
    (h : Serves task operation.accepted operation.log)
    (hcounted : operation.pending → (task.runningNewCall || task.onExecute.isCalling) = false)
    (hpass : task.ensureNoCallsPending = true) : Quiet task := by
  have hpending : ¬ operation.pending := fun hpending => by
    have := (ensureNoCallsPending_iff h hpending).mp hpass
    rw [hcounted hpending] at this
    cases this
  rw [pending_iff h] at hpending
  simp only [not_or, Bool.not_eq_true, Option.isSome_eq_false_iff, Option.isNone_iff_eq_none]
    at hpending
  exact ⟨hpending.1, by simpa [ExecutorTask.ensureNoCallsPending] using hpass, hpending.2.2⟩

/-! ## Steps -/

/-- The lock is taken by a caller which relies on what it has read. -/
theorem Inv.setLock {lock : Lock} (hi : Inv s) (hlock : s.lock = .free)
    (hrelies : Relies { s with lock := lock } lock) : Inv { s with lock := lock } := by
  refine { hi with
    linked := fun t o h => .inl ((hi.linked t o h).resolve_right (by simp [hlock]))
    assigned := fun t h =>
      absurd h (hi.worker_ne_assigned (by simp [hlock]) (by simp [hlock]))
    lock := hrelies }

/-- In an operation in use which nobody is working on, the task is the one it
has been given. -/
theorem Inv.task_of_active (hi : Inv s) (hlock : s.lock = .free)
    (hlive : (s.operations o).active = true) (hstate : (s.tasks t).operationState = some o) :
    (s.operations o).task = some t := by
  obtain ⟨h, -⟩ | ⟨-, -, h⟩ := (hi.linked t o hstate).resolve_right (by simp [hlock])
  · exact h
  · rw [hlive] at h
    cases h

theorem Inv.asyncBegin (hi : Inv s) (hcounted : Counted s (.asyncBegin o c))
    (h : step s (.asyncBegin o c) = some s') : Inv s' := by
  obtain ⟨hlive, hcounted⟩ := hcounted o rfl
  simp only [step] at h
  split at h
  next hbegin =>
    cases h
    unfold Executor.asyncBegin
    split
    next => exact hi
    next =>
      split
      next hnone =>
        refine hi.setLock hbegin.1 ⟨hlive, fun t ht => ?_⟩
        simp [hi.task_of_active hbegin.1 hlive ht] at hnone
      next t htask =>
        split
        next hpass =>
          have hstate := hi.task t o htask
          refine hi.setLock hbegin.1 ⟨?_, .inl hstate⟩
          refine quiet_of_ensureNoCallsPending (hi.serves t o hstate) (fun hp => ?_) hpass
          simpa [Executor.uncounted, htask] using hcounted hp
        next => exact hi
  next => cases h

theorem Inv.releaseOperation (hi : Inv s) (h : step s (.releaseOperation o) = some s') :
    Inv s' := by
  simp only [step] at h
  split at h
  next hrelease =>
    cases h
    unfold Executor.releaseOperation
    split
    next => exact hi.setLock hrelease.1 hrelease.2.1
    next =>
      split
      next => exact hi.setLock hrelease.1 hrelease.2.1
      next => exact hi
  next => cases h

theorem inv_step (hi : Inv s) (hcounted : Counted s l) (hundisturbed : Undisturbed s l)
    (h : step s l = some s') : Inv s' := by
  cases l with
  | createOperation =>
    simp only [step] at h
    split at h
    next hlock =>
      cases h
      exact hi.createOperation hlock
    next => cases h
  | cancel o =>
    simp only [step] at h
    split at h
    next ho =>
      cases h
      have hhand := hundisturbed.1 o rfl
      refine hi.resetOperation ho.1 (fun c hc => hhand ?_) (fun t ht => hhand ?_)
      · rw [hc]
        rfl
      · rw [ht]
        rfl
    next => cases h
  | releaseOperation o => exact hi.releaseOperation h
  | finishRelease o =>
    simp only [step] at h
    split at h
    next hlock =>
      cases h
      exact hi.finishRelease hlock
    next => cases h
  | asyncBegin o c => exact hi.asyncBegin hcounted h
  | requestNewAsyncCall created =>
    refine hi.requestNewAsyncCall (fun o c t hlock => ?_) h
    exact hundisturbed.2 rfl t (by rw [hlock]; rfl)
  | assignTask => exact hi.assignTask h
  | installTask => exact hi.installTask h
  | pushTask => exact hi.pushTask h
  | scheduleTask t created => exact hi.scheduleTask h
  | onOperationTaskReady t outcome => exact hi.onOperationTaskReady h
  | onExecute t => exact hi.onExecute h
  | executeCall t executed => exact hi.executeCall h
  | enterCallback t => exact hi.enterCallback h
  | leaveCallback t => exact hi.leaveCallback h
  | notifyReady t => exact hi.notifyReady h

theorem inv_run (h : Transition.run step .createInstance ls = some s)
    (hcounted : Transition.Along step Counted .createInstance ls)
    (hundisturbed : Transition.Along step Undisturbed .createInstance ls) : Inv s :=
  Transition.run_invariant (fun _ _ _ hi hc => inv_step hi hc.1 hc.2) inv_createInstance
    (hcounted.and hundisturbed) h

/-! ## Overlapping calls -/

/-- A pending call of an operation in use is in the hands of its task. -/
theorem Inv.exists_task (hi : Inv s) (hlive : (s.operations o).active = true)
    (hpending : (s.operations o).pending) :
    ∃ t, (s.tasks t).operationState = some o := by
  by_contra hnone
  obtain ⟨haccepted, hlog⟩ | ⟨hdead, -⟩ := hi.unserved o (not_exists.mp hnone)
  · exact hpending (by rw [haccepted, hlog]; rfl)
  · rw [hlive] at hdead
    cases hdead

/-- A call or a release which comes while a call is pending is refused and
changes nothing, exactly when the pending call is counted. -/
theorem run_refuses (h : Transition.run step .createInstance ls = some s)
    (hcounted : Transition.Along step Counted .createInstance ls)
    (hundisturbed : Transition.Along step Undisturbed .createInstance ls)
    (hlock : s.lock = .free) (hlive : (s.operations o).active = true)
    (hpending : (s.operations o).pending) :
    ((∀ c, s.asyncBegin o c = (some .anotherCallInProgress, s)) ∧
        s.releaseOperation o = (some .anotherCallInProgress, s)) ↔
      s.uncounted o = false := by
  have hi := inv_run h hcounted hundisturbed
  obtain ⟨t, hstate⟩ := hi.exists_task hlive hpending
  have htask := hi.task_of_active hlock hlive hstate
  have hfreed : (s.operations o).freed = false := by
    cases hf : (s.operations o).freed with
    | false => rfl
    | true => rw [hi.freed o hf] at hlive; cases hlive
  have hpass := ensureNoCallsPending_iff (hi.serves t o hstate) hpending
  have huncounted : s.uncounted o = (s.tasks t).ensureNoCallsPending := by
    rw [Executor.uncounted, htask, Option.any_some]
    exact (Bool.eq_iff_iff.mpr hpass).symm
  rw [huncounted]
  cases hresult : (s.tasks t).ensureNoCallsPending <;>
    simp [Executor.asyncBegin, Executor.releaseOperation, hfreed, htask, hresult]

/-- The first call of an operation is served, and the next one waits for its
operation state task. -/
def continuedOperation : List Label :=
  [.createOperation, .asyncBegin 0 1, .assignTask, .installTask, .pushTask, .scheduleTask 0 .null,
    .onExecute 0, .executeCall 0 .success, .enterCallback 0, .leaveCallback 0, .asyncBegin 0 2,
    .requestNewAsyncCall .task]

/-- The first call of an operation waits for the queue of the workers. -/
def begunOperation : List Label :=
  [.createOperation, .asyncBegin 0 1, .assignTask, .installTask, .pushTask]

def Executor.after (ls : List Label) : Executor :=
  (Transition.run step .createInstance ls).getD .createInstance

theorem run_refuses_begunOperation :
    ((∀ c, (Executor.after begunOperation).asyncBegin 0 c =
          (some .anotherCallInProgress, Executor.after begunOperation)) ∧
        (Executor.after begunOperation).releaseOperation 0 =
          (some .anotherCallInProgress, Executor.after begunOperation)) ↔
      (Executor.after begunOperation).uncounted 0 = false :=
  @run_refuses (Executor.after begunOperation) 0 begunOperation rfl (by decide) (by decide)
    (by decide) (by decide) (by decide)

/-- Another call takes the place of the pending callback, which is never
called. -/
theorem run_refuses_continuedOperation :
    ∃ s s', Transition.run step .createInstance continuedOperation = some s ∧
      Transition.Along step Counted .createInstance continuedOperation ∧
      Transition.Along step Undisturbed .createInstance continuedOperation ∧
      s.lock = .free ∧ (s.operations 0).active = true ∧ (s.operations 0).pending ∧
      (s.asyncBegin 0 3).1 = none ∧ (s.releaseOperation 0).1 = none ∧
      (s.tasks 0).callback = some 2 ∧
      Transition.run step s [.asyncBegin 0 3, .requestNewAsyncCall .null] = some s' ∧
      (s'.tasks 0).callback = some 3 := by
  refine ⟨_, _, rfl, ?_, ?_, rfl, rfl, ?_, rfl, rfl, rfl, rfl, rfl⟩ <;> decide

/-! ## Operations in use -/

/-- The operation was cancelled, or it was released. -/
def Ended (ls : List Label) (o : OperationId) : Prop :=
  .cancel o ∈ ls ∨ .finishRelease o ∈ ls

instance (ls : List Label) (o : OperationId) : Decidable (Ended ls o) :=
  inferInstanceAs (Decidable (_ ∨ _))

theorem ended_cons : Ended (l :: ls) o ↔ (l = .cancel o ∨ l = .finishRelease o) ∨ Ended ls o := by
  simp only [Ended, mem_cons, eq_comm (a := l)]
  tauto

theorem Executor.onTask_frame {member : ExecutorTask → Option ExecutorTask}
    {events : ExecutorTask → List Event} (h : s.onTask t member events = some s') :
    s'.operationsCount = s.operationsCount ∧
      ∀ o, (s'.operations o).active = (s.operations o).active := by
  obtain ⟨task, -, rfl⟩ := Executor.onTask_eq_some.mp h
  cases (s.tasks t).operationState with
  | none => exact ⟨rfl, fun o => rfl⟩
  | some o => exact ⟨rfl, active_setOperation (by rfl)⟩

theorem Executor.resetOperation_of_ne {o' : OperationId} (h : o' ≠ o) (s : Executor) :
    ((s.resetOperation o).operations o').active = (s.operations o').active := by
  simp only [Executor.resetOperation]
  split
  next => rw [Executor.setOperation_of_ne h]
  next => rw [Executor.setOperation_of_ne h, Executor.setTask_operations]

/-- A step which neither adds an operation nor takes one out of use. -/
def KeepsOperations (s s' : Executor) : Prop :=
  s'.operationsCount = s.operationsCount ∧
    ∀ o, (s'.operations o).active = (s.operations o).active

/-- What a step does to the operations in use. -/
def Counts (s : Executor) (l : Label) (s' : Executor) : Prop :=
  s'.operationsCount = s.operationsCount + (if l = .createOperation then 1 else 0) ∧
    (∀ o, l = .cancel o ∨ l = .finishRelease o → o < s.operationsCount) ∧
    ∀ o, (s'.operations o).active = true ↔
      ((s.operations o).active = true ∨ l = .createOperation ∧ o = s.operationsCount) ∧
        ¬ (l = .cancel o ∨ l = .finishRelease o)

theorem KeepsOperations.counts (h : KeepsOperations s s') (hcreate : l ≠ .createOperation)
    (hcancel : ∀ o, l ≠ .cancel o) (hrelease : ∀ o, l ≠ .finishRelease o) : Counts s l s' := by
  simp [Counts, h.1, h.2, hcreate, hcancel, hrelease]

theorem counts_reset (hreset : s'.operationsCount = s.operationsCount)
    (hself : (s'.operations o).active = false)
    (hother : ∀ o', o' ≠ o → (s'.operations o').active = (s.operations o').active)
    (ho : o < s.operationsCount) (hcreate : l ≠ .createOperation)
    (hl : ∀ o', l = .cancel o' ∨ l = .finishRelease o' ↔ o' = o) : Counts s l s' := by
  refine ⟨by simp [hreset, hcreate], fun o' h => ?_, fun o' => ?_⟩
  · rwa [(hl o').mp h]
  · rw [hl]
    by_cases hoo : o' = o
    · simp [hoo, hself]
    · simp [hoo, hother o' hoo, hcreate]

theorem Executor.keepsOperations_asyncBegin (s : Executor) : KeepsOperations s (s.asyncBegin o c).2 := by
  unfold Executor.asyncBegin
  split
  next => exact ⟨rfl, fun _ => rfl⟩
  next =>
    split
    next => exact ⟨rfl, fun _ => rfl⟩
    next => split <;> exact ⟨rfl, fun _ => rfl⟩

theorem Executor.keepsOperations_releaseOperation (s : Executor) :
    KeepsOperations s (s.releaseOperation o).2 := by
  unfold Executor.releaseOperation
  split
  next => exact ⟨rfl, fun _ => rfl⟩
  next => split <;> exact ⟨rfl, fun _ => rfl⟩

theorem step_counts (hi : Inv s) (h : step s l = some s') : Counts s l s' := by
  cases l with
  | createOperation =>
    simp only [step] at h
    split at h
    next =>
      cases h
      refine ⟨rfl, by simp, fun o => ?_⟩
      by_cases ho : o = s.operationsCount
      · simp [ho, Executor.createOperation]
      · have : (s.createOperation.operations o) = s.operations o := Executor.setOperation_of_ne ho s
        simp [ho, this]
    next => cases h
  | cancel o =>
    simp only [step] at h
    split at h
    next ho =>
      cases h
      exact counts_reset s.resetOperation_frame.2 s.resetOperation_active
        (fun o' hoo => s.resetOperation_of_ne hoo) ho.1 (by simp) (by simp [eq_comm])
    next => cases h
  | finishRelease o =>
    simp only [step] at h
    split at h
    next hlock =>
      cases h
      have hrelies := hi.lock
      rw [hlock] at hrelies
      refine counts_reset s.resetOperation_frame.2 ?_ (fun o' hoo => ?_) hrelies (by simp)
        (by simp [eq_comm])
      · simp [Executor.finishRelease, Executor.resetOperation_active]
      · exact (congrArg _ (Executor.setOperation_of_ne hoo _)).trans (s.resetOperation_of_ne hoo)
    next => cases h
  | releaseOperation o =>
    simp only [step] at h
    split at h
    next =>
      cases h
      exact s.keepsOperations_releaseOperation.counts (by simp) (by simp) (by simp)
    next => cases h
  | asyncBegin o c =>
    simp only [step] at h
    split at h
    next =>
      cases h
      exact s.keepsOperations_asyncBegin.counts (by simp) (by simp) (by simp)
    next => cases h
  | requestNewAsyncCall created =>
    simp only [step, Executor.requestNewAsyncCall] at h
    split at h
    next =>
      obtain ⟨task, -, rfl⟩ := Option.map_eq_some_iff.mp h
      exact KeepsOperations.counts ⟨rfl, active_setOperation (by rfl)⟩ (by simp) (by simp) (by simp)
    next => cases h
  | assignTask =>
    simp only [step, Executor.assignTask] at h
    split at h
    next =>
      cases h
      obtain ⟨-, hoperations, hcount, -⟩ := s.topTask_frame
      refine KeepsOperations.counts ⟨hcount, fun o' => ?_⟩ (by simp) (by simp) (by simp)
      rw [← hoperations]
      exact active_setOperation (s := s.topTask.2.setTask _ _) (by rfl) o'
    next => cases h
  | installTask =>
    simp only [step, Executor.installTask] at h
    split at h
    next =>
      cases h
      exact KeepsOperations.counts ⟨rfl, active_setOperation (by rfl)⟩ (by simp) (by simp) (by simp)
    next => cases h
  | pushTask =>
    simp only [step, Executor.pushTask] at h
    split at h
    next =>
      cases h
      exact KeepsOperations.counts ⟨rfl, fun _ => rfl⟩ (by simp) (by simp) (by simp)
    next => cases h
  | notifyReady t =>
    obtain ⟨m, hm, rfl⟩ := Option.map_eq_some_iff.mp h
    have hkeeps : KeepsOperations s m := Executor.onTask_frame hm
    exact KeepsOperations.counts ⟨hkeeps.1, hkeeps.2⟩ (by simp) (by simp) (by simp)
  | scheduleTask _ _ | onOperationTaskReady _ _ | onExecute _ | executeCall _ _
  | enterCallback _ | leaveCallback _ =>
    exact KeepsOperations.counts (Executor.onTask_frame h) (by simp) (by simp) (by simp)

/-- The operations in use are the ones created and not ended. -/
theorem run_counts (hi : Inv s) (h : Transition.run step s ls = some s')
    (hcounted : Transition.Along step Counted s ls)
    (hundisturbed : Transition.Along step Undisturbed s ls) :
    s'.operationsCount = s.operationsCount + ls.count .createOperation ∧
      (∀ o, Ended ls o → o < s'.operationsCount) ∧
      ∀ o, (s'.operations o).active = true ↔
        ((s.operations o).active = true ∨ s.operationsCount ≤ o ∧ o < s'.operationsCount) ∧
          ¬ Ended ls o := by
  induction ls generalizing s with
  | nil =>
    cases h
    refine ⟨rfl, by simp [Ended], fun o => ?_⟩
    simp only [Ended, not_mem_nil, or_self, not_false_eq_true, and_true]
    exact ⟨.inl, fun h => h.resolve_right fun h => absurd h.2 (Nat.not_lt.mpr h.1)⟩
  | cons l ls ih =>
    obtain ⟨m, hm, hrun⟩ := Transition.run_cons_eq_some.mp h
    obtain ⟨hcount, hbound, hactive⟩ := step_counts hi hm
    obtain ⟨ihcount, ihbound, ihactive⟩ := ih (inv_step hi hcounted.1 hundisturbed.1 hm) hrun
      (hcounted.2 m hm) (hundisturbed.2 m hm)
    have hle : s.operationsCount ≤ m.operationsCount := by
      rw [hcount]
      exact Nat.le_add_right ..
    have hle' : m.operationsCount ≤ s'.operationsCount := by
      rw [ihcount]
      exact Nat.le_add_right ..
    refine ⟨?_, fun o ho => ?_, fun o => ?_⟩
    · rw [ihcount, hcount, count_cons]
      simp only [beq_iff_eq]
      omega
    · rw [ended_cons] at ho
      obtain ho | ho := ho
      · exact (hbound o ho).trans_le (hle.trans hle')
      · exact ihbound o ho
    · rw [ihactive, hactive, ended_cons]
      by_cases hend : l = .cancel o ∨ l = .finishRelease o
      · have hlt : ¬ m.operationsCount ≤ o :=
          fun hge => absurd (hbound o hend) (Nat.not_lt.mpr (hle.trans hge))
        simp [hend, hlt]
      · by_cases hcreate : l = .createOperation
        · have hm : m.operationsCount ≤ o ↔ s.operationsCount ≤ o ∧ o ≠ s.operationsCount := by
            rw [hcount, if_pos hcreate, Nat.succ_le_iff, lt_iff_le_and_ne]
            simp [eq_comm]
          have hs : o = s.operationsCount → o < s'.operationsCount := by
            rintro rfl
            rwa [hcount, if_pos hcreate] at hle'
          have hself : o = s.operationsCount → s.operationsCount ≤ o := fun h => h.ge
          simp only [hcreate, hm]
          tauto
        · simp [hend, hcreate, hcount]

/-! ## Every call is called back -/

/-- The steps which nobody has to ask for: the locks, the queues and the tasks
go on by themselves, and callbacks return. -/
def Label.internal : Label → Bool
  | .createOperation | .cancel _ | .releaseOperation _ | .asyncBegin _ _ => false
  | _ => true

/-- Nothing goes on. -/
def Stalled (s : Executor) : Prop := ∀ l : Label, l.internal = true → step s l = none

/-- What is promised of the calls after a run. -/
structure CalledBack (ls : List Label) (s : Executor) : Prop where
  /-- The calls are served one after the other and in their order, each with
  one callback, and the resources are released once after the last of them. -/
  history : ∀ o, (s.operations o).log <+: history (s.operations o).accepted ++ closing
  /-- Nothing of it is left out when nothing goes on. -/
  stalled : Stalled s → ∀ o, (s.operations o).log = AsyncExecutor.history (s.operations o).accepted ++
    if Ended ls o ∧ (s.operations o).accepted ≠ [] then closing else []
  outstanding : s.outstandingCalls =
    ((Finset.range (ls.count .createOperation)).filter fun o => ¬ Ended ls o).card

theorem served_log_le {task : ExecutorTask} {accepted : List Callback} {log : List Event}
    (h : Serves task accepted log) : log <+: history accepted ++ closing := by
  obtain ⟨done, hdone, hlog⟩ := h.history
  have hcurrent : task.onExecute.progress <+: history task.onExecute.current := by
    cases task.onExecute <;> simp [OnExecute.progress, OnExecute.current, history, served]
  obtain ⟨rest, hrest⟩ := hcurrent
  refine ⟨rest ++ history task.callback.toList ++ closing, ?_⟩
  rw [hlog, hdone]
  simp only [history, flatMap_append, append_assoc] at hrest ⊢
  rw [← hrest]
  simp only [append_assoc]

theorem Executor.onTask_eq_none {member : ExecutorTask → Option ExecutorTask}
    {events : ExecutorTask → List Event} :
    s.onTask t member events = none ↔ member (s.tasks t) = none := by
  rw [Executor.onTask, Option.map_eq_none_iff]

theorem Stalled.task (h : Stalled s) (t : TaskId) : (s.tasks t).Stalled where
  scheduleTask created := Executor.onTask_eq_none.mp (h (.scheduleTask t created) rfl)
  onOperationTaskReady outcome :=
    Executor.onTask_eq_none.mp (h (.onOperationTaskReady t outcome) rfl)
  enterExecute := Executor.onTask_eq_none.mp (h (.onExecute t) rfl)
  executeCall executed := Executor.onTask_eq_none.mp (h (.executeCall t executed) rfl)
  enterCallback := Executor.onTask_eq_none.mp (h (.enterCallback t) rfl)
  leaveCallback := Executor.onTask_eq_none.mp (h (.leaveCallback t) rfl)
  terminate := Executor.onTask_eq_none.mp (Option.map_eq_none_iff.mp (h (.notifyReady t) rfl))

/-- A task in the hands of `asyncBegin` is pushed. -/
theorem Inv.worker_of_stalled (hi : Inv s) (hstalled : Stalled s) (t : TaskId) :
    (s.tasks t).worker ≠ .assigned := by
  refine hi.worker_ne_assigned (fun o hlock => ?_) (fun o hlock => ?_)
  · have := hstalled .installTask rfl
    simp [step, Executor.installTask, hlock] at this
  · have := hstalled .pushTask rfl
    simp [step, Executor.pushTask, hlock] at this

/-- When nothing goes on, an operation in use is at rest and one which has
ended has lost its task. -/
theorem Inv.log_of_stalled (hi : Inv s) (hstalled : Stalled s) (o : OperationId) :
    (s.operations o).log = history (s.operations o).accepted ++
      if (s.operations o).active = false ∧ (s.operations o).accepted ≠ [] then closing else [] := by
  by_cases hheld : ∃ t, (s.tasks t).operationState = some o
  · obtain ⟨t, hstate⟩ := hheld
    have hworker := hi.worker_of_stalled hstalled t
    obtain ⟨hlog, hcanceled⟩ := (hi.serves t o hstate).stalled (by simp [hstate]) hworker
      (hstalled.task t)
    have hlive : (s.operations o).active = true := by
      obtain ⟨-, -, h⟩ | ⟨-, h, -⟩ := (hi.linked t o hstate).resolve_right fun hlock => by
        have hrelies := hi.lock
        rw [hlock] at hrelies
        exact hworker hrelies.2.1
      · exact h
      · simp [hcanceled] at h
    simp [hlog, hlive]
  · obtain ⟨haccepted, hlog⟩ | ⟨hdead, hbegun, hlog⟩ := hi.unserved o (not_exists.mp hheld)
    · simp [haccepted, hlog]
    · simp [hdead, hbegun, hlog]

/-- What has happened to the calls of an operation is a part of their history. -/
theorem Inv.log_le (hi : Inv s) (o : OperationId) :
    (s.operations o).log <+: history (s.operations o).accepted ++ closing := by
  by_cases hheld : ∃ t, (s.tasks t).operationState = some o
  · obtain ⟨t, hstate⟩ := hheld
    exact served_log_le (hi.serves t o hstate)
  · obtain ⟨-, hlog⟩ | ⟨-, -, hlog⟩ := hi.unserved o (not_exists.mp hheld)
    · rw [hlog]
      exact nil_prefix
    · rw [hlog]

/-- In every run of disciplined callers which no cancellation disturbs, every
call is called back. -/
theorem run_calledBack (h : Transition.run step .createInstance ls = some s)
    (hdisciplined : Transition.Along step Disciplined .createInstance ls)
    (hundisturbed : Transition.Along step Undisturbed .createInstance ls) : CalledBack ls s := by
  have hcounted := hdisciplined.mono fun _ _ => Disciplined.counted
  have hi := inv_run h hcounted hundisturbed
  obtain ⟨hcount, hbound, hactive⟩ := run_counts inv_createInstance h hcounted hundisturbed
  have hcreated : s.operationsCount = ls.count .createOperation := by
    rw [hcount]
    exact Nat.zero_add _
  have hactive : ∀ o, (s.operations o).active = true ↔ o < s.operationsCount ∧ ¬ Ended ls o := by
    intro o
    rw [hactive]
    simp [Executor.createInstance, Operation.none]
  refine ⟨hi.log_le, fun hstalled o => ?_, ?_⟩
  · rw [hi.log_of_stalled hstalled]
    congr 1
    refine if_congr (and_congr_left fun hbegun => ?_) rfl rfl
    have hlt : o < s.operationsCount := by
      by_contra hge
      rw [hi.created o (Nat.not_lt.mp hge)] at hbegun
      exact hbegun rfl
    rw [← Bool.not_eq_true, hactive]
    simp [hlt]
  · rw [hi.outstanding]
    congr 1
    ext o
    rw [Executor.mem_active, hactive, Finset.mem_filter, Finset.mem_range, hcreated]
    simp

/-- Two calls and a cancellation which comes while the second waits for its
operation state task. -/
def canceledOperation : List Label :=
  [.createOperation, .asyncBegin 0 1, .assignTask, .installTask, .pushTask, .scheduleTask 0 .null,
    .onExecute 0, .executeCall 0 .success, .enterCallback 0, .asyncBegin 0 2,
    .requestNewAsyncCall .task, .leaveCallback 0, .cancel 0, .onOperationTaskReady 0 .exception,
    .onExecute 0, .executeCall 0 .success, .enterCallback 0, .leaveCallback 0, .onExecute 0,
    .notifyReady 0]

theorem run_calledBack_canceledOperation :
    CalledBack canceledOperation (Executor.after canceledOperation) :=
  run_calledBack rfl (by decide) (by decide)

/-- A cancellation comes after the second call has found the task, and ends the
task before the call is requested on it. -/
def disturbedOperation : List Label :=
  [.createOperation, .asyncBegin 0 1, .assignTask, .installTask, .pushTask, .scheduleTask 0 .null,
    .onExecute 0, .executeCall 0 .success, .enterCallback 0, .leaveCallback 0, .asyncBegin 0 2,
    .cancel 0, .onExecute 0, .requestNewAsyncCall .null, .notifyReady 0]

/-- The second call is accepted after the end of the task, and what is posted
for it finds no operation state. -/
theorem run_calledBack_disturbedOperation :
    ∃ s s', Transition.run step .createInstance disturbedOperation = some s ∧
      Transition.Along step Disciplined .createInstance disturbedOperation ∧
      (s.operations 0).accepted = [1, 2] ∧
      (s.operations 0).log = history [1] ++ closing ∧
      ¬ CalledBack disturbedOperation s ∧
      Transition.run step s [.onExecute 0] = some s' ∧ step s' (.notifyReady 0) = none := by
  refine ⟨_, _, rfl, by decide, rfl, rfl, fun h => ?_, rfl, rfl⟩
  exact absurd (h.history 0) (by decide)

end Baselib.Async.AsyncExecutor
