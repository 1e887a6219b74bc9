/-
Baselib.Async.AsyncExecutorTheorems — what holds in every state the async
executor reaches: an operation is served by one task at a time, and what has
happened to its calls is the history of the calls it has accepted, cut off
somewhere.
-/
import Baselib.Async.ExecutorTaskTheorems
import Mathlib.Data.Finset.Card

namespace Baselib.Async.AsyncExecutor

open List
open ExecutorTask (Serves Free Quiet Keeps)

/-! ## The invariant -/

/-- The operations which are neither cancelled nor released. -/
def Executor.active (s : Executor) : Finset OperationId :=
  (Finset.range s.operationsCount).filter fun o => (s.operations o).active

theorem Executor.mem_active {s : Executor} {o : OperationId} :
    o ∈ s.active ↔ o < s.operationsCount ∧ (s.operations o).active = true := by
  simp [Executor.active]

/-- What the holder of `m_lock` relies on. -/
def Relies (s : Executor) : Lock → Prop
  | .free => True
  | .releasing o => o < s.operationsCount
  | .copied o _ none =>
    (s.operations o).active ∧ ∀ t, (s.tasks t).operationState ≠ some o
  | .copied o _ (some t) =>
    Quiet (s.tasks t) ∧ ((s.tasks t).operationState = some o ∨
      (s.tasks t).operationState = none ∧ (s.tasks t).callsExpected = 0)
  | .assigned o t =>
    (s.tasks t).operationState = some o ∧ (s.tasks t).worker = .assigned ∧
      (s.tasks t).canceled = false ∧ (s.operations o).active ∧ (s.operations o).task = none
  | .installed o t => (s.tasks t).operationState = some o ∧ (s.tasks t).worker = .assigned

/-- An operation has its task until it is cancelled. -/
def Linked (t : TaskId) (task : ExecutorTask) (operation : Operation) : Prop :=
  operation.task = some t ∧ task.canceled = false ∧ operation.active ∨
    operation.task = none ∧ task.canceled ∧ operation.active = false

structure Inv (s : Executor) : Prop where
  serves : ∀ t o, (s.tasks t).operationState = some o →
    Serves (s.tasks t) (s.operations o).accepted (s.operations o).log
  free : ∀ t, (s.tasks t).operationState = none → Free (s.tasks t)
  unique : ∀ t t' o, (s.tasks t).operationState = some o →
    (s.tasks t').operationState = some o → t = t'
  linked : ∀ t o, (s.tasks t).operationState = some o →
    Linked t (s.tasks t) (s.operations o) ∨ s.lock = .assigned o t
  task : ∀ t o, (s.operations o).task = some t → (s.tasks t).operationState = some o
  unserved : ∀ o, (∀ t, (s.tasks t).operationState ≠ some o) →
    (s.operations o).accepted = [] ∧ (s.operations o).log = [] ∨
      (s.operations o).active = false ∧ (s.operations o).accepted ≠ [] ∧
        (s.operations o).log = history (s.operations o).accepted ++ closing
  begun : ∀ t o, (s.tasks t).operationState = some o → (s.operations o).accepted ≠ []
  operationState : ∀ o, (s.operations o).operationState = (s.operations o).active
  freed : ∀ o, (s.operations o).freed → (s.operations o).active = false
  exists_of_state : ∀ t o, (s.tasks t).operationState = some o → o < s.operationsCount
  created : ∀ o, s.operationsCount ≤ o → s.operations o = .none
  tasksCount : ∀ t, s.tasksCount ≤ t → (s.tasks t).operationState = none
  ready : ∀ t ∈ s.ready, (s.tasks t).operationState = none ∧ t < s.tasksCount
  nodup : s.ready.Nodup
  outstanding : s.outstandingCalls = s.active.card
  assigned : ∀ t, (s.tasks t).worker = .assigned →
    ∃ o, s.lock = .assigned o t ∨ s.lock = .installed o t
  lock : Relies s s.lock

theorem inv_createInstance : Inv .createInstance := by
  constructor <;> intros <;>
    simp_all [Executor.createInstance, ExecutorTask.createInstance, ExecutorTask.resetState,
      Operation.none, Executor.active, Relies]
  exact ExecutorTask.free_createInstance

variable {s s' : Executor} {t : TaskId} {o : OperationId} {task : ExecutorTask}
  {operation : Operation} {lock : Lock} {outstandingCalls : Nat}

namespace Executor

@[simp] theorem setTask_self (s : Executor) : (s.setTask t task).tasks t = task :=
  Function.update_self ..

@[simp] theorem setOperation_self (s : Executor) :
    (s.setOperation o operation).operations o = operation :=
  Function.update_self ..

@[simp] theorem setTask_operations (s : Executor) :
    (s.setTask t task).operations = s.operations := rfl

@[simp] theorem setOperation_tasks (s : Executor) :
    (s.setOperation o operation).tasks = s.tasks := rfl

theorem setTask_of_ne {t' : TaskId} (h : t' ≠ t) (s : Executor) :
    (s.setTask t task).tasks t' = s.tasks t' :=
  Function.update_of_ne h ..

theorem setOperation_of_ne {o' : OperationId} (h : o' ≠ o) (s : Executor) :
    (s.setOperation o operation).operations o' = s.operations o' :=
  Function.update_of_ne h ..

end Executor

/-- The task which serves an operation, and the operation, are replaced. -/
def Executor.update (s : Executor) (t : TaskId) (task : ExecutorTask) (o : OperationId)
    (operation : Operation) (lock : Lock) (outstandingCalls : Nat) : Executor :=
  { (s.setTask t task).setOperation o operation with
    lock := lock
    outstandingCalls := outstandingCalls }

@[simp] theorem Executor.update_tasks_self {s : Executor} :
    (s.update t task o operation lock outstandingCalls).tasks t = task :=
  Function.update_self ..

theorem Executor.update_tasks_of_ne {t' : TaskId} (h : t' ≠ t) :
    (s.update t task o operation lock outstandingCalls).tasks t' = s.tasks t' :=
  Function.update_of_ne h ..

theorem Executor.setTask_operationState (s : Executor)
    (hstate : (s.tasks t).operationState = some o) (htask : task.operationState = some o)
    (t' : TaskId) :
    ((s.setTask t task).tasks t').operationState = (s.tasks t').operationState := by
  by_cases ht : t' = t
  · rw [ht, Executor.setTask_self, htask, hstate]
  · rw [Executor.setTask_of_ne ht]

/-- A task and the operation it serves, before or after, are replaced: what is
left to show is about the two of them. -/
theorem Inv.replace (hi : Inv s) (hof : ∀ t', t' ≠ t → s'.tasks t' = s.tasks t')
    (hoof : ∀ o', o' ≠ o → s'.operations o' = s.operations o')
    (hothers : ∀ t', t' ≠ t → (s.tasks t').operationState ≠ some o)
    (hbefore : ∀ o', (s.tasks t).operationState = some o' → o' = o)
    (hafter : ∀ o', (s'.tasks t).operationState = some o' → o' = o)
    (hserves : (s'.tasks t).operationState = some o →
      Serves (s'.tasks t) (s'.operations o).accepted (s'.operations o).log)
    (hfree : (s'.tasks t).operationState = none → Free (s'.tasks t))
    (hlinked : (s'.tasks t).operationState = some o →
      Linked t (s'.tasks t) (s'.operations o) ∨ s'.lock = .assigned o t)
    (hother : ∀ o' t', t' ≠ t → s.lock = .assigned o' t' → s'.lock = .assigned o' t')
    (htask : ∀ t', (s'.operations o).task = some t' →
      t' = t ∧ (s'.tasks t).operationState = some o)
    (hunserved : (s'.tasks t).operationState ≠ some o →
      (s'.operations o).accepted = [] ∧ (s'.operations o).log = [] ∨
        (s'.operations o).active = false ∧ (s'.operations o).accepted ≠ [] ∧
          (s'.operations o).log = history (s'.operations o).accepted ++ closing)
    (hbegun : (s'.tasks t).operationState = some o → (s'.operations o).accepted ≠ [])
    (hactive : (s'.operations o).operationState = (s'.operations o).active)
    (hfreed : (s'.operations o).freed → (s'.operations o).active = false)
    (hcount : s'.operationsCount = s.operationsCount) (hlt : o < s.operationsCount)
    (htasksCount : ∀ t', s'.tasksCount ≤ t' → (s'.tasks t').operationState = none)
    (hready : ∀ t' ∈ s'.ready, (s'.tasks t').operationState = none ∧ t' < s'.tasksCount)
    (hnodup : s'.ready.Nodup) (houtstanding : s'.outstandingCalls = s'.active.card)
    (hassigned : ∀ t', (s'.tasks t').worker = .assigned →
      ∃ o', s'.lock = .assigned o' t' ∨ s'.lock = .installed o' t')
    (hlock : Relies s' s'.lock) : Inv s' := by
  have hne : ∀ {t' o'}, t' ≠ t → (s.tasks t').operationState = some o' → o' ≠ o :=
    fun ht h ho => hothers _ ht (ho ▸ h)
  constructor
  case serves =>
    intro t' o' h
    obtain rfl | ht := eq_or_ne t' t
    · obtain rfl := hafter o' h
      exact hserves h
    · rw [hof t' ht] at h ⊢
      rw [hoof o' (hne ht h)]
      exact hi.serves t' o' h
  case free =>
    intro t' h
    obtain rfl | ht := eq_or_ne t' t
    · exact hfree h
    · rw [hof t' ht] at h ⊢
      exact hi.free t' h
  case unique =>
    intro t₁ t₂ o' h₁ h₂
    by_cases ht₁ : t₁ = t <;> by_cases ht₂ : t₂ = t
    · exact ht₁.trans ht₂.symm
    · subst ht₁
      rw [hof t₂ ht₂] at h₂
      exact absurd (hafter o' h₁) (hne ht₂ h₂)
    · subst ht₂
      rw [hof t₁ ht₁] at h₁
      exact absurd (hafter o' h₂) (hne ht₁ h₁)
    · rw [hof t₁ ht₁] at h₁
      rw [hof t₂ ht₂] at h₂
      exact hi.unique t₁ t₂ o' h₁ h₂
  case linked =>
    intro t' o' h
    obtain rfl | ht := eq_or_ne t' t
    · obtain rfl := hafter o' h
      exact hlinked h
    · rw [hof t' ht] at h ⊢
      rw [hoof o' (hne ht h)]
      exact (hi.linked t' o' h).imp_right (hother o' t' ht)
  case task =>
    intro t' o' h
    obtain rfl | ho := eq_or_ne o' o
    · obtain ⟨rfl, h⟩ := htask t' h
      exact h
    · rw [hoof o' ho] at h
      have h := hi.task t' o' h
      rwa [hof t' fun ht => ho (hbefore o' (ht ▸ h))]
  case unserved =>
    intro o' h
    obtain rfl | ho := eq_or_ne o' o
    · exact hunserved (h t)
    · rw [hoof o' ho]
      refine hi.unserved o' fun t' ht' => h t' ?_
      rwa [hof t' fun ht => ho (hbefore o' (ht ▸ ht'))]
  case begun =>
    intro t' o' h
    obtain rfl | ht := eq_or_ne t' t
    · obtain rfl := hafter o' h
      exact hbegun h
    · rw [hof t' ht] at h
      rw [hoof o' (hne ht h)]
      exact hi.begun t' o' h
  case operationState =>
    intro o'
    by_cases ho : o' = o
    · exact ho ▸ hactive
    · rw [hoof o' ho]
      exact hi.operationState o'
  case freed =>
    intro o'
    by_cases ho : o' = o
    · exact ho ▸ hfreed
    · rw [hoof o' ho]
      exact hi.freed o'
  case exists_of_state =>
    intro t' o' h
    rw [hcount]
    obtain rfl | ht := eq_or_ne t' t
    · exact hafter o' h ▸ hlt
    · rw [hof t' ht] at h
      exact hi.exists_of_state t' o' h
  case created =>
    intro o' hge
    rw [hcount] at hge
    rw [hoof o' fun ho => absurd hlt (Nat.not_lt.mpr (ho ▸ hge))]
    exact hi.created o' hge
  case tasksCount => exact htasksCount
  case ready => exact hready
  case nodup => exact hnodup
  case outstanding => exact houtstanding
  case assigned => exact hassigned
  case lock => exact hlock

theorem Inv.update (hi : Inv s) (operation : Operation) (hstate : (s.tasks t).operationState = some o)
    (htaskState : task.operationState = some o)
    (hserves : Serves task operation.accepted operation.log)
    (hbegun : operation.accepted ≠ [])
    (hactive : operation.operationState = operation.active)
    (hfreed : operation.freed → operation.active = false)
    (hlinked : Linked t task operation ∨ lock = .assigned o t)
    (htask : ∀ t', operation.task = some t' → t' = t)
    (hother : ∀ o' t', t' ≠ t → s.lock = .assigned o' t' → lock = .assigned o' t')
    (hassigned : ∀ t', ((s.setTask t task).tasks t').worker = .assigned →
      ∃ o', lock = .assigned o' t' ∨ lock = .installed o' t')
    (houtstanding : outstandingCalls =
      (s.update t task o operation lock outstandingCalls).active.card)
    (hlock : Relies (s.update t task o operation lock outstandingCalls) lock) :
    Inv (s.update t task o operation lock outstandingCalls) := by
  have hstates := s.setTask_operationState hstate htaskState
  have hoself : (s.update t task o operation lock outstandingCalls).operations o = operation :=
    Executor.setOperation_self _
  refine hi.replace (t := t) (o := o) (fun t' ht => Executor.setTask_of_ne ht s)
    (fun o' ho => Executor.setOperation_of_ne ho _)
    (fun t' ht h => ht (hi.unique t' t o h hstate))
    (fun o' h => (Option.some.inj (hstate.symm.trans h)).symm)
    (fun o' h => (Option.some.inj (((hstates t).trans hstate).symm.trans h)).symm)
    ?_ ?_ ?_ hother ?_ ?_ ?_ ?_ ?_ rfl (hi.exists_of_state t o hstate) ?_ ?_ hi.nodup houtstanding
    hassigned hlock
  · simpa [hoself] using fun _ => hserves
  · intro h
    cases ((hstates t).trans hstate).symm.trans h
  · rw [Executor.update_tasks_self, hoself]
    exact fun _ => hlinked
  · rw [hoself]
    exact fun t' h => ⟨htask t' h, (hstates t).trans hstate⟩
  · exact fun h => absurd ((hstates t).trans hstate) h
  · rw [hoself]
    exact fun _ => hbegun
  · rwa [hoself]
  · rwa [hoself]
  · exact fun t' hle => (hstates t').trans (hi.tasksCount t' hle)
  · exact fun t' ht' => ⟨(hstates t').trans (hi.ready t' ht').1, (hi.ready t' ht').2⟩

/-- An operation is replaced. -/
def Executor.updateOperation (s : Executor) (o : OperationId) (operation : Operation) (lock : Lock)
    (outstandingCalls : Nat) : Executor :=
  { s.setOperation o operation with lock := lock, outstandingCalls := outstandingCalls }

theorem Inv.updateOperation (hi : Inv s) (operation : Operation) (ho : o < s.operationsCount)
    (haccepted : operation.accepted = (s.operations o).accepted)
    (hlog : operation.log = (s.operations o).log)
    (hstate : operation.operationState = operation.active)
    (hfreed : operation.freed → operation.active = false)
    (hactive : operation.active → (s.operations o).active)
    (htask : ∀ t, operation.task = some t → (s.tasks t).operationState = some o)
    (hlinked : ∀ t, (s.tasks t).operationState = some o →
      Linked t (s.tasks t) operation ∨ lock = .assigned o t)
    (hother : ∀ o' t, o' ≠ o → s.lock = .assigned o' t → lock = .assigned o' t)
    (hassigned : ∀ t, (s.tasks t).worker = .assigned →
      ∃ o', lock = .assigned o' t ∨ lock = .installed o' t)
    (houtstanding : outstandingCalls =
      (s.updateOperation o operation lock outstandingCalls).active.card)
    (hlock : Relies (s.updateOperation o operation lock outstandingCalls) lock) :
    Inv (s.updateOperation o operation lock outstandingCalls) := by
  constructor
  case serves =>
    intro t o' h
    have := hi.serves t o' h
    obtain rfl | ho := eq_or_ne o' o
    · rw [← haccepted, ← hlog] at this
      simpa [Executor.updateOperation] using this
    · rwa [← Executor.setOperation_of_ne ho s] at this
  case linked =>
    intro t o' h
    obtain rfl | ho := eq_or_ne o' o
    · simpa [Executor.updateOperation] using hlinked t h
    · have := (hi.linked t o' h).imp_right (hother o' t ho)
      rwa [← Executor.setOperation_of_ne ho s] at this
  case task =>
    intro t o' h
    obtain rfl | ho := eq_or_ne o' o
    · exact htask t (by simpa [Executor.updateOperation] using h)
    · exact hi.task t o' ((congrArg _ (Executor.setOperation_of_ne ho s)).symm.trans h)
  case unserved =>
    intro o' h
    have := hi.unserved o' h
    obtain rfl | ho := eq_or_ne o' o
    · rw [← haccepted, ← hlog] at this
      simp only [Executor.updateOperation, Executor.setOperation_self]
      refine this.imp_right fun hended => ⟨?_, hended.2⟩
      cases hlive : operation.active with
      | false => rfl
      | true => exact absurd (hactive hlive) (by simp [hended.1])
    · rwa [← Executor.setOperation_of_ne ho s] at this
  case begun =>
    intro t o' h
    have := hi.begun t o' h
    obtain rfl | ho := eq_or_ne o' o
    · rw [← haccepted] at this
      simpa [Executor.updateOperation] using this
    · rwa [← Executor.setOperation_of_ne ho s] at this
  case operationState =>
    intro o'
    obtain rfl | ho := eq_or_ne o' o
    · simpa [Executor.updateOperation] using hstate
    · have := hi.operationState o'
      rwa [← Executor.setOperation_of_ne ho s] at this
  case created =>
    intro o' hle
    have ho : o' ≠ o := by
      rintro rfl
      exact absurd ho (Nat.not_lt.mpr hle)
    exact (Executor.setOperation_of_ne ho s).trans (hi.created o' hle)
  case outstanding => exact houtstanding
  case assigned => exact hassigned
  case lock => exact hlock
  case freed =>
    intro o' h
    obtain rfl | ho := eq_or_ne o' o
    · simp only [Executor.updateOperation, Executor.setOperation_self] at h ⊢
      exact hfreed h
    · have := hi.freed o'
      rw [← Executor.setOperation_of_ne ho s] at this
      exact this h
  case free => exact hi.free
  case unique => exact hi.unique
  case exists_of_state => exact hi.exists_of_state
  case tasksCount => exact hi.tasksCount
  case ready => exact hi.ready
  case nodup => exact hi.nodup

/-- The operations in use depend on the flags of the operations only. -/
theorem Executor.active_congr (hcount : s'.operationsCount = s.operationsCount)
    (hactive : ∀ o, (s'.operations o).active = (s.operations o).active) :
    s'.active = s.active := by
  simp only [Executor.active, hcount, hactive]

theorem active_setOperation (h : operation.active = (s.operations o).active) (o' : OperationId) :
    ((s.setOperation o operation).operations o').active = (s.operations o').active := by
  by_cases ho : o' = o
  · rw [ho, Executor.setOperation_self, h]
  · rw [Executor.setOperation_of_ne ho]

theorem Executor.active_update (h : operation.active = (s.operations o).active) :
    (s.update t task o operation lock outstandingCalls).active = s.active :=
  Executor.active_congr rfl (active_setOperation (s := s.setTask t task) h)

/-! ## The tasks go on -/

theorem Executor.onTask_eq_some {member : ExecutorTask → Option ExecutorTask}
    {events : ExecutorTask → List Event} :
    s.onTask t member events = some s' ↔ ∃ task, member (s.tasks t) = some task ∧
      (s.setTask t task).record (s.tasks t).operationState (events task) = s' := by
  simp [Executor.onTask, Option.map_eq_some_iff]

/-- What the holder of the lock relies on stays when a task serves its calls. -/
theorem Relies.update {lock' : Lock} (h : Relies s lock) (operation : Operation)
    (hstate : (s.tasks t).operationState = some o) (hkeeps : Keeps (s.tasks t) task)
    (hactive : operation.active = (s.operations o).active)
    (htask : operation.task = (s.operations o).task) :
    Relies (s.update t task o operation lock' outstandingCalls) lock := by
  have hstates : ∀ t', ((s.update t task o operation lock' outstandingCalls).tasks t').operationState =
      (s.tasks t').operationState :=
    s.setTask_operationState hstate (hkeeps.operationState.trans hstate)
  have hactives : ∀ o',
      ((s.update t task o operation lock' outstandingCalls).operations o').active =
        (s.operations o').active :=
    active_setOperation (s := s.setTask t task) hactive
  cases lock with
  | free => trivial
  | releasing o' => exact h
  | copied o' c existing =>
    cases existing with
    | none =>
      obtain ⟨hlive, hnone⟩ := h
      exact ⟨(hactives o').trans hlive, fun t' => by rw [hstates]; exact hnone t'⟩
    | some t' =>
      obtain ⟨hquiet, hserved⟩ := h
      obtain rfl | ht := eq_or_ne t' t
      · have hserved : (s.tasks t').operationState = some o' :=
          hserved.resolve_right fun hnone => by simp [hstate] at hnone
        refine ⟨?_, .inl ((hstates t').trans hserved)⟩
        rw [Executor.update_tasks_self]
        exact hkeeps.quiet hquiet
      · rw [Relies, Executor.update_tasks_of_ne ht]
        exact ⟨hquiet, hserved⟩
  | assigned o' t' =>
    obtain ⟨hserved, hworker, hcanceled, hlive, htasks⟩ := h
    refine ⟨(hstates t').trans hserved, ?_, ?_, (hactives o').trans hlive, ?_⟩
    · obtain rfl | ht := eq_or_ne t' t
      · rw [Executor.update_tasks_self]
        exact hkeeps.assigned.mpr hworker
      · rwa [Executor.update_tasks_of_ne ht]
    · obtain rfl | ht := eq_or_ne t' t
      · rwa [Executor.update_tasks_self, hkeeps.canceled]
      · rwa [Executor.update_tasks_of_ne ht]
    · obtain rfl | ho := eq_or_ne o' o
      · simpa [Executor.update, htask] using htasks
      · exact (congrArg _ (Executor.setOperation_of_ne ho _)).trans htasks
  | installed o' t' =>
    obtain ⟨hserved, hworker⟩ := h
    refine ⟨(hstates t').trans hserved, ?_⟩
    obtain rfl | ht := eq_or_ne t' t
    · rw [Executor.update_tasks_self]
      exact hkeeps.assigned.mpr hworker
    · rwa [Executor.update_tasks_of_ne ht]

theorem Inv.onTask {member : ExecutorTask → Option ExecutorTask}
    {events : ExecutorTask → List Event} (hi : Inv s)
    (hmember : ∀ accepted log task, Serves (s.tasks t) accepted log →
      member (s.tasks t) = some task →
      Serves task accepted (log ++ events task) ∧ Keeps (s.tasks t) task)
    (hfree : Free (s.tasks t) → member (s.tasks t) = none)
    (h : s.onTask t member events = some s') : Inv s' := by
  obtain ⟨task, htask, rfl⟩ := Executor.onTask_eq_some.mp h
  cases hstate : (s.tasks t).operationState with
  | none =>
    rw [hfree (hi.free t hstate)] at htask
    cases htask
  | some o =>
    obtain ⟨hserves, hkeeps⟩ := hmember _ _ _ (hi.serves t o hstate) htask
    refine hi.update { s.operations o with log := (s.operations o).log ++ events task } hstate
      ?_ hserves (hi.begun t o hstate) (hi.operationState o) (hi.freed o) ?_ ?_ ?_ ?_ ?_ ?_
    · rw [hkeeps.operationState, hstate]
    · rw [Linked, hkeeps.canceled]
      exact hi.linked t o hstate
    · intro t' ht'
      exact hi.unique t' t o (hi.task t' o ht') hstate
    · exact fun _ _ _ h => h
    · intro t' ht'
      by_cases ht : t' = t
      · rw [ht, Executor.setTask_self, hkeeps.assigned] at ht'
        rw [ht]
        exact hi.assigned t ht'
      · rw [Executor.setTask_of_ne ht] at ht'
        exact hi.assigned t' ht'
    · exact hi.outstanding.trans (congrArg Finset.card (Executor.active_update (by rfl)).symm)
    · exact hi.lock.update _ hstate hkeeps rfl rfl

theorem Inv.scheduleTask {created : Created} (hi : Inv s)
    (h : step s (.scheduleTask t created) = some s') : Inv s' := by
  refine hi.onTask (fun accepted log task hs ht => ?_) (fun hf => ?_) h
  · rw [append_nil]
    exact ⟨hs.scheduleTask ht, hs.keeps_scheduleTask ht⟩
  · simp [ExecutorTask.scheduleTask, hf.worker]

theorem Inv.onOperationTaskReady {outcome : Outcome} (hi : Inv s)
    (h : step s (.onOperationTaskReady t outcome) = some s') : Inv s' := by
  refine hi.onTask (fun accepted log task hs ht => ?_) (fun hf => ?_) h
  · rw [append_nil]
    exact ⟨hs.onOperationTaskReady ht, hs.keeps_onOperationTaskReady ht⟩
  · simp [ExecutorTask.onOperationTaskReady, hf.inProgress]

theorem Inv.onExecute (hi : Inv s) (h : step s (.onExecute t) = some s') : Inv s' := by
  refine hi.onTask (fun accepted log task hs ht => ?_) (fun hf => ?_) h
  · exact ⟨hs.enterExecute ht, hs.keeps_enterExecute ht⟩
  · simp [ExecutorTask.enterExecute, hf.posted]

theorem Inv.executeCall {executed : Result} (hi : Inv s)
    (h : step s (.executeCall t executed) = some s') : Inv s' := by
  refine hi.onTask (fun accepted log task hs ht => ?_) (fun hf => ?_) h
  · rw [append_nil]
    exact ⟨hs.executeCall ht, hs.keeps_executeCall ht⟩
  · simp [ExecutorTask.executeCall, hf.onExecute]

theorem Inv.enterCallback (hi : Inv s) (h : step s (.enterCallback t) = some s') : Inv s' := by
  refine hi.onTask (fun accepted log task hs ht => ?_) (fun hf => ?_) h
  · exact ⟨hs.enterCallback ht, ExecutorTask.keeps_enterCallback ht⟩
  · simp [ExecutorTask.enterCallback, hf.onExecute]

theorem Inv.leaveCallback (hi : Inv s) (h : step s (.leaveCallback t) = some s') : Inv s' := by
  refine hi.onTask (fun accepted log task hs ht => ?_) (fun hf => ?_) h
  · exact ⟨hs.leaveCallback ht, ExecutorTask.keeps_leaveCallback ht⟩
  · simp [ExecutorTask.leaveCallback, hf.onExecute]

/-! ## The holder of the lock goes on -/

theorem Inv.lt_of_active (hi : Inv s) (h : (s.operations o).active) : o < s.operationsCount := by
  by_contra hge
  rw [hi.created o (Nat.not_lt.mp hge)] at h
  cases h

theorem Executor.setOperation_eq_self (s : Executor) : s.setOperation o (s.operations o) = s := by
  simp [Executor.setOperation]

/-- No task waits to be pushed, unless it is in hand. -/
theorem Inv.worker_ne_assigned (hi : Inv s) (hassigned : ∀ o, s.lock ≠ .assigned o t)
    (hinstalled : ∀ o, s.lock ≠ .installed o t) : (s.tasks t).worker ≠ .assigned := by
  intro hworker
  obtain ⟨o, h | h⟩ := hi.assigned t hworker
  · exact hassigned o h
  · exact hinstalled o h

theorem Inv.requestNewAsyncCall {created : Created} (hi : Inv s)
    (hexpects : ∀ o c t, s.lock = .copied o c (some t) → (s.tasks t).callsExpected ≠ 0)
    (h : step s (.requestNewAsyncCall created) = some s') : Inv s' := by
  simp only [step, Executor.requestNewAsyncCall] at h
  split at h
  next o c t hlock =>
    obtain ⟨task, htask, rfl⟩ := Option.map_eq_some_iff.mp h
    have hrelies := hi.lock
    rw [hlock] at hrelies
    obtain ⟨hquiet, hstate⟩ := hrelies
    replace hstate := hstate.resolve_right fun hnone => hexpects o c t hlock hnone.2
    have hserves := hi.serves t o hstate
    obtain ⟨hkeeps, hcanceled, hworker⟩ :=
      hserves.keeps_requestNewAsyncCall hquiet (hexpects o c t hlock) htask
    refine hi.update { s.operations o with accepted := (s.operations o).accepted ++ [c] } hstate
      (hkeeps.trans hstate) (hserves.requestNewAsyncCall hquiet (hexpects o c t hlock) htask)
      (by simp) (hi.operationState o) (hi.freed o) (.inl ?_) ?_ ?_ ?_ ?_ trivial
    · rw [Linked, hcanceled]
      exact (hi.linked t o hstate).resolve_right (by simp [hlock])
    · intro t' ht'
      exact hi.unique t' t o (hi.task t' o ht') hstate
    · intro o' t' _ h
      simp [hlock] at h
    · intro t' ht'
      refine absurd ?_ (hi.worker_ne_assigned (t := t') (by simp [hlock]) (by simp [hlock]))
      by_cases ht : t' = t
      · rwa [ht, Executor.setTask_self, hworker, ← ht] at ht'
      · rwa [Executor.setTask_of_ne ht] at ht'
    · exact hi.outstanding.trans (congrArg Finset.card (Executor.active_update (by rfl)).symm)
  next => cases h

theorem Inv.installTask (hi : Inv s) (h : step s .installTask = some s') : Inv s' := by
  simp only [step, Executor.installTask] at h
  split at h
  next o t hlock =>
    cases h
    have hrelies := hi.lock
    rw [hlock] at hrelies
    obtain ⟨hstate, hworker, hcanceled, hlive, -⟩ := hrelies
    refine hi.updateOperation { s.operations o with task := some t }
      (hi.exists_of_state t o hstate) rfl rfl (hi.operationState o) (hi.freed o) id ?_ ?_ ?_ ?_ ?_
      ⟨hstate, hworker⟩
    · rintro t' ⟨⟩
      exact hstate
    · intro t' ht'
      obtain rfl := hi.unique t' t o ht' hstate
      exact .inl (.inl ⟨rfl, hcanceled, hlive⟩)
    · rintro o' t' ho h
      rw [hlock] at h
      cases h
      exact absurd rfl ho
    · intro t' ht'
      obtain ⟨o', h | h⟩ := hi.assigned t' ht' <;> rw [hlock] at h <;> cases h
      exact ⟨o, .inr rfl⟩
    · exact hi.outstanding.trans
        (congrArg Finset.card (Executor.active_congr (by rfl) (active_setOperation (by rfl))).symm)
  next => cases h

theorem Inv.pushTask (hi : Inv s) (h : step s .pushTask = some s') : Inv s' := by
  simp only [step, Executor.pushTask] at h
  split at h
  next o t hlock =>
    cases h
    have hrelies := hi.lock
    rw [hlock] at hrelies
    obtain ⟨hstate, hworker⟩ := hrelies
    have hunassigned : ∀ o' t', s.lock ≠ .assigned o' t' := by simp [hlock]
    have hassigned : ∀ t', ((s.setTask t { s.tasks t with worker := .pending }).tasks t').worker =
        .assigned → ∃ o', Lock.free = .assigned o' t' ∨ Lock.free = .installed o' t' := by
      intro t' ht'
      by_cases ht : t' = t
      · simp [ht, Executor.setTask_self] at ht'
      · rw [Executor.setTask_of_ne ht] at ht'
        refine absurd ht' (hi.worker_ne_assigned (hunassigned · t') ?_)
        intro o' h
        rw [hlock] at h
        cases h
        exact ht rfl
    have hpushed : Inv (s.update t { s.tasks t with worker := .pending } o (s.operations o) .free
        s.outstandingCalls) :=
      hi.update (s.operations o) hstate hstate
        ((hi.serves t o hstate).pushed hworker) (hi.begun t o hstate) (hi.operationState o)
        (hi.freed o)
        (.inl ((hi.linked t o hstate).resolve_right (hunassigned o t)))
        (fun t' ht' => hi.unique t' t o (hi.task t' o ht') hstate)
        (fun o' t' _ h => absurd h (hunassigned o' t')) hassigned
        (hi.outstanding.trans (congrArg Finset.card (Executor.active_update (by rfl)).symm)) trivial
    have hsame := Executor.setOperation_eq_self (o := o)
      (s.setTask t { s.tasks t with worker := .pending })
    rwa [Executor.update, ← Executor.setTask_operations s, hsame] at hpushed
  next => cases h

/-- The task `asyncBegin` takes is out of use. -/
theorem Inv.topTask (hi : Inv s) :
    (s.tasks s.topTask.1).operationState = none ∧ s.topTask.1 < s.topTask.2.tasksCount ∧
      s.topTask.1 ∉ s.topTask.2.ready ∧ s.topTask.2.ready.Sublist s.ready ∧
      s.tasksCount ≤ s.topTask.2.tasksCount := by
  have hready := hi.ready
  have hnodup := hi.nodup
  unfold Executor.topTask
  split
  next hnil =>
    refine ⟨hi.tasksCount _ le_rfl, Nat.lt_succ_self _, ?_, List.Sublist.refl _, Nat.le_succ _⟩
    simp [hnil]
  next t ready hcons =>
    rw [hcons] at hready hnodup
    obtain ⟨hstate, hlt⟩ := hready t mem_cons_self
    refine ⟨hstate, hlt, (nodup_cons.mp hnodup).1, ?_, le_rfl⟩
    rw [hcons]
    exact sublist_cons_self ..

theorem Executor.topTask_frame (s : Executor) :
    s.topTask.2.tasks = s.tasks ∧ s.topTask.2.operations = s.operations ∧
      s.topTask.2.operationsCount = s.operationsCount ∧
      s.topTask.2.outstandingCalls = s.outstandingCalls := by
  unfold Executor.topTask
  split <;> exact ⟨rfl, rfl, rfl, rfl⟩

theorem Inv.assign {c : Callback} (hi : Inv s) (hlock : s.lock = .copied o c none)
    (hstate' : task.operationState = some o) (hserves : Serves task [c] [])
    (hworker : task.worker = .assigned) (hcanceled : task.canceled = false)
    (hs' : s' = { (s.topTask.2.setTask s.topTask.1 task).accept o c with
      lock := .assigned o s.topTask.1 }) : Inv s' := by
  have hrelies := hi.lock
  rw [hlock] at hrelies
  obtain ⟨hlive, hnone⟩ := hrelies
  obtain ⟨hstate, hlt, hnotin, hsub, hle⟩ := hi.topTask
  obtain ⟨htasks, hoperations, hcount, hcalls⟩ := s.topTask_frame
  generalize htop : s.topTask.1 = t at *
  obtain ⟨haccepted, hlog⟩ := (hi.unserved o hnone).resolve_right (by simp [hlive])
  have hself : s'.tasks t = task := by simp [hs', Executor.accept]
  have hof : ∀ t', t' ≠ t → s'.tasks t' = s.tasks t' := by
    intro t' ht
    rw [hs', ← htasks]
    exact Executor.setTask_of_ne ht _
  have hoself : s'.operations o = { s.operations o with accepted := [c] } := by
    simp [hs', Executor.accept, hoperations, haccepted]
  have hoof : ∀ o', o' ≠ o → s'.operations o' = s.operations o' := by
    intro o' ho
    rw [hs', ← hoperations]
    exact Executor.setOperation_of_ne ho _
  have hcount' : s'.operationsCount = s.operationsCount := by rw [hs', ← hcount]; rfl
  have htasksCount : s'.tasksCount = s.topTask.2.tasksCount := by rw [hs']; rfl
  have hready : s'.ready = s.topTask.2.ready := by rw [hs']; rfl
  have hlock' : s'.lock = .assigned o t := by rw [hs']
  have hserving : (s'.tasks t).operationState = some o := by rw [hself, hstate']
  have hotask : (s.operations o).task = none := by
    cases ht : (s.operations o).task with
    | none => rfl
    | some t' => exact absurd (hi.task t' o ht) (hnone t')
  refine hi.replace (t := t) (o := o) hof hoof (fun t' _ => hnone t') ?_ ?_ ?_ ?_
    (fun _ => .inr hlock') (by simp [hlock]) ?_ (absurd hserving) ?_ ?_ ?_ hcount'
    (hi.lt_of_active hlive) ?_ ?_ ?_ ?_ ?_ ?_
  · exact fun o' h => by cases hstate.symm.trans h
  · exact fun o' h => (Option.some.inj (hserving.symm.trans h)).symm
  · rw [hself, hoself, hlog]
    exact fun _ => hserves
  · exact fun h => by cases hserving.symm.trans h
  · rw [hoself]
    exact fun t' h => by cases hotask.symm.trans h
  · rw [hoself]
    exact fun _ => cons_ne_nil _ _
  · rw [hoself]
    exact hi.operationState o
  · rw [hoself]
    exact hi.freed o
  · intro t' hge
    rw [htasksCount] at hge
    rw [hof t' (by rintro rfl; exact absurd hlt (Nat.not_lt.mpr hge))]
    exact hi.tasksCount t' (hle.trans hge)
  · intro t' ht'
    rw [hready] at ht'
    rw [htasksCount, hof t' (by rintro rfl; exact hnotin ht')]
    obtain ⟨hnone', hlt'⟩ := hi.ready t' (hsub.subset ht')
    exact ⟨hnone', hlt'.trans_le hle⟩
  · rw [hready]
    exact hsub.nodup hi.nodup
  · have hactive : s'.active = s.active := by
      refine Executor.active_congr hcount' fun o' => ?_
      by_cases ho : o' = o
      · rw [ho, hoself]
      · rw [hoof o' ho]
    rwa [hactive, ← hi.outstanding, hs']
  · intro t' ht'
    have ht : t' = t := by
      by_contra ht
      rw [hof t' ht] at ht'
      exact hi.worker_ne_assigned (by simp [hlock]) (by simp [hlock]) ht'
    exact ⟨o, .inl (ht ▸ hlock')⟩
  · rw [hlock']
    refine ⟨hserving, ?_, ?_, ?_, ?_⟩
    · rw [hself, hworker]
    · rw [hself, hcanceled]
    · rwa [hoself]
    · rwa [hoself]

theorem Inv.assignTask (hi : Inv s) (h : step s .assignTask = some s') : Inv s' := by
  simp only [step, Executor.assignTask] at h
  split at h
  next o c hlock =>
    have hrelies := hi.lock
    rw [hlock] at hrelies
    have hfree := hi.free _ hi.topTask.1
    refine hi.assign hlock ?_ (hfree.serves _ c) rfl rfl (Option.some.inj h).symm
    simp [hi.operationState, hrelies.1]
  next => cases h

theorem Inv.complete (hi : Inv s) (hstate : (s.tasks t).operationState = some o)
    (htask : (s.tasks t).terminate = some task)
    (hs' : s' = { (s.setTask t task).record (some o) [.resourcesReleased, .ready] with
      ready := s.ready ++ [t] }) : Inv s' := by
  have hserves := hi.serves t o hstate
  obtain ⟨hfree, hstate', hexpected, hlog⟩ := hserves.terminate htask
  obtain ⟨hcanceled, hworker⟩ := hserves.terminate_canceled htask
  have hself : s'.tasks t = task := by simp [hs', Executor.record]
  have hof : ∀ t', t' ≠ t → s'.tasks t' = s.tasks t' := by
    intro t' ht
    rw [hs']
    exact Executor.setTask_of_ne ht _
  have hoself : s'.operations o =
      { s.operations o with log := (s.operations o).log ++ closing } := by
    simp [hs', Executor.record, closing]
  have hoof : ∀ o', o' ≠ o → s'.operations o' = s.operations o' := by
    intro o' ho
    rw [hs']
    exact Executor.setOperation_of_ne ho _
  have hlock : s'.lock = s.lock := by rw [hs']; rfl
  have hready : s'.ready = s.ready ++ [t] := by rw [hs']
  have hcount : s'.operationsCount = s.operationsCount := by rw [hs']; rfl
  have htasksCount : s'.tasksCount = s.tasksCount := by rw [hs']; rfl
  have hne : ∀ {t' o'}, (s'.tasks t').operationState = some o' → t' ≠ t := by
    rintro t' o' h rfl
    simp [hself, hstate'] at h
  have hactive : ∀ o', (s'.operations o').active = (s.operations o').active := by
    intro o'
    by_cases ho : o' = o
    · rw [ho, hoself]
    · rw [hoof o' ho]
  have hstates : ∀ {t' o'}, (s'.tasks t').operationState = some o' →
      (s.tasks t').operationState = some o' := by
    intro t' o' h
    rwa [hof t' (hne h)] at h
  have hrelies := hi.lock
  have hunassigned : ∀ o', s.lock ≠ .assigned o' t := by
    intro o' h
    rw [h] at hrelies
    obtain ⟨-, h, -⟩ := hrelies
    exact hworker h
  obtain ⟨hnotask, hdead⟩ : (s.operations o).task = none ∧ (s.operations o).active = false := by
    obtain ⟨-, h, -⟩ | ⟨h, -, h'⟩ := (hi.linked t o hstate).resolve_right (hunassigned o)
    · simp [hcanceled] at h
    · exact ⟨h, h'⟩
  have hnot : t ∉ s.ready := by
    intro h
    have := (hi.ready t h).1
    simp [hstate] at this
  have hidle : (s'.tasks t).operationState = none := by rw [hself, hstate']
  have hserving : ∀ {o'}, (s'.tasks t).operationState ≠ some o' := fun h => hne h rfl
  refine hi.replace (t := t) (o := o) hof hoof (fun t' ht h => ht (hi.unique t' t o h hstate))
    (fun o' h => (Option.some.inj (hstate.symm.trans h)).symm) (fun _ h => absurd h hserving)
    (fun h => absurd h hserving) ?_ (fun h => absurd h hserving) (fun o' t' _ h => hlock.trans h)
    ?_ ?_ (fun h => absurd h hserving) ?_ ?_ hcount (hi.exists_of_state t o hstate) ?_ ?_ ?_ ?_ ?_
    ?_
  · rw [hself]
    exact fun _ => hfree
  · rw [hoself]
    exact fun t' h => by cases hnotask.symm.trans h
  · rw [hoself]
    exact fun _ => .inr ⟨hdead, hi.begun t o hstate, by simp only [hlog]⟩
  · rw [hoself]
    exact hi.operationState o
  · rw [hoself]
    exact hi.freed o
  · intro t' hge
    rw [htasksCount] at hge
    by_cases ht : t' = t
    · exact ht ▸ hidle
    · rw [hof t' ht]
      exact hi.tasksCount t' hge
  · intro t' ht'
    rw [hready, mem_append, mem_singleton] at ht'
    rw [htasksCount]
    obtain rfl | ht := eq_or_ne t' t
    · refine ⟨hidle, ?_⟩
      by_contra hge
      simp [hi.tasksCount t' (Nat.not_lt.mp hge)] at hstate
    · rw [hof t' ht]
      exact hi.ready t' (ht'.resolve_right ht)
  · rw [hready]
    exact nodup_append.mpr ⟨hi.nodup, nodup_singleton t, by
      intro a ha b hb hab
      rw [mem_singleton] at hb
      exact hnot (hb ▸ hab ▸ ha)⟩
  · rw [Executor.active_congr hcount hactive, ← hi.outstanding, hs']
    rfl
  · intro t' ht'
    have ht : t' ≠ t := by
      rintro rfl
      simp [hself, hfree.worker] at ht'
    rw [hof t' ht] at ht'
    rw [hlock]
    exact hi.assigned t' ht'
  · rw [hlock]
    cases hl : s.lock with
    | free => trivial
    | releasing o' =>
      rw [hl] at hrelies
      rwa [Relies, hcount]
    | copied o' c existing =>
      rw [hl] at hrelies
      cases existing with
      | none => exact ⟨(hactive o').trans hrelies.1, fun t' h => hrelies.2 t' (hstates h)⟩
      | some t' =>
        obtain rfl | ht := eq_or_ne t' t
        · rw [Relies, hself]
          exact ⟨ExecutorTask.quiet_terminate htask hrelies.1, .inr ⟨hstate', hexpected⟩⟩
        · rwa [Relies, hof t' ht]
    | assigned o' t' =>
      rw [hl] at hrelies
      have ht : t' ≠ t := by
        rintro rfl
        exact hunassigned o' hl
      have ho : o' ≠ o := fun ho => ht (hi.unique t' t o (ho ▸ hrelies.1) hstate)
      rwa [Relies, hof t' ht, hoof o' ho]
    | installed o' t' =>
      rw [hl] at hrelies
      have ht : t' ≠ t := by
        rintro rfl
        exact hworker hrelies.2
      rwa [Relies, hof t' ht]

theorem Inv.notifyReady (hi : Inv s) (h : step s (.notifyReady t) = some s') : Inv s' := by
  obtain ⟨m, hm, rfl⟩ := Option.map_eq_some_iff.mp h
  obtain ⟨task, htask, rfl⟩ := Executor.onTask_eq_some.mp hm
  cases hstate : (s.tasks t).operationState with
  | none => simp [ExecutorTask.terminate, hstate] at htask
  | some o => exact hi.complete hstate htask rfl

/-! ## Operations -/

/-- An operation which is reset is not in use any more. -/
theorem Executor.card_active_reset (hcount : s'.operationsCount = s.operationsCount)
    (hreset : (s'.operations o).active = false)
    (hother : ∀ o', o' ≠ o → (s'.operations o').active = (s.operations o').active)
    (ho : o < s.operationsCount) :
    s.active.card - (s.operations o).active.toNat = s'.active.card := by
  have herase : s'.active = s.active.erase o := by
    ext o'
    by_cases hoo : o' = o
    · simp [hoo, Executor.active, hreset]
    · simp [hoo, Executor.active, hcount, hother o' hoo]
  have hmem : o ∈ s.active ↔ (s.operations o).active = true := by simp [Executor.active, ho]
  rw [herase]
  cases hlive : (s.operations o).active with
  | false => simp [Finset.erase_eq_of_notMem, hmem, hlive]
  | true => rw [Finset.card_erase_of_mem (hmem.mpr hlive), Bool.toNat_true]

/-- What the holder of the lock relies on stays when an operation is reset, unless
the holder has its first call in hand. -/
theorem Relies.reset (h : Relies s lock) (hcopied : ∀ c, lock ≠ .copied o c none)
    (hassigned : ∀ t, lock ≠ .assigned o t) (hcount : s'.operationsCount = s.operationsCount)
    (hoperations : ∀ o', o' ≠ o → s'.operations o' = s.operations o')
    (htasks : ∀ t, s'.tasks t = s.tasks t ∨
      s'.tasks t = (s.tasks t).requestCancel ∧ (s.tasks t).operationState = some o) :
    Relies s' lock := by
  have hstates : ∀ t, (s'.tasks t).operationState = (s.tasks t).operationState := by
    intro t
    obtain h | ⟨h, -⟩ := htasks t <;> rw [h]
    exact ExecutorTask.requestCancel_operationState _
  have hworkers : ∀ t, (s'.tasks t).worker = (s.tasks t).worker := by
    intro t
    obtain h | ⟨h, -⟩ := htasks t <;> rw [h]
    exact ExecutorTask.requestCancel_worker _
  cases lock with
  | free => trivial
  | releasing o' =>
    rwa [Relies, hcount]
  | copied o' c existing =>
    cases existing with
    | none =>
      obtain ⟨hlive, hnone⟩ := h
      rw [Relies, hoperations o' fun ho => hcopied c (by rw [ho])]
      exact ⟨hlive, fun t => by rw [hstates]; exact hnone t⟩
    | some t =>
      rw [Relies, hstates]
      obtain ht | ⟨ht, hstate⟩ := htasks t
      · rwa [ht]
      · rw [ht]
        exact ⟨ExecutorTask.quiet_requestCancel h.1,
          Or.inl (h.2.resolve_right fun hnone => by simp [hstate] at hnone)⟩
  | assigned o' t =>
    obtain ⟨hstate, hworker, hcanceled, hrest⟩ := h
    have ho : o' ≠ o := fun ho => hassigned t (by rw [ho])
    rw [Relies, hoperations o' ho, hstates, hworkers]
    refine ⟨hstate, hworker, ?_, hrest⟩
    obtain ht | ⟨-, ht⟩ := htasks t
    · rw [ht, hcanceled]
    · rw [hstate] at ht
      exact absurd (Option.some.inj ht) ho
  | installed o' t =>
    rwa [Relies, hstates, hworkers]

/-- A cancellation may not come while the first call of the operation has its
operation state or its task in hand. -/
theorem Inv.resetOperation (hi : Inv s) (ho : o < s.operationsCount)
    (hcopied : ∀ c, s.lock ≠ .copied o c none)
    (hassigned : ∀ t, s.lock ≠ .assigned o t) : Inv (s.resetOperation o) := by
  simp only [Executor.resetOperation]
  split
  next hnone =>
    refine hi.updateOperation { s.operations o with
      active := false, operationState := false, task := none } ho rfl rfl rfl (fun _ => rfl) nofun
      nofun ?_
      (fun _ _ _ h => h) hi.assigned ?_ ?_
    · intro t ht
      obtain ⟨h, -⟩ | h := (hi.linked t o ht).resolve_right (hassigned t)
      · simp [hnone] at h
      · exact .inl (.inr ⟨rfl, h.2.1, rfl⟩)
    · rw [hi.outstanding]
      refine Executor.card_active_reset rfl ?_ ?_ ho
      · simp [Executor.updateOperation]
      · exact fun o' hoo => congrArg _ (Executor.setOperation_of_ne hoo s)
    · exact hi.lock.reset hcopied hassigned rfl
        (fun o' hoo => Executor.setOperation_of_ne hoo s) fun t => .inl rfl
  next t htask =>
    have hstate := hi.task t o htask
    refine hi.update { s.operations o with
      active := false, operationState := false, task := none } hstate
      ((ExecutorTask.requestCancel_operationState _).trans hstate)
      (hi.serves t o hstate).requestCancel (hi.begun t o hstate) rfl (fun _ => rfl)
      (.inl (.inr ⟨rfl, ExecutorTask.canceled_requestCancel _, rfl⟩)) nofun
      (fun _ _ _ h => h) ?_ ?_ ?_
    · intro t' ht'
      by_cases ht : t' = t
      · rw [ht, Executor.setTask_self, ExecutorTask.requestCancel_worker] at ht'
        rw [ht]
        exact hi.assigned t ht'
      · rw [Executor.setTask_of_ne ht] at ht'
        exact hi.assigned t' ht'
    · refine Eq.trans ?_ (Executor.card_active_reset (s := s) (o := o) rfl ?_ ?_ ho)
      · rw [← hi.outstanding]
        rfl
      · simp [Executor.update]
      · exact fun o' hoo => congrArg _ (Executor.setOperation_of_ne hoo _)
    · refine hi.lock.reset hcopied hassigned rfl
        (fun o' hoo => Executor.setOperation_of_ne hoo _) fun t' => ?_
      obtain rfl | ht := eq_or_ne t' t
      · exact .inr ⟨Executor.update_tasks_self, hstate⟩
      · exact .inl (Executor.update_tasks_of_ne ht)

theorem Executor.card_active_create (s : Executor) :
    s.createOperation.active.card = s.active.card + 1 := by
  have hinsert : s.createOperation.active = insert s.operationsCount s.active := by
    ext o
    rw [Finset.mem_insert, Executor.mem_active, Executor.mem_active]
    change o < s.operationsCount + 1 ∧ ((s.setOperation _ _).operations o).active = true ↔ _
    by_cases ho : o = s.operationsCount
    · simp [ho]
    · rw [Executor.setOperation_of_ne ho, Nat.lt_succ_iff_lt_or_eq]
      simp [ho]
  rw [hinsert, Finset.card_insert_of_notMem (by simp [Executor.mem_active])]

/-- An object of its own for every operation. -/
theorem Inv.createOperation (hi : Inv s) (hlock : s.lock = .free) : Inv s.createOperation := by
  have hself : s.createOperation.operations s.operationsCount = ⟨true, false, true, none, [], []⟩ :=
    Executor.setOperation_self s
  have hof : ∀ o, o ≠ s.operationsCount → s.createOperation.operations o = s.operations o :=
    fun o ho => Executor.setOperation_of_ne ho s
  have hheld : ∀ t o, (s.tasks t).operationState = some o → o ≠ s.operationsCount :=
    fun t o h => Nat.ne_of_lt (hi.exists_of_state t o h)
  constructor
  case serves =>
    intro t o h
    rw [hof o (hheld t o h)]
    exact hi.serves t o h
  case linked =>
    intro t o h
    rw [hof o (hheld t o h)]
    exact hi.linked t o h
  case task =>
    intro t o h
    by_cases ho : o = s.operationsCount
    · simp [ho, hself] at h
    · rw [hof o ho] at h
      exact hi.task t o h
  case unserved =>
    intro o h
    by_cases ho : o = s.operationsCount
    · rw [ho, hself]
      exact .inl ⟨rfl, rfl⟩
    · rw [hof o ho]
      exact hi.unserved o h
  case begun =>
    intro t o h
    rw [hof o (hheld t o h)]
    exact hi.begun t o h
  case operationState =>
    intro o
    by_cases ho : o = s.operationsCount
    · rw [ho, hself]
    · rw [hof o ho]
      exact hi.operationState o
  case freed =>
    intro o h
    by_cases ho : o = s.operationsCount
    · simp [ho, hself] at h
    · rw [hof o ho] at h ⊢
      exact hi.freed o h
  case exists_of_state => exact fun t o h => Nat.lt_succ_of_lt (hi.exists_of_state t o h)
  case created =>
    intro o hge
    rw [hof o (Nat.ne_of_gt hge)]
    exact hi.created o (Nat.le_of_succ_le hge)
  case outstanding =>
    rw [Executor.card_active_create, ← hi.outstanding]
    rfl
  case lock =>
    have : s.createOperation.lock = .free := hlock
    rw [this]
    trivial
  case free => exact hi.free
  case unique => exact hi.unique
  case tasksCount => exact hi.tasksCount
  case ready => exact hi.ready
  case nodup => exact hi.nodup
  case assigned => exact hi.assigned

theorem Executor.resetOperation_frame (s : Executor) :
    (s.resetOperation o).lock = s.lock ∧
      (s.resetOperation o).operationsCount = s.operationsCount := by
  simp only [Executor.resetOperation]
  split <;> exact ⟨rfl, rfl⟩

theorem Executor.resetOperation_active (s : Executor) :
    ((s.resetOperation o).operations o).active = false := by
  simp only [Executor.resetOperation]
  split <;> rw [Executor.setOperation_self]

theorem Inv.finishRelease (hi : Inv s) (hlock : s.lock = .releasing o) :
    Inv (s.finishRelease o) := by
  have hrelies := hi.lock
  rw [hlock] at hrelies
  have hreset := hi.resetOperation hrelies (by simp [hlock]) (by simp [hlock])
  have hlock' : (s.resetOperation o).lock = .releasing o := s.resetOperation_frame.1.trans hlock
  refine hreset.updateOperation { (s.resetOperation o).operations o with freed := true } ?_ rfl rfl
    (hreset.operationState o) (fun _ => s.resetOperation_active) id
    (fun t ht => hreset.task t o ht) ?_ ?_ ?_ ?_ trivial
  · rwa [s.resetOperation_frame.2]
  · exact fun t ht => .inl ((hreset.linked t o ht).resolve_right (by simp [hlock']))
  · simp [hlock']
  · exact fun t ht => absurd ht (hreset.worker_ne_assigned (by simp [hlock']) (by simp [hlock']))
  · exact hreset.outstanding.trans
      (congrArg Finset.card (Executor.active_congr (by rfl) (active_setOperation (by rfl))).symm)

end Baselib.Async.AsyncExecutor
