/-
Baselib.Tasks.ExecuteQueueTheorems — what holds while
`executeQueueAndCancelOnFailure` drains a queue.

First the steps of the tasks, each seen as one step of the queue: what
they do to a task which is not to run, to a thread which sleeps, and to
how much there is left to do. Then the invariant of the loop, one clause
for each of its phases.
-/
import Baselib.Tasks.ExecuteQueue
import Baselib.Tasks.ExecutionQueueLifecycle
import Baselib.Tasks.ExecutionQueueThrottle

namespace Baselib.Tasks.ExecuteQueue

open Lib
open ExecutionQueue hiding Label enabled step Reachable

variable {τ θ : Type*} [DecidableEq τ] {l : ExecutionQueue.Label τ θ}

/-! ## Tasks which are not to run -/

section Idle

variable {s : State τ θ} {t u : τ}

omit [DecidableEq τ] in
theorem not_scheduled_iff :
    ¬ scheduled s t ↔ s.allTasks t = none ∨ s.allTasks t = some .ready := by
  unfold scheduled
  cases h : s.allTasks t with
  | none => simp
  | some owner => cases owner <;> simp

/-- Padding runs what is pending, and leaves the other tasks alone. -/
theorem pad_idle (h : Rep s) (ht : ¬ scheduled (padExecutingQueueNothrow s) t) :
    ¬ scheduled s t ∧ (padExecutingQueueNothrow s).task t = s.task t := by
  have hidle : ¬ scheduled s t := by
    rintro (hp | he)
    · have hadmitted := pad_admitted h t
      rw [hp] at hadmitted
      generalize hb : (padExecutingQueueNothrow s).allTasks t = b at hadmitted
      cases hadmitted with
      | stay => exact ht (.inl hb)
      | pad => exact ht (.inr hb)
    · have hadmitted := pad_admitted h t
      rw [he] at hadmitted
      generalize hb : (padExecutingQueueNothrow s).allTasks t = b at hadmitted
      cases hadmitted with
      | stay => exact ht (.inr hb)
  exact ⟨hidle, pad_task s fun hmem => hidle (.inl (h.mem_pending.mp hmem))⟩

theorem push_idle (h : Rep s) (isBack dontSchedule : Bool)
    (hu : s.allTasks u = none ∨ s.allTasks u = some .ready)
    (ht : ¬ scheduled (pushInternalNoLock isBack u dontSchedule s) t) :
    ¬ scheduled s t ∧ (pushInternalNoLock isBack u dontSchedule s).task t = s.task t := by
  have hlink := linkTask_linked h isBack dontSchedule hu
  rw [pushInternalNoLock_eq] at ht ⊢
  obtain ⟨hidle, htask⟩ := pad_idle hlink.rep ht
  refine ⟨?_, htask.trans (congrFun hlink.task t)⟩
  obtain rfl | htu := eq_or_ne t u
  · exact not_scheduled_iff.mpr hu
  · unfold scheduled at hidle ⊢
    rwa [hlink.allTasks, if_neg htu] at hidle

omit [DecidableEq τ] in
theorem notifyEvent_task (eventId : Nat) (e : Event τ) (s : State τ θ) :
    (notifyEvent eventId e s).task = s.task := by
  unfold notifyEvent
  split <;> rfl

theorem retireTask_task (u : τ) (keep : Bool) (s : State τ θ) :
    (retireTask u keep s).task =
      Function.update s.task u { s.task u with state := .completed } := by
  unfold retireTask
  cases keep
  · rw [if_neg Bool.false_ne_true, notifyEvent_task]
    rfl
  · rw [if_pos rfl, notifyEvent_task]
    rfl

/-- The task which completes is marked so, the others are left alone. -/
theorem completeTask_idle (h : Rep s) (hu : s.allTasks u = some .executing)
    (ht : ¬ scheduled (completeTask u s) t) :
    (t = u ∧ ((completeTask u s).task t).state = .completed) ∨
      (t ≠ u ∧ ¬ scheduled s t ∧ (completeTask u s).task t = s.task t) := by
  rw [completeTask_eq] at ht ⊢
  obtain ⟨hidle, htask⟩ := pad_idle (rep_retireTask h hu _) ht
  change _ ∧ ((padExecutingQueueNothrow _).task t).state = _ ∨
    _ ∧ _ ∧ (padExecutingQueueNothrow _).task t = _
  rw [htask, retireTask_task]
  obtain rfl | htu := eq_or_ne t u
  · exact .inl ⟨rfl, by rw [Function.update_self]⟩
  · refine .inr ⟨htu, ?_, Function.update_of_ne htu _ _⟩
    unfold scheduled at hidle ⊢
    rwa [retireTask_allTasks, if_neg htu] at hidle

theorem continueTask_idle (h : Rep s) (hu : s.allTasks u = some .executing)
    (ht : ¬ scheduled (continueTask u s) t) :
    t ≠ u ∧ ¬ scheduled s t ∧ (continueTask u s).task t = s.task t := by
  rw [continueTask_eq] at ht ⊢
  obtain ⟨hidle, htask⟩ := pad_idle (rep_relinkTask h hu) ht
  have htag : (relinkTask u s).allTasks t = if t = u then some .pending else s.allTasks t :=
    setOwnerQueue_allTasks u (some .pending) _ t
  have htu : t ≠ u := by
    intro heq
    rw [if_pos heq] at htag
    exact hidle (.inl htag)
  refine ⟨htu, ?_, htask⟩
  unfold scheduled at hidle ⊢
  rwa [htag, if_neg htu] at hidle

omit [DecidableEq τ] in
theorem formCandidate_task (s : State τ θ) : (formCandidate s).task = s.task := by
  unfold formCandidate
  split <;> rfl

theorem notifyReady_task_of_ne (htu : t ≠ u) (failed : Bool) :
    (notifyReady u failed s).task t = s.task t :=
  Function.update_of_ne htu _ _

/-- After a completion a task which is not to run is the completed one, or
is as it was. -/
theorem onReady_idle (h : Rep s) (failed : Bool) (continuation : Continuation τ)
    (hen : ExecutionQueue.enabled s (.onReady u failed continuation) = true)
    (ht : ¬ scheduled (onReady u failed continuation s) t) :
    (s.allTasks t = some .executing ∧
        ((onReady u failed continuation s).task t).state = .completed) ∨
      (¬ scheduled s t ∧ (onReady u failed continuation s).task t = s.task t) := by
  have hnotify := rep_notifyReady h u failed
  -- What `completeTask` does, from any state which differs from `s` by the
  -- data of the task and by tasks which are to run.
  have hcomplete : ∀ s₁ : State τ θ, Rep s₁ → s.allTasks u = some .executing →
      s₁.allTasks u = some .executing →
      (t ≠ u → ¬ scheduled s₁ t → ¬ scheduled s t ∧ s₁.task t = s.task t) →
      ¬ scheduled (completeTask u s₁) t →
      (s.allTasks t = some .executing ∧ ((completeTask u s₁).task t).state = .completed) ∨
        (¬ scheduled s t ∧ (completeTask u s₁).task t = s.task t) := by
    intro s₁ h₁ hexec hexec₁ hother hidle
    rcases completeTask_idle h₁ hexec₁ hidle with ⟨rfl, hdone⟩ | ⟨htu, hidle₁, htask⟩
    · exact .inl ⟨hexec, hdone⟩
    · obtain ⟨hidle, hsame⟩ := hother htu hidle₁
      exact .inr ⟨hidle, htask.trans hsame⟩
  unfold onReady at ht ⊢
  rw [formCandidate_task]
  unfold scheduled at ht
  rw [formCandidate_allTasks] at ht
  cases continuation with
  | none =>
    have hexec : s.allTasks u = some .executing := by simpa [ExecutionQueue.enabled] using hen
    exact hcomplete _ hnotify hexec hexec
      (fun htu hidle => ⟨hidle, notifyReady_task_of_ne htu failed⟩) ht
  | throws =>
    have hexec : s.allTasks u = some .executing := by simpa [ExecutionQueue.enabled] using hen
    exact hcomplete _ (rep_updateTask hnotify u _) hexec hexec
      (fun htu hidle => ⟨hidle, (Function.update_of_ne htu _ _).trans
        (notifyReady_task_of_ne htu failed)⟩) ht
  | task c =>
    obtain ⟨hexec, hc⟩ : s.allTasks u = some .executing ∧ (c = u ∨ pushable c s = true) := by
      simpa [ExecutionQueue.enabled] using hen
    dsimp only at ht ⊢
    by_cases hself : c = u
    · rw [if_pos hself] at ht ⊢
      obtain ⟨htu, hidle, htask⟩ := continueTask_idle hnotify hexec ht
      exact .inr ⟨hidle, htask.trans (notifyReady_task_of_ne htu failed)⟩
    · rw [if_neg hself] at ht ⊢
      have hpush := (pushable_iff c s).mp (hc.resolve_left hself)
      refine hcomplete _ (rep_pushInternalNoLock hnotify false false hpush) hexec
        (pushInternalNoLock_executing hnotify false false hpush hexec) (fun htu hidle => ?_) ht
      obtain ⟨hidle, htask⟩ := push_idle hnotify false false hpush hidle
      exact ⟨hidle, htask.trans (notifyReady_task_of_ne htu failed)⟩

end Idle

/-! ## A step of the tasks -/

section TaskSteps

variable {s s' : State τ θ} {t u : τ}

/-- The sections tasks run: they complete, and push. -/
def ofTasks : ExecutionQueue.Label τ θ → Prop
  | .push _ _ _ => True
  | .onReady _ _ _ => True
  | .validateCandidate _ => True
  | _ => False

/-- The section brings `u` in. -/
def brings (u : τ) : ExecutionQueue.Label τ θ → Prop
  | .push _ _ t => t = u
  | .onReady _ _ (.task c) => c = u
  | _ => False

/-- The section makes `u` ready. -/
def readies (u : τ) : ExecutionQueue.Label τ θ → Prop
  | .push _ dontSchedule t => dontSchedule = true ∧ t = u
  | .onReady t _ continuation => t = u ∧ continuation ≠ .task t
  | _ => False

omit [DecidableEq τ] in
theorem keepOutcome_eq_true (hkeep : keepsAll s) (failed : Bool) :
    keepOutcome failed s = true := by
  cases failed
  · exact hkeep.1
  · exact hkeep.2

/-- The edges of a step of the tasks in a queue which keeps its tasks. -/
theorem edit_tasks {a b : Option OwnerQueue} (hkeep : keepsAll s)
    (hl : ofTasks l) (h : Edit s l u a b) :
    (a ≠ none → b ≠ none) ∧ (a = none → b ≠ none → brings u l) ∧
      (a ≠ some .ready → b = some .ready → readies u l) := by
  cases h with
  | stay => exact ⟨id, fun hnone hsome => absurd hnone hsome, fun hne heq => absurd heq hne⟩
  | push | continuation => exact ⟨by simp, fun _ _ => rfl, by simp⟩
  | pushReady => exact ⟨by simp, fun _ _ => rfl, fun _ _ => ⟨rfl, rfl⟩⟩
  | continueSelf => exact ⟨by simp, by simp, by simp⟩
  | keep _ _ _ hne _ => exact ⟨by simp, by simp, fun _ _ => ⟨rfl, hne⟩⟩
  | discard _ _ _ _ hdiscard =>
    rw [keepOutcome_eq_true hkeep] at hdiscard
    exact absurd hdiscard (by simp)
  | _ => exact hl.elim

variable [DecidableEq θ]

theorem tag_taskStep (h : Rep s) (hkeep : keepsAll s)
    (hl : ofTasks l) (hstep : ExecutionQueue.step s l = some s') (u : τ) :
    (s.allTasks u ≠ none → s'.allTasks u ≠ none) ∧
      (s.allTasks u = none → ¬ brings u l → s'.allTasks u = none) ∧
      (s.allTasks u ≠ some .ready → ¬ readies u l → s'.allTasks u ≠ some .ready) := by
  obtain ⟨a, b, hbefore, hedit, hafter⟩ := step_moves h hstep u
  obtain ⟨hin, hnew, hready⟩ := edit_tasks hkeep hl hedit
  generalize s.allTasks u = a₀ at hbefore ⊢
  generalize s'.allTasks u = b₀ at hafter ⊢
  have hnone : b₀ = none ↔ b = none := by cases hafter <;> simp
  have hnone₀ : a = none ↔ a₀ = none := by cases hbefore <;> simp
  have hrdy : b₀ = some .ready ↔ b = some .ready := by cases hafter <;> simp
  have hrdy₀ : a = some .ready ↔ a₀ = some .ready := by cases hbefore <;> simp
  rw [Ne, Ne, Ne, Ne, ← hnone₀, ← hrdy₀, hnone, hrdy]
  refine ⟨hin, fun ha hbring => ?_, fun ha hno hb => hno (hready ha hb)⟩
  exact Classical.byContradiction fun hb => hbring (hnew ha hb)

omit [DecidableEq θ] in
theorem isEmpty_iff (h : Rep s) : isEmptyInternal s = true ↔ ∀ u, s.allTasks u = none := by
  simp only [isEmptyInternal, Bool.and_eq_true, List.isEmpty_iff, List.eq_nil_iff_forall_not_mem,
    h.mem_pending, h.mem_executing, h.mem_ready]
  constructor
  · intro hlists u
    cases hu : s.allTasks u with
    | none => rfl
    | some owner =>
      cases owner with
      | pending => exact absurd hu (hlists.1.1 u)
      | executing => exact absurd hu (hlists.1.2 u)
      | ready => exact absurd hu (hlists.2 u)
  · intro hnone
    simp [hnone]

omit [DecidableEq θ] in
/-- A settled queue which is not full of ready tasks runs something, as
long as something is to run. -/
theorem exists_executing (h : Rep s) (hset : Settled s) (ht : scheduled s t)
    (hlimit : s.maxReadyOrExecuting = 0 ∨ ∀ u, s.allTasks u ≠ some .ready) :
    ∃ u, s.allTasks u = some .executing := by
  rcases ht with hpending | hexecuting
  · have hne : s.pending ≠ [] := List.ne_nil_of_mem (h.mem_pending.mpr hpending)
    have hthrottled := (throttled_iff s).mp (hset.resolve_left hne)
    have hpos : s.executing ≠ [] := by
      intro hnil
      have hexec : s.executingCount = 0 := by rw [h.executingCount, hnil]; rfl
      rcases hthrottled with ⟨hmax, hle⟩ | ⟨hmax, hle⟩
      · omega
      · have hnone := hlimit.resolve_left hmax
        have hready : s.readyCount = 0 := by
          rw [h.readyCount, List.length_eq_zero_iff, List.eq_nil_iff_forall_not_mem]
          exact fun u hu => hnone u (h.mem_ready.mp hu)
        omega
    obtain ⟨u, hu⟩ := List.exists_mem_of_ne_nil _ hpos
    exact ⟨u, h.mem_executing.mp hu⟩
  · exact ⟨t, hexecuting⟩

/-- The settings of the queue, which stay put while the tasks run. -/
def settings (s : State τ θ) : Nat × Nat := (s.options, s.maxReadyOrExecuting)

omit [DecidableEq θ] in
theorem pad_settings (s : State τ θ) : settings (padExecutingQueueNothrow s) = settings s :=
  padLoop_frame settings (fun _ _ _ => rfl) _ s

omit [DecidableEq τ] [DecidableEq θ] in
theorem notifyEvent_settings (eventId : Nat) (e : Event τ) (s : State τ θ) :
    settings (notifyEvent eventId e s) = settings s ∧
      (notifyEvent eventId e s).waiting = s.waiting := by
  unfold notifyEvent
  split <;> exact ⟨rfl, rfl⟩

omit [DecidableEq θ] in
theorem push_settings (h : Rep s) (isBack dontSchedule : Bool)
    (ht : s.allTasks t = none ∨ s.allTasks t = some .ready) :
    settings (pushInternalNoLock isBack t dontSchedule s) = settings s ∧
      (pushInternalNoLock isBack t dontSchedule s).waiting = s.waiting := by
  have hcontrol := (linkTask_linked h isBack dontSchedule ht).control
  rw [pushInternalNoLock_eq, pad_waiting, pad_settings]
  exact ⟨congrArg (fun c => (Control.options c, Control.maxReadyOrExecuting c)) hcontrol,
    congrArg Control.waiting hcontrol⟩

omit [DecidableEq θ] in
theorem retireTask_settings (t : τ) (keep : Bool) (s : State τ θ) :
    settings (retireTask t keep s) = settings s ∧ (retireTask t keep s).waiting = s.waiting := by
  unfold retireTask
  cases keep
  · rw [if_neg Bool.false_ne_true]
    obtain ⟨hsettings, hwaiting⟩ := notifyEvent_settings eventTaskDiscarded (.taskDiscarded t)
      (unlinkAndDestroy t (State.updateTask t (fun d => { d with state := .completed })
        { s with executingCount := s.executingCount - 1 }))
    exact ⟨hsettings, hwaiting⟩
  · rw [if_pos rfl]
    obtain ⟨hsettings, hwaiting⟩ := notifyEvent_settings eventTaskReady (.taskReady t)
      (moveTaskToReadyQueue t (State.updateTask t (fun d => { d with state := .completed })
        { s with executingCount := s.executingCount - 1 }))
    exact ⟨hsettings, hwaiting⟩

omit [DecidableEq θ] in
theorem completeTask_settings (t : τ) (s : State τ θ) :
    settings (completeTask t s) = settings s ∧
      (completeTask t s).waiting = (notifyAll s).waiting := by
  obtain ⟨hsettings, hwaiting⟩ := retireTask_settings t (keepOutcome (s.task t).hasException s) s
  rw [completeTask_eq]
  refine ⟨(pad_settings _).trans hsettings, ?_⟩
  show (fun th => ((padExecutingQueueNothrow _).waiting th).map _) = _
  rw [pad_waiting, hwaiting]
  rfl

omit [DecidableEq θ] in
theorem continueTask_settings (t : τ) (s : State τ θ) :
    settings (continueTask t s) = settings s ∧ (continueTask t s).waiting = s.waiting := by
  rw [continueTask_eq, pad_waiting, pad_settings]
  exact ⟨rfl, rfl⟩

omit [DecidableEq τ] [DecidableEq θ] in
theorem formCandidate_settings (s : State τ θ) :
    settings (formCandidate s) = settings s ∧ (formCandidate s).waiting = s.waiting := by
  unfold formCandidate
  split <;> exact ⟨rfl, rfl⟩

omit [DecidableEq τ] [DecidableEq θ] in
theorem validateCandidate_settings (generation : Nat) (s : State τ θ) :
    settings (validateCandidate generation s) = settings s ∧
      (validateCandidate generation s).waiting = s.waiting := by
  unfold validateCandidate
  dsimp only
  split
  · obtain ⟨hsettings, hwaiting⟩ := notifyEvent_settings eventAllTasksCompleted
      (.allTasksCompleted generation)
      { s with
        candidates := s.candidates.erase generation
        lastPublishedGeneration := generation }
    exact ⟨hsettings, hwaiting⟩
  · exact ⟨rfl, rfl⟩

omit [DecidableEq θ] in
theorem onReady_settings (h : Rep s) (failed : Bool) (continuation : Continuation τ)
    (hen : ExecutionQueue.enabled s (.onReady t failed continuation : ExecutionQueue.Label τ θ) =
      true) :
    settings (onReady t failed continuation s) = settings s ∧
      (onReady t failed continuation s).waiting =
        if continuation = .task t then s.waiting else (notifyAll s).waiting := by
  unfold onReady
  rw [(formCandidate_settings _).1, (formCandidate_settings _).2]
  cases continuation with
  | none => exact completeTask_settings t (notifyReady t failed s)
  | throws =>
    exact completeTask_settings t ((notifyReady t failed s).updateTask t fun d =>
      { d with hasException := true })
  | task c =>
    dsimp only
    by_cases hself : c = t
    · rw [if_pos hself, if_pos (by rw [hself])]
      exact continueTask_settings t (notifyReady t failed s)
    · have hpush : s.allTasks c = none ∨ s.allTasks c = some .ready := by
        simp only [ExecutionQueue.enabled, Bool.and_eq_true, Bool.or_eq_true, beq_iff_eq] at hen
        exact (pushable_iff c s).mp (hen.2.resolve_left hself)
      obtain ⟨hsame, hpushing⟩ := push_settings (rep_notifyReady h t failed) false false hpush
      obtain ⟨hsettings, hsignal⟩ :=
        completeTask_settings t (pushInternalNoLock false c false (notifyReady t failed s))
      rw [if_neg hself, if_neg (by simpa using hself)]
      refine ⟨hsettings.trans hsame, hsignal.trans ?_⟩
      unfold notifyAll
      rw [hpushing]
      rfl

theorem taskStep_settled (h : Rep s) (hset : Settled s)
    (hl : ofTasks l) (hstep : ExecutionQueue.step s l = some s') : Settled s' := by
  refine (settled_step h hset hstep).mpr ?_
  cases l <;> first | exact trivial | exact hl.elim

/-- The sleepers sleep on, or all are signalled. -/
theorem taskStep_settings (h : Rep s) (hl : ofTasks l) (hstep : ExecutionQueue.step s l = some s') :
    settings s' = settings s ∧ (s'.waiting = s.waiting ∨ s'.waiting = (notifyAll s).waiting) := by
  obtain ⟨hen, rfl⟩ := step_eq_some.mp hstep
  cases l with
  | push isBack dontSchedule t =>
    obtain ⟨hsettings, hwaiting⟩ :=
      push_settings h isBack dontSchedule ((pushable_iff t s).mp hen)
    exact ⟨hsettings, .inl hwaiting⟩
  | onReady t failed continuation =>
    obtain ⟨hsettings, hwaiting⟩ := onReady_settings h failed continuation hen
    refine ⟨hsettings, ?_⟩
    split at hwaiting
    · exact .inl hwaiting
    · exact .inr hwaiting
  | validateCandidate generation =>
    obtain ⟨hsettings, hwaiting⟩ := validateCandidate_settings generation s
    exact ⟨hsettings, .inl hwaiting⟩
  | _ => exact hl.elim

omit [DecidableEq τ] [DecidableEq θ] in
theorem keepsAll_of_settings (hkeep : keepsAll s) (hsame : settings s' = settings s) :
    keepsAll s' := by
  have hoptions : s'.options = s.options := congrArg Prod.fst hsame
  unfold keepsAll State.hasOption at hkeep ⊢
  rwa [hoptions]

/-- A task which is neither to run nor brought in stays as it is. -/
theorem taskStep_idle (h : Rep s) (hl : ofTasks l)
    (hstep : ExecutionQueue.step s l = some s') (ht : ¬ scheduled s' t) :
    (s.allTasks t = some .executing ∧ (s'.task t).state = .completed) ∨
      (¬ scheduled s t ∧ s'.task t = s.task t) := by
  obtain ⟨hen, rfl⟩ := step_eq_some.mp hstep
  cases l with
  | push isBack dontSchedule u =>
    exact .inr (push_idle h isBack dontSchedule ((pushable_iff u s).mp hen) ht)
  | onReady u failed continuation => exact onReady_idle h failed continuation hen ht
  | validateCandidate generation =>
    have hsame : (validateCandidate generation s).allTasks = s.allTasks ∧
        (validateCandidate generation s).task = s.task := by
      unfold validateCandidate
      dsimp only
      split
      · exact ⟨notifyEvent_allTasks _ _ _, notifyEvent_task _ _ _⟩
      · exact ⟨rfl, rfl⟩
    refine .inr ⟨?_, congrFun hsame.2 t⟩
    unfold scheduled at ht ⊢
    rwa [← congrFun hsame.1 t]
  | _ => exact hl.elim

end TaskSteps

/-! ## The pop -/

section Pop

variable [DecidableEq θ] {s : State τ θ} {th : θ}

/-- The ways a `pop` ends, or goes to sleep. -/
theorem waitFirstReady_cases (h : Rep s) (th : θ) :
    (s.ready = [] ∧ isEmptyInternal s = false ∧
        waitFirstReady th true s = block th (.ready true) s) ∨
      (∃ t, s.allTasks t = some .ready ∧
        waitFirstReady th true s = (destroyReady t s, .task (some t))) ∨
      (isEmptyInternal s = true ∧ waitFirstReady th true s = (s, .task none)) := by
  unfold waitFirstReady
  cases hready : s.ready with
  | nil =>
    cases hempty : isEmptyInternal s
    · exact .inl ⟨rfl, rfl, rfl⟩
    · refine .inr (.inr ⟨rfl, ?_⟩)
      simp [takeFirstReady, hready]
  | cons t rest =>
    refine .inr (.inl ⟨t, h.mem_ready.mp (hready ▸ List.mem_cons_self), ?_⟩)
    simp [takeFirstReady, hready]

omit [DecidableEq θ] in
theorem isEmptyInternal_pad (s : State τ θ) :
    isEmptyInternal (padExecutingQueueNothrow s) = isEmptyInternal s := by
  have hdrained := pad_drained s
  rw [Bool.eq_iff_iff]
  simp only [isEmptyInternal, Bool.and_eq_true, List.isEmpty_iff, pad_ready, hdrained]

end Pop

/-! ## The invariant of the loop -/

section Loop

variable [DecidableEq θ] {th : θ} {d d' : Drain τ θ} {l : Label τ}

/-- The first failure is the one held, and is known of from then on. -/
structure Seen (d : Drain τ θ) (history : List (τ × Bool)) : Prop where
  eptr : d.eptr = firstFailed history
  cancelled : d.cancelled = d.eptr.isSome

def AtPhase (th : θ) (d : Drain τ θ) : Phase τ → Prop
  | .isEmpty => d.queue.waiting th = none ∧ Seen d d.history
  | .pop => d.queue.waiting th = none ∧ Seen d d.history ∧ isEmptyInternal d.queue = false
  | .wait =>
    (∃ b, d.queue.waiting th = some ⟨.ready true, b⟩) ∧ Seen d d.history ∧
      isEmptyInternal d.queue = false ∧ Settled d.queue
  | .popped task =>
    d.queue.waiting th = none ∧ ∃ t earlier, task = some t ∧ d.queue.allTasks t = none ∧
      d.history = earlier ++ [(t, (d.queue.task t).isFailed)] ∧ Seen d earlier
  | .cancelAll =>
    d.queue.waiting th = none ∧ d.eptr = firstFailed d.history ∧ d.eptr.isSome = true
  | .returned =>
    d.queue.waiting th = none ∧ Seen d d.history ∧ isEmptyInternal d.queue = true

structure Inv (th : θ) (d : Drain τ θ) : Prop where
  rep : Rep d.queue
  keeps : keepsAll d.queue
  phase : AtPhase th d d.phase

omit [DecidableEq θ] in
theorem inv_start {queue : State τ θ} (h : Rep queue) (hkeep : keepsAll queue)
    (hawake : queue.waiting th = none) : Inv th (start queue) where
  rep := h
  keeps := hkeep
  phase := ⟨hawake, rfl, rfl⟩

/-- A step is one of the loop, or one of the tasks; only a task which
executes brings something in. -/
theorem step_cases (hstep : step th d l = some d') :
    (l.queueLabel (θ := θ) = none ∧ enabled th d l = true ∧ d' = loop th d) ∨
      (∃ ql s', l.queueLabel = some ql ∧ ofTasks ql ∧
        ExecutionQueue.step d.queue ql = some s' ∧ d' = { d with queue := s' } ∧
        (∀ u, d.holds u → ¬ brings u ql) ∧
        ((∃ t, d.queue.allTasks t = some .executing) ∨ ∃ g, ql = .validateCandidate g)) := by
  unfold step at hstep
  split at hstep
  · rename_i hen
    cases hstep
    cases l with
    | loop | spuriousWakeup => exact .inl ⟨rfl, hen, rfl⟩
    | onReady t failed continuation =>
      simp only [enabled, Bool.and_eq_true] at hen
      refine .inr ⟨_, _, rfl, trivial, step_eq_some.mpr ⟨hen.1, rfl⟩, rfl, ?_, .inl ⟨t, ?_⟩⟩
      · intro u hu hbring
        cases continuation with
        | task c =>
          obtain rfl : c = u := hbring
          simp [hu] at hen
        | _ => exact hbring
      · cases continuation <;> simp_all [ExecutionQueue.enabled]
    | push pusher isBack dontSchedule t =>
      simp only [enabled, Bool.and_eq_true, beq_iff_eq] at hen
      refine .inr ⟨_, _, rfl, trivial, step_eq_some.mpr ⟨hen.1.2, rfl⟩, rfl, ?_,
        .inl ⟨pusher, hen.1.1⟩⟩
      intro u hu hbring
      obtain rfl : t = u := hbring
      simp [hu] at hen
    | validateCandidate generation =>
      exact .inr ⟨_, _, rfl, trivial, step_eq_some.mpr ⟨hen, rfl⟩, rfl, fun _ _ h => h,
        .inr ⟨generation, rfl⟩⟩
  · simp at hstep

section Tasks

variable {s s' : State τ θ} {ql : ExecutionQueue.Label τ θ}

omit [DecidableEq θ] in
theorem isEmpty_eq_false_iff (h : Rep s) :
    isEmptyInternal s = false ↔ ∃ u, s.allTasks u ≠ none := by
  rw [← Bool.not_eq_true, isEmpty_iff h, not_forall]

theorem taskStep_nonempty (h : Rep s) (hkeep : keepsAll s) (hl : ofTasks ql)
    (hstep : ExecutionQueue.step s ql = some s') (hne : isEmptyInternal s = false) :
    isEmptyInternal s' = false := by
  rw [isEmpty_eq_false_iff h] at hne
  rw [isEmpty_eq_false_iff (rep_step h hstep)]
  obtain ⟨u, hu⟩ := hne
  exact ⟨u, (tag_taskStep h hkeep hl hstep u).1 hu⟩

/-- Nobody brings anything into an empty queue. -/
theorem taskStep_empty (h : Rep s) (hkeep : keepsAll s) (hl : ofTasks ql)
    (hstep : ExecutionQueue.step s ql = some s') (hempty : isEmptyInternal s = true)
    (hwho : (∃ t, s.allTasks t = some .executing) ∨ ∃ g, ql = .validateCandidate g) :
    isEmptyInternal s' = true := by
  rw [isEmpty_iff h] at hempty
  rw [isEmpty_iff (rep_step h hstep)]
  rcases hwho with ⟨t, ht⟩ | ⟨g, rfl⟩
  · rw [hempty t] at ht
    exact absurd ht (by simp)
  · exact fun u => (tag_taskStep h hkeep hl hstep u).2.1 (hempty u) id

theorem taskStep_awake (h : Rep s) (hl : ofTasks ql)
    (hstep : ExecutionQueue.step s ql = some s') (hawake : s.waiting th = none) :
    s'.waiting th = none := by
  rcases (taskStep_settings h hl hstep).2 with hsame | hsignal
  · rw [hsame, hawake]
  · rw [hsignal]
    show (s.waiting th).map _ = none
    rw [hawake]
    rfl

theorem taskStep_asleep (h : Rep s) (hl : ofTasks ql)
    (hstep : ExecutionQueue.step s ql = some s') {w : Waiter τ}
    (hasleep : ∃ b, s.waiting th = some ⟨w, b⟩) : ∃ b, s'.waiting th = some ⟨w, b⟩ := by
  obtain ⟨b, hb⟩ := hasleep
  rcases (taskStep_settings h hl hstep).2 with hsame | hsignal
  · exact ⟨b, by rw [hsame, hb]⟩
  · refine ⟨true, ?_⟩
    rw [hsignal]
    show (s.waiting th).map _ = _
    rw [hb]
    rfl

end Tasks

theorem inv_tasks (h : Inv th d) {ql : ExecutionQueue.Label τ θ} {s' : State τ θ}
    (hl : ofTasks ql) (hstep : ExecutionQueue.step d.queue ql = some s')
    (hheld : ∀ u, d.holds u → ¬ brings u ql)
    (hwho : (∃ t, d.queue.allTasks t = some .executing) ∨ ∃ g, ql = .validateCandidate g) :
    Inv th { d with queue := s' } where
  rep := rep_step h.rep hstep
  keeps := keepsAll_of_settings h.keeps (taskStep_settings h.rep hl hstep).1
  phase := by
    have hphase := h.phase
    have hawake : d.queue.waiting th = none → s'.waiting th = none :=
      taskStep_awake h.rep hl hstep
    cases hp : d.phase with
    | isEmpty =>
      rw [hp] at hphase
      obtain ⟨hwait, hseen⟩ := hphase
      exact ⟨hawake hwait, hseen.eptr, hseen.cancelled⟩
    | pop =>
      rw [hp] at hphase
      obtain ⟨hwait, hseen, hne⟩ := hphase
      exact ⟨hawake hwait, ⟨hseen.eptr, hseen.cancelled⟩,
        taskStep_nonempty h.rep h.keeps hl hstep hne⟩
    | wait =>
      rw [hp] at hphase
      obtain ⟨hwait, hseen, hne, hset⟩ := hphase
      exact ⟨taskStep_asleep h.rep hl hstep hwait, ⟨hseen.eptr, hseen.cancelled⟩,
        taskStep_nonempty h.rep h.keeps hl hstep hne, taskStep_settled h.rep hset hl hstep⟩
    | popped task =>
      rw [hp] at hphase
      obtain ⟨hwait, t, earlier, rfl, hout, hhistory, hseen⟩ := hphase
      have hout' : s'.allTasks t = none :=
        (tag_taskStep h.rep h.keeps hl hstep t).2.1 hout (hheld t hp)
      have hsame : s'.task t = d.queue.task t := by
        rcases taskStep_idle h.rep hl hstep (not_scheduled_iff.mpr (.inl hout')) with
          ⟨hexec, _⟩ | ⟨_, hsame⟩
        · rw [hout] at hexec
          exact absurd hexec (by simp)
        · exact hsame
      refine ⟨hawake hwait, t, earlier, rfl, hout', ?_, hseen.eptr, hseen.cancelled⟩
      rw [hsame, hhistory]
    | cancelAll =>
      rw [hp] at hphase
      obtain ⟨hwait, heptr, hsome⟩ := hphase
      exact ⟨hawake hwait, heptr, hsome⟩
    | returned =>
      rw [hp] at hphase
      obtain ⟨hwait, hseen, hempty⟩ := hphase
      exact ⟨hawake hwait, ⟨hseen.eptr, hseen.cancelled⟩,
        taskStep_empty h.rep h.keeps hl hstep hempty hwho⟩

/-! ## The steps of the loop -/

/-- A `pop` of a padded queue which is not empty. -/
theorem inv_receive {s : State τ θ} (hrep : Rep s) (hkeep : keepsAll s)
    (hawake : s.waiting th = none) (hset : Settled s) (hne : isEmptyInternal s = false)
    (hseen : Seen d d.history) : Inv th (receive d (waitFirstReady th true s)) := by
  rcases waitFirstReady_cases hrep th with ⟨_, _, hblock⟩ | ⟨t, ht, htake⟩ | ⟨hempty, _⟩
  · rw [hblock]
    refine ⟨rep_block hrep th _, hkeep, ⟨false, ?_⟩, ⟨hseen.eptr, hseen.cancelled⟩, hne, hset⟩
    exact Function.update_self _ _ _
  · rw [htake]
    refine ⟨hrep.destroyReady ht, hkeep, hawake, t, d.history, rfl, ?_, rfl, hseen.eptr,
      hseen.cancelled⟩
    show (destroyReady t s).allTasks t = none
    rw [destroyReady_allTasks, if_pos rfl]
  · rw [hne] at hempty
    exact absurd hempty Bool.false_ne_true

theorem lockSection_pop (s : State τ θ) (th : θ) :
    lockSection s (.getFirstReady th true true) =
      waitFirstReady th true (padExecutingQueueNothrow s) :=
  rfl

theorem lockSection_resume {s : State τ θ} {b : Bool} (hwait : s.waiting th = some ⟨.ready true, b⟩) :
    lockSection s (.resume th) = waitFirstReady th true (unblock th s) := by
  show resume th s = _
  unfold resume
  rw [hwait]

theorem cancelAll_control (s : State τ θ) (th : θ) :
    (lockSection s (.cancelAll th false)).1.control = s.control := by
  show (flushInternal th false true true true true s).1.control = s.control
  rw [flushInternal_eq, if_pos rfl]
  split
  · rfl
  · show (finishFlush true true (prepareFlush true true s)).1.control = s.control
    rw [finishFlush_control, prepareFlush_control]

/-- The queue after `cancelAll( false )`, with the loop at its start. -/
theorem inv_cancelRest (hrep : Rep d.queue) (hkeep : keepsAll d.queue)
    (hawake : d.queue.waiting th = none) {cancelled : Bool}
    (heptr : d.eptr = firstFailed d.history) (hcancelled : cancelled = d.eptr.isSome) :
    Inv th { cancelRest th d with cancelled := cancelled } := by
  have hcontrol := cancelAll_control d.queue th
  refine ⟨rep_flushInternal hrep _ _ _ _ _, ?_, ?_, heptr, hcancelled⟩
  · exact keepsAll_of_settings hkeep
      (congrArg (fun c => (Control.options c, Control.maxReadyOrExecuting c)) hcontrol)
  · exact (congrFun (congrArg Control.waiting hcontrol) th).trans hawake

omit [DecidableEq τ] in
theorem firstFailed_concat (history : List (τ × Bool)) (t : τ) (failed : Bool) :
    firstFailed (history ++ [(t, failed)]) =
      (firstFailed history).or (if failed then some t else none) := by
  unfold firstFailed
  rw [List.find?_append]
  cases history.find? (·.2) <;> cases failed <;> rfl

theorem inv_loop (h : Inv th d) : Inv th (loop th d) := by
  have hphase := h.phase
  unfold loop
  cases hp : d.phase with
  | isEmpty =>
    rw [hp] at hphase
    obtain ⟨hwait, hseen⟩ := hphase
    cases hempty : isEmptyInternal d.queue
    · exact ⟨h.rep, h.keeps, hwait, ⟨hseen.eptr, hseen.cancelled⟩, hempty⟩
    · exact ⟨h.rep, h.keeps, hwait, ⟨hseen.eptr, hseen.cancelled⟩, hempty⟩
  | pop =>
    rw [hp] at hphase
    obtain ⟨hwait, hseen, hne⟩ := hphase
    rw [lockSection_pop]
    refine inv_receive h.rep.pad (keepsAll_of_settings h.keeps (pad_settings _)) ?_
      (pad_settled _) ?_ hseen
    · rw [pad_waiting, hwait]
    · rw [isEmptyInternal_pad, hne]
  | wait =>
    rw [hp] at hphase
    obtain ⟨⟨b, hwait⟩, hseen, hne, hset⟩ := hphase
    dsimp only
    rw [lockSection_resume hwait]
    exact inv_receive (rep_unblock h.rep th) h.keeps (Function.update_self _ _ _) hset hne hseen
  | popped task =>
    rw [hp] at hphase
    obtain ⟨hwait, t, earlier, rfl, _, hhistory, hseen⟩ := hphase
    have hfirst : firstFailed d.history = d.eptr.or
        (if (d.queue.task t).isFailed then some t else none) := by
      rw [hhistory, firstFailed_concat, hseen.eptr]
    dsimp only
    cases hc : d.cancelled
    · have hnone : d.eptr = none := by
        rw [← Option.not_isSome_iff_eq_none, ← hseen.cancelled, hc]
        exact Bool.false_ne_true
      rw [if_neg Bool.false_ne_true]
      unfold examine
      rw [hnone] at hfirst
      dsimp only
      split
      · rename_i hfailed
        rw [if_pos hfailed] at hfirst
        exact ⟨h.rep, h.keeps, hwait, hfirst.symm, rfl⟩
      · rename_i hfine
        rw [if_neg hfine] at hfirst
        exact ⟨h.rep, h.keeps, hwait, hnone.trans hfirst.symm, hseen.cancelled⟩
    · rw [if_pos rfl]
      have hsome : d.eptr.isSome = true := by rw [← hseen.cancelled, hc]
      obtain ⟨first, heptr⟩ := Option.isSome_iff_exists.mp hsome
      refine inv_cancelRest h.rep h.keeps hwait ?_ hseen.cancelled
      rw [hfirst, heptr]
      rfl
  | cancelAll =>
    rw [hp] at hphase
    obtain ⟨hwait, heptr, hsome⟩ := hphase
    exact inv_cancelRest h.rep h.keeps hwait heptr hsome.symm
  | returned => exact h

theorem inv_step (h : Inv th d) (hstep : step th d l = some d') : Inv th d' := by
  rcases step_cases hstep with ⟨_, _, rfl⟩ | ⟨ql, s', _, hl, hqueue, rfl, hheld, hwho⟩
  · exact inv_loop h
  · exact inv_tasks h hl hqueue hheld hwho

end Loop

end Baselib.Tasks.ExecuteQueue
