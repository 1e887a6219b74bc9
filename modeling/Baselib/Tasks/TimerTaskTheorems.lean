/-
Baselib.Tasks.TimerTaskTheorems — a timer task has one handler, and a wake-up
or a cancel makes it ready.

While the task is running there is one wait, or one handler which is on its
way to notify the task; at any other time there is neither (`Inv`). So a
wake-up reaches the wait there is, and what it leaves, a ready handler of a
running task, stays until the handler is called (`Prompt`). A wake-up which
comes when the handler is on its way finds no wait.
-/
import Baselib.Tasks.TaskBaseTheorems
import Baselib.Tasks.TimerTask

namespace Baselib.Tasks.TimerTask

open Lib List
open Lib.Transition (Along run run_cons_eq_some run_append_eq_some run_invariant along_true)
open ExecutionQueue (TaskState)
open Option (map_eq_some_iff bind_eq_some_iff)

variable {ε : Type} {operationAborted : ε} {s s' : State ε}

/-! ## Waits -/

/-- The wait was not armed before the task was cancelled. -/
def Wait.fromRun : Wait → Bool
  | .armed _ afterCancel => afterCancel
  | .ready _ => true

def Wait.isArmed : Wait → Bool
  | .armed _ _ => true
  | .ready _ => false

theorem Wait.exists_cancel (w : Wait) : ∃ aborted, w.cancel = .ready aborted := by
  cases w with
  | armed duration afterCancel => exact ⟨true, rfl⟩
  | ready aborted => exact ⟨aborted, rfl⟩

theorem Wait.fromRun_cancel (w : Wait) : w.cancel.fromRun = true := by
  cases w <;> rfl

theorem Wait.expire_eq_some {w w' : Wait} (h : w.expire = some w') : w' = .ready false := by
  cases w with
  | armed duration afterCancel => exact (Option.some.inj h).symm
  | ready aborted => cases h

/-! ## The invariant -/

structure Inv (s : State ε) : Prop where
  base : TaskBase.Inv s.base
  started : s.base.state = .running → s.base.schedules ≠ 0 ∧ s.hasTimer = true
  /-- One handler, outstanding or on its way. -/
  one : s.base.state = .running → s.waits.length + s.finishing.length = 1
  neither : s.base.state ≠ .running → s.waits = [] ∧ s.finishing = []
  cancelled : s.base.cancelRequested = true → ∀ w ∈ s.waits, w.fromRun = true

theorem create_inv : Inv (State.create : State ε) where
  base := TaskBase.create_inv
  started h := by cases h
  one h := by cases h
  neither _ := ⟨rfl, rfl⟩
  cancelled h := by cases h

theorem Inv.running_of_wait (h : Inv s) {i : Nat} {w : Wait} (hw : s.waits[i]? = some w) :
    s.base.state = .running ∧ s.waits = [w] ∧ s.finishing = [] := by
  have hrunning : s.base.state = .running := by
    by_contra hnot
    simp [(h.neither hnot).1] at hw
  have hone := h.one hrunning
  obtain ⟨hi, hget⟩ := List.getElem?_eq_some_iff.mp hw
  have hfinishing : s.finishing = [] := length_eq_zero_iff.mp (by omega)
  obtain ⟨v, hv⟩ := length_eq_one_iff.mp (by omega : s.waits.length = 1)
  rw [hv] at hw
  cases i with
  | zero => exact ⟨hrunning, by rw [hv, Option.some.inj hw], hfinishing⟩
  | succ i => cases hw

theorem Inv.running_of_finishing (h : Inv s) {i : Nat} {eptr : Option ε}
    (heptr : s.finishing[i]? = some eptr) :
    s.base.state = .running ∧ s.waits = [] ∧ s.finishing.eraseIdx i = [] := by
  have hrunning : s.base.state = .running := by
    by_contra hnot
    simp [(h.neither hnot).2] at heptr
  have hone := h.one hrunning
  obtain ⟨hi, -⟩ := List.getElem?_eq_some_iff.mp heptr
  refine ⟨hrunning, length_eq_zero_iff.mp (by omega), length_eq_zero_iff.mp ?_⟩
  rw [length_eraseIdx_of_lt hi]
  omega

/-! ## Steps -/

theorem fromRun_of_mem_cancel {waits : List Wait} :
    ∀ w ∈ waits.map Wait.cancel, w.fromRun = true := by
  intro w hw
  obtain ⟨v, -, rfl⟩ := mem_map.mp hw
  exact v.fromRun_cancel

theorem Inv.cancelTimer (h : Inv s) : Inv (cancelTimer s) where
  base := h.base
  started := h.started
  one hrunning := by
    have hone := h.one hrunning
    rwa [← length_map (f := Wait.cancel)] at hone
  neither hnot := by
    obtain ⟨hwaits, hfinishing⟩ := h.neither hnot
    exact ⟨by rw [TimerTask.cancelTimer, hwaits, map_nil], hfinishing⟩
  cancelled _ := fromRun_of_mem_cancel

variable (operationAborted) in
/-- The task and its only wait after it was scheduled. -/
theorem scheduleNothrow_eq (initDelay : Int) (h : Inv s) (hnot : s.base.state ≠ .running) :
    ∃ w, scheduleNothrow operationAborted initDelay s =
        { s with
          base := TaskBase.scheduleNothrow (config operationAborted) none s.base
          hasTimer := true
          waits := [w] } ∧
      ((TaskBase.scheduleNothrow (config operationAborted) none s.base).cancelRequested = true →
        w = .ready true) := by
  obtain ⟨hwaits, -⟩ := h.neither hnot
  unfold scheduleNothrow scheduleTask scheduleTimerInternal resetTimer cancelTask
  simp only [TimerTask.cancelTimer, hwaits, map_nil, nil_append]
  split
  · exact ⟨.ready true, rfl, fun _ => rfl⟩
  next hcancel => exact ⟨.armed initDelay false, rfl, fun h => absurd h hcancel⟩

theorem Inv.scheduleNothrow (h : Inv s) (hnot : s.base.state ≠ .running) (initDelay : Int) :
    Inv (scheduleNothrow operationAborted initDelay s) := by
  obtain ⟨w, heq, hw⟩ := scheduleNothrow_eq operationAborted initDelay h hnot
  obtain ⟨exception, notifyCalled, cancelRequested, posted, hbase, -, -⟩ :=
    TaskBase.scheduleNothrow_eq (config operationAborted) none s.base
  have hrunning : (TaskBase.scheduleNothrow (config operationAborted) none s.base).state =
      .running := by rw [hbase]
  rw [heq]
  exact
    { base := h.base.scheduleNothrow (config operationAborted) none
      started := fun _ => ⟨by rw [hbase]; exact Nat.succ_ne_zero _, rfl⟩
      one := fun _ => by
        rw [(h.neither hnot).2]
        rfl
      neither := fun hnot => absurd hrunning hnot
      cancelled := fun hcancel v hv => by
        rw [mem_singleton.mp hv, hw hcancel]
        rfl }

theorem requestCancel_running (h : Inv s) (hrunning : s.base.state = .running)
    (hfirst : s.base.cancelRequested = false) :
    requestCancel s = { cancelTimer s with base := TaskBase.requestCancel s.base } := by
  have htimer := (h.started hrunning).2
  simp [requestCancel, hfirst, TaskBase.requestCancel, hrunning, cancelTask, htimer, cancelTimer]

theorem requestCancel_idle (hidle : s.base.state ≠ .running)
    (hfirst : s.base.cancelRequested = false) :
    requestCancel s = { s with base := TaskBase.requestCancel s.base } := by
  simp [requestCancel, hfirst, TaskBase.requestCancel, hidle]

theorem Inv.requestCancel (h : Inv s) : Inv (requestCancel s) := by
  have hbase : TaskBase.Inv (TaskBase.requestCancel s.base) :=
    h.base.congr (.inl rfl) rfl rfl rfl rfl id (List.Perm.refl _)
  cases hfirst : s.base.cancelRequested with
  | true =>
    rwa [TimerTask.requestCancel, if_pos hfirst]
  | false =>
    by_cases hrunning : s.base.state = .running
    · have htask := h.cancelTimer
      rw [requestCancel_running h hrunning hfirst]
      exact ⟨hbase, htask.started, htask.one, htask.neither, fun _ => fromRun_of_mem_cancel⟩
    · rw [requestCancel_idle hrunning hfirst]
      refine ⟨hbase, h.started, h.one, h.neither, fun _ w hw => ?_⟩
      rw [(h.neither hrunning).1] at hw
      cases hw

theorem Inv.runNow (h : Inv s) : Inv (runNow s) := by
  unfold TimerTask.runNow
  split
  · exact h.cancelTimer
  · exact h

theorem Inv.expire (h : Inv s) {i : Nat} {w : Wait} (hw : s.waits[i]?.bind Wait.expire = some w) :
    Inv { s with waits := s.waits.set i w } := by
  obtain ⟨v, hv, hexpire⟩ := bind_eq_some_iff.mp hw
  obtain ⟨hrunning, -, -⟩ := h.running_of_wait hv
  refine ⟨h.base, h.started, fun hrunning => ?_, fun hnot => absurd hrunning hnot,
    fun hcancel u hu => ?_⟩
  · rw [length_set]
    exact h.one hrunning
  · rcases mem_or_eq_of_mem_set hu with hu | rfl
    · exact h.cancelled hcancel u hu
    · rw [Wait.expire_eq_some hexpire]
      rfl

/-- The handler of the only wait: it arms the next one, or is on its way to
notify the task. -/
theorem Inv.onTimer (h : Inv s) {i : Nat} {aborted : Bool}
    (hw : s.waits[i]? = some (.ready aborted)) (result : RunResult ε) :
    Inv (onTimer result { s with waits := s.waits.eraseIdx i }) := by
  obtain ⟨hrunning, hwaits, hfinishing⟩ := h.running_of_wait hw
  have herase : s.waits.eraseIdx i = [] := by
    rw [hwaits] at hw ⊢
    cases i with
    | zero => rfl
    | succ i => cases hw
  rw [herase]
  cases result with
  | again duration =>
    exact
      { base := h.base
        started := h.started
        one := fun _ => by
          rw [TimerTask.onTimer, scheduleTimerInternal, hfinishing]
          rfl
        neither := fun hnot => absurd hrunning hnot
        cancelled := fun hcancel w hmem => by
          rw [mem_singleton.mp hmem]
          exact hcancel }
  | finished | throws _ =>
    exact
      { base := h.base
        started := h.started
        one := fun _ => by
          rw [TimerTask.onTimer, hfinishing]
          rfl
        neither := fun hnot => absurd hrunning hnot
        cancelled := fun _ w hmem => by cases hmem }

theorem Inv.notifyReady (h : Inv s) {i : Nat} {eptr : Option ε}
    (heptr : s.finishing[i]? = some eptr) (onTaskStoppedNothrow : Option ε → Option ε) :
    Inv
      { s with
        base := TaskBase.notifyReadyImpl ⟨true, eptr⟩ ⟨fun _ => .proceeds, onTaskStoppedNothrow⟩
          s.base
        finishing := s.finishing.eraseIdx i } := by
  obtain ⟨hrunning, hwaits, herase⟩ := h.running_of_finishing heptr
  have hcompletes : TaskBase.Notification.Completes ⟨true, eptr⟩
      ⟨fun _ => .proceeds, onTaskStoppedNothrow⟩ := nofun
  obtain ⟨finishes, hbase⟩ :=
    TaskBase.notifyReadyImpl_decides hcompletes (h.base.running hrunning)
  have hnotified := h.base.notifyReadyImpl (h.started hrunning).1 ⟨true, eptr⟩
    ⟨fun _ => .proceeds, onTaskStoppedNothrow⟩
  have hstate : (TaskBase.notifyReadyImpl ⟨true, eptr⟩
      ⟨fun _ => .proceeds, onTaskStoppedNothrow⟩ s.base).state = .pendingCompletion := by rw [hbase]
  exact
    { base := hnotified
      started := fun hrunning => absurd (hstate.symm.trans hrunning) nofun
      one := fun hrunning => absurd (hstate.symm.trans hrunning) nofun
      neither := fun _ => ⟨hwaits, herase⟩
      cancelled := fun _ w hmem => absurd (hwaits ▸ hmem) not_mem_nil }

/-- The queue calls the task back, or marks it completed. -/
theorem Inv.congr_base (h : Inv s) {base : TaskBase.State ε} (hbase : TaskBase.Inv base)
    (hstate : base.state = .running ↔ s.base.state = .running)
    (hschedules : base.schedules = s.base.schedules)
    (hcancel : base.cancelRequested = s.base.cancelRequested) : Inv { s with base := base } where
  base := hbase
  started hrunning := by
    rw [hschedules]
    exact h.started (hstate.mp hrunning)
  one hrunning := h.one (hstate.mp hrunning)
  neither hnot := h.neither fun hrunning => hnot (hstate.mpr hrunning)
  cancelled hcancelled := h.cancelled (hcancel ▸ hcancelled)

theorem step_inv {l : Label ε} (h : Inv s) (hstep : step operationAborted s l = some s') :
    Inv s' := by
  cases l with
  | scheduleNothrow initDelay =>
    obtain ⟨hnot, hs⟩ := Option.ite_none_left_eq_some.mp hstep
    cases hs
    exact h.scheduleNothrow hnot initDelay
  | requestCancel =>
    cases hstep
    exact h.requestCancel
  | wakeUp =>
    cases hstep
    exact h.runNow
  | expire i =>
    obtain ⟨w, hw, rfl⟩ := map_eq_some_iff.mp hstep
    exact h.expire hw
  | onTimer i result =>
    rw [step] at hstep
    split at hstep
    next aborted hw =>
      cases hstep
      exact h.onTimer hw result
    next => cases hstep
  | notifyReady i onTaskStoppedNothrow =>
    obtain ⟨eptr, heptr, rfl⟩ := map_eq_some_iff.mp hstep
    exact h.notifyReady heptr onTaskStoppedNothrow
  | invoke i =>
    obtain ⟨base, hbase, rfl⟩ := map_eq_some_iff.mp hstep
    have hinv := TaskBase.step_inv h.base hbase
    obtain ⟨callback, -, rfl⟩ := map_eq_some_iff.mp hbase
    exact h.congr_base hinv Iff.rfl rfl rfl
  | setCompletedState =>
    obtain ⟨base, hbase, rfl⟩ := map_eq_some_iff.mp hstep
    have hinv := TaskBase.step_inv h.base hbase
    obtain ⟨hpending, hs⟩ := Option.ite_none_right_eq_some.mp hbase
    cases hs
    refine h.congr_base hinv ?_ rfl rfl
    rw [hpending]
    exact ⟨nofun, nofun⟩

theorem run_inv {labels : List (Label ε)}
    (hrun : run (step operationAborted) State.create labels = some s) : Inv s :=
  run_invariant (fun _ _ _ hinv _ hstep => step_inv hinv hstep) create_inv along_true hrun

/-! ## Wake-ups -/

/-- The handler of the only wait can be called. -/
def Prompt (s : State ε) : Prop :=
  s.base.state = .running ∧ s.finishing = [] ∧ ∃ aborted, s.waits = [.ready aborted]

/-- What cancels the timer of a task whose handler is not on its way. -/
theorem Inv.prompt (h : Inv s) (hrunning : s.base.state = .running)
    (hfinishing : s.finishing = []) : Prompt (TimerTask.cancelTimer s) := by
  have hone := h.one hrunning
  rw [hfinishing, length_nil, Nat.add_zero] at hone
  obtain ⟨w, hw⟩ := length_eq_one_iff.mp hone
  obtain ⟨aborted, haborted⟩ := w.exists_cancel
  exact ⟨hrunning, hfinishing, aborted, by
    rw [TimerTask.cancelTimer, hw, map_singleton, haborted]⟩

theorem Prompt.cancelTimer (h : Prompt s) : Prompt (TimerTask.cancelTimer s) := by
  obtain ⟨hrunning, hfinishing, aborted, hwaits⟩ := h
  exact ⟨hrunning, hfinishing, aborted, by rw [TimerTask.cancelTimer, hwaits]; rfl⟩

/-- It stays so until the handler is called. -/
theorem step_prompt {l : Label ε} (h : Prompt s) (hne : ∀ i result, l ≠ .onTimer i result)
    (hstep : step operationAborted s l = some s') : Prompt s' := by
  obtain ⟨hrunning, hfinishing, aborted, hwaits⟩ := h
  cases l with
  | scheduleNothrow initDelay =>
    rw [step, if_pos hrunning] at hstep
    cases hstep
  | requestCancel =>
    cases hstep
    unfold requestCancel cancelTask
    dsimp only
    have hbase : (TaskBase.requestCancel s.base).state = .running := hrunning
    split
    · exact ⟨hrunning, hfinishing, aborted, hwaits⟩
    · split
      · exact Prompt.cancelTimer ⟨hbase, hfinishing, aborted, hwaits⟩
      · exact ⟨hbase, hfinishing, aborted, hwaits⟩
  | wakeUp =>
    cases hstep
    rw [wakeUp, runNow]
    split
    · exact Prompt.cancelTimer ⟨hrunning, hfinishing, aborted, hwaits⟩
    · exact ⟨hrunning, hfinishing, aborted, hwaits⟩
  | expire i =>
    obtain ⟨w, hw, -⟩ := map_eq_some_iff.mp hstep
    obtain ⟨v, hv, hexpire⟩ := bind_eq_some_iff.mp hw
    rw [hwaits] at hv
    obtain rfl := mem_singleton.mp (mem_of_getElem? hv)
    cases hexpire
  | onTimer i result => exact absurd rfl (hne i result)
  | notifyReady i onTaskStoppedNothrow =>
    obtain ⟨eptr, heptr, -⟩ := map_eq_some_iff.mp hstep
    rw [hfinishing] at heptr
    cases heptr
  | invoke i =>
    obtain ⟨base, hbase, rfl⟩ := map_eq_some_iff.mp hstep
    obtain ⟨callback, -, rfl⟩ := map_eq_some_iff.mp hbase
    exact ⟨hrunning, hfinishing, aborted, hwaits⟩
  | setCompletedState =>
    obtain ⟨base, hbase, -⟩ := map_eq_some_iff.mp hstep
    obtain ⟨hpending, -⟩ := Option.ite_none_right_eq_some.mp hbase
    cases hrunning.symm.trans hpending

theorem run_prompt {labels : List (Label ε)} : ∀ {s s' : State ε}, Prompt s →
    run (step operationAborted) s labels = some s' →
    (∃ i result, .onTimer i result ∈ labels) ∨ Prompt s' := by
  induction labels with
  | nil =>
    intro s s' h hrun
    cases hrun
    exact Or.inr h
  | cons l labels ih =>
    intro s s' h hrun
    obtain ⟨m, hstep, hrun⟩ := run_cons_eq_some.mp hrun
    by_cases hhandler : ∃ i result, l = .onTimer i result
    · obtain ⟨i, result, rfl⟩ := hhandler
      exact .inl ⟨i, result, mem_cons_self⟩
    · have hm := step_prompt h (fun i result heq => hhandler ⟨i, result, heq⟩) hstep
      rcases ih hm hrun with ⟨i, result, hmem⟩ | hprompt
      · exact .inl ⟨i, result, mem_cons_of_mem l hmem⟩
      · exact .inr hprompt

theorem Prompt.onTimer (h : Prompt s) (result : RunResult ε) :
    (step operationAborted s (.onTimer 0 result)).isSome := by
  obtain ⟨-, -, aborted, hwaits⟩ := h
  rw [step, hwaits]
  rfl

/-! ## Waits of a cancelled task -/

theorem isArmed_of_mem_cancel {waits : List Wait} {w : Wait} (hw : w ∈ waits.map Wait.cancel) :
    w.isArmed = false := by
  obtain ⟨v, -, rfl⟩ := mem_map.mp hw
  obtain ⟨aborted, haborted⟩ := v.exists_cancel
  rw [haborted]
  rfl

theorem mem_cancelTask {w : Wait} (hw : w ∈ (cancelTask s).waits) :
    w ∈ s.waits ∨ w.isArmed = false := by
  unfold cancelTask at hw
  split at hw
  · exact .inr (isArmed_of_mem_cancel hw)
  · exact .inl hw

theorem mem_scheduleTimerInternal {duration : Int} {afterCancel : Bool} {w : Wait}
    (hw : w ∈ (scheduleTimerInternal duration afterCancel s).waits) :
    w.isArmed = false ∨ w = .armed duration afterCancel := by
  rcases mem_append.mp hw with hw | hw
  · exact .inl (isArmed_of_mem_cancel hw)
  · exact .inr (mem_singleton.mp hw)

/-- Where the armed waits come from. -/
theorem mem_waits_of_step {l : Label ε} (hstep : step operationAborted s l = some s') {w : Wait}
    (hw : w ∈ s'.waits) :
    w ∈ s.waits ∨ w.isArmed = false ∨ (∃ duration, w = .armed duration false) ∨
      ∃ i duration, l = .onTimer i (.again duration) ∧
        w = .armed duration s.base.cancelRequested := by
  cases l with
  | scheduleNothrow initDelay =>
    obtain ⟨-, hs⟩ := Option.ite_none_left_eq_some.mp hstep
    cases hs
    have harmed : ∀ v ∈ (scheduleTimerInternal initDelay false (resetTimer
        { s with base := TaskBase.scheduleNothrow (config operationAborted) none s.base })).waits,
        v.isArmed = false ∨ v = .armed initDelay false := fun v hv => mem_scheduleTimerInternal hv
    unfold scheduleNothrow scheduleTask at hw
    dsimp only at hw
    split at hw
    · rcases mem_cancelTask hw with hw | hready
      · exact .inr ((harmed w hw).imp_right fun heq => .inl ⟨initDelay, heq⟩)
      · exact .inr (.inl hready)
    · exact .inr ((harmed w hw).imp_right fun heq => .inl ⟨initDelay, heq⟩)
  | requestCancel =>
    cases hstep
    unfold requestCancel at hw
    dsimp only at hw
    split at hw
    · exact .inl hw
    · split at hw
      · exact (mem_cancelTask hw).imp_right Or.inl
      · exact .inl hw
  | wakeUp =>
    cases hstep
    unfold wakeUp runNow at hw
    split at hw
    · exact .inr (.inl (isArmed_of_mem_cancel hw))
    · exact .inl hw
  | expire i =>
    obtain ⟨v, hv, rfl⟩ := map_eq_some_iff.mp hstep
    obtain ⟨u, -, hexpire⟩ := bind_eq_some_iff.mp hv
    rcases mem_or_eq_of_mem_set hw with hw | rfl
    · exact .inl hw
    · rw [Wait.expire_eq_some hexpire]
      exact .inr (.inl rfl)
  | onTimer i result =>
    rw [step] at hstep
    split at hstep
    next aborted hwait =>
      cases hstep
      cases result with
      | again duration =>
        exact .inr ((mem_scheduleTimerInternal hw).imp_right
          fun heq => .inr ⟨i, duration, rfl, heq⟩)
      | finished | throws _ => exact .inl (mem_of_mem_eraseIdx hw)
    next => cases hstep
  | notifyReady i onTaskStoppedNothrow =>
    obtain ⟨eptr, -, rfl⟩ := map_eq_some_iff.mp hstep
    exact .inl hw
  | invoke _ | setCompletedState =>
    obtain ⟨base, -, rfl⟩ := map_eq_some_iff.mp hstep
    exact .inl hw

/-- `run` finishes a task which is cancelled, as it does in
`AdjustableTimerTaskT` and in `SimpleTimerTaskT`. -/
def HonoursCancel (s : State ε) (l : Label ε) : Prop :=
  ∀ i duration, l = .onTimer i (.again duration) → s.base.cancelRequested = false

theorem step_honours {l : Label ε} (h : ∀ w ∈ s.waits, w.isArmed = true → w.fromRun = false)
    (hhonours : HonoursCancel s l) (hstep : step operationAborted s l = some s') :
    ∀ w ∈ s'.waits, w.isArmed = true → w.fromRun = false := by
  intro w hw harmed
  rcases mem_waits_of_step hstep hw with hold | hready | ⟨duration, rfl⟩ | ⟨i, duration, rfl, rfl⟩
  · exact h w hold harmed
  · exact absurd (hready.symm.trans harmed) nofun
  · rfl
  · exact hhonours i duration rfl

/-! ## Runs -/

/-- In every run a running task has one handler, outstanding or on its way,
and `run` is not called of a task which is not running. A wake-up of a running
task whose handler is not on its way makes the handler ready until it is
called. The armed wait of a running task which is cancelled is one `run` has
asked for after the cancel, and there is none if `run` honours the cancel. -/
theorem timer_handlers (operationAborted : ε) (labels : List (Label ε)) (s : State ε)
    (hrun : run (step operationAborted) State.create labels = some s) :
    (s.base.state = .running → s.waits.length + s.finishing.length = 1) ∧
    (s.base.state ≠ .running → ∀ i result, step operationAborted s (.onTimer i result) = none) ∧
    (∀ before after m, labels = before ++ .wakeUp :: after →
      run (step operationAborted) State.create before = some m →
      m.base.state = .running → m.finishing = [] →
      (∃ i result, .onTimer i result ∈ after) ∨
        s.base.state = .running ∧ (∃ aborted, s.waits = [.ready aborted]) ∧
          ∀ result, (step operationAborted s (.onTimer 0 result)).isSome) ∧
    (s.base.cancelRequested = true → ∀ w ∈ s.waits, w.fromRun = true) ∧
    (Along (step operationAborted) HonoursCancel State.create labels →
      s.base.cancelRequested = true → ∀ w ∈ s.waits, w.isArmed = false) := by
  have hinv := run_inv hrun
  refine ⟨hinv.one, fun hnot i result => ?_, fun before after m hlabels hbefore hrunning
    hfinishing => ?_, hinv.cancelled, fun hhonours hcancelled w hw => ?_⟩
  · rw [step, (hinv.neither hnot).1]
    rfl
  · rw [hlabels] at hrun
    obtain ⟨m', hm', hrest⟩ := run_append_eq_some.mp hrun
    obtain rfl := Option.some.inj (hbefore.symm.trans hm')
    obtain ⟨m', hstep, hrest⟩ := run_cons_eq_some.mp hrest
    have hm := run_inv hbefore
    have hwake : wakeUp m = cancelTimer m :=
      if_pos ⟨hrunning, (hm.started hrunning).2⟩
    have hprompt : Prompt m' := by
      rw [← Option.some.inj hstep, hwake]
      exact hm.prompt hrunning hfinishing
    rcases run_prompt hprompt hrest with hcalled | hs
    · exact Or.inl hcalled
    · exact Or.inr ⟨hs.1, hs.2.2, fun result => hs.onTimer result⟩
  · have hasked := run_invariant (fun _ _ _ h hC hstep => step_honours h hC hstep)
      (fun v hv => by cases hv) hhonours hrun
    cases harmed : w.isArmed with
    | false => rfl
    | true =>
      have hnot := hasked w hw harmed
      exact absurd ((hinv.cancelled hcancelled w hw).symm.trans hnot) nofun

/-! Runs of timer tasks. -/

/-- A task which is woken up while it waits, and then runs. -/
def wokenUp : List (Label Nat) :=
  [.scheduleNothrow 5000, .wakeUp, .onTimer 0 (.again 1000), .requestCancel]

theorem timer_handlers_wokenUp :
    ∃ s, run (step 0) State.create wokenUp = some s ∧ s.runs = 1 ∧
      s.waits.length + s.finishing.length = 1 ∧ ∀ w ∈ s.waits, w.fromRun = true :=
  have h := timer_handlers 0 wokenUp _ rfl
  ⟨_, rfl, rfl, h.1 rfl, h.2.2.2.1 rfl⟩

/-- A wake-up which comes when `run` has finished the task is followed by no
call; a wait which `run` asks for after a cancel stays armed, also when the
cancel is requested again; and a task which is started again forgets a cancel
which came before. -/
theorem wakeUp_and_cancel :
    (∃ m s, run (step 0) State.create
        [.scheduleNothrow 0, .expire 0, .onTimer 0 .finished] = some m ∧
      m.base.state = .running ∧
      run (step 0) m [.wakeUp, .notifyReady 0 id, .invoke 0, .setCompletedState] = some s ∧
      s.base.state = .completed ∧ s.runs = m.runs) ∧
    (∃ s, run (step 0) State.create
        [.scheduleNothrow 5000, .requestCancel, .onTimer 0 (.again 1000), .requestCancel] = some s ∧
      s.base.state = .running ∧ s.base.cancelRequested = true ∧
      s.waits = [.armed 1000 true]) ∧
    (∃ s, run (step 0) State.create
        [.scheduleNothrow 0, .expire 0, .onTimer 0 .finished, .notifyReady 0 id, .invoke 0,
          .setCompletedState, .requestCancel, .scheduleNothrow 5000] = some s ∧
      s.base.state = .running ∧ s.waits = [.armed 5000 false]) :=
  ⟨⟨_, _, rfl, rfl, rfl, rfl, rfl⟩, ⟨_, rfl, rfl, rfl, rfl⟩, ⟨_, rfl, rfl, rfl⟩⟩

end Baselib.Tasks.TimerTask
