/-
Baselib.Tasks.ExecuteQueueDrain — what is left of a queue, and of its
tasks, when `executeQueueAndCancelOnFailure` ends.

A task which was in the queue at any point of the drain is followed to
its end: as long as no failure was seen it is in the queue or was popped,
and once it was scheduled it is to run, runs or has completed.
-/
import Baselib.Tasks.ExecuteQueueProgress

namespace Baselib.Tasks.ExecuteQueue

open Lib
open ExecutionQueue hiding Label enabled step Reachable
open Transition (along_true run run_invariant)

variable {τ θ : Type*} [DecidableEq τ] [DecidableEq θ] {th : θ} {d d' : Drain τ θ} {l : Label τ}
  {t : τ}

/-! ## One step of the loop -/

/-- What a `pop` starts from: the queue, padded or woken up. -/
structure Readied (queue s : State τ θ) : Prop where
  rep : Rep s
  admitted : ∀ t, Admitted (queue.allTasks t) (s.allTasks t)
  task : ∀ t, ¬ scheduled s t → s.task t = queue.task t

/-- A step of the loop leaves the queue alone, follows a failure, or is a
`pop`. -/
theorem loop_cases (h : Inv th d) :
    ((loop th d).queue = d.queue ∧ (loop th d).history = d.history ∧
        (d.eptr.isSome = true → (loop th d).eptr.isSome = true)) ∨
      ((loop th d).eptr.isSome = true ∧ (loop th d).history = d.history) ∨
      ∃ s, Readied d.queue s ∧ loop th d = receive d (waitFirstReady th true s) := by
  have hphase := h.phase
  unfold loop
  cases hp : d.phase with
  | isEmpty | returned => exact .inl ⟨rfl, rfl, id⟩
  | pop =>
    rw [lockSection_pop]
    exact .inr (.inr ⟨_, ⟨h.rep.pad, pad_admitted h.rep, fun t ht => (pad_idle h.rep ht).2⟩, rfl⟩)
  | wait =>
    rw [hp] at hphase
    obtain ⟨⟨b, hwait⟩, _⟩ := hphase
    dsimp only
    rw [lockSection_resume hwait]
    exact .inr (.inr ⟨_, ⟨rep_unblock h.rep th, fun t => .stay _, fun _ _ => rfl⟩, rfl⟩)
  | popped task =>
    rw [hp] at hphase
    obtain ⟨_, _, _, _, _, _, hseen⟩ := hphase
    dsimp only
    cases hc : d.cancelled
    · rw [if_neg Bool.false_ne_true]
      unfold examine
      split
      · exact .inl ⟨rfl, rfl, id⟩
      · split
        · exact .inl ⟨rfl, rfl, fun _ => rfl⟩
        · exact .inl ⟨rfl, rfl, id⟩
    · rw [if_pos rfl]
      exact .inr (.inl ⟨hseen.cancelled.symm.trans hc, rfl⟩)
  | cancelAll =>
    rw [hp] at hphase
    exact .inr (.inl ⟨hphase.2.2, rfl⟩)

omit [DecidableEq θ] in
theorem Readied.scheduled {queue s : State τ θ} (h : Readied queue s)
    (ht : scheduled queue t) : ExecuteQueue.scheduled s t := by
  have hadmitted := h.admitted t
  unfold ExecuteQueue.scheduled at ht ⊢
  generalize s.allTasks t = b at hadmitted ⊢
  rcases ht with ht | ht
  · rw [ht] at hadmitted
    cases hadmitted with
    | stay => exact .inl rfl
    | pad => exact .inr rfl
  · rw [ht] at hadmitted
    cases hadmitted with
    | stay => exact .inr rfl

/-! ## A task followed -/

/-- The task is in the queue or was popped. -/
def Accounted (t : τ) (d : Drain τ θ) : Prop :=
  d.eptr.isSome = true ∨ d.queue.allTasks t ≠ none ∨ ∃ failed, (t, failed) ∈ d.history

/-- The task is to run, runs, or has run. -/
def Runs (t : τ) (d : Drain τ θ) : Prop :=
  d.eptr.isSome = true ∨ scheduled d.queue t ∨ (d.queue.task t).state = .completed

theorem accounted_step (h : Inv th d) (ha : Accounted t d) (hstep : step th d l = some d') :
    Accounted t d' := by
  unfold Accounted at ha ⊢
  rcases step_cases hstep with ⟨_, _, rfl⟩ | ⟨ql, s', _, hl, hqueue, rfl, _, _⟩
  · rcases loop_cases h with ⟨hqueue, hhistory, heptr⟩ | ⟨heptr, _⟩ | ⟨s, hready, heq⟩
    · rw [hqueue, hhistory]
      exact ha.imp_left heptr
    · exact .inl heptr
    · rw [heq]
      have hin : d.queue.allTasks t ≠ none → s.allTasks t ≠ none := by
        intro hin hout
        have hadmitted := hready.admitted t
        generalize d.queue.allTasks t = a at hin hadmitted
        rw [hout] at hadmitted
        cases hadmitted
        contradiction
      rcases waitFirstReady_cases hready.rep th with ⟨_, _, hpop⟩ | ⟨u, _, hpop⟩ | ⟨_, hpop⟩
      · rw [hpop]
        exact ha.imp_right (Or.imp_left hin)
      · rw [hpop]
        show d.eptr.isSome = true ∨ (destroyReady u s).allTasks t ≠ none ∨
          ∃ failed, (t, failed) ∈ d.history ++ [(u, _)]
        rw [destroyReady_allTasks]
        rcases ha with heptr | hqueue | ⟨failed, hmem⟩
        · exact .inl heptr
        · obtain rfl | htu := eq_or_ne t u
          · exact .inr (.inr ⟨_, List.mem_append_right _ (List.mem_singleton_self _)⟩)
          · rw [if_neg htu]
            exact .inr (.inl (hin hqueue))
        · exact .inr (.inr ⟨failed, List.mem_append_left _ hmem⟩)
      · rw [hpop]
        show d.eptr.isSome = true ∨ s.allTasks t ≠ none ∨ ∃ failed, (t, failed) ∈ d.history ++ []
        rw [List.append_nil]
        exact ha.imp_right (Or.imp_left hin)
  · exact ha.imp_right (Or.imp_left (tag_taskStep h.rep h.keeps hl hqueue t).1)

theorem runs_step (h : Inv th d) (hr : Runs t d) (hstep : step th d l = some d') : Runs t d' := by
  unfold Runs at hr ⊢
  rcases step_cases hstep with ⟨_, _, rfl⟩ | ⟨ql, s', _, hl, hqueue, rfl, _, _⟩
  · rcases loop_cases h with ⟨hqueue, _, heptr⟩ | ⟨heptr, _⟩ | ⟨s, hready, heq⟩
    · rw [hqueue]
      exact hr.imp_left heptr
    · exact .inl heptr
    · have hruns : d.eptr.isSome = true ∨ scheduled s t ∨ (s.task t).state = .completed := by
        rcases hr with heptr | hscheduled | hdone
        · exact .inl heptr
        · exact .inr (.inl (hready.scheduled hscheduled))
        · by_cases hs : scheduled s t
          · exact .inr (.inl hs)
          · exact .inr (.inr (by rw [hready.task t hs, hdone]))
      rw [heq]
      rcases waitFirstReady_cases hready.rep th with ⟨_, _, hpop⟩ | ⟨u, hu, hpop⟩ | ⟨_, hpop⟩
      · rwa [hpop]
      · rw [hpop]
        refine hruns.imp_right (Or.imp_left fun hs => ?_)
        unfold scheduled at hs ⊢
        show (destroyReady u s).allTasks t = _ ∨ (destroyReady u s).allTasks t = _
        rw [destroyReady_allTasks]
        by_cases htu : t = u
        · rw [htu, hu] at hs
          simp at hs
        · rwa [if_neg htu]
      · rwa [hpop]
  · rcases hr with heptr | hscheduled | hdone
    · exact .inl heptr
    · by_cases hs : scheduled s' t
      · exact .inr (.inl hs)
      · rcases taskStep_idle h.rep hl hqueue hs with ⟨_, hdone⟩ | ⟨hidle, _⟩
        · exact .inr (.inr hdone)
        · exact absurd hscheduled hidle
    · by_cases hs : scheduled s' t
      · exact .inr (.inl hs)
      · rcases taskStep_idle h.rep hl hqueue hs with ⟨_, hdone'⟩ | ⟨_, hsame⟩
        · exact .inr (.inr hdone')
        · exact .inr (.inr (by rw [hsame, hdone]))

/-! ## No failure -/

/-- No task which is ready has failed. -/
def NoneFailed (s : State τ θ) : Prop :=
  ∀ t, s.allTasks t = some .ready → (s.task t).isFailed = false

theorem history_step (h : Inv th d) (hfine : NoneFailed d.queue)
    (hhistory : ∀ x ∈ d.history, x.2 = false) (hstep : step th d l = some d') :
    ∀ x ∈ d'.history, x.2 = false := by
  rcases step_cases hstep with ⟨_, _, rfl⟩ | ⟨ql, s', _, hl, hqueue, rfl, _, _⟩
  · rcases loop_cases h with ⟨_, hsame, _⟩ | ⟨_, hsame⟩ | ⟨s, hready, heq⟩
    · rwa [hsame]
    · rwa [hsame]
    · rw [heq]
      rcases waitFirstReady_cases hready.rep th with ⟨_, _, hpop⟩ | ⟨u, hu, hpop⟩ | ⟨_, hpop⟩
      · rwa [hpop]
      · rw [hpop]
        have hadmitted := hready.admitted u
        rw [hu] at hadmitted
        have hready' : d.queue.allTasks u = some .ready := by
          generalize d.queue.allTasks u = a at hadmitted
          cases hadmitted
          rfl
        have hfailed : (s.task u).isFailed = false := by
          rw [hready.task u (not_scheduled_iff.mpr (.inr hu)), hfine u hready']
        intro x hx
        rcases List.mem_append.mp hx with hx | hx
        · exact hhistory x hx
        · rwa [List.mem_singleton.mp hx]
      · rw [hpop]
        show ∀ x ∈ d.history ++ [], x.2 = false
        rwa [List.append_nil]
  · exact hhistory

omit [DecidableEq τ] in
theorem firstFailed_eq_none_iff (history : List (τ × Bool)) :
    firstFailed history = none ↔ ∀ x ∈ history, x.2 = false := by
  simp [firstFailed]

/-! ## Whole drains -/

section Runs

variable {queue : State τ θ} {ls ls₁ ls₂ : List (Label τ)} {d₁ : Drain τ θ}

theorem inv_run (h : Inv th d) (hrun : run (step th) d ls = some d') : Inv th d' :=
  run_invariant (C := fun _ _ => True) (fun _ _ _ hI _ hs => inv_step hI hs) h
    along_true hrun

/-- What a step keeps under the invariant, the rest of the run keeps. -/
theorem kept_after {P : Drain τ θ → Prop}
    (hstep : ∀ d l d', Inv th d → P d → step th d l = some d' → P d')
    (h : Inv th d) (hrun : run (step th) d ls = some d') (hls : ls = ls₁ ++ ls₂)
    (hrun₁ : run (step th) d ls₁ = some d₁) (hP : P d₁) : P d' := by
  rw [hls] at hrun
  obtain ⟨m, hm, hrest⟩ := Transition.run_append_eq_some.mp hrun
  obtain rfl : m = d₁ := Option.some.inj (hm.symm.trans hrun₁)
  have hboth := run_invariant (P := fun d => Inv th d ∧ P d) (C := fun _ _ => True)
    (fun d l d' hd _ hs => ⟨inv_step hd.1 hs, hstep d l d' hd.1 hd.2 hs⟩)
    ⟨inv_run h hm, hP⟩ along_true hrest
  exact hboth.2

theorem history_run (h : Inv th d) (hhistory : ∀ x ∈ d.history, x.2 = false)
    (hfine : Transition.Along (step th) (fun d _ => NoneFailed d.queue) d ls)
    (hrun : run (step th) d ls = some d') : ∀ x ∈ d'.history, x.2 = false :=
  (run_invariant (P := fun d : Drain τ θ => Inv th d ∧ ∀ x ∈ d.history, x.2 = false)
    (fun _ _ _ hd hf hs => ⟨inv_step hd.1 hs, history_step hd.1 hf hd.2 hs⟩) ⟨h, hhistory⟩ hfine
    hrun).2

theorem lively_run {limit : Nat} (h : Lively th limit d)
    (hharmless : limit = 0 ∨ ∀ l ∈ ls, l.retains = false)
    (hrun : run (step th) d ls = some d') : Lively th limit d' := by
  refine run_invariant (C := fun _ l => Harmless limit l)
    (fun _ _ _ hd hl hs => lively_step hd hl hs) h ?_ hrun
  refine Transition.along_of_splits fun ls₁ l ls₂ m hls _ => ?_
  exact hharmless.imp_right fun hall => hall l (by rw [hls]; simp)

omit [DecidableEq τ] [DecidableEq θ] in
theorem result_eq_some {r : Result τ} :
    d.result = some r ↔
      d.phase = .returned ∧ ((d.eptr = none ∧ r = .returns) ∨ ∃ t, d.eptr = some t ∧ r = .throws t) := by
  unfold Drain.result
  cases d.phase <;> cases d.eptr <;> simp [eq_comm]

/-- A drain, as the function promises it. When it has ended nothing is in
the queue and nothing executes; it throws the failure of the first task
popped as failed, and of no other. If it returns, every task which was in
the queue at any point was popped, and each which was scheduled has
completed; that is how it ends when no task fails. It does end: a state
in which no task executes and the loop cannot go on is one in which it
has, and all steps but spurious wake-ups and those which bring work in
are bounded by the work there is. -/
theorem executeQueue_drains (hqueue : ExecutionQueue.Reachable queue) (hkeep : keepsAll queue)
    (hawake : queue.waiting th = none)
    (hrun : Transition.run (step th) (start queue) ls = some d) :
    (∀ r, d.result = some r →
      (d.queue.pending = [] ∧ d.queue.executing = [] ∧ d.queue.ready = []) ∧
      (∀ t, r = .throws t ↔ firstFailed d.history = some t) ∧
      (r = .returns → ∀ ls₁ ls₂ d₁ t, ls = ls₁ ++ ls₂ →
        Transition.run (step th) (start queue) ls₁ = some d₁ →
        (d₁.queue.allTasks t ≠ none → (t, false) ∈ d.history) ∧
          (scheduled d₁.queue t → (d.queue.task t).state = .completed))) ∧
    (Transition.Along (step th) (fun d _ => NoneFailed d.queue) (start queue) ls →
      ∀ r, d.result = some r → r = .returns) ∧
    (queue.maxReadyOrExecuting = 0 ∨ (∀ l ∈ ls, l.retains = false) →
      (∀ t, d.queue.allTasks t ≠ some .executing) → enabled th d .loop = false →
      ∃ r, d.result = some r) ∧
    ls.countP Label.productive ≤ weight th (start queue) + 10 * ls.countP Label.adds := by
  have hstart : Inv th (start queue) := inv_start (rep_of_reachable hqueue) hkeep hawake
  have hinv := inv_run hstart hrun
  have hended : ∀ r, d.result = some r →
      Seen d d.history ∧ isEmptyInternal d.queue = true ∧
        ((d.eptr = none ∧ r = .returns) ∨ ∃ t, d.eptr = some t ∧ r = .throws t) := by
    intro r hr
    obtain ⟨hp, hcases⟩ := result_eq_some.mp hr
    have hphase := hinv.phase
    rw [hp] at hphase
    exact ⟨hphase.2.1, hphase.2.2, hcases⟩
  refine ⟨fun r hr => ?_, fun hfine r hr => ?_, fun hharmless hidle hstuck => ?_,
    run_productive hstart hrun⟩
  · obtain ⟨hseen, hempty, hcases⟩ := hended r hr
    refine ⟨?_, fun t => ?_, ?_⟩
    · simpa [isEmptyInternal, and_assoc] using hempty
    · rw [← hseen.eptr]
      rcases hcases with ⟨hnone, rfl⟩ | ⟨u, hsome, rfl⟩
      · simp [hnone]
      · simp [hsome]
    · rintro rfl ls₁ ls₂ d₁ t hls hrun₁
      have hnone : d.eptr = none := by
        rcases hcases with ⟨hnone, _⟩ | ⟨u, _, hthrows⟩
        · exact hnone
        · exact absurd hthrows (by simp)
      have hgone := (isEmpty_iff hinv.rep).mp hempty t
      have hfine : ∀ x ∈ d.history, x.2 = false :=
        (firstFailed_eq_none_iff d.history).mp (hseen.eptr.symm.trans hnone)
      constructor
      · intro hin
        have haccounted : Accounted t d := kept_after
          (fun _ _ _ hd ha hs => accounted_step hd ha hs) hstart hrun hls hrun₁ (.inr (.inl hin))
        rcases haccounted with hsome | hin' | ⟨failed, hmem⟩
        · simp [hnone] at hsome
        · exact absurd hgone hin'
        · obtain rfl : failed = false := hfine _ hmem
          exact hmem
      · intro hscheduled
        have hruns : Runs t d := kept_after
          (fun _ _ _ hd hr hs => runs_step hd hr hs) hstart hrun hls hrun₁ (.inr (.inl hscheduled))
        rcases hruns with hsome | hleft | hdone
        · simp [hnone] at hsome
        · unfold scheduled at hleft
          simp [hgone] at hleft
        · exact hdone
  · obtain ⟨hseen, _, hcases⟩ := hended r hr
    have hfirst := (firstFailed_eq_none_iff d.history).mpr
      (history_run hstart (by simp [start]) hfine hrun)
    rcases hcases with ⟨_, hreturns⟩ | ⟨t, hsome, _⟩
    · exact hreturns
    · rw [hseen.eptr, hfirst] at hsome
      exact absurd hsome (by simp)
  · have hlively : Lively th queue.maxReadyOrExecuting (start queue) :=
      ⟨hstart, rfl, fun hwait => absurd hwait (by simp [start])⟩
    have hreturned := returned_of_idle (lively_run hlively hharmless hrun) hidle hstuck
    cases heptr : d.eptr with
    | none => exact ⟨.returns, result_eq_some.mpr ⟨hreturned, .inl ⟨heptr, rfl⟩⟩⟩
    | some t => exact ⟨.throws t, result_eq_some.mpr ⟨hreturned, .inr ⟨t, heptr, rfl⟩⟩⟩

end Runs

/-! ## Three drains -/

/-- A queue which keeps its tasks and runs one at a time, with two in it. -/
def twoTasks : State Nat Unit :=
  pushInternalNoLock true 1 false (pushInternalNoLock true 0 false (State.init 7 1 fun _ => {}))

/-- The first task pushes a third and fails. -/
def failingRun : List (Label Nat) :=
  [.loop, .loop, .push 0 true false 2, .onReady 0 true .none, .loop, .loop, .loop, .loop, .loop,
    .onReady 1 false .none, .loop, .loop, .loop]

theorem executeQueue_drains_failingRun :
    ∃ d : Drain Nat Unit,
      Transition.run (step ()) (start twoTasks) failingRun = some d ∧
      d.result = some (.throws 0) ∧
      (d.queue.pending = [] ∧ d.queue.executing = [] ∧ d.queue.ready = []) ∧
      firstFailed d.history = some 0 := by
  have hqueue : ExecutionQueue.Reachable twoTasks :=
    ⟨_, [.push true false 0, .push true false 1], ⟨7, 1, fun _ => {}, rfl⟩, rfl⟩
  refine ⟨_, rfl, rfl, ?_⟩
  have hrun : Transition.run (step ()) (start twoTasks) failingRun = some _ := rfl
  have hdrains := (executeQueue_drains hqueue ⟨rfl, rfl⟩ rfl hrun).1 (.throws 0) rfl
  exact ⟨hdrains.1, (hdrains.2.1 0).mp rfl⟩

/-- A queue with one task, pushed as ready. -/
def retainedQueue : State (Fin 2) Unit :=
  pushInternalNoLock true 0 true (State.init 7 0 fun _ => {})

/-- A queue which one ready task fills, with one task which executes. -/
def limitedQueue : State (Fin 2) Unit :=
  pushInternalNoLock true 0 false (setNotifyCallback (some 1) 7 (State.init 7 0 fun _ => {}))

/-- A task pushed as ready is popped without ever running. And when a task
pushes another as ready while the loop sleeps, nobody signals the loop:
if the queue is full then and the task goes on as itself, nothing
executes any more and the loop sleeps on. -/
theorem retained_never_runs :
    (ExecutionQueue.Reachable retainedQueue ∧ keepsAll retainedQueue ∧
      retainedQueue.allTasks 0 ≠ none ∧
      ∃ d : Drain (Fin 2) Unit,
        Transition.run (step ()) (start retainedQueue) [.loop, .loop, .loop, .loop] = some d ∧
        d.history = [(0, false)] ∧ d.result = some .returns ∧
        (d.queue.task 0).state = .created) ∧
    ExecutionQueue.Reachable limitedQueue ∧ keepsAll limitedQueue ∧
    ∃ d : Drain (Fin 2) Unit,
      Transition.run (step ()) (start limitedQueue)
        [.loop, .loop, .push 0 true true 1, .onReady 0 false (.task 0)] = some d ∧
      (∀ t, d.queue.allTasks t ≠ some .executing) ∧ enabled () d .loop = false ∧
      d.queue.ready = [1] ∧ d.result = none :=
  ⟨⟨⟨_, [.push true true 0], ⟨7, 0, fun _ => {}, rfl⟩, rfl⟩, ⟨rfl, rfl⟩, by decide,
      _, rfl, rfl, rfl, rfl⟩,
    ⟨_, [.setNotifyCallback (some 1) 7, .push true false 0], ⟨7, 0, fun _ => {}, rfl⟩, rfl⟩,
    ⟨rfl, rfl⟩, _, rfl, by decide, rfl, rfl, rfl⟩

end Baselib.Tasks.ExecuteQueue
