/-
Baselib.Tasks.ExecutionQueueThrottle — when the queue leaves no pending
task waiting that its throttle would admit.

Every operation pads the queue, but the ones which take a ready task out
pad before they do. A task held back by the limit of ready and executing
tasks is then admitted by the next operation only. `Conserves` says for
each section that this does not happen; a run stays work conserving
exactly when all of its sections do.
-/
import Baselib.Tasks.ExecutionQueueTheorems

namespace Baselib.Tasks.ExecutionQueue

open Lib

variable {τ θ : Type*} [DecidableEq τ]

/-! ## Work conservation -/

/-- No task is pending, or one of the limits is reached. -/
def WorkConserving (s : State τ θ) : Prop :=
  s.pending = [] ∨
    (s.maxExecuting ≠ 0 ∧ s.maxExecuting ≤ s.executing.length) ∨
    (s.maxReadyOrExecuting ≠ 0 ∧ s.maxReadyOrExecuting ≤ s.ready.length + s.executing.length)

/-- The queue stays throttled with one ready task less. -/
def ThrottledWithout (s : State τ θ) : Prop :=
  s.pending = [] ∨
    (s.maxExecuting ≠ 0 ∧ s.maxExecuting ≤ s.executing.length) ∨
    (s.maxReadyOrExecuting ≠ 0 ∧ s.maxReadyOrExecuting < s.ready.length + s.executing.length)

/-- A section which takes a ready task out finds the queue throttled
without it. -/
def Conserves (s : State τ θ) : Label τ θ → Prop
  | .getFirstReady _ _ remove => remove = true → s.ready ≠ [] → ThrottledWithout s
  | .wait _ t _ _ => s.allTasks t = some .ready → ThrottledWithout s
  | .resume th =>
    match s.waiting th with
    | some ⟨.ready remove, _⟩ => remove = true → s.ready ≠ [] → ThrottledWithout s
    | some ⟨.task t, _⟩ => s.allTasks t = some .ready → ThrottledWithout s
    | _ => True
  | _ => True

section Sections

variable {s s' : State τ θ} {t : τ}

theorem settled_iff (h : Rep s) : Settled s ↔ WorkConserving s := by
  unfold Settled WorkConserving
  rw [throttled_iff, h.executingCount, h.readyCount]

omit [DecidableEq τ] in
/-- More tasks of the kinds the limits count, and none more pending. -/
theorem Settled.mono (h : Settled s) (hpending : s.pending = [] → s'.pending = [])
    (hmax : s'.maxExecuting = s.maxExecuting)
    (hmaxRoE : s'.maxReadyOrExecuting = s.maxReadyOrExecuting)
    (hexec : s.executingCount ≤ s'.executingCount)
    (hboth : s.readyCount + s.executingCount ≤ s'.readyCount + s'.executingCount) :
    Settled s' := by
  unfold Settled at *
  rw [throttled_iff] at *
  rw [hmax, hmaxRoE]
  rcases h with h | h | h
  · exact .inl (hpending h)
  · exact .inr (.inl ⟨h.1, Nat.le_trans h.2 hexec⟩)
  · exact .inr (.inr ⟨h.1, Nat.le_trans h.2 hboth⟩)

/-- A ready task is taken out after the queue was padded. -/
theorem settled_destroyReady (h : Rep s) (ht : s.allTasks t = some .ready) :
    Settled (destroyReady t s) ↔ ThrottledWithout s := by
  have hpos := h.ready_pos ht
  have hpending : s.pending.erase t = s.pending := h.erase_pending (by simp [ht])
  unfold Settled ThrottledWithout
  rw [throttled_iff]
  show s.pending.erase t = [] ∨
    (s.maxExecuting ≠ 0 ∧ s.maxExecuting ≤ s.executingCount) ∨
      (s.maxReadyOrExecuting ≠ 0 ∧ s.maxReadyOrExecuting ≤ s.readyCount - 1 + s.executingCount) ↔ _
  rw [hpending, h.executingCount, h.readyCount]
  have hstrict : s.maxReadyOrExecuting ≤ s.ready.length - 1 + s.executing.length ↔
      s.maxReadyOrExecuting < s.ready.length + s.executing.length := by omega
  rw [hstrict]

theorem settled_takeFirstReady (h : Rep s) (hset : Settled s) (remove : Bool) :
    Settled (takeFirstReady remove s).1 ↔
      (remove = true → s.ready ≠ [] → ThrottledWithout s) := by
  unfold takeFirstReady
  split
  · rename_i hnil
    exact iff_of_true hset fun _ hne => absurd hnil hne
  · rename_i t r hready
    cases remove
    · exact iff_of_true hset fun hfalse => absurd hfalse Bool.false_ne_true
    · have ht : s.allTasks t = some .ready := h.mem_ready.mp (hready ▸ List.mem_cons_self)
      rw [if_pos rfl, settled_destroyReady h ht]
      simp [hready]

theorem settled_moveToFront (h : Rep s) (hset : Settled s) (ht : s.allTasks t = some .pending) :
    Settled (moveToFront t s) := by
  have hne : s.pending ≠ [] := List.ne_nil_of_mem (h.mem_pending.mpr ht)
  exact hset.mono (fun hnil => absurd hnil hne) rfl rfl (Nat.le_refl _) (Nat.le_refl _)

theorem settled_destroyPending (hset : Settled s) (t : τ) : Settled (unlinkAndDestroy t s) := by
  refine hset.mono (fun hnil => ?_) rfl rfl (Nat.le_refl _) (Nat.le_refl _)
  show s.pending.erase t = []
  rw [hnil, List.erase_nil]

theorem settled_finishFlush (h : Rep s) (hnil : s.pending = [])
    (nothrowIfFailed discardReady : Bool) :
    Settled (finishFlush nothrowIfFailed discardReady s).1 := by
  have hclear : Settled (clearReady s) :=
    .inl ((h.clearReady.others .pending (by simp)).trans hnil)
  unfold finishFlush
  split
  · exact hclear
  · cases discardReady
    · exact .inl hnil
    · exact hclear

omit [DecidableEq τ] in
theorem settled_formCandidate (h : Settled s) : Settled (formCandidate s) := by
  unfold formCandidate
  split <;> exact h

theorem settled_onReady (failed : Bool) (continuation : Continuation τ) :
    Settled (onReady t failed continuation s) := by
  have hcomplete : ∀ s₁ : State τ θ, Settled (completeTask t s₁) := by
    intro s₁
    rw [completeTask_eq]
    exact pad_settled (retireTask t (keepOutcome (s₁.task t).hasException s₁) s₁)
  unfold onReady
  apply settled_formCandidate
  cases continuation with
  | none => exact hcomplete _
  | throws => exact hcomplete _
  | task c =>
    dsimp only
    split
    · rw [continueTask_eq]
      exact pad_settled _
    · exact hcomplete _

theorem settled_prepareWait (h : Rep s) (hset : Settled s) {owner : OwnerQueue}
    (ht : s.allTasks t = some owner) (prioritize cancel : Bool) :
    Settled (prepareWait t prioritize cancel owner s) := by
  cases prioritize <;> cases cancel <;> cases owner <;>
    first | exact hset | exact settled_moveToFront h hset ht

variable [DecidableEq θ] {th : θ}

theorem settled_waitFirstReady (h : Rep s) (hset : Settled s) (remove : Bool) :
    Settled (waitFirstReady th remove s).1 ↔
      (remove = true → s.ready ≠ [] → ThrottledWithout s) := by
  unfold waitFirstReady
  split
  · rename_i hblock
    simp only [Bool.and_eq_true, List.isEmpty_iff] at hblock
    exact iff_of_true hset fun _ hne => absurd hblock.1 hne
  · exact settled_takeFirstReady h hset remove

theorem settled_waitTask (h : Rep s) (hset : Settled s) (t : τ) :
    Settled (waitTask th t s).1 ↔ (s.allTasks t = some .ready → ThrottledWithout s) := by
  unfold waitTask
  rw [pad_of_settled hset]
  dsimp only
  split
  · rename_i hnone
    exact iff_of_true hset fun ht => by simp [hnone] at ht
  · rename_i ht
    rw [settled_destroyReady h ht, forall_prop_of_true ht]
  · rename_i owner hready howner
    refine iff_of_true hset fun ht => ?_
    exact absurd (Option.some.inj (howner.symm.trans ht)) hready

theorem settled_endFlush (h : Rep s) (hset : Settled s) (wait nothrowIfFailed discardReady : Bool)
    (hnil : wait = false → s.pending = []) :
    Settled (endFlush th wait nothrowIfFailed discardReady s).1 := by
  unfold endFlush waitFlush
  cases wait
  · exact settled_finishFlush h (hnil rfl) _ _
  · rw [if_pos rfl]
    split
    · exact hset
    · rename_i hidle
      simp only [hasPendingOrExecuting, Bool.or_eq_true, Bool.not_eq_true', not_or,
        Bool.not_eq_false, List.isEmpty_iff] at hidle
      exact settled_finishFlush h hidle.1 _ _

theorem settled_waitInternal (h : Rep s) (hset : Settled s) (t : τ) (prioritize cancel : Bool) :
    Settled (waitInternal th t prioritize cancel s).1 ↔
      (s.allTasks t = some .ready → ThrottledWithout s) := by
  unfold waitInternal
  rw [pad_of_settled hset]
  dsimp only
  split
  · rename_i hnone
    exact iff_of_true hset fun ht => by simp [hnone] at ht
  · rename_i owner howner
    split
    · rename_i hready
      subst hready
      rw [settled_destroyReady h howner, forall_prop_of_true howner]
    · rename_i hready
      have hnot : s.allTasks t = some .ready → ThrottledWithout s := fun ht =>
        absurd (Option.some.inj (howner.symm.trans ht)) hready
      refine iff_of_true ?_ hnot
      split
      · exact settled_destroyPending hset t
      · have htag : (prepareWait t prioritize cancel owner s).allTasks t = some owner := by
          rw [← howner]
          cases prioritize <;> cases cancel <;> cases owner <;> rfl
        refine (settled_waitTask (rep_prepareWait h howner prioritize cancel)
          (settled_prepareWait h hset howner prioritize cancel) t).mpr fun ht => ?_
        exact absurd (Option.some.inj (htag.symm.trans ht)) hready

theorem settled_flushInternal (h : Rep s) (hset : Settled s)
    (wait discardPending nothrowIfFailed discardReady cancelExecuting : Bool)
    (hpublic : (wait || discardPending) = true) :
    Settled (flushInternal th wait discardPending nothrowIfFailed discardReady
      cancelExecuting s).1 := by
  rw [flushInternal_eq, pad_of_settled hset]
  have hrep := rep_prepareFlush h discardPending cancelExecuting
  obtain ⟨hpending, hexecuting, hready⟩ := prepareFlush_lists h discardPending cancelExecuting
  have hcontrol := prepareFlush_control discardPending cancelExecuting s
  have hprepared : Settled (prepareFlush discardPending cancelExecuting s) := by
    refine hset.mono (fun hnil => ?_) (congrArg Control.maxExecuting hcontrol)
      (congrArg Control.maxReadyOrExecuting hcontrol) ?_ ?_
    · rw [hpending, hnil, ite_self]
    · exact Nat.le_of_eq (by rw [hrep.executingCount, hexecuting, h.executingCount])
    · exact Nat.le_of_eq (by rw [hrep.executingCount, hexecuting, hrep.readyCount, hready,
        h.executingCount, h.readyCount])
  cases discardPending
  · have hwait : wait = true := by simpa using hpublic
    rw [if_neg Bool.false_ne_true]
    split
    · exact hset
    · exact settled_endFlush hrep hprepared wait nothrowIfFailed discardReady fun hfalse =>
        absurd (hwait.symm.trans hfalse) (by simp)
  · rw [if_pos rfl]
    split
    · exact hset
    · exact settled_endFlush hrep hprepared wait nothrowIfFailed discardReady fun _ => hpending

theorem settled_resume (h : Rep s) (hset : Settled s) (hsome : s.waiting th ≠ none) :
    Settled (resume th s).1 ↔ Conserves s (.resume th) := by
  have hrep := rep_unblock h th
  unfold resume Conserves
  dsimp only
  cases hw : s.waiting th with
  | none => exact absurd hw hsome
  | some w =>
    obtain ⟨waiter, signalled⟩ := w
    cases waiter with
    | flush nothrowIfFailed discardReady =>
      refine iff_of_true ?_ trivial
      exact settled_endFlush (s := unblock th s) hrep hset true _ _ fun hfalse =>
        absurd hfalse (by simp)
    | ready remove => exact settled_waitFirstReady (s := unblock th s) hrep hset remove
    | task t => exact settled_waitTask (s := unblock th s) hrep hset t

end Sections

/-! ## One step -/

section Step

variable [DecidableEq θ] {s s' : State τ θ} {l : Label τ θ}

/-- A section of a settled queue leaves it settled exactly when it
conserves its work. -/
theorem settled_step (h : Rep s) (hset : Settled s) (hstep : step s l = some s') :
    Settled s' ↔ Conserves s l := by
  obtain ⟨hen, rfl⟩ := step_eq_some.mp hstep
  cases l with
  | push isBack dontSchedule t =>
    refine iff_of_true ?_ trivial
    show Settled (pushInternalNoLock isBack t dontSchedule s)
    rw [pushInternalNoLock_eq]
    exact pad_settled _
  | getFirstReady th wait remove =>
    show Settled (getFirstReady th wait remove s).1 ↔ _
    unfold getFirstReady
    rw [pad_of_settled hset]
    cases wait
    · exact settled_takeFirstReady h hset remove
    · exact settled_waitFirstReady h hset remove
  | wait th t prioritize cancel => exact settled_waitInternal h hset t prioritize cancel
  | prioritize t =>
    refine iff_of_true ?_ trivial
    show Settled (prioritize t s).1
    unfold prioritize
    split
    · exact hset
    · rename_i ht
      exact settled_moveToFront h hset ht
    · exact hset
  | flush th wait discardPending nothrowIfFailed discardReady cancelExecuting =>
    exact iff_of_true (settled_flushInternal h hset wait discardPending nothrowIfFailed
      discardReady cancelExecuting (Bool.and_eq_true_iff.mp hen).2) trivial
  | cancel t =>
    refine iff_of_true ?_ trivial
    show Settled (cancel t s).1
    unfold cancel
    split
    · dsimp only
      split
      · refine hset.mono (fun hnil => ?_) rfl rfl (Nat.le_refl _)
          (Nat.add_le_add_right (Nat.le_succ _) _)
        show s.pending.erase t = []
        rw [hnil, List.erase_nil]
      · exact settled_destroyPending hset t
    · exact hset
  | setOptions _ | disconnectObserver => exact iff_of_true hset trivial
  | setThrottleLimit _ | setNotifyCallback _ _ => exact iff_of_true (pad_settled _) trivial
  | onReady t failed continuation =>
    exact iff_of_true (settled_onReady failed continuation) trivial
  | validateCandidate generation =>
    refine iff_of_true ?_ trivial
    show Settled (validateCandidate generation s)
    unfold validateCandidate notifyEvent
    dsimp only
    split
    · split <;> exact hset
    · exact hset
  | resume th => exact settled_resume h hset (Option.isSome_iff_ne_none.mp hen)

end Step

/-! ## Every run -/

section Run

variable [DecidableEq θ]

/-- A run is work conserving in every state it reaches exactly when no
section of it takes a ready task out of a queue which the limit of ready
and executing tasks just holds back. -/
theorem run_workConserving_iff (options maxExecuting : Nat) (task : τ → TaskData)
    (ls : List (Label τ θ)) (s : State τ θ)
    (hrun : Transition.run step (State.init options maxExecuting task) ls = some s) :
    Transition.Throughout step WorkConserving (State.init options maxExecuting task) ls ↔
      Transition.Along step Conserves (State.init options maxExecuting task) ls := by
  refine Transition.throughout_iff_along (I := Rep) (fun _ _ _ => rep_step) ?_
    (rep_init options maxExecuting task) (.inl rfl) hrun
  intro s l s' h hconserving hstep
  rw [← settled_iff (rep_step h hstep)]
  exact settled_step h ((settled_iff h).mpr hconserving) hstep

/-- Three tasks, one executing at a time: the first one is popped while
the second one executes. -/
def popFirst : List (Label Nat Unit) :=
  [.push true false 0, .push true false 1, .push true false 2, .onReady 0 false .none,
    .getFirstReady () true true]

theorem run_workConserving_popFirst :
    Transition.Throughout step WorkConserving (State.init optionKeepSuccessful 1 fun _ => {})
      popFirst := by
  refine (run_workConserving_iff optionKeepSuccessful 1 (fun _ => {}) popFirst _ rfl).mpr
    ⟨trivial, fun s₁ h₁ => ⟨trivial, fun s₂ h₂ => ⟨trivial, fun s₃ h₃ => ⟨trivial, fun s₄ h₄ =>
      ⟨fun _ _ => .inr (.inl ?_), fun _ _ => trivial⟩⟩⟩⟩⟩
  obtain rfl := Option.some.inj h₁
  obtain rfl := Option.some.inj h₂
  obtain rfl := Option.some.inj h₃
  obtain rfl := Option.some.inj h₄
  decide

/-- With one task allowed to be ready or executing, the pop of the ready
one leaves the pending one where it is. -/
theorem pop_leaves_pending :
    ∃ s : State (Fin 2) Unit,
      Transition.run step (State.init optionKeepSuccessful 0 fun _ => {})
        [.setNotifyCallback (some 1) 7, .push true false 0, .push true false 1,
          .onReady 0 false .none, .getFirstReady () true true] = some s ∧
      s.pending = [1] ∧ s.executing = [] ∧ s.ready = [] ∧ ¬ WorkConserving s :=
  ⟨_, rfl, rfl, rfl, rfl, by unfold WorkConserving; decide⟩

end Run

end Baselib.Tasks.ExecutionQueue
