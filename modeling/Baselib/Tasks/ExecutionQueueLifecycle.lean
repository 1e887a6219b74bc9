/-
Baselib.Tasks.ExecutionQueueLifecycle — the way of one task through the
queue.

Seen from one task, the queue is a small machine: the task is absent,
pending, executing or ready, and a lock section moves it along one of the
edges of `Edit`. Padding may admit it before or after the edge. The
theorem of this module is that the queue refines that machine; which
sections take a task out, and which put one in, are read off the edges.
-/
import Baselib.Tasks.ExecutionQueueTheorems

namespace Baselib.Tasks.ExecutionQueue

open Lib

variable {τ θ : Type*} [DecidableEq τ]

/-! ## The edges -/

/-- A task which throws for its continuation has failed. -/
def Continuation.failed (continuation : Continuation τ) (failed : Bool) : Bool :=
  failed || continuation == .throws

/-- Padding admits a pending task, or leaves it. -/
inductive Admitted : Option OwnerQueue → Option OwnerQueue → Prop
  | stay (a : Option OwnerQueue) : Admitted a a
  | pad : Admitted (some .pending) (some .executing)

/-- What a lock section does to the tag of one task, padding apart. -/
inductive Edit (s : State τ θ) :
    Label τ θ → τ → Option OwnerQueue → Option OwnerQueue → Prop
  | stay (l : Label τ θ) (u : τ) (a : Option OwnerQueue) : Edit s l u a a
  | push (isBack : Bool) (u : τ) {a : Option OwnerQueue} :
      a = none ∨ a = some .ready → Edit s (.push isBack false u) u a (some .pending)
  | pushReady (isBack : Bool) (u : τ) : Edit s (.push isBack true u) u none (some .ready)
  | continuation (t : τ) (failed : Bool) (c : τ) {a : Option OwnerQueue} : c ≠ t →
      a = none ∨ a = some .ready → Edit s (.onReady t failed (.task c)) c a (some .pending)
  | continueSelf (t : τ) (failed : Bool) :
      Edit s (.onReady t failed (.task t)) t (some .executing) (some .pending)
  | keep (t : τ) (failed : Bool) (c : Continuation τ) : c ≠ .task t →
      keepOutcome (c.failed failed) s = true →
      Edit s (.onReady t failed c) t (some .executing) (some .ready)
  | discard (t : τ) (failed : Bool) (c : Continuation τ) : c ≠ .task t →
      keepOutcome (c.failed failed) s = false →
      Edit s (.onReady t failed c) t (some .executing) none
  | cancelKeep (t : τ) : s.hasOption optionKeepCanceled = true →
      Edit s (.cancel t) t (some .pending) (some .ready)
  | cancel (t : τ) : s.hasOption optionKeepCanceled = false →
      Edit s (.cancel t) t (some .pending) none
  | waitReady (th : θ) (t : τ) (prioritize cancel : Bool) :
      Edit s (.wait th t prioritize cancel) t (some .ready) none
  | waitCancel (th : θ) (t : τ) (prioritize : Bool) :
      Edit s (.wait th t prioritize true) t (some .pending) none
  | pop (th : θ) (wait : Bool) (t : τ) : s.ready.head? = some t →
      Edit s (.getFirstReady th wait true) t (some .ready) none
  | flushPending (th : θ) (wait nothrowIfFailed discardReady cancelExecuting : Bool) (u : τ) :
      Edit s (.flush th wait true nothrowIfFailed discardReady cancelExecuting) u
        (some .pending) none
  | flushReady (th : θ) (wait discardPending nothrowIfFailed discardReady cancelExecuting : Bool)
      (u : τ) : discardReady = true ∨ nothrowIfFailed = false →
      Edit s (.flush th wait discardPending nothrowIfFailed discardReady cancelExecuting) u
        (some .ready) none
  | resumeFlush (th : θ) (nothrowIfFailed discardReady signalled : Bool) (u : τ) :
      s.waiting th = some ⟨.flush nothrowIfFailed discardReady, signalled⟩ →
      discardReady = true ∨ nothrowIfFailed = false →
      Edit s (.resume th) u (some .ready) none
  | resumePop (th : θ) (signalled : Bool) (t : τ) :
      s.waiting th = some ⟨.ready true, signalled⟩ → s.ready.head? = some t →
      Edit s (.resume th) t (some .ready) none
  | resumeWait (th : θ) (signalled : Bool) (t : τ) :
      s.waiting th = some ⟨.task t, signalled⟩ → Edit s (.resume th) t (some .ready) none

theorem Admitted.trans {a b c : Option OwnerQueue} (h : Admitted a b) (h' : Admitted b c) :
    Admitted a c := by
  cases h with
  | stay => exact h'
  | pad =>
    cases h' with
    | stay => exact .pad

/-- One section as its edge, between two admissions. -/
def Moves (s : State τ θ) (l : Label τ θ) (u : τ) (a b : Option OwnerQueue) : Prop :=
  ∃ a' b', Admitted a a' ∧ Edit s l u a' b' ∧ Admitted b' b

namespace Moves

variable {s : State τ θ} {l : Label τ θ} {u : τ} {a b c : Option OwnerQueue}

theorem stay (s : State τ θ) (l : Label τ θ) (u : τ) (a : Option OwnerQueue) :
    Moves s l u a a :=
  ⟨a, a, .stay a, .stay l u a, .stay a⟩

theorem edit (h : Edit s l u a b) : Moves s l u a b := ⟨a, b, .stay a, h, .stay b⟩

theorem admitted (h : Admitted a b) : Moves s l u a b := ⟨a, a, .stay a, .stay l u a, h⟩

theorem before (h : Admitted a b) (h' : Moves s l u b c) : Moves s l u a c := by
  obtain ⟨a', b', hb, he, hc⟩ := h'
  exact ⟨a', b', h.trans hb, he, hc⟩

theorem after (h : Moves s l u a b) (h' : Admitted b c) : Moves s l u a c := by
  obtain ⟨a', b', ha, he, hb⟩ := h
  exact ⟨a', b', ha, he, hb.trans h'⟩

end Moves

/-! ## The sections -/

section Sections

variable {s : State τ θ} {t u : τ} {th : θ}

theorem pad_admitted (h : Rep s) (u : τ) :
    Admitted (s.allTasks u) ((padExecutingQueueNothrow s).allTasks u) := by
  rw [pad_allTasks]
  split
  · rename_i hmem
    rw [h.mem_pending.mp (List.mem_of_mem_take hmem)]
    exact .pad
  · exact .stay _

omit [DecidableEq τ] in
@[simp] theorem notifyEvent_allTasks (eventId : Nat) (e : Event τ) (s : State τ θ) :
    (notifyEvent eventId e s).allTasks = s.allTasks := by
  unfold notifyEvent
  split <;> rfl

omit [DecidableEq τ] in
theorem formCandidate_allTasks (s : State τ θ) : (formCandidate s).allTasks = s.allTasks := by
  unfold formCandidate
  split <;> rfl

theorem setOwnerQueue_allTasks (t : τ) (owner : Option OwnerQueue) (s : State τ θ) (u : τ) :
    (setOwnerQueue t owner s).allTasks u = if u = t then owner else s.allTasks u :=
  Function.update_apply _ _ _ _

/-- A push moves the pushed task only. -/
theorem pushInternalNoLock_tag (h : Rep s) (isBack dontSchedule : Bool)
    (ht : s.allTasks t = none ∨ s.allTasks t = some .ready) (u : τ) :
    Admitted (if u = t then
        if dontSchedule then some .ready else some .pending
      else s.allTasks u)
      ((pushInternalNoLock isBack t dontSchedule s).allTasks u) := by
  have hlink := linkTask_linked h isBack dontSchedule ht
  rw [pushInternalNoLock_eq, ← hlink.allTasks]
  exact pad_admitted hlink.rep u

theorem retireTask_allTasks (t : τ) (keep : Bool) (s : State τ θ) (u : τ) :
    (retireTask t keep s).allTasks u =
      if u = t then (if keep then some .ready else none) else s.allTasks u := by
  unfold retireTask
  cases keep
  · rw [if_neg Bool.false_ne_true, notifyEvent_allTasks]
    exact setOwnerQueue_allTasks t none _ u
  · rw [if_pos rfl, notifyEvent_allTasks]
    exact setOwnerQueue_allTasks t (some .ready) _ u

/-- A completed task goes to the ready list or out. -/
theorem completeTask_tag (h : Rep s) (ht : s.allTasks t = some .executing) (u : τ) :
    Admitted (if u = t then if keepOutcome (s.task t).hasException s then some .ready else none
      else s.allTasks u) ((completeTask t s).allTasks u) := by
  rw [completeTask_eq, ← retireTask_allTasks]
  exact pad_admitted (rep_retireTask h ht _) u

theorem continueTask_tag (h : Rep s) (ht : s.allTasks t = some .executing) (u : τ) :
    Admitted (if u = t then some .pending else s.allTasks u) ((continueTask t s).allTasks u) := by
  rw [continueTask_eq, ← setOwnerQueue_allTasks]
  exact pad_admitted (rep_relinkTask h ht) u

/-- A push does not touch the data of an executing task. -/
theorem pushInternalNoLock_task (h : Rep s) (isBack dontSchedule : Bool) {c : τ}
    (hc : s.allTasks c = none ∨ s.allTasks c = some .ready)
    (ht : s.allTasks t = some .executing) :
    (pushInternalNoLock isBack c dontSchedule s).task t = s.task t := by
  have hlink := linkTask_linked h isBack dontSchedule hc
  have hne : t ≠ c := by
    intro e
    subst e
    rcases hc with hc | hc <;> simp [ht] at hc
  rw [pushInternalNoLock_eq, pad_task, hlink.task]
  rw [hlink.rep.mem_pending, hlink.allTasks, if_neg hne, ht]
  simp

/-- The end of a completion, from a state the other tasks moved to. -/
theorem completeTask_moves {s₁ : State τ θ} {failed : Bool} {c : Continuation τ}
    (h₁ : Rep s₁) (ht : s.allTasks t = some .executing) (ht₁ : s₁.allTasks t = some .executing)
    (hc : c ≠ .task t) (hoptions : s₁.options = s.options)
    (hfailed : (s₁.task t).hasException = c.failed failed)
    (hother : u ≠ t → Moves s (.onReady t failed c : Label τ θ) u (s.allTasks u) (s₁.allTasks u)) :
    Moves s (.onReady t failed c) u (s.allTasks u) ((completeTask t s₁).allTasks u) := by
  have htag := completeTask_tag h₁ ht₁ u
  have hkeep : keepOutcome (c.failed failed) s₁ = keepOutcome (c.failed failed) s := by
    unfold keepOutcome State.hasOption
    rw [hoptions]
  rw [hfailed, hkeep] at htag
  obtain rfl | hu := eq_or_ne u t
  · rw [if_pos rfl] at htag
    rw [ht]
    cases hout : keepOutcome (c.failed failed) s
    · rw [hout] at htag
      exact (Moves.edit (.discard u failed c hc hout)).after htag
    · rw [hout] at htag
      exact (Moves.edit (.keep u failed c hc hout)).after htag
  · rw [if_neg hu] at htag
    exact (hother hu).after htag

theorem onReady_moves (h : Rep s) (failed : Bool) (continuation : Continuation τ)
    (hen : enabled s (.onReady t failed continuation : Label τ θ) = true) (u : τ) :
    Moves s (.onReady t failed continuation) u (s.allTasks u)
      ((onReady t failed continuation s).allTasks u) := by
  have hnotify := rep_notifyReady h t failed
  have hdata : ((notifyReady t failed s).task t).hasException = failed :=
    by simp [notifyReady, State.updateTask]
  unfold onReady
  rw [formCandidate_allTasks]
  cases continuation with
  | none =>
    have ht : s.allTasks t = some .executing := by simpa [enabled] using hen
    refine completeTask_moves hnotify ht ht (by simp) rfl ?_ fun _ => Moves.stay _ _ _ _
    rw [hdata]
    exact (Bool.or_false failed).symm
  | throws =>
    have ht : s.allTasks t = some .executing := by simpa [enabled] using hen
    refine completeTask_moves (rep_updateTask hnotify t _) ht ht (by simp) rfl ?_
      fun _ => Moves.stay _ _ _ _
    simp [State.updateTask, Continuation.failed]
  | task c =>
    obtain ⟨ht, hc⟩ : s.allTasks t = some .executing ∧ (c = t ∨ pushable c s = true) := by
      simpa [enabled] using hen
    dsimp only
    split
    · rename_i hself
      subst hself
      have htag := continueTask_tag hnotify ht u
      obtain rfl | hu := eq_or_ne u c
      · rw [if_pos rfl] at htag
        rw [ht]
        exact (Moves.edit (.continueSelf u failed)).after htag
      · rw [if_neg hu] at htag
        exact Moves.admitted htag
    · rename_i hne
      have hpush := (pushable_iff c s).mp (hc.resolve_left hne)
      have htag := pushInternalNoLock_tag hnotify false false hpush u
      refine completeTask_moves (rep_pushInternalNoLock hnotify false false hpush) ht
        (pushInternalNoLock_executing hnotify false false hpush ht) (by simpa using hne) ?_ ?_
        fun _ => ?_
      · rw [pushInternalNoLock_eq, pad_options]
        exact congrArg Control.options (linkTask_linked hnotify false false hpush).control
      · rw [pushInternalNoLock_task hnotify false false hpush ht, hdata]
        exact (Bool.or_false failed).symm
      · obtain rfl | hu := eq_or_ne u c
        · rw [if_pos rfl] at htag
          exact (Moves.edit (.continuation t failed u hne hpush)).after htag
        · rw [if_neg hu] at htag
          exact Moves.admitted htag

theorem destroyReady_allTasks (t : τ) (s : State τ θ) (u : τ) :
    (destroyReady t s).allTasks u = if u = t then none else s.allTasks u :=
  setOwnerQueue_allTasks t none (unlink t s) u

/-- The first ready task is taken out, when it is to be removed. -/
theorem takeFirstReady_tag (h : Rep s) (remove : Bool) (u : τ) :
    (takeFirstReady remove s).1.allTasks u = s.allTasks u ∨
      remove = true ∧ s.ready.head? = some u ∧ s.allTasks u = some .ready ∧
        (takeFirstReady remove s).1.allTasks u = none := by
  unfold takeFirstReady
  split
  · exact .inl rfl
  · rename_i t r hready
    have ht : s.allTasks t = some .ready := h.mem_ready.mp (hready ▸ List.mem_cons_self)
    cases remove
    · exact .inl rfl
    · rw [if_pos rfl, destroyReady_allTasks]
      obtain rfl | hu := eq_or_ne u t
      · exact .inr ⟨rfl, by simp [hready], ht, if_pos rfl⟩
      · exact .inl (if_neg hu)

theorem finishFlush_tag (h : Rep s) (nothrowIfFailed discardReady : Bool) (u : τ) :
    (finishFlush nothrowIfFailed discardReady s).1.allTasks u = s.allTasks u ∨
      (discardReady = true ∨ nothrowIfFailed = false) ∧ s.allTasks u = some .ready ∧
        (finishFlush nothrowIfFailed discardReady s).1.allTasks u = none := by
  have hclear : ∀ P : Prop, P → (clearReady s).allTasks u = s.allTasks u ∨
      P ∧ s.allTasks u = some .ready ∧ (clearReady s).allTasks u = none := by
    intro P hP
    rw [h.clearReady.allTasks]
    by_cases hu : s.allTasks u = some .ready
    · exact .inr ⟨hP, hu, if_pos hu⟩
    · exact .inl (if_neg hu)
  unfold finishFlush
  split
  · rename_i t hfailed
    cases nothrowIfFailed
    · exact hclear _ (.inr rfl)
    · simp at hfailed
  · cases discardReady
    · exact .inl rfl
    · exact hclear _ (.inl rfl)

theorem prepareWait_allTasks (t : τ) (prioritize cancel : Bool) (owner : OwnerQueue)
    (s : State τ θ) : (prepareWait t prioritize cancel owner s).allTasks = s.allTasks := by
  cases prioritize <;> cases cancel <;> cases owner <;> rfl

theorem prioritize_moves (s : State τ θ) (t u : τ) :
    Moves s (.prioritize t : Label τ θ) u (s.allTasks u) ((prioritize t s).1.allTasks u) := by
  unfold prioritize
  split <;> exact Moves.stay _ _ _ _

theorem prepareFlush_tag (h : Rep s) (discardPending cancelExecuting : Bool) (u : τ) :
    (prepareFlush discardPending cancelExecuting s).allTasks u =
      if discardPending = true ∧ s.allTasks u = some .pending then none else s.allTasks u := by
  have hcancel : ∀ s' : State τ θ,
      (if cancelExecuting then cancelTasks s'.executing s' else s').allTasks = s'.allTasks := by
    intro s'
    split
    · exact cancelTasks_frame State.allTasks (fun _ _ => rfl) _ _
    · rfl
  unfold prepareFlush
  rw [hcancel]
  cases discardPending
  · rfl
  · rw [if_pos rfl, h.clearPending.allTasks]
    simp

theorem cancel_moves (s : State τ θ) (t u : τ) :
    Moves s (.cancel t : Label τ θ) u (s.allTasks u) ((cancel t s).1.allTasks u) := by
  unfold cancel
  split
  · rename_i ht
    by_cases hkeep : s.hasOption optionKeepCanceled = true
    · show Moves _ _ _ _ ((if _ then _ else _ : State τ θ).allTasks u)
      rw [if_pos hkeep]
      show Moves _ _ _ _ ((setOwnerQueue t (some .ready) (unlink t s)).allTasks u)
      rw [setOwnerQueue_allTasks]
      split
      · rename_i hu
        subst hu
        rw [ht]
        exact Moves.edit (.cancelKeep u hkeep)
      · exact Moves.stay _ _ _ _
    · show Moves _ _ _ _ ((if _ then _ else _ : State τ θ).allTasks u)
      rw [if_neg hkeep]
      show Moves _ _ _ _ ((setOwnerQueue t none (unlink t s)).allTasks u)
      rw [setOwnerQueue_allTasks]
      split
      · rename_i hu
        subst hu
        rw [ht]
        exact Moves.edit (.cancel u (Bool.not_eq_true _ ▸ hkeep))
      · exact Moves.stay _ _ _ _
  · exact Moves.stay _ _ _ _

variable [DecidableEq θ]

theorem waitFirstReady_tag (h : Rep s) (th : θ) (remove : Bool) (u : τ) :
    (waitFirstReady th remove s).1.allTasks u = s.allTasks u ∨
      remove = true ∧ s.ready.head? = some u ∧ s.allTasks u = some .ready ∧
        (waitFirstReady th remove s).1.allTasks u = none := by
  unfold waitFirstReady
  split
  · exact .inl rfl
  · exact takeFirstReady_tag h remove u

theorem getFirstReady_moves (h : Rep s) (th : θ) (wait remove : Bool) (u : τ) :
    Moves s (.getFirstReady th wait remove) u (s.allTasks u)
      ((getFirstReady th wait remove s).1.allTasks u) := by
  have hpad := pad_admitted h u
  have htake : (getFirstReady th wait remove s).1.allTasks u =
        (padExecutingQueueNothrow s).allTasks u ∨
      remove = true ∧ (padExecutingQueueNothrow s).ready.head? = some u ∧
        (padExecutingQueueNothrow s).allTasks u = some .ready ∧
        (getFirstReady th wait remove s).1.allTasks u = none := by
    unfold getFirstReady
    cases wait
    · exact takeFirstReady_tag h.pad remove u
    · exact waitFirstReady_tag h.pad th remove u
  rw [pad_ready] at htake
  rcases htake with hsame | ⟨hremove, hhead, htag, hnone⟩
  · rw [hsame]
    exact Moves.admitted hpad
  · subst hremove
    rw [hnone]
    rw [htag] at hpad
    exact Moves.before hpad (Moves.edit (.pop th wait u hhead))

theorem waitTask_tag (h : Rep s) (th : θ) (t u : τ) :
    (waitTask th t s).1.allTasks u = (padExecutingQueueNothrow s).allTasks u ∨
      u = t ∧ s.allTasks t = some .ready ∧ (waitTask th t s).1.allTasks u = none := by
  unfold waitTask
  dsimp only
  split
  · exact .inl rfl
  · rename_i ht
    rw [destroyReady_allTasks]
    by_cases hu : u = t
    · exact .inr ⟨hu, h.pad_allTasks_ready.mp ht, if_pos hu⟩
    · exact .inl (if_neg hu)
  · exact .inl rfl

theorem waitInternal_moves (h : Rep s) (th : θ) (t : τ) (prioritize cancel : Bool) (u : τ) :
    Moves s (.wait th t prioritize cancel) u (s.allTasks u)
      ((waitInternal th t prioritize cancel s).1.allTasks u) := by
  have hpad := pad_admitted h u
  unfold waitInternal
  dsimp only
  split
  · exact Moves.admitted hpad
  · rename_i owner howner
    split
    · rename_i hready
      subst hready
      rw [destroyReady_allTasks]
      split
      · rename_i hu
        subst hu
        rw [howner] at hpad
        exact Moves.before hpad (Moves.edit (.waitReady th u prioritize cancel))
      · exact Moves.admitted hpad
    · rename_i hready
      split
      · rename_i hcancel
        obtain ⟨rfl, rfl⟩ := hcancel
        show Moves _ _ _ _ ((setOwnerQueue t none _).allTasks u)
        rw [setOwnerQueue_allTasks]
        split
        · rename_i hu
          subst hu
          rw [howner] at hpad
          exact Moves.before hpad (Moves.edit (.waitCancel th u prioritize))
        · exact Moves.admitted hpad
      · have hwait := waitTask_tag (rep_prepareWait h.pad howner prioritize cancel) th t u
        have hpad' := pad_admitted (rep_prepareWait h.pad howner prioritize cancel) u
        rw [prepareWait_allTasks] at hwait hpad'
        rcases hwait with hsame | ⟨_, hready', _⟩
        · show Moves _ _ _ _ ((waitTask th t (prepareWait t prioritize cancel owner
            (padExecutingQueueNothrow s))).1.allTasks u)
          rw [hsame]
          exact Moves.admitted (hpad.trans hpad')
        · rw [hready'] at howner
          exact absurd (Option.some.inj howner).symm hready

theorem endFlush_tag (h : Rep s) (th : θ) (wait nothrowIfFailed discardReady : Bool) (u : τ) :
    (endFlush th wait nothrowIfFailed discardReady s).1.allTasks u = s.allTasks u ∨
      (discardReady = true ∨ nothrowIfFailed = false) ∧ s.allTasks u = some .ready ∧
        (endFlush th wait nothrowIfFailed discardReady s).1.allTasks u = none := by
  unfold endFlush waitFlush
  cases wait
  · exact finishFlush_tag h nothrowIfFailed discardReady u
  · rw [if_pos rfl]
    split
    · exact .inl rfl
    · exact finishFlush_tag h nothrowIfFailed discardReady u

theorem flushInternal_moves (h : Rep s) (th : θ)
    (wait discardPending nothrowIfFailed discardReady cancelExecuting : Bool) (u : τ) :
    Moves s (.flush th wait discardPending nothrowIfFailed discardReady cancelExecuting) u
      (s.allTasks u) ((flushInternal th wait discardPending nothrowIfFailed discardReady
        cancelExecuting s).1.allTasks u) := by
  rw [flushInternal_eq]
  cases discardPending
  · rw [if_neg Bool.false_ne_true]
    have hpad := pad_admitted h u
    split
    · exact Moves.admitted hpad
    · have htag := prepareFlush_tag h.pad false cancelExecuting u
      rw [if_neg (by simp)] at htag
      rcases endFlush_tag (rep_prepareFlush h.pad false cancelExecuting) th wait nothrowIfFailed
        discardReady u with hsame | ⟨hdiscard, hready, hnone⟩
      · rw [hsame, htag]
        exact Moves.admitted hpad
      · rw [htag] at hready
        rw [hready] at hpad
        rw [hnone]
        exact Moves.before hpad
          (Moves.edit (.flushReady th wait false nothrowIfFailed discardReady cancelExecuting u
            hdiscard))
  · rw [if_pos rfl]
    split
    · exact Moves.stay _ _ _ _
    · have htag := prepareFlush_tag h true cancelExecuting u
      rcases endFlush_tag (rep_prepareFlush h true cancelExecuting) th wait nothrowIfFailed
        discardReady u with hsame | ⟨hdiscard, hready, hnone⟩
      · rw [hsame, htag]
        split
        · rename_i hpending
          rw [hpending.2]
          exact Moves.edit (.flushPending th wait nothrowIfFailed discardReady cancelExecuting u)
        · exact Moves.stay _ _ _ _
      · rw [htag] at hready
        rw [hnone]
        split at hready
        · contradiction
        · rw [hready]
          exact Moves.edit (.flushReady th wait true nothrowIfFailed discardReady cancelExecuting u
            hdiscard)

theorem resume_moves (h : Rep s) (th : θ) (u : τ) :
    Moves s (.resume th) u (s.allTasks u) ((resume th s).1.allTasks u) := by
  have hrep := rep_unblock h th
  unfold resume
  split
  · exact Moves.stay _ _ _ _
  · rename_i w hw
    obtain ⟨waiter, signalled⟩ := w
    cases waiter with
    | flush nothrowIfFailed discardReady =>
      have htag := endFlush_tag hrep th true nothrowIfFailed discardReady u
      rcases htag with hsame | ⟨hdiscard, hready, hnone⟩
      · exact (congrArg (Moves _ _ _ _) hsame).mpr (Moves.stay _ _ _ _)
      · have hready : s.allTasks u = some .ready := hready
        rw [hready]
        exact (congrArg (Moves _ _ _ _) hnone).mpr
          (Moves.edit (.resumeFlush th nothrowIfFailed discardReady signalled u hw hdiscard))
    | ready remove =>
      rcases waitFirstReady_tag hrep th remove u with hsame | ⟨hremove, hhead, hready, hnone⟩
      · exact (congrArg (Moves _ _ _ _) hsame).mpr (Moves.stay _ _ _ _)
      · have hready : s.allTasks u = some .ready := hready
        subst hremove
        rw [hready]
        exact (congrArg (Moves _ _ _ _) hnone).mpr
          (Moves.edit (.resumePop th signalled u hw hhead))
    | task t =>
      rcases waitTask_tag hrep th t u with hsame | ⟨hu, hready, hnone⟩
      · exact (congrArg (Moves _ _ _ _) hsame).mpr (Moves.admitted (pad_admitted hrep u))
      · have hready : s.allTasks t = some .ready := hready
        subst hu
        rw [hready]
        exact (congrArg (Moves _ _ _ _) hnone).mpr (Moves.edit (.resumeWait th signalled u hw))

end Sections

/-! ## Refinement -/

variable [DecidableEq θ]

/-- Every lock section moves every task along an edge. -/
theorem step_moves {s s' : State τ θ} {l : Label τ θ} (h : Rep s) (hstep : step s l = some s')
    (u : τ) : Moves s l u (s.allTasks u) (s'.allTasks u) := by
  obtain ⟨hen, rfl⟩ := step_eq_some.mp hstep
  cases l with
  | push isBack dontSchedule t =>
    have ht := (pushable_iff t s).mp hen
    have htag := pushInternalNoLock_tag h isBack dontSchedule ht u
    obtain rfl | hu := eq_or_ne u t
    · rw [if_pos rfl] at htag
      cases dontSchedule
      · exact (Moves.edit (.push isBack u ht)).after htag
      · rcases ht with ht | ht
        · rw [ht]
          exact (Moves.edit (.pushReady isBack u)).after htag
        · rw [ht]
          exact Moves.admitted htag
    · rw [if_neg hu] at htag
      exact Moves.admitted htag
  | getFirstReady th wait remove => exact getFirstReady_moves h th wait remove u
  | wait th t prioritize cancel => exact waitInternal_moves h th t prioritize cancel u
  | prioritize t => exact prioritize_moves s t u
  | flush th wait discardPending nothrowIfFailed discardReady cancelExecuting =>
    exact flushInternal_moves h th wait discardPending nothrowIfFailed discardReady
      cancelExecuting u
  | cancel t => exact cancel_moves s t u
  | setOptions _ | disconnectObserver => exact Moves.stay _ _ _ _
  | setThrottleLimit maxExecuting =>
    exact Moves.admitted (pad_admitted (s := { s with maxExecuting := maxExecuting })
      ⟨h.placed, h.executingCount, h.readyCount⟩ u)
  | setNotifyCallback observer eventsMask =>
    exact Moves.admitted (pad_admitted (s := { s with
      notifyCB := observer.isSome
      eventsMask := eventsMask
      maxReadyOrExecuting := observer.getD 0 }) ⟨h.placed, h.executingCount, h.readyCount⟩ u)
  | onReady t failed continuation => exact onReady_moves h failed continuation hen u
  | validateCandidate generation =>
    have hsame : (validateCandidate generation s).allTasks = s.allTasks := by
      unfold validateCandidate
      dsimp only
      split
      · exact notifyEvent_allTasks _ _ _
      · rfl
    exact (congrArg (Moves _ _ _ _) (congrFun hsame u)).mpr (Moves.stay _ _ _ _)
  | resume th => exact resume_moves h th u

end Baselib.Tasks.ExecutionQueue
