/-
Baselib.Tasks.ExecutionQueueInvariants — the representation invariant of
the execution queue and its two throttle limits.

`WellFormed` is what a reader of the queue may rely on in every reachable
state. The limits hold of every run which changes them only while the
queue is empty, schedules what it pushes, and does not keep cancelled
tasks: a task which `cancel` moves from the pending list to the ready one
does not pass the throttle.
-/
import Baselib.Tasks.ExecutionQueueLifecycle

namespace Baselib.Tasks.ExecutionQueue

open Lib

variable {τ θ : Type*} [DecidableEq τ]

/-! ## The representation invariant -/

/-- Every task is linked once, in the list its tag names, and the
counters are the lengths of their lists. -/
structure WellFormed (s : State τ θ) : Prop where
  nodup : (s.pending ++ s.executing ++ s.ready).Nodup
  pending : ∀ t, t ∈ s.pending ↔ s.allTasks t = some .pending
  executing : ∀ t, t ∈ s.executing ↔ s.allTasks t = some .executing
  ready : ∀ t, t ∈ s.ready ↔ s.allTasks t = some .ready
  allTasks : ∀ t, s.allTasks t ≠ none ↔ t ∈ s.pending ++ s.executing ++ s.ready
  executingCount : s.executingCount = s.executing.length
  readyCount : s.readyCount = s.ready.length

theorem Rep.wellFormed {s : State τ θ} (h : Rep s) : WellFormed s where
  nodup := by
    have hpe : s.pending.Disjoint s.executing :=
      h.placed.disjoint (i := OwnerQueue.pending) (j := .executing) (by simp)
    have hpr : s.pending.Disjoint s.ready :=
      h.placed.disjoint (i := OwnerQueue.pending) (j := .ready) (by simp)
    have her : s.executing.Disjoint s.ready :=
      h.placed.disjoint (i := OwnerQueue.executing) (j := .ready) (by simp)
    refine ((h.placed.nodup .pending).append (h.placed.nodup .executing) hpe).append
      (h.placed.nodup .ready) ?_
    exact List.disjoint_append_left.mpr ⟨hpr, her⟩
  pending := fun _ => h.mem_pending
  executing := fun _ => h.mem_executing
  ready := fun _ => h.mem_ready
  allTasks := by
    intro t
    rw [List.mem_append, List.mem_append, h.mem_pending, h.mem_executing, h.mem_ready]
    cases ht : s.allTasks t with
    | none => simp
    | some q => cases q <;> simp
  executingCount := h.executingCount
  readyCount := h.readyCount

/-! ## Tasks which leave -/

/-- The sections which take the task out of the queue. -/
def TakesOut (s : State τ θ) (u : τ) : Label τ θ → Prop
  | .getFirstReady _ _ remove => remove = true ∧ s.ready.head? = some u
  | .wait _ t _ _ => t = u
  | .cancel t => t = u ∧ s.hasOption optionKeepCanceled = false
  | .flush _ _ discardPending nothrowIfFailed discardReady _ =>
    (discardPending = true ∧ s.allTasks u = some .pending) ∨
      (discardReady = true ∨ nothrowIfFailed = false) ∧ s.allTasks u = some .ready
  | .onReady t failed continuation =>
    t = u ∧ continuation ≠ .task t ∧ keepOutcome (continuation.failed failed) s = false
  | .resume th => ∃ w signalled, s.waiting th = some ⟨w, signalled⟩ ∧
      match w with
      | .ready remove => remove = true ∧ s.ready.head? = some u
      | .task t => t = u
      | .flush nothrowIfFailed discardReady =>
        (discardReady = true ∨ nothrowIfFailed = false) ∧ s.allTasks u = some .ready
  | _ => False

/-! ## The limits -/

def WithinLimits (s : State τ θ) : Prop :=
  (s.maxExecuting ≠ 0 → s.executingCount ≤ s.maxExecuting) ∧
    (s.maxReadyOrExecuting ≠ 0 → s.readyCount + s.executingCount ≤ s.maxReadyOrExecuting)

/-- A step the throttle can account for: a limit changes only while no
task is in the queue, what is pushed is scheduled, and a pending task
which is cancelled is not kept. -/
def Throttleable (s : State τ θ) : Label τ θ → Prop
  | .push _ dontSchedule _ => dontSchedule = false
  | .setThrottleLimit maxExecuting =>
    isEmptyInternal s = true ∨ maxExecuting = s.maxExecuting
  | .setNotifyCallback observer _ =>
    isEmptyInternal s = true ∨ observer.getD 0 = s.maxReadyOrExecuting
  | .cancel t => s.allTasks t = some .pending → s.hasOption optionKeepCanceled = false
  | _ => True

namespace WithinLimits

variable {s s' : State τ θ} {t : τ}

omit [DecidableEq τ] in
/-- Fewer tasks, under the same limits. -/
theorem mono (h : WithinLimits s) (hmax : s'.maxExecuting = s.maxExecuting)
    (hmaxRoE : s'.maxReadyOrExecuting = s.maxReadyOrExecuting)
    (hexec : s'.executingCount ≤ s.executingCount)
    (hboth : s'.readyCount + s'.executingCount ≤ s.readyCount + s.executingCount) :
    WithinLimits s' := by
  unfold WithinLimits at *
  rw [hmax, hmaxRoE]
  exact ⟨fun hne => Nat.le_trans hexec (h.1 hne), fun hne => Nat.le_trans hboth (h.2 hne)⟩

theorem pad (h : WithinLimits s) : WithinLimits (padExecutingQueueNothrow s) := by
  unfold WithinLimits at *
  rw [pad_maxExecuting, pad_maxReadyOrExecuting, pad_executingCount, pad_readyCount]
  exact ⟨fun hne => room_le_maxExecuting hne (h.1 hne),
    fun hne => room_le_maxReadyOrExecuting hne (h.2 hne)⟩

theorem push (h : WithinLimits s) (isBack : Bool) (t : τ) :
    WithinLimits (pushInternalNoLock isBack t false s) := by
  rw [pushInternalNoLock_eq]
  apply WithinLimits.pad
  unfold linkTask
  split
  · exact h.mono rfl rfl (Nat.le_refl _) (Nat.add_le_add_right (Nat.sub_le _ _) _)
  · exact h

theorem takeFirstReady (h : WithinLimits s) (remove : Bool) :
    WithinLimits (takeFirstReady remove s).1 := by
  unfold ExecutionQueue.takeFirstReady
  split
  · exact h
  · cases remove
    · exact h
    · exact h.mono rfl rfl (Nat.le_refl _) (Nat.add_le_add_right (Nat.sub_le _ _) _)

theorem prepareWait (h : WithinLimits s) (t : τ) (prioritize cancel : Bool) (owner : OwnerQueue) :
    WithinLimits (prepareWait t prioritize cancel owner s) := by
  cases prioritize <;> cases cancel <;> cases owner <;> exact h

/-- Clearing a list leaves the executing tasks and adds no ready one. -/
theorem cleared {q : OwnerQueue} (h : WithinLimits s) (hrep : Rep s) (hclear : Rep.Cleared q s s')
    (hcontrol : s'.control = s.control) (hq : q ≠ .executing) : WithinLimits s' := by
  have hexec : s'.executing = s.executing := hclear.others .executing hq.symm
  have hready : s'.ready.length ≤ s.ready.length := by
    cases q with
    | ready =>
      have hnil : s'.ready = [] := hclear.self
      simp [hnil]
    | pending =>
      have hsame : s'.ready = s.ready := hclear.others .ready (by simp)
      exact Nat.le_of_eq (congrArg List.length hsame)
    | executing => exact absurd rfl hq
  have hcount : s'.executingCount = s.executingCount := by
    rw [hclear.rep.executingCount, hexec, hrep.executingCount]
  refine h.mono (congrArg Control.maxExecuting hcontrol)
    (congrArg Control.maxReadyOrExecuting hcontrol) (Nat.le_of_eq hcount) ?_
  rw [hcount, hclear.rep.readyCount, hrep.readyCount]
  exact Nat.add_le_add_right hready _

theorem finishFlush (h : WithinLimits s) (hrep : Rep s) (nothrowIfFailed discardReady : Bool) :
    WithinLimits (finishFlush nothrowIfFailed discardReady s).1 := by
  have hclear := h.cleared hrep hrep.clearReady (clearReady_control s) (by simp)
  unfold ExecutionQueue.finishFlush
  split
  · exact hclear
  · cases discardReady
    · exact h
    · exact hclear

theorem prepareFlush (h : WithinLimits s) (hrep : Rep s) (discardPending cancelExecuting : Bool) :
    WithinLimits (prepareFlush discardPending cancelExecuting s) := by
  have hcancel : ∀ s' : State τ θ, WithinLimits s' →
      WithinLimits (if cancelExecuting then cancelTasks s'.executing s' else s') := by
    intro s' h'
    split
    · exact (cancelTasks_frame WithinLimits (fun _ _ => rfl) _ s').mpr h'
    · exact h'
  unfold ExecutionQueue.prepareFlush
  apply hcancel
  cases discardPending
  · exact h
  · exact h.cleared hrep hrep.clearPending (clearPending_control s) (by simp)

omit [DecidableEq τ] in
theorem notifyEvent (h : WithinLimits s) (eventId : Nat) (e : Event τ) :
    WithinLimits (notifyEvent eventId e s) := by
  unfold ExecutionQueue.notifyEvent
  split <;> exact h

/-- A completed task gives its executing slot up, and takes at most a
ready one. -/
theorem completeTask (h : WithinLimits s) (hrep : Rep s) (ht : s.allTasks t = some .executing) :
    WithinLimits (completeTask t s) := by
  have hpos : 0 < s.executingCount := hrep.executingCount ▸ hrep.executing_pos ht
  have hretire : ∀ keep, WithinLimits (retireTask t keep s) := by
    intro keep
    unfold retireTask
    cases keep
    · apply WithinLimits.notifyEvent
      exact h.mono rfl rfl (Nat.sub_le _ _) (Nat.add_le_add_left (Nat.sub_le _ _) _)
    · apply WithinLimits.notifyEvent
      refine h.mono rfl rfl (Nat.sub_le _ _) ?_
      show s.readyCount + 1 + (s.executingCount - 1) ≤ s.readyCount + s.executingCount
      omega
  rw [completeTask_eq]
  exact (hretire _).pad

theorem onReady (h : WithinLimits s) (hrep : Rep s) (failed : Bool) (continuation : Continuation τ)
    (hen : enabled s (.onReady t failed continuation : Label τ θ) = true) :
    WithinLimits (onReady t failed continuation s) := by
  have hform : ∀ s' : State τ θ, WithinLimits s' → WithinLimits (formCandidate s') := by
    intro s' h'
    unfold formCandidate
    split <;> exact h'
  have hnotify := rep_notifyReady hrep t failed
  apply hform
  cases continuation with
  | none =>
    have ht : s.allTasks t = some .executing := by simpa [enabled] using hen
    exact WithinLimits.completeTask h hnotify ht
  | throws =>
    have ht : s.allTasks t = some .executing := by simpa [enabled] using hen
    exact WithinLimits.completeTask h (rep_updateTask hnotify t _) ht
  | task c =>
    obtain ⟨ht, hc⟩ : s.allTasks t = some .executing ∧ (c = t ∨ pushable c s = true) := by
      simpa [enabled] using hen
    dsimp only
    split
    · exact WithinLimits.pad (h.mono rfl rfl (Nat.sub_le _ _)
        (Nat.add_le_add_left (Nat.sub_le _ _) _))
    · rename_i hne
      have hpush := (pushable_iff c s).mp (hc.resolve_left hne)
      exact WithinLimits.completeTask (WithinLimits.push (s := notifyReady t failed s) h false c)
        (rep_pushInternalNoLock hnotify false false hpush)
        (pushInternalNoLock_executing hnotify false false hpush ht)

end WithinLimits

/-- A limit which changes in an empty queue bounds nothing yet. -/
theorem withinLimits_of_empty {s : State τ θ} (h : Rep s) (hempty : isEmptyInternal s = true)
    (s' : State τ θ) (hexec : s'.executingCount = s.executingCount)
    (hready : s'.readyCount = s.readyCount) : WithinLimits s' := by
  simp only [isEmptyInternal, Bool.and_eq_true, List.isEmpty_iff] at hempty
  have hexec₀ : s'.executingCount = 0 := by rw [hexec, h.executingCount, hempty.1.2]; rfl
  have hready₀ : s'.readyCount = 0 := by rw [hready, h.readyCount, hempty.2]; rfl
  unfold WithinLimits
  rw [hexec₀, hready₀]
  exact ⟨fun _ => Nat.zero_le _, fun _ => Nat.zero_le _⟩

/-! ## The sections which wait -/

variable [DecidableEq θ]

theorem takesOut_of_gone {s s' : State τ θ} {l : Label τ θ} {u : τ} (h : Rep s)
    (hstep : step s l = some s') (hin : s.allTasks u ≠ none) (hout : s'.allTasks u = none) :
    TakesOut s u l := by
  obtain ⟨a, b, hbefore, hedit, hafter⟩ := step_moves h hstep u
  have hb : b = none := by
    rw [hout] at hafter
    cases hafter
    rfl
  have ha : ∀ q, a = some q → q ≠ .executing → s.allTasks u = some q := by
    intro q hq hne
    generalize s.allTasks u = tag at hbefore
    cases hbefore with
    | stay => exact hq
    | pad => exact absurd (Option.some.inj hq).symm hne
  subst hb
  cases hedit with
  | stay =>
    generalize s.allTasks u = tag at hbefore hin
    cases hbefore
    exact absurd rfl hin
  | discard t failed c hc hkeep => exact ⟨rfl, hc, hkeep⟩
  | cancel t hkeep => exact ⟨rfl, hkeep⟩
  | waitReady th t prioritize cancel => exact rfl
  | waitCancel th t prioritize => exact rfl
  | pop th wait t hhead => exact ⟨rfl, hhead⟩
  | flushPending th wait nothrowIfFailed discardReady cancelExecuting =>
    exact .inl ⟨rfl, ha _ rfl (by simp)⟩
  | flushReady th wait discardPending nothrowIfFailed discardReady cancelExecuting u hdiscard =>
    exact .inr ⟨hdiscard, ha _ rfl (by simp)⟩
  | resumeFlush th nothrowIfFailed discardReady signalled u hw hdiscard =>
    exact ⟨_, signalled, hw, hdiscard, ha _ rfl (by simp)⟩
  | resumePop th signalled t hw hhead => exact ⟨_, signalled, hw, rfl, hhead⟩
  | resumeWait th signalled t hw => exact ⟨_, signalled, hw, rfl⟩

namespace WithinLimits

variable {s s' : State τ θ} {t : τ}

theorem waitFirstReady (h : WithinLimits s) (th : θ) (remove : Bool) :
    WithinLimits (waitFirstReady th remove s).1 := by
  unfold ExecutionQueue.waitFirstReady
  split
  · exact h
  · exact h.takeFirstReady remove

theorem waitTask (h : WithinLimits s) (th : θ) (t : τ) : WithinLimits (waitTask th t s).1 := by
  unfold ExecutionQueue.waitTask
  dsimp only
  split
  · exact h.pad
  · exact h.pad.mono rfl rfl (Nat.le_refl _) (Nat.add_le_add_right (Nat.sub_le _ _) _)
  · exact h.pad

theorem waitInternal (h : WithinLimits s) (th : θ) (t : τ) (prioritize cancel : Bool) :
    WithinLimits (waitInternal th t prioritize cancel s).1 := by
  unfold ExecutionQueue.waitInternal
  dsimp only
  split
  · exact h.pad
  · split
    · exact h.pad.mono rfl rfl (Nat.le_refl _) (Nat.add_le_add_right (Nat.sub_le _ _) _)
    · split
      · exact h.pad
      · exact (h.pad.prepareWait t prioritize cancel _).waitTask th t

theorem endFlush (h : WithinLimits s) (hrep : Rep s) (th : θ)
    (wait nothrowIfFailed discardReady : Bool) :
    WithinLimits (endFlush th wait nothrowIfFailed discardReady s).1 := by
  unfold ExecutionQueue.endFlush waitFlush
  cases wait
  · exact h.finishFlush hrep _ _
  · rw [if_pos rfl]
    split
    · exact h
    · exact h.finishFlush hrep _ _

theorem flushInternal (h : WithinLimits s) (hrep : Rep s) (th : θ)
    (wait discardPending nothrowIfFailed discardReady cancelExecuting : Bool) :
    WithinLimits (flushInternal th wait discardPending nothrowIfFailed discardReady
      cancelExecuting s).1 := by
  rw [flushInternal_eq]
  split
  · split
    · exact h
    · exact (h.prepareFlush hrep _ _).endFlush (rep_prepareFlush hrep _ _) th _ _ _
  · split
    · exact h.pad
    · exact (h.pad.prepareFlush hrep.pad _ _).endFlush (rep_prepareFlush hrep.pad _ _) th _ _ _

end WithinLimits

theorem withinLimits_step {s s' : State τ θ} {l : Label τ θ} (hrep : Rep s)
    (h : WithinLimits s) (hl : Throttleable s l) (hstep : step s l = some s') :
    WithinLimits s' := by
  obtain ⟨hen, rfl⟩ := step_eq_some.mp hstep
  cases l with
  | push isBack dontSchedule t =>
    obtain rfl : dontSchedule = false := hl
    exact h.push isBack t
  | getFirstReady th wait remove =>
    cases wait
    · exact h.pad.takeFirstReady remove
    · exact h.pad.waitFirstReady th remove
  | wait th t prioritize cancel => exact h.waitInternal th t prioritize cancel
  | prioritize t =>
    show WithinLimits (prioritize t s).1
    unfold prioritize
    split <;> exact h
  | flush th wait discardPending nothrowIfFailed discardReady cancelExecuting =>
    exact h.flushInternal hrep th wait discardPending nothrowIfFailed discardReady cancelExecuting
  | cancel t =>
    show WithinLimits (cancel t s).1
    unfold cancel
    split
    · rename_i ht
      dsimp only
      rwa [if_neg (by simp [hl ht])]
    · exact h
  | setOptions options => exact h
  | setThrottleLimit maxExecuting =>
    apply WithinLimits.pad
    rcases hl with hempty | rfl
    · exact withinLimits_of_empty hrep hempty _ rfl rfl
    · exact h
  | setNotifyCallback observer eventsMask =>
    apply WithinLimits.pad
    rcases hl with hempty | hsame
    · exact withinLimits_of_empty hrep hempty _ rfl rfl
    · exact h.mono rfl hsame (Nat.le_refl _) (Nat.le_refl _)
  | disconnectObserver => exact h
  | onReady t failed continuation => exact h.onReady hrep failed continuation hen
  | validateCandidate generation =>
    show WithinLimits (validateCandidate generation s)
    unfold validateCandidate
    dsimp only
    split
    · apply WithinLimits.notifyEvent
      exact h
    · exact h
  | resume th =>
    show WithinLimits (resume th s).1
    unfold resume
    split
    · exact h
    · split
      · exact WithinLimits.endFlush (s := unblock th s) h (rep_unblock hrep th) th true _ _
      · exact WithinLimits.waitFirstReady (s := unblock th s) h th _
      · exact WithinLimits.waitTask (s := unblock th s) h th _

/-! ## Every interleaving -/

/-- In every reachable state the lists, the tags and the counters agree
and a task leaves only by a section which takes it out; and a run which
the throttle can account for stays within both limits. -/
theorem queue_wellFormed :
    (∀ s : State τ θ, Reachable s →
      WellFormed s ∧
      ∀ l s' u, step s l = some s' → s.allTasks u ≠ none → s'.allTasks u = none →
        TakesOut s u l) ∧
    ∀ (options maxExecuting : Nat) (task : τ → TaskData) (ls : List (Label τ θ))
      (s : State τ θ),
      Transition.run step (State.init options maxExecuting task) ls = some s →
      Transition.Along step Throttleable (State.init options maxExecuting task) ls →
      (s.maxExecuting ≠ 0 → s.executing.length ≤ s.maxExecuting) ∧
      (s.maxReadyOrExecuting ≠ 0 →
        s.ready.length + s.executing.length ≤ s.maxReadyOrExecuting) := by
  refine ⟨fun s hs => ?_, fun options maxExecuting task ls s hrun halong => ?_⟩
  · have hrep := rep_of_reachable hs
    exact ⟨hrep.wellFormed, fun l s' u => takesOut_of_gone hrep⟩
  · have hinit : Rep (State.init options maxExecuting task : State τ θ) ∧
        WithinLimits (State.init options maxExecuting task : State τ θ) :=
      ⟨rep_init options maxExecuting task, fun _ => Nat.zero_le _, fun _ => Nat.zero_le _⟩
    obtain ⟨hrep, hlimits⟩ := Transition.run_invariant
      (P := fun s => Rep s ∧ WithinLimits s)
      (fun s l s' hs hl hstep => ⟨rep_step hs.1 hstep, withinLimits_step hs.1 hs.2 hl hstep⟩)
      hinit halong hrun
    rw [← hrep.executingCount, ← hrep.readyCount]
    exact hlimits

/-- Three tasks, of which the limits let one execute and two be ready or
executing. -/
def threeTasks : List (Label (Fin 3) Unit) :=
  [.setNotifyCallback (some 2) 7, .push true false 0, .push true false 1, .push false false 2,
    .onReady 0 false .none]

theorem queue_wellFormed_three :
    ∃ s : State (Fin 3) Unit,
      Transition.run step (State.init 3 1 fun _ => {}) threeTasks = some s ∧
      WellFormed s ∧ s.executing.length ≤ 1 ∧ s.ready.length + s.executing.length ≤ 2 := by
  refine ⟨_, rfl, (queue_wellFormed.1 _ ⟨_, threeTasks, ⟨3, 1, fun _ => {}, rfl⟩, rfl⟩).1, ?_⟩
  have hlimits := queue_wellFormed.2 3 1 (fun _ => {}) threeTasks _ rfl
    ⟨.inl rfl, fun _ _ => ⟨rfl, fun _ _ => ⟨rfl, fun _ _ => ⟨rfl, fun _ _ =>
      ⟨trivial, fun _ _ => trivial⟩⟩⟩⟩⟩
  exact ⟨hlimits.1 (by decide), hlimits.2 (by decide)⟩

/-- With the limits fixed before the first push and every push scheduled,
a pending task which `cancel` keeps is one more than the limit of one
ready or executing task. -/
theorem cancel_keep_exceeds_limit :
    ∃ s : State (Fin 2) Unit,
      Transition.run step (State.init optionKeepCanceled 0 fun _ => {})
        [.setNotifyCallback (some 1) 7, .push true false 0, .push true false 1, .cancel 1] =
          some s ∧
      s.maxReadyOrExecuting = 1 ∧
      ¬ s.ready.length + s.executing.length ≤ s.maxReadyOrExecuting :=
  ⟨_, rfl, rfl, by decide⟩

end Baselib.Tasks.ExecutionQueue
