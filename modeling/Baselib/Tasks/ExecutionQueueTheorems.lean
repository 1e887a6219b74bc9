/-
Baselib.Tasks.ExecutionQueueTheorems — the three lists, the owner tags
and the counters of the queue agree in every reachable state.

The hand-kept parts of the state are tied together by `Rep`: a task is
linked once, in the list its tag names, and the two counters are lengths.
Each operation moves one task, or every task of a list, so each has one
lemma here.
-/
import Baselib.Lib.Placement
import Baselib.Tasks.ExecutionQueuePadding

namespace Baselib.Tasks.ExecutionQueue

open Lib List

variable {τ θ : Type*}

theorem pushable_iff (t : τ) (s : State τ θ) :
    pushable t s = true ↔ s.allTasks t = none ∨ s.allTasks t = some .ready := by
  simp [pushable]

variable [DecidableEq τ]

/-! ## The representation -/

/-- `getQueue`. -/
def getQueue (s : State τ θ) : OwnerQueue → List τ
  | .pending => s.pending
  | .executing => s.executing
  | .ready => s.ready

structure Rep (s : State τ θ) : Prop where
  placed : Placed (getQueue s) s.allTasks
  executingCount : s.executingCount = s.executing.length
  readyCount : s.readyCount = s.ready.length

theorem rep_init (options maxExecuting : Nat) (task : τ → TaskData) :
    Rep (State.init options maxExecuting task : State τ θ) where
  placed := by
    intro q t
    cases q <;> simp [getQueue, State.init]
  executingCount := rfl
  readyCount := rfl

namespace Rep

variable {s : State τ θ} {t u : τ}

theorem mem_pending (h : Rep s) : t ∈ s.pending ↔ s.allTasks t = some .pending :=
  h.placed.mem_iff (i := .pending)

theorem mem_executing (h : Rep s) : t ∈ s.executing ↔ s.allTasks t = some .executing :=
  h.placed.mem_iff (i := .executing)

theorem mem_ready (h : Rep s) : t ∈ s.ready ↔ s.allTasks t = some .ready :=
  h.placed.mem_iff (i := .ready)

theorem erase_pending (h : Rep s) (ht : s.allTasks t ≠ some .pending) :
    s.pending.erase t = s.pending :=
  Placed.erase_of_ne (i := OwnerQueue.pending) h.placed ht

theorem erase_executing (h : Rep s) (ht : s.allTasks t ≠ some .executing) :
    s.executing.erase t = s.executing :=
  Placed.erase_of_ne (i := OwnerQueue.executing) h.placed ht

theorem erase_ready (h : Rep s) (ht : s.allTasks t ≠ some .ready) :
    s.ready.erase t = s.ready :=
  Placed.erase_of_ne (i := OwnerQueue.ready) h.placed ht

theorem length_erase_executing (h : Rep s) (t : τ) :
    (s.executing.erase t).length =
      s.executing.length - if s.allTasks t = some .executing then 1 else 0 :=
  h.placed.length_erase .executing t

theorem length_erase_ready (h : Rep s) (t : τ) :
    (s.ready.erase t).length = s.ready.length - if s.allTasks t = some .ready then 1 else 0 :=
  h.placed.length_erase .ready t

theorem executing_pos (h : Rep s) (ht : s.allTasks t = some .executing) : 0 < s.executing.length :=
  length_pos_of_mem (h.mem_executing.mpr ht)

theorem ready_pos (h : Rep s) (ht : s.allTasks t = some .ready) : 0 < s.ready.length :=
  length_pos_of_mem (h.mem_ready.mpr ht)

theorem executingCount_stays (h : Rep s) (ht : s.allTasks t ≠ some .executing) :
    s.executingCount = (s.executing.erase t).length := by
  rw [h.erase_executing ht, h.executingCount]

theorem executingCount_drops (h : Rep s) (ht : s.allTasks t = some .executing) :
    s.executingCount - 1 = (s.executing.erase t).length := by
  rw [h.length_erase_executing, if_pos ht, h.executingCount]

theorem readyCount_stays (h : Rep s) (ht : s.allTasks t ≠ some .ready) :
    s.readyCount = (s.ready.erase t).length := by
  rw [h.erase_ready ht, h.readyCount]

theorem readyCount_drops (h : Rep s) (ht : s.allTasks t = some .ready) :
    s.readyCount - 1 = (s.ready.erase t).length := by
  rw [h.length_erase_ready, if_pos ht, h.readyCount]

theorem readyCount_rises (h : Rep s) (ht : s.allTasks t ≠ some .ready) :
    s.readyCount + 1 = (s.ready.erase t ++ [t]).length := by
  rw [length_append, ← h.readyCount_stays ht, length_singleton]

/-! ## One task taken out, and one put in -/

theorem getQueue_unlink (t : τ) (s : State τ θ) :
    getQueue (unlink t s) = fun q => (getQueue s q).erase t := by
  funext q
  cases q <;> rfl

theorem unlinkAndDestroy_placed (h : Rep s) (t : τ) :
    Placed (getQueue (unlinkAndDestroy t s)) (unlinkAndDestroy t s).allTasks := by
  show Placed (getQueue (unlink t s)) (Function.update s.allTasks t none)
  rw [getQueue_unlink]
  exact h.placed.erase t

theorem destroyPending (h : Rep s) (ht : s.allTasks t = some .pending) :
    Rep (unlinkAndDestroy t s) where
  placed := h.unlinkAndDestroy_placed t
  executingCount := h.executingCount_stays (by simp [ht])
  readyCount := h.readyCount_stays (by simp [ht])

theorem destroyReady (h : Rep s) (ht : s.allTasks t = some .ready) :
    Rep (destroyReady t s) where
  placed := h.unlinkAndDestroy_placed t
  executingCount := h.executingCount_stays (by simp [ht])
  readyCount := h.readyCount_drops ht

theorem cancelKeep (h : Rep s) (ht : s.allTasks t = some .pending) :
    Rep (moveTaskToReadyQueue t s) where
  placed := by
    refine h.placed.move (i := .ready) ?_ fun q hq => ?_
    · exact perm_append_singleton t _
    · cases q <;> first | rfl | exact absurd rfl hq
  executingCount := h.executingCount_stays (by simp [ht])
  readyCount := h.readyCount_rises (by simp [ht])

theorem moveToFront (h : Rep s) (ht : s.allTasks t = some .pending) : Rep (moveToFront t s) where
  placed := by
    have hp : Placed (getQueue (ExecutionQueue.moveToFront t s))
        (Function.update s.allTasks t (some .pending)) :=
      h.placed.move (List.Perm.refl _) fun q hq => by
        cases q <;> first | rfl | exact absurd rfl hq
    rwa [← ht, Function.update_eq_self] at hp
  executingCount := h.executingCount_stays (by simp [ht])
  readyCount := h.readyCount_stays (by simp [ht])

theorem admitFront (h : Rep s) {rest : List τ} (hp : s.pending = t :: rest) :
    Rep (admitFront t rest s) := by
  have ht : s.allTasks t = some .pending := h.mem_pending.mp (hp ▸ mem_cons_self)
  have herase : s.executing.erase t = s.executing := h.erase_executing (by simp [ht])
  refine ⟨?_, ?_, h.readyCount⟩
  · refine h.placed.move (i := .executing) ?_ fun q hq => ?_
    · show (s.executing ++ [t]).Perm (t :: s.executing.erase t)
      rw [herase]
      exact perm_append_singleton t _
    · cases q with
      | pending =>
        show rest = s.pending.erase t
        rw [hp, erase_cons_head]
      | executing => exact absurd rfl hq
      | ready => exact (h.erase_ready (by simp [ht])).symm
  · show s.executingCount + 1 = (s.executing ++ [t]).length
    rw [h.executingCount, length_append, length_singleton]

theorem pad (h : Rep s) : Rep (padExecutingQueueNothrow s) :=
  padLoop_invariant (fun _ _ _ hp h => h.admitFront hp) _ s h

theorem pushPending (h : Rep s) (isBack : Bool) (ht : s.allTasks t = none) :
    Rep { setOwnerQueue t (some .pending) s with pending := insertTask isBack t s.pending } where
  placed := by
    refine h.placed.insert (i := .pending) ht ?_ fun q hq => ?_
    · show (insertTask isBack t s.pending).Perm (t :: s.pending)
      cases isBack
      · exact List.Perm.refl _
      · exact perm_append_singleton t _
    · cases q <;> first | rfl | exact absurd rfl hq
  executingCount := h.executingCount
  readyCount := h.readyCount

theorem pushReady (h : Rep s) (isBack : Bool) (ht : s.allTasks t = none) :
    Rep { setOwnerQueue t (some .ready) s with
      ready := insertTask isBack t s.ready, readyCount := s.readyCount + 1 } where
  placed := by
    refine h.placed.insert (i := .ready) ht ?_ fun q hq => ?_
    · show (insertTask isBack t s.ready).Perm (t :: s.ready)
      cases isBack
      · exact List.Perm.refl _
      · exact perm_append_singleton t _
    · cases q <;> first | rfl | exact absurd rfl hq
  executingCount := h.executingCount
  readyCount := by
    show s.readyCount + 1 = (insertTask isBack t s.ready).length
    cases isBack <;> simp [insertTask, h.readyCount]

theorem pushAgain (h : Rep s) (isBack : Bool) (ht : s.allTasks t = some .ready) :
    Rep { setOwnerQueue t (some .pending) (unlink t s) with
      pending := insertTask isBack t (s.pending.erase t), readyCount := s.readyCount - 1 } where
  placed := by
    refine h.placed.move (i := .pending) ?_ fun q hq => ?_
    · show (insertTask isBack t (s.pending.erase t)).Perm (t :: s.pending.erase t)
      cases isBack
      · exact List.Perm.refl _
      · exact perm_append_singleton t _
    · cases q <;> first | rfl | exact absurd rfl hq
  executingCount := h.executingCount_stays (by simp [ht])
  readyCount := h.readyCount_drops ht

theorem continueAsSelf (h : Rep s) (ht : s.allTasks t = some .executing) :
    Rep (moveExecutingTaskToPendingQueue t s) where
  placed := by
    refine h.placed.move (i := .pending) ?_ fun q hq => ?_
    · exact perm_append_singleton t _
    · cases q <;> first | rfl | exact absurd rfl hq
  executingCount := h.executingCount_drops ht
  readyCount := h.readyCount_stays (by simp [ht])

theorem completeKeep (h : Rep s) (ht : s.allTasks t = some .executing) :
    Rep (moveTaskToReadyQueue t { s with executingCount := s.executingCount - 1 }) where
  placed := by
    refine h.placed.move (i := .ready) ?_ fun q hq => ?_
    · exact perm_append_singleton t _
    · cases q <;> first | rfl | exact absurd rfl hq
  executingCount := h.executingCount_drops ht
  readyCount := h.readyCount_rises (by simp [ht])

theorem completeDiscard (h : Rep s) (ht : s.allTasks t = some .executing) :
    Rep (unlinkAndDestroy t { s with executingCount := s.executingCount - 1 }) where
  placed := h.unlinkAndDestroy_placed t
  executingCount := h.executingCount_drops ht
  readyCount := h.readyCount_stays (by simp [ht])

/-! ## A whole list cleared -/

/-- A list cleared task by task: its tasks lose their tags, and the other
lists stay. -/
structure Cleared (q : OwnerQueue) (s s' : State τ θ) : Prop where
  rep : Rep s'
  allTasks : ∀ u, s'.allTasks u = if s.allTasks u = some q then none else s.allTasks u
  others : ∀ q', q' ≠ q → getQueue s' q' = getQueue s q'

theorem Cleared.self {q : OwnerQueue} {s s' : State τ θ} (h : Cleared q s s') :
    getQueue s' q = [] := by
  rw [eq_nil_iff_forall_not_mem]
  intro u hu
  have htag := h.rep.placed.mem_iff.mp hu
  rw [h.allTasks] at htag
  split at htag
  · simp at htag
  · contradiction

/-- One round of a clearing loop. -/
structure ClearStep (q : OwnerQueue) (t : τ) (s s' : State τ θ) : Prop where
  rep : Rep s'
  allTasks : s'.allTasks = Function.update s.allTasks t none
  others : ∀ q', q' ≠ q → getQueue s' q' = getQueue s q'

theorem foldl_clear {q : OwnerQueue} {f : State τ θ → τ → State τ θ}
    (hf : ∀ s t, Rep s → s.allTasks t = some q → ClearStep q t s (f s t)) (l : List τ) :
    ∀ s : State τ θ, Rep s → l.Nodup → (∀ t, t ∈ l ↔ s.allTasks t = some q) →
      Cleared q s (l.foldl f s) := by
  induction l with
  | nil =>
    intro s h _ hl
    refine ⟨h, fun u => ?_, fun _ _ => rfl⟩
    rw [if_neg fun hu => absurd ((hl u).mpr hu) not_mem_nil]
    rfl
  | cons t l ih =>
    intro s h hnd hl
    obtain ⟨hnot, hnd⟩ := nodup_cons.mp hnd
    have hround := hf s t h ((hl t).mp mem_cons_self)
    have hrest : ∀ u, u ∈ l ↔ (f s t).allTasks u = some q := by
      intro u
      rw [hround.allTasks, Function.update_apply]
      by_cases hu : u = t
      · simp [hu, hnot]
      · rw [if_neg hu, ← hl u, mem_cons, or_iff_right hu]
    have hclear := ih (f s t) hround.rep hnd hrest
    refine ⟨hclear.rep, fun u => ?_, fun q' hq' => ?_⟩
    · rw [foldl_cons, hclear.allTasks, hround.allTasks, Function.update_apply]
      by_cases hu : u = t
      · simp [hu, (hl t).mp mem_cons_self]
      · rw [if_neg hu]
    · rw [foldl_cons, hclear.others q' hq', hround.others q' hq']

theorem clearPending (h : Rep s) : Cleared .pending s (clearPending s) := by
  refine foldl_clear (fun s t h ht => ⟨h.destroyPending ht, rfl, fun q' hq' => ?_⟩) s.pending s h
    (h.placed.nodup .pending) fun _ => h.mem_pending
  show getQueue (unlink t s) q' = _
  rw [getQueue_unlink]
  exact h.placed.erase_of_ne (by simpa [ht] using hq'.symm)

theorem clearReady (h : Rep s) : Cleared .ready s (clearReady s) := by
  refine foldl_clear (fun s t h ht => ⟨h.destroyReady ht, rfl, fun q' hq' => ?_⟩) s.ready s h
    (h.placed.nodup .ready) fun _ => h.mem_ready
  show getQueue (ExecutionQueue.destroyReady t s) q' = _
  have hq : getQueue (ExecutionQueue.destroyReady t s) q' = getQueue (unlink t s) q' := by
    cases q' <;> rfl
  rw [hq, getQueue_unlink]
  exact h.placed.erase_of_ne (by simpa [ht] using hq'.symm)

/-! ## Tags a section reads after padding -/

theorem pad_allTasks_none (h : Rep s) :
    (padExecutingQueueNothrow s).allTasks t = none ↔ s.allTasks t = none := by
  rw [pad_allTasks]
  split
  · rename_i hmem
    simp [h.mem_pending.mp (mem_of_mem_take hmem)]
  · exact Iff.rfl

theorem pad_allTasks_ready (h : Rep s) :
    (padExecutingQueueNothrow s).allTasks t = some .ready ↔ s.allTasks t = some .ready := by
  rw [pad_allTasks]
  split
  · rename_i hmem
    simp [h.mem_pending.mp (mem_of_mem_take hmem)]
  · exact Iff.rfl

end Rep

/-! ## The sections keep it -/

section Sections

variable {s : State τ θ} {t : τ} {th : θ}

theorem rep_notifyEvent (h : Rep s) (eventId : Nat) (e : Event τ) :
    Rep (notifyEvent eventId e s) := by
  unfold notifyEvent
  split
  · exact ⟨h.placed, h.executingCount, h.readyCount⟩
  · exact h

theorem rep_updateTask (h : Rep s) (t : τ) (f : TaskData → TaskData) : Rep (s.updateTask t f) :=
  ⟨h.placed, h.executingCount, h.readyCount⟩

theorem rep_notifyReady (h : Rep s) (t : τ) (failed : Bool) : Rep (notifyReady t failed s) :=
  rep_updateTask h t _

theorem rep_cancelTasks (h : Rep s) (l : List τ) : Rep (cancelTasks l s) := by
  have hplaced := cancelTasks_frame (fun s => Placed (getQueue s) s.allTasks) (fun _ _ => rfl) l s
  have hexec := cancelTasks_frame (fun s => s.executingCount = s.executing.length)
    (fun _ _ => rfl) l s
  have hready := cancelTasks_frame (fun s => s.readyCount = s.ready.length) (fun _ _ => rfl) l s
  exact ⟨hplaced.mpr h.placed, hexec.mpr h.executingCount, hready.mpr h.readyCount⟩

/-- A pushed task in its list, before the queue is padded. -/
def linkTask (isBack : Bool) (t : τ) (dontSchedule : Bool) (s : State τ θ) : State τ θ :=
  match s.allTasks t with
  | some _ =>
    if dontSchedule then s
    else
      let s := setOwnerQueue t (some .pending) (unlink t s)
      { s with
        pending := insertTask isBack t s.pending
        readyCount := s.readyCount - 1
        activeWorkGeneration := s.activeWorkGeneration + 1 }
  | none =>
    if dontSchedule then
      let s := setOwnerQueue t (some .ready) s
      { s with ready := insertTask isBack t s.ready, readyCount := s.readyCount + 1 }
    else
      let s := setOwnerQueue t (some .pending) s
      { s with
        pending := insertTask isBack t s.pending
        activeWorkGeneration := s.activeWorkGeneration + 1 }

theorem pushInternalNoLock_eq (isBack : Bool) (t : τ) (dontSchedule : Bool) (s : State τ θ) :
    pushInternalNoLock isBack t dontSchedule s =
      padExecutingQueueNothrow (linkTask isBack t dontSchedule s) := by
  cases ht : s.allTasks t <;> simp only [pushInternalNoLock, linkTask, ht]

/-- What a push does to the lists and to the tags. -/
structure Linked (isBack : Bool) (t : τ) (dontSchedule : Bool) (s s' : State τ θ) : Prop where
  rep : Rep s'
  pending : s'.pending = if dontSchedule then s.pending else insertTask isBack t s.pending
  executing : s'.executing = s.executing
  ready : s'.ready =
    if dontSchedule then if s.allTasks t = none then insertTask isBack t s.ready else s.ready
    else s.ready.erase t
  allTasks : ∀ u, s'.allTasks u =
    if u = t then if dontSchedule then some .ready else some .pending else s.allTasks u
  task : s'.task = s.task
  control : s'.control =
    { s.control with
      activeWorkGeneration := s.activeWorkGeneration + if dontSchedule then 0 else 1 }

theorem linkTask_linked (h : Rep s) (isBack dontSchedule : Bool)
    (ht : s.allTasks t = none ∨ s.allTasks t = some .ready) :
    Linked isBack t dontSchedule s (linkTask isBack t dontSchedule s) := by
  unfold linkTask
  rcases ht with ht | ht
  · rw [ht]
    cases dontSchedule
    · have hpush := h.pushPending isBack ht
      refine ⟨⟨hpush.placed, hpush.executingCount, hpush.readyCount⟩, rfl, rfl, ?_, ?_, rfl, rfl⟩
      · exact (h.erase_ready (by simp [ht])).symm
      · exact fun u => Function.update_apply _ _ _ _
    · refine ⟨h.pushReady isBack ht, rfl, rfl, ?_, ?_, rfl, rfl⟩
      · exact (if_pos ht).symm
      · exact fun u => Function.update_apply _ _ _ _
  · rw [ht]
    cases dontSchedule
    · have hpush := h.pushAgain isBack ht
      refine ⟨⟨hpush.placed, hpush.executingCount, hpush.readyCount⟩, ?_, ?_, rfl, ?_, rfl, rfl⟩
      · exact congrArg (insertTask isBack t) (h.erase_pending (by simp [ht]))
      · exact h.erase_executing (by simp [ht])
      · exact fun u => Function.update_apply _ _ _ _
    · refine ⟨h, rfl, rfl, ?_, fun u => ?_, rfl, rfl⟩
      · exact (if_neg (by simp [ht])).symm
      · by_cases hu : u = t
        · simp [hu, ht]
        · simp [hu]

theorem rep_pushInternalNoLock (h : Rep s) (isBack dontSchedule : Bool)
    (ht : s.allTasks t = none ∨ s.allTasks t = some .ready) :
    Rep (pushInternalNoLock isBack t dontSchedule s) := by
  rw [pushInternalNoLock_eq]
  exact (linkTask_linked h isBack dontSchedule ht).rep.pad

theorem rep_takeFirstReady (h : Rep s) (remove : Bool) : Rep (takeFirstReady remove s).1 := by
  unfold takeFirstReady
  split
  · exact h
  · rename_i t r hready
    cases remove
    · exact h
    · exact h.destroyReady (h.mem_ready.mp (hready ▸ mem_cons_self))

/-- The option which decides on a task with the given outcome. -/
def keepOutcome (failed : Bool) (s : State τ θ) : Bool :=
  if failed then s.hasOption optionKeepFailed else s.hasOption optionKeepSuccessful

/-- A completed task on its way out of the executing list, before the
queue is padded. -/
def retireTask (t : τ) (keep : Bool) (s : State τ θ) : State τ θ :=
  let s := { s with executingCount := s.executingCount - 1 }
  let s := s.updateTask t fun d => { d with state := .completed }
  if keep then notifyEvent eventTaskReady (.taskReady t) (moveTaskToReadyQueue t s)
  else notifyEvent eventTaskDiscarded (.taskDiscarded t) (unlinkAndDestroy t s)

theorem completeTask_eq (t : τ) (s : State τ θ) :
    completeTask t s =
      notifyAll (padExecutingQueueNothrow
        (retireTask t (keepOutcome (s.task t).hasException s) s)) := by
  have hfailed : (Function.update s.task t
      { s.task t with state := TaskState.completed } t).isFailed = (s.task t).hasException := by
    rw [Function.update_self]
    rfl
  have hkeep : keepTask t (State.updateTask t (fun d => { d with state := .completed })
      { s with executingCount := s.executingCount - 1 }) =
        keepOutcome (s.task t).hasException s := by
    unfold keepTask State.updateTask
    dsimp only
    rw [hfailed]
    rfl
  unfold completeTask retireTask
  dsimp only
  rw [hkeep]

theorem rep_retireTask (h : Rep s) (ht : s.allTasks t = some .executing) (keep : Bool) :
    Rep (retireTask t keep s) := by
  have hdone := rep_updateTask h t fun d => { d with state := .completed }
  unfold retireTask
  cases keep
  · exact rep_notifyEvent (hdone.completeDiscard ht) _ _
  · exact rep_notifyEvent (hdone.completeKeep ht) _ _

theorem rep_completeTask (h : Rep s) (ht : s.allTasks t = some .executing) :
    Rep (completeTask t s) := by
  have hrep := (rep_retireTask h ht (keepOutcome (s.task t).hasException s)).pad
  rw [completeTask_eq]
  exact ⟨hrep.placed, hrep.executingCount, hrep.readyCount⟩

/-- A task which continues as itself in the pending list, before the queue
is padded. -/
def relinkTask (t : τ) (s : State τ θ) : State τ θ :=
  { moveExecutingTaskToPendingQueue t s with
    activeWorkGeneration := s.activeWorkGeneration + 1 }

theorem continueTask_eq (t : τ) (s : State τ θ) :
    continueTask t s = padExecutingQueueNothrow (relinkTask t s) :=
  rfl

theorem rep_relinkTask (h : Rep s) (ht : s.allTasks t = some .executing) :
    Rep (relinkTask t s) := by
  have hself := h.continueAsSelf ht
  exact ⟨hself.placed, hself.executingCount, hself.readyCount⟩

theorem rep_continueTask (h : Rep s) (ht : s.allTasks t = some .executing) :
    Rep (continueTask t s) := by
  rw [continueTask_eq]
  exact (rep_relinkTask h ht).pad

theorem rep_formCandidate (h : Rep s) : Rep (formCandidate s) := by
  unfold formCandidate
  split
  · exact ⟨h.placed, h.executingCount, h.readyCount⟩
  · exact h

/-- A pushed task leaves the tag of an executing one alone. -/
theorem pushInternalNoLock_executing (h : Rep s) (isBack dontSchedule : Bool) {c : τ}
    (hc : s.allTasks c = none ∨ s.allTasks c = some .ready)
    (ht : s.allTasks t = some .executing) :
    (pushInternalNoLock isBack c dontSchedule s).allTasks t = some .executing := by
  have hne : t ≠ c := by
    intro e
    subst e
    rcases hc with hc | hc <;> simp [ht] at hc
  rw [pushInternalNoLock_eq, pad_allTasks, (linkTask_linked h isBack dontSchedule hc).allTasks,
    if_neg hne, ht, ite_self]

theorem rep_prioritize (h : Rep s) (t : τ) : Rep (prioritize t s).1 := by
  unfold prioritize
  split
  · exact h
  · rename_i ht
    exact h.moveToFront ht
  · exact h

theorem rep_finishFlush (h : Rep s) (nothrowIfFailed discardReady : Bool) :
    Rep (finishFlush nothrowIfFailed discardReady s).1 := by
  unfold finishFlush
  split
  · exact h.clearReady.rep
  · cases discardReady
    · exact h
    · exact h.clearReady.rep

theorem rep_cancel (h : Rep s) (t : τ) : Rep (cancel t s).1 := by
  unfold cancel
  split
  · rename_i ht
    dsimp only
    split
    · exact h.cancelKeep ht
    · exact h.destroyPending ht
  · exact h

theorem rep_onReady (h : Rep s) (failed : Bool) (continuation : Continuation τ)
    (hen : enabled s (.onReady t failed continuation) = true) :
    Rep (onReady t failed continuation s) := by
  have hrep := rep_notifyReady h t failed
  apply rep_formCandidate
  cases continuation with
  | none =>
    have ht : s.allTasks t = some .executing := by simpa [enabled] using hen
    exact rep_completeTask hrep ht
  | throws =>
    have ht : s.allTasks t = some .executing := by simpa [enabled] using hen
    exact rep_completeTask (rep_updateTask hrep t _) ht
  | task c =>
    obtain ⟨ht, hc⟩ : s.allTasks t = some .executing ∧ (c = t ∨ pushable c s = true) := by
      simpa [enabled] using hen
    dsimp only
    split
    · exact rep_continueTask hrep ht
    · rename_i hne
      have hpush := (pushable_iff c s).mp (hc.resolve_left hne)
      exact rep_completeTask (rep_pushInternalNoLock hrep false false hpush)
        (pushInternalNoLock_executing hrep false false hpush ht)

theorem rep_validateCandidate (h : Rep s) (generation : Nat) :
    Rep (validateCandidate generation s) := by
  unfold validateCandidate
  dsimp only
  split
  · apply rep_notifyEvent
    exact ⟨h.placed, h.executingCount, h.readyCount⟩
  · exact ⟨h.placed, h.executingCount, h.readyCount⟩

variable [DecidableEq θ]

theorem rep_block (h : Rep s) (th : θ) (w : Waiter τ) : Rep (block th w s).1 :=
  ⟨h.placed, h.executingCount, h.readyCount⟩

theorem rep_unblock (h : Rep s) (th : θ) : Rep (unblock th s) :=
  ⟨h.placed, h.executingCount, h.readyCount⟩

theorem rep_waitFirstReady (h : Rep s) (remove : Bool) : Rep (waitFirstReady th remove s).1 := by
  unfold waitFirstReady
  split
  · exact rep_block h th _
  · exact rep_takeFirstReady h remove

theorem rep_getFirstReady (h : Rep s) (wait remove : Bool) :
    Rep (getFirstReady th wait remove s).1 := by
  unfold getFirstReady
  cases wait
  · exact rep_takeFirstReady h.pad remove
  · exact rep_waitFirstReady h.pad remove

theorem rep_waitTask (h : Rep s) (t : τ) : Rep (waitTask th t s).1 := by
  unfold waitTask
  dsimp only
  split
  · exact h.pad
  · rename_i ht
    exact h.pad.destroyReady ht
  · exact rep_block h.pad th _

/-- What `waitInternal` does to a task which is not ready before it waits
for it. -/
def prepareWait (t : τ) (prioritize cancel : Bool) (owner : OwnerQueue) (s : State τ θ) :
    State τ θ :=
  let s := if prioritize ∧ owner = .pending then moveToFront t s else s
  if cancel then requestCancel t s else s

omit [DecidableEq θ] in
theorem rep_prepareWait (h : Rep s) {owner : OwnerQueue} (ht : s.allTasks t = some owner)
    (prioritize cancel : Bool) : Rep (prepareWait t prioritize cancel owner s) := by
  have hfront : Rep (if prioritize = true ∧ owner = .pending then moveToFront t s else s) := by
    split
    · rename_i hprio
      exact h.moveToFront (hprio.2 ▸ ht)
    · exact h
  unfold prepareWait
  cases cancel
  · exact hfront
  · dsimp only
    rw [if_pos rfl]
    exact rep_updateTask hfront t _

theorem rep_waitInternal (h : Rep s) (t : τ) (prioritize cancel : Bool) :
    Rep (waitInternal th t prioritize cancel s).1 := by
  unfold waitInternal
  dsimp only
  split
  · exact h.pad
  · rename_i owner howner
    split
    · rename_i hready
      exact h.pad.destroyReady (hready ▸ howner)
    · split
      · rename_i hcancel
        exact h.pad.destroyPending (hcancel.1 ▸ howner)
      · exact rep_waitTask (rep_prepareWait h.pad howner prioritize cancel) t

theorem rep_waitFlush (h : Rep s) (nothrowIfFailed discardReady : Bool) :
    Rep (waitFlush th nothrowIfFailed discardReady s).1 := by
  unfold waitFlush
  split
  · exact rep_block h th _
  · exact rep_finishFlush h nothrowIfFailed discardReady

/-- What `flushInternal` does to a queue which is not empty before it
waits. -/
def prepareFlush (discardPending cancelExecuting : Bool) (s : State τ θ) : State τ θ :=
  let s := if discardPending then clearPending s else s
  if cancelExecuting then cancelTasks s.executing s else s

omit [DecidableEq θ] in
theorem rep_prepareFlush (h : Rep s) (discardPending cancelExecuting : Bool) :
    Rep (prepareFlush discardPending cancelExecuting s) := by
  have hclear : Rep (if discardPending = true then clearPending s else s) := by
    split
    · exact h.clearPending.rep
    · exact h
  unfold prepareFlush
  dsimp only
  split
  · exact rep_cancelTasks hclear _
  · exact hclear

omit [DecidableEq θ] in
theorem prepareFlush_lists (h : Rep s) (discardPending cancelExecuting : Bool) :
    (prepareFlush discardPending cancelExecuting s).pending =
        (if discardPending then [] else s.pending) ∧
      (prepareFlush discardPending cancelExecuting s).executing = s.executing ∧
      (prepareFlush discardPending cancelExecuting s).ready = s.ready := by
  have hcancel : ∀ (q : OwnerQueue) (s' : State τ θ),
      getQueue (if cancelExecuting then cancelTasks s'.executing s' else s') q =
        getQueue s' q := by
    intro q s'
    split
    · exact cancelTasks_frame (fun s => getQueue s q) (fun _ _ => by cases q <;> rfl) _ _
    · rfl
  have hclear := h.clearPending
  unfold prepareFlush
  cases discardPending
  · exact ⟨hcancel .pending s, hcancel .executing s, hcancel .ready s⟩
  · exact ⟨(hcancel .pending _).trans hclear.self,
      (hcancel .executing _).trans (hclear.others .executing (by simp)),
      (hcancel .ready _).trans (hclear.others .ready (by simp))⟩

omit [DecidableEq θ] in
theorem prepareFlush_control (discardPending cancelExecuting : Bool) (s : State τ θ) :
    (prepareFlush discardPending cancelExecuting s).control = s.control := by
  have hclear : (if discardPending = true then clearPending s else s).control = s.control := by
    split
    · exact clearPending_control s
    · rfl
  unfold prepareFlush
  dsimp only
  split
  · exact (cancelTasks_frame State.control (fun _ _ => rfl) _ _).trans hclear
  · exact hclear

/-- The end of `flushInternal`, waiting or not. -/
def endFlush (th : θ) (wait nothrowIfFailed discardReady : Bool) (s : State τ θ) :
    State τ θ × Outcome τ :=
  if wait then waitFlush th nothrowIfFailed discardReady s
  else finishFlush nothrowIfFailed discardReady s

theorem rep_endFlush (h : Rep s) (wait nothrowIfFailed discardReady : Bool) :
    Rep (endFlush th wait nothrowIfFailed discardReady s).1 := by
  unfold endFlush
  split
  · exact rep_waitFlush h _ _
  · exact rep_finishFlush h _ _

/-- The three ways `flushInternal` goes on. -/
theorem flushInternal_eq (th : θ)
    (wait discardPending nothrowIfFailed discardReady cancelExecuting : Bool) (s : State τ θ) :
    flushInternal th wait discardPending nothrowIfFailed discardReady cancelExecuting s =
      if discardPending then
        if isEmptyInternal s then (s, .done)
        else endFlush th wait nothrowIfFailed discardReady (prepareFlush true cancelExecuting s)
      else
        if isEmptyInternal (padExecutingQueueNothrow s) then (padExecutingQueueNothrow s, .done)
        else endFlush th wait nothrowIfFailed discardReady
          (prepareFlush false cancelExecuting (padExecutingQueueNothrow s)) := by
  cases discardPending <;> rfl

theorem rep_flushInternal (h : Rep s)
    (wait discardPending nothrowIfFailed discardReady cancelExecuting : Bool) :
    Rep (flushInternal th wait discardPending nothrowIfFailed discardReady cancelExecuting s).1 := by
  rw [flushInternal_eq]
  split
  · split
    · exact h
    · exact rep_endFlush (rep_prepareFlush h _ _) _ _ _
  · split
    · exact h.pad
    · exact rep_endFlush (rep_prepareFlush h.pad _ _) _ _ _

theorem rep_resume (h : Rep s) (th : θ) : Rep (resume th s).1 := by
  unfold resume
  split
  · exact h
  · split
    · exact rep_waitFlush (rep_unblock h th) _ _
    · exact rep_waitFirstReady (rep_unblock h th) _
    · exact rep_waitTask (rep_unblock h th) _

theorem step_eq_some {s s' : State τ θ} {l : Label τ θ} :
    step s l = some s' ↔ enabled s l = true ∧ (lockSection s l).1 = s' := by
  unfold step
  split <;> simp_all

theorem rep_step {s s' : State τ θ} {l : Label τ θ} (h : Rep s) (hstep : step s l = some s') :
    Rep s' := by
  obtain ⟨hen, rfl⟩ := step_eq_some.mp hstep
  cases l with
  | push isBack dontSchedule t =>
    exact rep_pushInternalNoLock h isBack dontSchedule ((pushable_iff t s).mp hen)
  | getFirstReady th wait remove => exact rep_getFirstReady h wait remove
  | wait th t prioritize cancel => exact rep_waitInternal h t prioritize cancel
  | prioritize t => exact rep_prioritize h t
  | flush th wait discardPending nothrowIfFailed discardReady cancelExecuting =>
    exact rep_flushInternal h wait discardPending nothrowIfFailed discardReady cancelExecuting
  | cancel t => exact rep_cancel h t
  | setOptions _ | disconnectObserver => exact ⟨h.placed, h.executingCount, h.readyCount⟩
  | setThrottleLimit _ | setNotifyCallback _ _ =>
    exact Rep.pad ⟨h.placed, h.executingCount, h.readyCount⟩
  | onReady t failed continuation => exact rep_onReady h failed continuation hen
  | validateCandidate generation => exact rep_validateCandidate h generation
  | resume th => exact rep_resume h th

theorem rep_of_reachable {s : State τ θ} (h : Reachable s) : Rep s := by
  refine Transition.Reachable.invariant ?_ (fun _ _ _ => rep_step) h
  intro s hinit
  obtain ⟨options, maxExecuting, task, rfl⟩ := hinit
  exact rep_init options maxExecuting task

end Sections

end Baselib.Tasks.ExecutionQueue
