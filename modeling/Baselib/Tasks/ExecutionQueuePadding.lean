/-
Baselib.Tasks.ExecutionQueuePadding — what `padExecutingQueueNothrow`
does to the queue, in closed form.

The loop admits tasks from the head of the pending list until a throttle
limit is reached. `room` is the number it admits, as arithmetic on the
state before it; every later result about a section that pads uses the
equations here and never the loop.
-/
import Baselib.Tasks.ExecutionQueue

namespace Baselib.Tasks.ExecutionQueue

open List

variable {τ θ : Type*}

/-! ## The throttle -/

/-- How many of `cap` tasks a limit lets in; a limit of zero is none. -/
def limitRoom (limit used cap : Nat) : Nat := if limit = 0 then cap else limit - used

/-- How many pending tasks the throttle admits. -/
def room (s : State τ θ) : Nat :=
  min s.pending.length
    (min (limitRoom s.maxExecuting s.executingCount s.pending.length)
      (limitRoom s.maxReadyOrExecuting (getReadyOrExecuting s) s.pending.length))

theorem throttled_iff (s : State τ θ) :
    throttled s = true ↔
      (s.maxExecuting ≠ 0 ∧ s.maxExecuting ≤ s.executingCount) ∨
        (s.maxReadyOrExecuting ≠ 0 ∧ s.maxReadyOrExecuting ≤ s.readyCount + s.executingCount) := by
  simp [throttled, getReadyOrExecuting]

theorem room_le_length (s : State τ θ) : room s ≤ s.pending.length := Nat.min_le_left _ _

theorem room_of_nil {s : State τ θ} (h : s.pending = []) : room s = 0 := by
  have hle := room_le_length s
  rw [h] at hle
  exact Nat.le_zero.mp hle

theorem room_of_throttled {s : State τ θ} (h : throttled s = true) : room s = 0 := by
  rw [throttled_iff] at h
  unfold room limitRoom getReadyOrExecuting
  split <;> split <;> omega

theorem room_admitFront [DecidableEq τ] {s : State τ θ} {t : τ} {rest : List τ}
    (hp : s.pending = t :: rest) (h : ¬ throttled s = true) :
    room s = room (admitFront t rest s) + 1 := by
  have hlen : s.pending.length = rest.length + 1 := by rw [hp, length_cons]
  rw [throttled_iff] at h
  show _ = min rest.length (min (limitRoom s.maxExecuting (s.executingCount + 1) rest.length)
    (limitRoom s.maxReadyOrExecuting (s.readyCount + (s.executingCount + 1)) rest.length)) + 1
  unfold room limitRoom getReadyOrExecuting
  split <;> split <;> omega

/-- Nothing is pending that the throttle would admit. -/
def Settled (s : State τ θ) : Prop := s.pending = [] ∨ throttled s = true

theorem settled_iff_room (s : State τ θ) : Settled s ↔ room s = 0 := by
  unfold Settled
  rw [throttled_iff, ← length_eq_zero_iff]
  unfold room limitRoom getReadyOrExecuting
  split <;> split <;> omega

/-- Admitting `room` tasks keeps the executing count under its limit. -/
theorem room_le_maxExecuting {s : State τ θ} (hmax : s.maxExecuting ≠ 0)
    (h : s.executingCount ≤ s.maxExecuting) : s.executingCount + room s ≤ s.maxExecuting := by
  unfold room limitRoom
  rw [if_neg hmax]
  omega

theorem room_le_maxReadyOrExecuting {s : State τ θ} (hmax : s.maxReadyOrExecuting ≠ 0)
    (h : s.readyCount + s.executingCount ≤ s.maxReadyOrExecuting) :
    s.readyCount + (s.executingCount + room s) ≤ s.maxReadyOrExecuting := by
  unfold room limitRoom getReadyOrExecuting
  rw [if_neg hmax]
  omega

/-! ## The loop -/

variable [DecidableEq τ]

/-- What an admission keeps, the loop keeps. -/
theorem padLoop_invariant {P : State τ θ → Prop}
    (hP : ∀ t rest s, s.pending = t :: rest → P s → P (admitFront t rest s)) (n : Nat) :
    ∀ s, P s → P (padLoop n s) := by
  induction n with
  | zero => exact fun _ h => h
  | succ n ih =>
    intro s h
    unfold padLoop
    split
    · exact h
    · split
      · exact h
      · exact ih _ (hP _ _ s ‹_› h)

/-- What an admission leaves alone, the loop leaves alone. -/
theorem padLoop_frame {β : Type*} (f : State τ θ → β)
    (hf : ∀ t rest s, f (admitFront t rest s) = f s) (n : Nat) :
    ∀ s, f (padLoop n s) = f s :=
  fun s => padLoop_invariant (P := fun s' => f s' = f s)
    (fun t rest s' _ h => (hf t rest s').trans h) n s rfl

/-- The lists and the tags after the loop. -/
theorem padLoop_spec (n : Nat) : ∀ s : State τ θ, s.pending.length ≤ n →
    (padLoop n s).pending = s.pending.drop (room s) ∧
    (padLoop n s).executing = s.executing ++ s.pending.take (room s) ∧
    (padLoop n s).executingCount = s.executingCount + room s ∧
    (padLoop n s).allTasks =
      fun u => if u ∈ s.pending.take (room s) then some .executing else s.allTasks u := by
  induction n with
  | zero =>
    intro s hn
    have hp : s.pending = [] := eq_nil_of_length_eq_zero (Nat.le_zero.mp hn)
    simp [padLoop, room_of_nil hp]
  | succ n ih =>
    intro s hn
    unfold padLoop
    split
    · rename_i hp
      simp [room_of_nil hp]
    · rename_i t rest hp
      split_ifs with hthr
      · simp [room_of_throttled hthr]
      · have hlen : rest.length ≤ n := by
          rw [hp, length_cons] at hn
          omega
        obtain ⟨hpend, hexec, hcount, htags⟩ := ih (admitFront t rest s) hlen
        rw [hpend, hexec, hcount, htags, room_admitFront hp hthr, hp]
        refine ⟨rfl, ?_, ?_, ?_⟩
        · show (s.executing ++ [t]) ++ _ = _
          simp [admitFront, setOwnerQueue, append_assoc]
        · show s.executingCount + 1 + _ = _
          omega
        · funext u
          simp only [admitFront, setOwnerQueue, State.updateTask, take_succ_cons,
            mem_cons, Function.update_apply]
          by_cases hu : u = t
          · simp [hu]
          · simp [hu]

/-! ## The equations -/

section Pad

variable (s : State τ θ)

@[simp] theorem pad_pending :
    (padExecutingQueueNothrow s).pending = s.pending.drop (room s) :=
  (padLoop_spec _ s (Nat.le_refl _)).1

@[simp] theorem pad_executing :
    (padExecutingQueueNothrow s).executing = s.executing ++ s.pending.take (room s) :=
  (padLoop_spec _ s (Nat.le_refl _)).2.1

@[simp] theorem pad_executingCount :
    (padExecutingQueueNothrow s).executingCount = s.executingCount + room s :=
  (padLoop_spec _ s (Nat.le_refl _)).2.2.1

@[simp] theorem pad_allTasks (u : τ) :
    (padExecutingQueueNothrow s).allTasks u =
      if u ∈ s.pending.take (room s) then some .executing else s.allTasks u :=
  congrFun (padLoop_spec _ s (Nat.le_refl _)).2.2.2 u

@[simp] theorem pad_ready : (padExecutingQueueNothrow s).ready = s.ready :=
  padLoop_frame (·.ready) (fun _ _ _ => rfl) _ s

@[simp] theorem pad_readyCount : (padExecutingQueueNothrow s).readyCount = s.readyCount :=
  padLoop_frame (·.readyCount) (fun _ _ _ => rfl) _ s

@[simp] theorem pad_maxExecuting : (padExecutingQueueNothrow s).maxExecuting = s.maxExecuting :=
  padLoop_frame (·.maxExecuting) (fun _ _ _ => rfl) _ s

@[simp] theorem pad_maxReadyOrExecuting :
    (padExecutingQueueNothrow s).maxReadyOrExecuting = s.maxReadyOrExecuting :=
  padLoop_frame (·.maxReadyOrExecuting) (fun _ _ _ => rfl) _ s

@[simp] theorem pad_options : (padExecutingQueueNothrow s).options = s.options :=
  padLoop_frame (·.options) (fun _ _ _ => rfl) _ s

@[simp] theorem pad_waiting : (padExecutingQueueNothrow s).waiting = s.waiting :=
  padLoop_frame (·.waiting) (fun _ _ _ => rfl) _ s

@[simp] theorem pad_candidates : (padExecutingQueueNothrow s).candidates = s.candidates :=
  padLoop_frame (·.candidates) (fun _ _ _ => rfl) _ s

theorem pad_task {t : τ} (ht : t ∉ s.pending) :
    (padExecutingQueueNothrow s).task t = s.task t := by
  have hinv := padLoop_invariant (P := fun s' => t ∉ s'.pending ∧ s'.task t = s.task t)
    (fun u rest s' hp h => by
      rw [hp, mem_cons, not_or] at h
      exact ⟨h.1.2, (Function.update_of_ne h.1.1 _ _).trans h.2⟩) s.pending.length s ⟨ht, rfl⟩
  exact hinv.2

end Pad

/-! ## Everything but the lists -/

/-- The parts of the state which moving tasks between the lists leaves
alone. -/
structure Control (τ θ : Type*) where
  maxExecuting : Nat
  maxReadyOrExecuting : Nat
  options : Nat
  activeWorkGeneration : Nat
  lastPublishedGeneration : Nat
  lastCandidateGeneration : Nat
  notifyCB : Bool
  eventsMask : Nat
  waiting : θ → Option (Waiting τ)
  candidates : List Nat
  events : List (Event τ)

def State.control (s : State τ θ) : Control τ θ where
  maxExecuting := s.maxExecuting
  maxReadyOrExecuting := s.maxReadyOrExecuting
  options := s.options
  activeWorkGeneration := s.activeWorkGeneration
  lastPublishedGeneration := s.lastPublishedGeneration
  lastCandidateGeneration := s.lastCandidateGeneration
  notifyCB := s.notifyCB
  eventsMask := s.eventsMask
  waiting := s.waiting
  candidates := s.candidates
  events := s.events

theorem pad_control (s : State τ θ) : (padExecutingQueueNothrow s).control = s.control :=
  padLoop_frame State.control (fun _ _ _ => rfl) _ s

omit [DecidableEq τ] in
/-- What one round of a loop over tasks leaves alone, the loop leaves
alone. -/
theorem foldl_frame {β : Type*} (f : State τ θ → β) {g : State τ θ → τ → State τ θ}
    (hg : ∀ s t, f (g s t) = f s) (l : List τ) : ∀ s, f (l.foldl g s) = f s := by
  induction l with
  | nil => exact fun _ => rfl
  | cons t l ih => exact fun s => (ih (g s t)).trans (hg s t)

theorem clearPending_control (s : State τ θ) : (clearPending s).control = s.control :=
  foldl_frame State.control (g := fun s t => unlinkAndDestroy t s) (fun _ _ => rfl) s.pending s

theorem clearReady_control (s : State τ θ) : (clearReady s).control = s.control :=
  foldl_frame State.control (g := fun s t => destroyReady t s) (fun _ _ => rfl) s.ready s

/-- Cancellation requests change the data of tasks only. -/
theorem cancelTasks_frame {β : Type*} (f : State τ θ → β)
    (hf : ∀ t s, f (requestCancel t s) = f s) (l : List τ) (s : State τ θ) :
    f (cancelTasks l s) = f s :=
  foldl_frame f (fun s t => hf t s) l s

theorem takeFirstReady_control (remove : Bool) (s : State τ θ) :
    (takeFirstReady remove s).1.control = s.control := by
  unfold takeFirstReady
  split
  · rfl
  · cases remove <;> rfl

theorem finishFlush_control (nothrowIfFailed discardReady : Bool) (s : State τ θ) :
    (finishFlush nothrowIfFailed discardReady s).1.control = s.control := by
  unfold finishFlush
  split
  · exact clearReady_control s
  · cases discardReady
    · rfl
    · exact clearReady_control s

/-! ## After the loop -/

/-- The loop stops for one of its two reasons, and for no lack of rounds. -/
theorem pad_settled (s : State τ θ) : Settled (padExecutingQueueNothrow s) := by
  rw [settled_iff_room]
  unfold room limitRoom getReadyOrExecuting
  simp only [pad_pending, pad_executingCount, pad_maxExecuting, pad_maxReadyOrExecuting,
    pad_readyCount, length_drop]
  unfold room limitRoom getReadyOrExecuting
  by_cases hexec : s.maxExecuting = 0
  · by_cases hready : s.maxReadyOrExecuting = 0
    · simp only [hexec, hready, if_true]
      omega
    · simp only [hexec, if_true, if_neg hready]
      omega
  · by_cases hready : s.maxReadyOrExecuting = 0
    · simp only [hready, if_true, if_neg hexec]
      omega
    · simp only [if_neg hexec, if_neg hready]
      omega

theorem pad_of_settled {s : State τ θ} (h : Settled s) : padExecutingQueueNothrow s = s := by
  unfold padExecutingQueueNothrow
  cases hp : s.pending with
  | nil => rfl
  | cons t rest =>
    have hthr : throttled s = true := h.resolve_left (by simp [hp])
    rw [length_cons, padLoop]
    simp only [hp, if_pos hthr]

/-- Admitting moves tasks from one list to the next. -/
theorem pad_drained (s : State τ θ) :
    (padExecutingQueueNothrow s).pending = [] ∧ (padExecutingQueueNothrow s).executing = [] ↔
      s.pending = [] ∧ s.executing = [] := by
  have happend := take_append_drop (room s) s.pending
  rw [pad_pending, pad_executing, append_eq_nil_iff]
  constructor
  · intro h
    rw [h.1, h.2.2] at happend
    exact ⟨happend.symm, h.2.1⟩
  · intro h
    simp [h.1, h.2]

end Baselib.Tasks.ExecutionQueue
