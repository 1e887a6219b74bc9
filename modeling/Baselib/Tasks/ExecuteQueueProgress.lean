/-
Baselib.Tasks.ExecuteQueueProgress — the drain comes to its end.

What is left to do is a weight of the state: a task which is to run
weighs more than one which is ready, and the phases of the loop are
ranked. Every step makes it smaller, but for a spurious wake-up and for
the steps which bring further work in; and a loop which sleeps without a
signal has a task which executes to wait for.
-/
import Baselib.Tasks.ExecuteQueueTheorems

namespace Baselib.Tasks.ExecuteQueue

open Lib List
open ExecutionQueue hiding Label enabled step Reachable

variable {τ θ : Type*} [DecidableEq τ]

/-! ## The weight of a queue -/

section Load

variable {s s' : State τ θ} {t u : τ}

omit [DecidableEq τ] in
def load (s : State τ θ) : Nat :=
  9 * (s.pending.length + s.executing.length) + 6 * s.ready.length + s.candidates.length

theorem load_pad (s : State τ θ) : load (padExecutingQueueNothrow s) = load s := by
  unfold load
  rw [pad_pending, pad_executing, pad_ready, pad_candidates, length_append, length_drop,
    length_take]
  have hroom := room_le_length s
  omega

omit [DecidableEq τ] in
theorem length_insertTask (isBack : Bool) (t : τ) (l : List τ) :
    (insertTask isBack t l).length = l.length + 1 := by
  cases isBack <;> simp [insertTask]

theorem load_push (h : Rep s) (isBack dontSchedule : Bool)
    (ht : s.allTasks t = none ∨ s.allTasks t = some .ready) :
    load (pushInternalNoLock isBack t dontSchedule s) ≤ load s + 9 := by
  have hlink := linkTask_linked h isBack dontSchedule ht
  have hcandidates : (linkTask isBack t dontSchedule s).candidates = s.candidates :=
    congrArg Control.candidates hlink.control
  rw [pushInternalNoLock_eq, load_pad]
  unfold load
  rw [hlink.pending, hlink.executing, hlink.ready, hcandidates]
  cases dontSchedule
  · have herase : (s.ready.erase t).length ≤ s.ready.length := length_erase_le
    simp only [Bool.false_eq_true, if_false, length_insertTask]
    omega
  · simp only [if_true]
    split
    · rw [length_insertTask]
      omega
    · omega

omit [DecidableEq τ] in
theorem load_notifyEvent (eventId : Nat) (e : Event τ) (s : State τ θ) :
    load (notifyEvent eventId e s) = load s := by
  unfold notifyEvent
  split <;> rfl

omit [DecidableEq τ] in
theorem load_formCandidate (s : State τ θ) : load (formCandidate s) ≤ load s + 1 := by
  unfold formCandidate
  split
  · unfold load
    simp only [length_append, length_singleton]
    omega
  · exact Nat.le_succ _

/-- A task which is kept is ready instead of executing. -/
theorem load_completeTask (h : Rep s) (hkeep : keepsAll s) (ht : s.allTasks t = some .executing) :
    load (completeTask t s) + 3 ≤ load s := by
  have hexec := h.length_erase_executing t
  have hready := h.length_erase_ready t
  have hpos := h.executing_pos ht
  have hpending : (s.pending.erase t).length ≤ s.pending.length := length_erase_le
  rw [completeTask_eq, keepOutcome_eq_true hkeep]
  show load (padExecutingQueueNothrow (retireTask t true s)) + 3 ≤ load s
  rw [load_pad]
  unfold retireTask
  rw [if_pos rfl, load_notifyEvent]
  show 9 * ((s.pending.erase t).length + (s.executing.erase t).length) +
    6 * (s.ready.erase t ++ [t]).length + s.candidates.length + 3 ≤ load s
  rw [hexec, if_pos ht, length_append, hready, if_neg (by simp [ht])]
  unfold load
  rw [length_singleton]
  omega

theorem load_continueTask (h : Rep s) (ht : s.allTasks t = some .executing) :
    load (continueTask t s) ≤ load s := by
  have hexec := h.length_erase_executing t
  have hpos := h.executing_pos ht
  have hpending : (s.pending.erase t).length ≤ s.pending.length := length_erase_le
  have hready : (s.ready.erase t).length ≤ s.ready.length := length_erase_le
  rw [continueTask_eq, load_pad]
  show 9 * ((s.pending.erase t ++ [t]).length + (s.executing.erase t).length) +
    6 * (s.ready.erase t).length + s.candidates.length ≤ load s
  rw [hexec, if_pos ht, length_append, length_singleton]
  unfold load
  omega

theorem load_destroyReady (h : Rep s) (ht : s.allTasks t = some .ready) :
    load (destroyReady t s) + 6 ≤ load s := by
  have hready := h.length_erase_ready t
  have hpos := h.ready_pos ht
  have hpending : (s.pending.erase t).length ≤ s.pending.length := length_erase_le
  have hexec : (s.executing.erase t).length ≤ s.executing.length := length_erase_le
  show 9 * ((s.pending.erase t).length + (s.executing.erase t).length) +
    6 * (s.ready.erase t).length + s.candidates.length + 6 ≤ load s
  rw [hready, if_pos ht]
  unfold load
  omega

theorem load_onReady (h : Rep s) (hkeep : keepsAll s) (failed : Bool)
    (continuation : Continuation τ)
    (hen : ExecutionQueue.enabled s (.onReady t failed continuation : ExecutionQueue.Label τ θ) =
      true) :
    load (onReady t failed continuation s) + 2 ≤
      load s + if continuation matches .task _ then 10 else 0 := by
  have hnotify := rep_notifyReady h t failed
  have hform : ∀ s₁ : State τ θ, load (formCandidate s₁) ≤ load s₁ + 1 := load_formCandidate
  unfold onReady
  dsimp only
  cases continuation with
  | none =>
    have ht : s.allTasks t = some .executing := by simpa [ExecutionQueue.enabled] using hen
    have hdone : load (completeTask t (notifyReady t failed s)) + 3 ≤ load s :=
      load_completeTask hnotify hkeep ht
    have hformed := hform (completeTask t (notifyReady t failed s))
    show load (formCandidate (completeTask t (notifyReady t failed s))) + 2 ≤ load s + 0
    omega
  | throws =>
    have ht : s.allTasks t = some .executing := by simpa [ExecutionQueue.enabled] using hen
    let s₁ := (notifyReady t failed s).updateTask t fun d => { d with hasException := true }
    have hdone : load (completeTask t s₁) + 3 ≤ load s :=
      load_completeTask (rep_updateTask hnotify t _) hkeep ht
    have hformed := hform (completeTask t s₁)
    show load (formCandidate (completeTask t s₁)) + 2 ≤ load s + 0
    omega
  | task c =>
    obtain ⟨ht, hc⟩ : s.allTasks t = some .executing ∧ (c = t ∨ pushable c s = true) := by
      simpa [ExecutionQueue.enabled] using hen
    dsimp only
    by_cases hself : c = t
    · rw [if_pos hself]
      have hcontinue : load (continueTask t (notifyReady t failed s)) ≤ load s :=
        load_continueTask hnotify ht
      have hformed := hform (continueTask t (notifyReady t failed s))
      show load (formCandidate (continueTask t (notifyReady t failed s))) + 2 ≤ load s + 10
      omega
    · rw [if_neg hself]
      have hpush := (pushable_iff c s).mp (hc.resolve_left hself)
      let s₁ := pushInternalNoLock false c false (notifyReady t failed s)
      have hpushed : load s₁ ≤ load s + 9 := load_push hnotify false false hpush
      have hkeep₁ : keepsAll s₁ :=
        keepsAll_of_settings hkeep (push_settings hnotify false false hpush).1
      have hdone : load (completeTask t s₁) + 3 ≤ load s₁ :=
        load_completeTask (rep_pushInternalNoLock hnotify false false hpush) hkeep₁
          (pushInternalNoLock_executing hnotify false false hpush ht)
      have hformed := hform (completeTask t s₁)
      show load (formCandidate (completeTask t s₁)) + 2 ≤ load s + 10
      omega

omit [DecidableEq τ] in
theorem load_validateCandidate {generation : Nat} (hmem : generation ∈ s.candidates) :
    load (validateCandidate generation s) + 1 ≤ load s := by
  have hlength : (s.candidates.erase generation).length = s.candidates.length - 1 :=
    length_erase_of_mem hmem
  have hpos : 0 < s.candidates.length := length_pos_of_mem hmem
  have herased : load { s with candidates := s.candidates.erase generation } + 1 ≤ load s := by
    unfold load
    dsimp only
    rw [hlength]
    omega
  unfold validateCandidate
  dsimp only
  split
  · rwa [load_notifyEvent]
  · exact herased

variable [DecidableEq θ]

theorem load_cancelAll (h : Rep s) (th : θ) :
    load (lockSection s (.cancelAll th false)).1 ≤ load s := by
  have hcandidates := congrArg Control.candidates (cancelAll_control s th)
  have hflush : lockSection s (.cancelAll th false) =
      if isEmptyInternal s then (s, .done)
      else finishFlush true true (prepareFlush true true s) := by
    show flushInternal th false true true true true s = _
    rw [flushInternal_eq, if_pos rfl]
    rfl
  rw [hflush] at hcandidates ⊢
  split at hcandidates
  · rename_i hempty
    exact Nat.le_of_eq (by rw [if_pos hempty])
  · rename_i hne
    rw [if_neg hne]
    have hclear := (rep_prepareFlush h true true).clearReady
    obtain ⟨hpending, hexec, _⟩ := prepareFlush_lists h true true
    have hpending' : (clearReady (prepareFlush true true s)).pending = [] :=
      (hclear.others .pending (by simp)).trans hpending
    have hexec' : (clearReady (prepareFlush true true s)).executing = s.executing :=
      (hclear.others .executing (by simp)).trans hexec
    have hready' : (clearReady (prepareFlush true true s)).ready = [] := hclear.self
    have hcandidates' : (clearReady (prepareFlush true true s)).candidates = s.candidates :=
      hcandidates
    show load (clearReady (prepareFlush true true s)) ≤ load s
    unfold load
    rw [hpending', hexec', hready', hcandidates']
    simp only [length_nil]
    omega

end Load

/-! ## The weight of the drain -/

section Weight

variable [DecidableEq θ] {th : θ} {d d' : Drain τ θ} {l : Label τ}

/-- How much of its turn the loop has before it. -/
def rank (th : θ) (d : Drain τ θ) : Nat :=
  match d.phase with
  | .popped _ => 6
  | .cancelAll => 5
  | .isEmpty => 4
  | .pop => 3
  | .wait => if signalled th d.queue then 2 else 1
  | .returned => 0

def weight (th : θ) (d : Drain τ θ) : Nat := load d.queue + rank th d

omit [DecidableEq τ] [DecidableEq θ] in
theorem rank_wait_le (hp : d.phase = .wait) : 1 ≤ rank th d ∧ rank th d ≤ 2 := by
  unfold rank
  rw [hp]
  dsimp only
  split <;> omega

omit [DecidableEq τ] in
theorem signalled_block (th : θ) (w : Waiter τ) (s : State τ θ) :
    signalled th (block th w s).1 = false := by
  unfold signalled block
  simp

/-- A `pop` takes a task out or goes to sleep. -/
theorem weight_receive {s : State τ θ} (hrep : Rep s) (hne : isEmptyInternal s = false) :
    weight th (receive d (waitFirstReady th true s)) ≤ load s + 1 := by
  unfold weight
  rcases waitFirstReady_cases hrep th with ⟨_, _, hblock⟩ | ⟨t, ht, htake⟩ | ⟨hempty, _⟩
  · have hsleeps := signalled_block th (.ready true) s
    rw [hblock]
    show load s + (if signalled th (block th (.ready true) s).1 then 2 else 1) ≤ load s + 1
    exact Nat.le_of_eq (by rw [hsleeps, if_neg Bool.false_ne_true])
  · have hload := load_destroyReady hrep ht
    rw [htake]
    show load (destroyReady t s) + 6 ≤ load s + 1
    omega
  · rw [hne] at hempty
    exact absurd hempty Bool.false_ne_true

/-- A step of the loop makes the weight smaller, a spurious wake-up does
not make it greater. -/
theorem weight_loop (h : Inv th d) (hreturned : d.phase ≠ .returned) :
    weight th (loop th d) ≤ weight th d ∧
      ((d.phase = .wait → signalled th d.queue = true) →
        weight th (loop th d) + 1 ≤ weight th d) := by
  have hphase := h.phase
  have hcancel := load_cancelAll h.rep th
  unfold loop
  cases hp : d.phase with
  | isEmpty =>
    have hrank : weight th d = load d.queue + 4 := by unfold weight rank; rw [hp]
    have hnext : ∀ b : Bool, weight th { d with phase := if b then .returned else .pop } ≤
        load d.queue + 3 := by
      intro b
      cases b
      · exact Nat.le_refl _
      · exact Nat.le_add_right _ 3
    have hle := hnext (isEmptyInternal d.queue)
    dsimp only
    exact ⟨by omega, fun _ => by omega⟩
  | pop =>
    rw [hp] at hphase
    obtain ⟨_, _, hne⟩ := hphase
    have hrank : weight th d = load d.queue + 3 := by unfold weight rank; rw [hp]
    have hle : weight th (receive d (waitFirstReady th true (padExecutingQueueNothrow d.queue))) ≤
        load (padExecutingQueueNothrow d.queue) + 1 :=
      weight_receive h.rep.pad (by rw [isEmptyInternal_pad, hne])
    rw [load_pad] at hle
    dsimp only
    rw [lockSection_pop]
    exact ⟨by omega, fun _ => by omega⟩
  | wait =>
    rw [hp] at hphase
    obtain ⟨⟨b, hwait⟩, _, hne, _⟩ := hphase
    have hle : weight th (receive d (waitFirstReady th true (unblock th d.queue))) ≤
        load d.queue + 1 :=
      weight_receive (rep_unblock h.rep th) hne
    have hrank : 1 ≤ rank th d := (rank_wait_le hp).1
    have hweight : weight th d = load d.queue + rank th d := rfl
    dsimp only
    rw [lockSection_resume hwait]
    refine ⟨by omega, fun hsignal => ?_⟩
    have htwo : rank th d = 2 := by
      unfold rank
      rw [hp]
      exact if_pos (hsignal rfl)
    omega
  | popped task =>
    have hrank : weight th d = load d.queue + 6 := by unfold weight rank; rw [hp]
    dsimp only
    have hnext : weight th (if d.cancelled then cancelRest th d else examine task d) ≤
        load d.queue + 5 := by
      split
      · show load (lockSection d.queue (.cancelAll th false)).1 + 4 ≤ load d.queue + 5
        omega
      · unfold examine
        split
        · exact Nat.le_succ _
        · split
          · exact Nat.le_refl _
          · exact Nat.le_succ _
    exact ⟨by omega, fun _ => by omega⟩
  | cancelAll =>
    have hrank : weight th d = load d.queue + 5 := by unfold weight rank; rw [hp]
    refine ⟨?_, fun _ => ?_⟩
    · show load (lockSection d.queue (.cancelAll th false)).1 + 4 ≤ weight th d
      omega
    · show load (lockSection d.queue (.cancelAll th false)).1 + 4 + 1 ≤ weight th d
      omega
  | returned => exact absurd hp hreturned

omit [DecidableEq τ] [DecidableEq θ] in
theorem rank_le_of_tasks {s' : State τ θ} :
    rank th { d with queue := s' } ≤ rank th d + 1 := by
  unfold rank
  dsimp only
  cases d.phase with
  | wait =>
    dsimp only
    split <;> split <;> omega
  | _ => exact Nat.le_succ _

omit [DecidableEq τ] [DecidableEq θ] in
theorem rank_eq_of_waiting {s' : State τ θ} (hwaiting : s'.waiting = d.queue.waiting) :
    rank th { d with queue := s' } = rank th d := by
  unfold rank signalled
  rw [hwaiting]

/-- Every productive step makes the weight smaller; the steps which bring
work in pay for it. -/
theorem weight_step (h : Inv th d) (hstep : step th d l = some d') :
    weight th d' + (if l.productive then 1 else 0) ≤
      weight th d + (if l.adds then 10 else 0) := by
  unfold step at hstep
  split at hstep
  · rename_i hen
    cases hstep
    cases l with
    | loop =>
      simp only [enabled, Bool.and_eq_true, bne_iff_ne, Bool.or_eq_true, ne_eq] at hen
      exact (weight_loop h hen.1).2 fun hp => hen.2.resolve_left fun hne => hne hp
    | spuriousWakeup =>
      simp only [enabled, Bool.and_eq_true, beq_iff_eq] at hen
      exact (weight_loop h (by simp [hen.1])).1
    | onReady t failed continuation =>
      simp only [enabled, Bool.and_eq_true] at hen
      have hload := load_onReady h.rep h.keeps failed continuation hen.1
      have hrank : rank th { d with queue := onReady t failed continuation d.queue } ≤
        rank th d + 1 := rank_le_of_tasks
      show load (onReady t failed continuation d.queue) +
        rank th { d with queue := onReady t failed continuation d.queue } + _ ≤
        load d.queue + rank th d + _
      cases continuation <;> simp [Label.productive, Label.adds] at hload ⊢ <;> omega
    | push pusher isBack dontSchedule t =>
      simp only [enabled, Bool.and_eq_true] at hen
      have hload := load_push h.rep isBack dontSchedule ((pushable_iff t d.queue).mp hen.1.2)
      have hrank : rank th { d with queue := pushInternalNoLock isBack t dontSchedule d.queue } ≤
        rank th d + 1 := rank_le_of_tasks
      show load (pushInternalNoLock isBack t dontSchedule d.queue) +
        rank th { d with queue := pushInternalNoLock isBack t dontSchedule d.queue } + 0 ≤
        load d.queue + rank th d + 10
      omega
    | validateCandidate generation =>
      have hload := load_validateCandidate (contains_iff_mem.mp hen)
      have hrank : rank th { d with queue := validateCandidate generation d.queue } = rank th d :=
        rank_eq_of_waiting (validateCandidate_settings generation d.queue).2
      show load (validateCandidate generation d.queue) +
        rank th { d with queue := validateCandidate generation d.queue } + 1 ≤
        load d.queue + rank th d + 0
      omega
  · simp at hstep

/-! ## Runs -/

omit [DecidableEq τ] in
theorem sum_map_ite (p : Label τ → Bool) (n : Nat) (ls : List (Label τ)) :
    (ls.map fun l => if p l then n else 0).sum = n * ls.countP p := by
  induction ls with
  | nil => rfl
  | cons l ls ih =>
    rw [map_cons, sum_cons, ih, countP_cons]
    cases p l
    · simp
    · simp [Nat.mul_add, Nat.add_comm]

/-- The productive steps of a run are bounded by what there was to do and
by what came in. -/
theorem run_productive {ls : List (Label τ)} (h : Inv th d)
    (hrun : Transition.run (step th) d ls = some d') :
    ls.countP Label.productive ≤ weight th d + 10 * ls.countP Label.adds := by
  have hinv : ∀ (d : Drain τ θ) l d', Inv th d → step th d l = some d' → Inv th d' := fun _ _ _ => inv_step
  have hweight : ∀ (d : Drain τ θ) l d', Inv th d → step th d l = some d' →
      weight th d' + (if l.productive then 1 else 0) ≤
        weight th d + (if l.adds then 10 else 0) := fun _ _ _ => weight_step
  have hpotential := Transition.run_potential hinv hweight h hrun
  rw [sum_map_ite, sum_map_ite] at hpotential
  omega

end Weight

/-! ## Nobody waits for nothing -/

section Busy

variable [DecidableEq θ] {th : θ} {d d' : Drain τ θ} {l : Label τ}

/-- A loop which sleeps without a signal has a task to wait for; with a
limit on ready tasks, none is ready. -/
def Busy (th : θ) (d : Drain τ θ) : Prop :=
  d.phase = .wait → signalled th d.queue = false →
    (∃ t, d.queue.allTasks t = some .executing) ∧
      (d.queue.maxReadyOrExecuting = 0 ∨ ∀ u, d.queue.allTasks u ≠ some .ready)

theorem busy_receive {s : State τ θ} (hrep : Rep s) (hset : Settled s)
    (hne : isEmptyInternal s = false) : Busy th (receive d (waitFirstReady th true s)) := by
  rcases waitFirstReady_cases hrep th with ⟨hready, _, hblock⟩ | ⟨t, ht, htake⟩ | ⟨hempty, _⟩
  · have hnone : ∀ u, s.allTasks u ≠ some .ready := by
      intro u hu
      rw [← hrep.mem_ready, hready] at hu
      exact absurd hu not_mem_nil
    obtain ⟨u, hu⟩ := (isEmpty_eq_false_iff hrep).mp hne
    have hscheduled : scheduled s u := by
      by_contra hidle
      exact (not_scheduled_iff.mp hidle).elim hu (hnone u)
    rw [hblock]
    exact fun _ _ => ⟨exists_executing (s := s) hrep hset hscheduled (.inr hnone), .inr hnone⟩
  · rw [htake]
    intro hp
    exact absurd hp (by simp [receive])
  · rw [hne] at hempty
    exact absurd hempty Bool.false_ne_true

theorem busy_loop (h : Inv th d) : Busy th (loop th d) := by
  have hphase := h.phase
  unfold loop
  cases hp : d.phase with
  | isEmpty =>
    dsimp only
    cases isEmptyInternal d.queue <;> exact fun hwait => absurd hwait (by simp)
  | pop =>
    rw [hp] at hphase
    obtain ⟨_, _, hne⟩ := hphase
    dsimp only
    rw [lockSection_pop]
    exact busy_receive h.rep.pad (pad_settled _) (by rw [isEmptyInternal_pad, hne])
  | wait =>
    rw [hp] at hphase
    obtain ⟨⟨b, hwait⟩, _, hne, hset⟩ := hphase
    dsimp only
    rw [lockSection_resume hwait]
    exact busy_receive (rep_unblock h.rep th) hset hne
  | popped task =>
    dsimp only
    split
    · exact fun hwait => absurd hwait (by simp [cancelRest])
    · unfold examine
      split
      · exact fun hwait => absurd hwait (by simp)
      · split <;> exact fun hwait => absurd hwait (by simp)
  | cancelAll => exact fun hwait => absurd hwait (by simp [cancelRest])
  | returned =>
    dsimp only
    intro hwait
    rw [hp] at hwait
    exact absurd hwait (by simp)

/-- A push with `dontSchedule` signals nobody. -/
def Harmless (limit : Nat) (l : Label τ) : Prop := limit = 0 ∨ l.retains = false

theorem busy_tasks (h : Inv th d) (hbusy : Busy th d) {ql : ExecutionQueue.Label τ θ}
    {s' : State τ θ} (hlabel : l.queueLabel = some ql) (hl : ofTasks ql)
    (hstep : ExecutionQueue.step d.queue ql = some s') (h' : Inv th { d with queue := s' })
    (hharmless : Harmless d.queue.maxReadyOrExecuting l) : Busy th { d with queue := s' } := by
  intro hp hquiet
  have hphase := h.phase
  have hphase' := h'.phase
  change AtPhase th { d with queue := s' } d.phase at hphase'
  have hwait : d.phase = .wait := hp
  rw [hwait] at hphase hphase'
  obtain ⟨⟨b, hb⟩, _⟩ := hphase
  obtain ⟨_, _, _, hset⟩ := hphase'
  obtain ⟨hsettings, hwaiting⟩ := taskStep_settings h.rep hl hstep
  have hlimit : s'.maxReadyOrExecuting = d.queue.maxReadyOrExecuting := congrArg Prod.snd hsettings
  have htags := tag_taskStep h.rep h.keeps hl hstep
  have hsame : s'.waiting = d.queue.waiting := by
    refine hwaiting.resolve_right fun hsignal => ?_
    change signalled th s' = false at hquiet
    unfold signalled at hquiet
    rw [hsignal] at hquiet
    change (((d.queue.waiting th).map _).map _).getD false = false at hquiet
    rw [hb] at hquiet
    exact absurd hquiet (by simp)
  have hasleep : signalled th d.queue = false := by
    change signalled th s' = false at hquiet
    unfold signalled at hquiet ⊢
    rwa [← hsame]
  obtain ⟨⟨t, ht⟩, hnone⟩ := hbusy hwait hasleep
  -- A step which does not signal makes nothing ready which was to run.
  have hreadies : ∀ u, readies u ql → d.queue.maxReadyOrExecuting = 0 ∧
      (d.queue.allTasks u = none ∨ d.queue.allTasks u = some .ready) := by
    intro u hu
    obtain ⟨hen, rfl⟩ := step_eq_some.mp hstep
    cases ql with
    | push isBack dontSchedule v =>
      obtain ⟨rfl, rfl⟩ := hu
      refine ⟨hharmless.resolve_right ?_, (pushable_iff v d.queue).mp hen⟩
      cases l with
      | push =>
        obtain ⟨_, rfl, _⟩ := ExecutionQueue.Label.push.inj (Option.some.inj hlabel)
        simp [Label.retains]
      | _ => simp [Label.queueLabel] at hlabel
    | onReady v failed continuation =>
      obtain ⟨rfl, hne⟩ := hu
      have hsignal := (onReady_settings h.rep failed continuation hen).2
      rw [if_neg hne] at hsignal
      have hquiet' : (notifyAll d.queue).waiting th = d.queue.waiting th :=
        congrFun (hsignal.symm.trans hsame) th
      change (d.queue.waiting th).map _ = d.queue.waiting th at hquiet'
      unfold signalled at hasleep
      rw [hb] at hquiet' hasleep
      have hsig := congrArg Waiting.signalled (Option.some.inj hquiet')
      simp_all
    | _ => exact hu.elim
  have hscheduled : scheduled s' t := by
    by_contra hidle
    rcases not_scheduled_iff.mp hidle with hgone | hready
    · exact (htags t).1 (by simp [ht]) hgone
    · refine (htags t).2.2 (by simp [ht]) (fun hu => ?_) hready
      rcases (hreadies t hu).2 with htag | htag <;> simp [ht] at htag
  have hnone' : s'.maxReadyOrExecuting = 0 ∨ ∀ u, s'.allTasks u ≠ some .ready := by
    rw [hlimit]
    rcases hnone with hzero | hnone
    · exact .inl hzero
    · by_cases hzero : d.queue.maxReadyOrExecuting = 0
      · exact .inl hzero
      · exact .inr fun u => (htags u).2.2 (hnone u) fun hu => hzero (hreadies u hu).1
  exact ⟨exists_executing h'.rep hset hscheduled hnone', hnone'⟩

/-- What a run keeps, when its pushes are harmless under the limit. -/
structure Lively (th : θ) (limit : Nat) (d : Drain τ θ) : Prop where
  inv : Inv th d
  limit : d.queue.maxReadyOrExecuting = limit
  busy : Busy th d

theorem loop_settings (h : Inv th d) : settings (loop th d).queue = settings d.queue := by
  have hphase := h.phase
  have hcancel : settings (lockSection d.queue (.cancelAll th false)).1 = settings d.queue :=
    congrArg (fun c => (Control.options c, Control.maxReadyOrExecuting c))
      (cancelAll_control d.queue th)
  have hreceive : ∀ s : State τ θ, Rep s →
      settings (receive d (waitFirstReady th true s)).queue = settings s := by
    intro s hrep
    rcases waitFirstReady_cases hrep th with ⟨_, _, heq⟩ | ⟨t, _, heq⟩ | ⟨_, heq⟩ <;>
      rw [heq] <;> rfl
  unfold loop
  cases hp : d.phase with
  | isEmpty => rfl
  | pop => exact (hreceive _ h.rep.pad).trans (pad_settings _)
  | wait =>
    rw [hp] at hphase
    obtain ⟨⟨b, hwait⟩, _⟩ := hphase
    dsimp only
    rw [lockSection_resume hwait]
    exact hreceive _ (rep_unblock h.rep th)
  | popped task =>
    dsimp only
    split
    · exact hcancel
    · unfold examine
      split
      · rfl
      · split <;> rfl
  | cancelAll => exact hcancel
  | returned => rfl

theorem lively_step {limit : Nat} (h : Lively th limit d) (hharmless : Harmless limit l)
    (hstep : step th d l = some d') : Lively th limit d' := by
  have hinv := inv_step h.inv hstep
  rcases step_cases hstep with ⟨_, _, rfl⟩ | ⟨ql, s', hlabel, hl, hqueue, rfl, _, _⟩
  · exact ⟨hinv, (congrArg Prod.snd (loop_settings h.inv)).trans h.limit, busy_loop h.inv⟩
  · have hsame := (taskStep_settings h.inv.rep hl hqueue).1
    exact ⟨hinv, (congrArg Prod.snd hsame).trans h.limit,
      busy_tasks h.inv h.busy hlabel hl hqueue hinv (h.limit ▸ hharmless)⟩

omit [DecidableEq θ] in
/-- When no task executes and the loop has nothing to go on with, it has
returned. -/
theorem returned_of_idle {limit : Nat} (h : Lively th limit d)
    (hidle : ∀ t, d.queue.allTasks t ≠ some .executing) (hstuck : enabled th d .loop = false) :
    d.phase = .returned := by
  by_contra hp
  simp only [enabled, Bool.and_eq_false_iff, bne_eq_false_iff_eq, Bool.or_eq_false_iff] at hstuck
  obtain ⟨hwait, hquiet⟩ := hstuck.resolve_left hp
  obtain ⟨⟨t, ht⟩, _⟩ := h.busy hwait hquiet
  exact hidle t ht

end Busy

end Baselib.Tasks.ExecuteQueue
