/-
Baselib.Tasks.ExecutionQueueNotify — the `AllTasksCompleted` event is
published for the last drain of the queue, once.

`onReady` decides the event in two lock sections. The first one forms a
candidate when it leaves nothing pending or executing; the second one
publishes it when the queue is idle, no newer candidate has formed and
nothing newer was published. Three generation counters carry this, and
`Generations` is the order they keep: every candidate is newer than all
before it, because a queue which is not idle has admitted work since its
last candidate.
-/
import Mathlib.Data.List.Pairwise
import Baselib.Tasks.ExecutionQueueLifecycle

namespace Baselib.Tasks.ExecutionQueue

open Lib List

variable {τ θ : Type*}

/-! ## The counters -/

/-- The generations `AllTasksCompleted` was published for, in order. -/
def Control.published (c : Control τ θ) : List Nat :=
  c.events.filterMap fun
    | .allTasksCompleted generation => some generation
    | _ => none

/-- What the two sections of `onReady` keep about drains. -/
structure Drain where
  activeWorkGeneration : Nat
  lastCandidateGeneration : Nat
  lastPublishedGeneration : Nat
  candidates : List Nat
  published : List Nat

def Control.drain (c : Control τ θ) : Drain where
  activeWorkGeneration := c.activeWorkGeneration
  lastCandidateGeneration := c.lastCandidateGeneration
  lastPublishedGeneration := c.lastPublishedGeneration
  candidates := c.candidates
  published := c.published

abbrev State.drain (s : State τ θ) : Drain := s.control.drain

def State.published (s : State τ θ) : List Nat := s.control.published

/-- Nothing is pending or executing. -/
def Idle (s : State τ θ) : Prop := s.pending = [] ∧ s.executing = []

/-- The order of the generations: published before candidate before
admitted, and strictly so while there is work. -/
structure Generations (d : Drain) (idle : Prop) : Prop where
  candidate_le : d.lastCandidateGeneration ≤ d.activeWorkGeneration
  candidate_lt : ¬ idle → d.lastCandidateGeneration < d.activeWorkGeneration
  published_le : d.lastPublishedGeneration ≤ d.lastCandidateGeneration
  candidates_le : ∀ g ∈ d.candidates, g ≤ d.lastCandidateGeneration
  candidates_nodup : d.candidates.Nodup
  log_le : ∀ g ∈ d.published, g ≤ d.lastPublishedGeneration
  log_pairwise : d.published.Pairwise (· < ·)

namespace Generations

variable {d : Drain} {idle idle' : Prop}

/-- Work which ends, or is admitted under a new generation. -/
theorem advance (h : Generations d idle) (n : Nat) (hidle : idle → n = 0 → idle') :
    Generations { d with activeWorkGeneration := d.activeWorkGeneration + n } idle' :=
  { h with
    candidate_le := Nat.le_add_right_of_le h.candidate_le
    candidate_lt := by
      intro hbusy
      show d.lastCandidateGeneration < d.activeWorkGeneration + n
      by_cases hid : idle
      · have hn : n ≠ 0 := fun hn => hbusy (hidle hid hn)
        have hle := h.candidate_le
        omega
      · exact Nat.lt_add_right n (h.candidate_lt hid) }

/-- The first section: the queue had work before it, so the candidate it
forms is newer than every other. -/
theorem form (h : Generations d idle) (hbusy : ¬ idle) :
    Generations
      { d with
        candidates := d.candidates ++ [d.activeWorkGeneration]
        lastCandidateGeneration := d.activeWorkGeneration } True := by
  have hlt := h.candidate_lt hbusy
  refine ⟨Nat.le_refl _, fun hfalse => absurd trivial hfalse,
    Nat.le_trans h.published_le h.candidate_le, fun g hg => ?_, ?_, h.log_le, h.log_pairwise⟩
  · rcases mem_append.mp hg with hg | hg
    · exact Nat.le_trans (h.candidates_le g hg) h.candidate_le
    · exact Nat.le_of_eq (mem_singleton.mp hg)
  · refine nodup_append'.mpr ⟨h.candidates_nodup, nodup_singleton _, ?_⟩
    intro g hg hg'
    have hle := h.candidates_le g hg
    rw [mem_singleton.mp hg'] at hle
    omega

/-- The second section without a publication. -/
theorem drop (h : Generations d idle) (g : Nat) :
    Generations { d with candidates := d.candidates.erase g } idle :=
  { h with
    candidates_le := fun g' hg' => h.candidates_le g' (mem_of_mem_erase hg')
    candidates_nodup := h.candidates_nodup.erase g }

theorem publish (h : Generations d idle) (observed : Bool)
    (hlt : d.lastPublishedGeneration < d.lastCandidateGeneration) :
    Generations
      { d with
        lastPublishedGeneration := d.lastCandidateGeneration
        published := d.published ++ if observed then [d.lastCandidateGeneration] else [] } idle :=
  { h with
    published_le := Nat.le_refl _
    log_le := by
      intro g hg
      rcases mem_append.mp hg with hg | hg
      · exact Nat.le_trans (h.log_le g hg) h.published_le
      · cases observed
        · simp at hg
        · exact Nat.le_of_eq (by simpa using hg)
    log_pairwise := by
      cases observed
      · simpa using h.log_pairwise
      · refine pairwise_append.mpr ⟨h.log_pairwise, pairwise_singleton _ _, ?_⟩
        intro g hg g' hg'
        have hle := h.log_le g hg
        have hg' : g' = d.lastCandidateGeneration := by simpa using hg'
        omega }

end Generations

/-! ## Sections which decide nothing about drains -/

section Quiet

variable {s : State τ θ} {t : τ}

theorem drain_of_control {s s' : State τ θ} (h : s'.control = s.control) : s'.drain = s.drain :=
  congrArg Control.drain h

theorem notifyEvent_drain (eventId : Nat) (e : Event τ) (s : State τ θ)
    (he : ∀ g, e ≠ .allTasksCompleted g) : (notifyEvent eventId e s).drain = s.drain := by
  unfold notifyEvent
  split
  · have hpublished : (s.control.events ++ [e]).filterMap (fun
        | .allTasksCompleted generation => some generation
        | _ => none) = s.control.published := by
      rw [filterMap_append]
      cases e with
      | allTasksCompleted g => exact absurd rfl (he g)
      | taskReady _ | taskDiscarded _ => exact append_nil _
    exact congrArg (Drain.mk s.activeWorkGeneration s.lastCandidateGeneration
      s.lastPublishedGeneration s.candidates) hpublished
  · rfl

variable [DecidableEq τ]

theorem completeTask_drain (t : τ) (s : State τ θ) : (completeTask t s).drain = s.drain := by
  rw [completeTask_eq]
  have hpad := drain_of_control
    (pad_control (retireTask t (keepOutcome (s.task t).hasException s) s))
  refine Eq.trans hpad ?_
  unfold retireTask
  dsimp only
  split <;> exact notifyEvent_drain _ _ _ (by simp)

variable [DecidableEq θ] {th : θ}

theorem waitFirstReady_drain (th : θ) (remove : Bool) (s : State τ θ) :
    (waitFirstReady th remove s).1.drain = s.drain := by
  unfold waitFirstReady
  split
  · rfl
  · exact drain_of_control (takeFirstReady_control remove s)

theorem getFirstReady_drain (th : θ) (wait remove : Bool) (s : State τ θ) :
    (getFirstReady th wait remove s).1.drain = s.drain := by
  rw [← drain_of_control (pad_control s)]
  unfold getFirstReady
  cases wait
  · exact drain_of_control (takeFirstReady_control remove _)
  · exact waitFirstReady_drain th remove _

theorem waitTask_drain (th : θ) (t : τ) (s : State τ θ) :
    (waitTask th t s).1.drain = s.drain := by
  rw [← drain_of_control (pad_control s)]
  unfold waitTask
  dsimp only
  split <;> rfl

theorem waitInternal_drain (th : θ) (t : τ) (prioritize cancel : Bool) (s : State τ θ) :
    (waitInternal th t prioritize cancel s).1.drain = s.drain := by
  rw [← drain_of_control (pad_control s)]
  unfold waitInternal
  dsimp only
  split
  · rfl
  · rename_i owner howner
    split
    · rfl
    · split
      · rfl
      · refine (waitTask_drain th t
          (prepareWait t prioritize cancel owner (padExecutingQueueNothrow s))).trans ?_
        cases prioritize <;> cases cancel <;> cases owner <;> rfl

theorem endFlush_drain (th : θ) (wait nothrowIfFailed discardReady : Bool) (s : State τ θ) :
    (endFlush th wait nothrowIfFailed discardReady s).1.drain = s.drain := by
  have hfinish := drain_of_control (finishFlush_control nothrowIfFailed discardReady s)
  unfold endFlush waitFlush
  cases wait
  · exact hfinish
  · rw [if_pos rfl]
    split
    · rfl
    · exact hfinish

theorem flushInternal_drain (th : θ)
    (wait discardPending nothrowIfFailed discardReady cancelExecuting : Bool) (s : State τ θ) :
    (flushInternal th wait discardPending nothrowIfFailed discardReady cancelExecuting s).1.drain =
      s.drain := by
  have hend : ∀ (discard : Bool) (s' : State τ θ),
      (endFlush th wait nothrowIfFailed discardReady
        (prepareFlush discard cancelExecuting s')).1.drain = s'.drain := fun discard s' =>
    (endFlush_drain th wait nothrowIfFailed discardReady _).trans
      (drain_of_control (prepareFlush_control discard cancelExecuting s'))
  have hpad := drain_of_control (pad_control s)
  rw [flushInternal_eq]
  split
  · split
    · rfl
    · exact hend true s
  · split
    · exact hpad
    · exact (hend false _).trans hpad

theorem resume_drain (th : θ) (s : State τ θ) : (resume th s).1.drain = s.drain := by
  unfold resume
  split
  · rfl
  · split
    · exact endFlush_drain th true _ _ _
    · exact waitFirstReady_drain th _ _
    · exact waitTask_drain th _ _

end Quiet

/-! ## Admissions -/

/-- The section admits the task, or admits it again. -/
def Admits (u : τ) : Label τ θ → Prop
  | .push _ dontSchedule t => dontSchedule = false ∧ t = u
  | .onReady _ _ (.task c) => c = u
  | _ => False

section Admissions

variable [DecidableEq τ] [DecidableEq θ]

/-- Work does not appear without an admission. -/
theorem active_of_step {s s' : State τ θ} {l : Label τ θ} (h : Rep s)
    (hstep : step s l = some s') {u : τ} (hu : u ∈ s'.pending ∨ u ∈ s'.executing) :
    (u ∈ s.pending ∨ u ∈ s.executing) ∨ Admits u l := by
  have h' := rep_step h hstep
  rw [h'.mem_pending, h'.mem_executing] at hu
  rw [h.mem_pending, h.mem_executing]
  obtain ⟨a, b, hbefore, hedit, hafter⟩ := step_moves h hstep u
  generalize s.allTasks u = tag at hbefore ⊢
  generalize s'.allTasks u = tag' at hafter hu
  have hb : b = some .pending ∨ b = some .executing := by
    cases hafter with
    | stay => exact hu
    | pad => exact .inl rfl
  have ha : (a = some .pending ∨ a = some .executing) →
      tag = some .pending ∨ tag = some .executing := by
    intro ha
    cases hbefore with
    | stay => exact ha
    | pad => exact .inl rfl
  cases hedit with
  | stay => exact .inl (ha hb)
  | push isBack u hu => exact .inr ⟨rfl, rfl⟩
  | continuation t failed c => exact .inr rfl
  | continueSelf t failed => exact .inr rfl
  | pushReady | keep | discard | cancelKeep | cancel | waitReady | waitCancel | pop
  | flushPending | flushReady | resumeFlush | resumePop | resumeWait => simp at hb

theorem active_of_run {ls : List (Label τ θ)} :
    ∀ {s s' : State τ θ}, Rep s → Transition.run step s ls = some s' →
      ∀ u, u ∈ s'.pending ∨ u ∈ s'.executing →
        (u ∈ s.pending ∨ u ∈ s.executing) ∨ ∃ l ∈ ls, Admits u l := by
  induction ls with
  | nil =>
    intro s s' _ hrun u hu
    cases hrun
    exact .inl hu
  | cons l ls ih =>
    intro s s' h hrun u hu
    obtain ⟨m, hm, hrun⟩ := Transition.run_cons_eq_some.mp hrun
    rcases ih (rep_step h hm) hrun u hu with hmid | ⟨l', hl', hadmits⟩
    · rcases active_of_step h hm hmid with hold | hadmits
      · exact .inl hold
      · exact .inr ⟨l, mem_cons_self, hadmits⟩
    · exact .inr ⟨l', mem_cons_of_mem l hl', hadmits⟩

omit [DecidableEq τ] [DecidableEq θ] in
theorem idle_of_forall {s : State τ θ} (h : ∀ u, ¬ (u ∈ s.pending ∨ u ∈ s.executing)) :
    Idle s :=
  ⟨eq_nil_iff_forall_not_mem.mpr fun u hu => h u (.inl hu),
    eq_nil_iff_forall_not_mem.mpr fun u hu => h u (.inr hu)⟩

omit [DecidableEq τ] [DecidableEq θ] in
theorem Idle.not_active {s : State τ θ} (h : Idle s) (u : τ) :
    ¬ (u ∈ s.pending ∨ u ∈ s.executing) := by
  rw [h.1, h.2]
  simp

/-- An idle queue stays idle under a section which admits nothing. -/
theorem idle_of_step {s s' : State τ θ} {l : Label τ θ} (h : Rep s)
    (hstep : step s l = some s') (hquiet : ∀ u, ¬ Admits u l) (hidle : Idle s) : Idle s' := by
  refine idle_of_forall fun u hu => ?_
  rcases active_of_step h hstep hu with hold | hadmits
  · exact hidle.not_active u hold
  · exact hquiet u hadmits

end Admissions

/-! ## What a section does about drains -/

/-- The four things a lock section may do to the counters. -/
inductive DrainStep (s : State τ θ) (l : Label τ θ) (s' : State τ θ) : Prop
  | quiet (n : Nat)
      (drain : s'.drain =
        { s.drain with activeWorkGeneration := s.activeWorkGeneration + n })
      (idle : Idle s → n = 0 → Idle s')
      (unformed : ∀ t failed c, l = .onReady t failed c → ¬ Idle s')
  | form (n t failed c) (label : l = .onReady t failed c) (busy : ¬ Idle s) (idle : Idle s')
      (drain : s'.drain =
        { s.drain with
          activeWorkGeneration := s.activeWorkGeneration + n
          candidates := s.candidates ++ [s.activeWorkGeneration + n]
          lastCandidateGeneration := s.activeWorkGeneration + n })
  | drop (g : Nat) (label : l = .validateCandidate g) (idle : Idle s' ↔ Idle s)
      (refused : Idle s → s.lastCandidateGeneration = g → ¬ s.lastPublishedGeneration < g)
      (drain : s'.drain = { s.drain with candidates := s.candidates.erase g })
  | publish (g : Nat) (label : l = .validateCandidate g) (idle : Idle s) (idle' : Idle s')
      (last : s.lastCandidateGeneration = g) (newer : s.lastPublishedGeneration < g)
      (drain : s'.drain =
        { s.drain with
          candidates := s.candidates.erase g
          lastPublishedGeneration := g
          published := s.published ++
            if s.observes eventAllTasksCompleted then [g] else [] })

section Steps

variable {s s' : State τ θ} {l : Label τ θ}

theorem drainStep_validate (s : State τ θ) (g : Nat) :
    DrainStep s (.validateCandidate g) (validateCandidate g s) := by
  have hcond : (s.pending.isEmpty && s.executing.isEmpty && s.lastCandidateGeneration == g &&
      decide (s.lastPublishedGeneration < g)) = true ↔
      (Idle s ∧ s.lastCandidateGeneration = g) ∧ s.lastPublishedGeneration < g := by
    simp [Idle]
  by_cases hpublish : (Idle s ∧ s.lastCandidateGeneration = g) ∧ s.lastPublishedGeneration < g
  · have hsame : Idle (validateCandidate g s) ∧ (validateCandidate g s).drain =
        { s.drain with
          candidates := s.candidates.erase g
          lastPublishedGeneration := g
          published := s.published ++
            if s.observes eventAllTasksCompleted then [g] else [] } := by
      unfold validateCandidate
      dsimp only
      rw [if_pos (hcond.mpr hpublish)]
      unfold notifyEvent
      cases hobs : s.observes eventAllTasksCompleted
      · rw [if_neg (by rw [State.observes] at *; simp [hobs])]
        refine ⟨hpublish.1.1, ?_⟩
        simp [State.drain, Control.drain, State.control, Control.published, State.published]
      · rw [if_pos (by rw [State.observes] at *; simp [hobs])]
        refine ⟨hpublish.1.1, ?_⟩
        simp [State.drain, Control.drain, State.control, Control.published, State.published]
    exact .publish g rfl hpublish.1.1 hsame.1 hpublish.1.2 hpublish.2 hsame.2
  · have hsame : validateCandidate g s = { s with candidates := s.candidates.erase g } := by
      unfold validateCandidate
      dsimp only
      rw [if_neg (fun h => hpublish (hcond.mp h))]
    refine .drop g rfl ?_ (fun hidle hlast hlt => hpublish ⟨⟨hidle, hlast⟩, hlt⟩) ?_
    · rw [hsame]
      exact Iff.rfl
    · rw [hsame]
      rfl

theorem drainStep_formCandidate {s₁ : State τ θ} {t : τ} {failed : Bool} {c : Continuation τ}
    (n : Nat) (hbusy : ¬ Idle s)
    (hdrain : s₁.drain = { s.drain with activeWorkGeneration := s.activeWorkGeneration + n }) :
    DrainStep s (.onReady t failed c) (formCandidate s₁) := by
  have hactive : s₁.activeWorkGeneration = s.activeWorkGeneration + n :=
    congrArg Drain.activeWorkGeneration hdrain
  unfold formCandidate
  split_ifs with hidle
  · simp only [Bool.and_eq_true, List.isEmpty_iff] at hidle
    refine .form n t failed c rfl hbusy hidle ?_
    have hcandidates : s₁.candidates = s.candidates := congrArg Drain.candidates hdrain
    have hpublished : s₁.control.published = s.control.published :=
      congrArg Drain.published hdrain
    have hlast : s₁.lastPublishedGeneration = s.lastPublishedGeneration :=
      congrArg Drain.lastPublishedGeneration hdrain
    show Drain.mk s₁.activeWorkGeneration s₁.activeWorkGeneration s₁.lastPublishedGeneration
      (s₁.candidates ++ [s₁.activeWorkGeneration]) s₁.control.published = _
    rw [hactive, hcandidates, hpublished, hlast]
    rfl
  · refine .quiet n hdrain (fun hid => absurd hid hbusy) fun _ _ _ _ hid => hidle ?_
    simp only [Bool.and_eq_true, List.isEmpty_iff]
    exact hid

variable [DecidableEq τ]

theorem drainStep_onReady (h : Rep s) {t : τ} {failed : Bool} {c : Continuation τ}
    (hen : enabled s (.onReady t failed c : Label τ θ) = true) :
    DrainStep s (.onReady t failed c) (onReady t failed c s) := by
  have ht : s.allTasks t = some .executing := by
    cases c with
    | none | throws => simpa [enabled] using hen
    | task c =>
      simp only [enabled, Bool.and_eq_true, beq_iff_eq] at hen
      exact hen.1
  have hbusy : ¬ Idle s := fun hidle => hidle.not_active t (.inr (h.mem_executing.mpr ht))
  unfold onReady
  cases c with
  | none | throws => exact drainStep_formCandidate 0 hbusy (completeTask_drain t _)
  | task c =>
    dsimp only
    split
    · refine drainStep_formCandidate 1 hbusy ?_
      rw [continueTask_eq]
      exact drain_of_control (pad_control _)
    · rename_i hne
      have hc : s.allTasks c = none ∨ s.allTasks c = some .ready := by
        simp only [enabled, Bool.and_eq_true, Bool.or_eq_true, beq_iff_eq, hne, false_or] at hen
        exact (pushable_iff c s).mp hen.2
      have hlink := linkTask_linked (rep_notifyReady h t failed) false false hc
      refine drainStep_formCandidate 1 hbusy ((completeTask_drain t _).trans ?_)
      rw [pushInternalNoLock_eq]
      exact (drain_of_control (pad_control _)).trans (congrArg Control.drain hlink.control)

variable [DecidableEq θ]

theorem drain_step (h : Rep s) (hstep : step s l = some s') : DrainStep s l s' := by
  have hquiet : s'.drain = s.drain → (∀ u, ¬ Admits u l) →
      (∀ t failed c, l ≠ .onReady t failed c) → DrainStep s l s' := fun hdrain hadmit hlabel =>
    .quiet 0 hdrain (fun hidle _ => idle_of_step h hstep hadmit hidle)
      fun t failed c heq => absurd heq (hlabel t failed c)
  obtain ⟨hen, rfl⟩ := step_eq_some.mp hstep
  cases l with
  | push isBack dontSchedule t =>
    have hlink := linkTask_linked h isBack dontSchedule ((pushable_iff t s).mp hen)
    have hdrain : (pushInternalNoLock isBack t dontSchedule s).drain =
        { s.drain with
          activeWorkGeneration :=
            s.activeWorkGeneration + if dontSchedule then 0 else 1 } := by
      rw [pushInternalNoLock_eq]
      exact (drain_of_control (pad_control _)).trans (congrArg Control.drain hlink.control)
    cases dontSchedule
    · exact .quiet 1 hdrain (fun _ hfalse => absurd hfalse (by simp)) (by simp)
    · exact hquiet hdrain (fun u hu => absurd hu.1 (by simp)) (by simp)
  | getFirstReady th wait remove =>
    exact hquiet (getFirstReady_drain th wait remove s) (fun _ => id) (by simp)
  | wait th t prioritize cancel =>
    exact hquiet (waitInternal_drain th t prioritize cancel s) (fun _ => id) (by simp)
  | prioritize t =>
    refine hquiet ?_ (fun _ => id) (by simp)
    show (prioritize t s).1.drain = s.drain
    unfold prioritize
    split <;> rfl
  | flush th wait discardPending nothrowIfFailed discardReady cancelExecuting =>
    exact hquiet (flushInternal_drain th wait discardPending nothrowIfFailed discardReady
      cancelExecuting s) (fun _ => id) (by simp)
  | cancel t =>
    refine hquiet ?_ (fun _ => id) (by simp)
    show (cancel t s).1.drain = s.drain
    unfold cancel
    split
    · dsimp only
      split <;> rfl
    · rfl
  | setOptions _ | disconnectObserver => exact hquiet rfl (fun _ => id) (by simp)
  | setThrottleLimit maxExecuting =>
    have hpad := drain_of_control (pad_control { s with maxExecuting := maxExecuting })
    exact hquiet hpad (fun _ => id) (by simp)
  | setNotifyCallback observer eventsMask =>
    have hpad := drain_of_control (pad_control { s with
      notifyCB := observer.isSome
      eventsMask := eventsMask
      maxReadyOrExecuting := observer.getD 0 })
    exact hquiet hpad (fun _ => id) (by simp)
  | onReady t failed c => exact drainStep_onReady h hen
  | validateCandidate g => exact drainStep_validate s g
  | resume th => exact hquiet (resume_drain th s) (fun _ => id) (by simp)

theorem generations_step (h : Rep s) (hgen : Generations s.drain (Idle s))
    (hstep : step s l = some s') : Generations s'.drain (Idle s') := by
  cases drain_step h hstep with
  | quiet n hdrain hidle hunformed =>
    rw [hdrain]
    exact hgen.advance n hidle
  | form n t failed c hlabel hbusy hidle hdrain =>
    have hadmit : Generations { s.drain with
        activeWorkGeneration := s.drain.activeWorkGeneration + n } False :=
      hgen.advance n fun hid _ => hbusy hid
    rw [hdrain, eq_true hidle]
    exact hadmit.form id
  | drop g hlabel hidle hrefused hdrain =>
    rw [hdrain, hidle]
    exact hgen.drop g
  | publish g hlabel hidle hidle' hlast hnewer hdrain =>
    subst hlast
    rw [hdrain, eq_true hidle', ← eq_true hidle]
    exact (hgen.publish (s.observes eventAllTasksCompleted) hnewer).drop
      s.lastCandidateGeneration

theorem generations_of_reachable (h : Reachable s) : Generations s.drain (Idle s) := by
  refine (Transition.Reachable.invariant (P := fun s => Rep s ∧ Generations s.drain (Idle s))
    ?_ (fun _ _ _ hs hstep => ⟨rep_step hs.1 hstep, generations_step hs.1 hs.2 hstep⟩) h).2
  intro s hinit
  obtain ⟨options, maxExecuting, task, rfl⟩ := hinit
  refine ⟨rep_init options maxExecuting task, Nat.le_refl _, fun hbusy => ?_, Nat.le_refl _,
    fun g hg => ?_, nodup_nil, fun g hg => ?_, List.Pairwise.nil⟩
  · exact absurd ⟨rfl, rfl⟩ hbusy
  · exact absurd hg not_mem_nil
  · exact absurd hg not_mem_nil

/-! ## Publications -/

/-- A section which publishes is the second one of an `onReady`, finds the
queue idle, and publishes a generation newer than all before. -/
theorem publication_of_step (h : Rep s) (hgen : Generations s.drain (Idle s))
    (hstep : step s l = some s') (hchanged : s'.published ≠ s.published) :
    ∃ g, l = .validateCandidate g ∧ Idle s ∧ Idle s' ∧ s'.published = s.published ++ [g] ∧
      ∀ g' ∈ s.published, g' < g := by
  cases drain_step h hstep with
  | quiet _ hdrain _ _ | form _ _ _ _ _ _ _ hdrain | drop _ _ _ _ hdrain =>
    exact absurd (congrArg Drain.published hdrain) hchanged
  | publish g hlabel hidle hidle' hlast hnewer hdrain =>
    have hpublished : s'.published = s.published ++
        if s.observes eventAllTasksCompleted then [g] else [] :=
      congrArg Drain.published hdrain
    split at hpublished
    · refine ⟨g, hlabel, hidle, hidle', hpublished, fun g' hg' => ?_⟩
      exact Nat.lt_of_le_of_lt (hgen.log_le g' hg') hnewer
    · exact absurd (hpublished.trans (append_nil _)) hchanged

/-- The candidate `g` is the last one: underway it is unpublished, and
once validated it was published once. -/
structure LastCandidate (g : Nat) (s : State τ θ) : Prop where
  rep : Rep s
  generations : Generations s.drain (Idle s)
  last : s.lastCandidateGeneration = g
  underway : g ∈ s.candidates → s.lastPublishedGeneration < g
  published : s.published.count g = if g ∈ s.candidates then 0 else 1

/-- The steps after the last candidate: no newer one forms, and its own
second section finds the queue idle and an observer registered. -/
def AfterLast (g : Nat) (s : State τ θ) (l : Label τ θ) : Prop :=
  (∀ t failed c s', l = .onReady t failed c → step s l = some s' → ¬ Idle s') ∧
    (l = .validateCandidate g → Idle s ∧ s.observes eventAllTasksCompleted = true)

theorem lastCandidate_step {g : Nat} (h : LastCandidate g s) (hafter : AfterLast g s l)
    (hstep : step s l = some s') : LastCandidate g s' := by
  have hrep := rep_step h.rep hstep
  have hgen := generations_step h.rep h.generations hstep
  obtain ⟨hen, _⟩ := step_eq_some.mp hstep
  cases drain_step h.rep hstep with
  | quiet n hdrain hidle hunformed =>
    have hcandidates : s'.candidates = s.candidates := congrArg Drain.candidates hdrain
    have hpublished : s'.published = s.published := congrArg Drain.published hdrain
    have hlastPublished : s'.lastPublishedGeneration = s.lastPublishedGeneration :=
      congrArg Drain.lastPublishedGeneration hdrain
    refine ⟨hrep, hgen, (congrArg Drain.lastCandidateGeneration hdrain).trans h.last, ?_, ?_⟩
    · rw [hcandidates, hlastPublished]
      exact h.underway
    · rw [hcandidates, hpublished]
      exact h.published
  | form n t failed c hlabel hbusy hidle hdrain =>
    exact absurd hidle (hafter.1 t failed c s' hlabel hstep)
  | drop g' hlabel hidle hrefused hdrain =>
    have hne : g ≠ g' := by
      intro heq
      subst heq
      obtain ⟨hid, _⟩ := hafter.2 hlabel
      rw [hlabel, enabled, contains_iff_mem] at hen
      exact hrefused hid h.last (h.underway hen)
    have hcandidates : s'.candidates = s.candidates.erase g' := congrArg Drain.candidates hdrain
    have hpublished : s'.published = s.published := congrArg Drain.published hdrain
    have hlastPublished : s'.lastPublishedGeneration = s.lastPublishedGeneration :=
      congrArg Drain.lastPublishedGeneration hdrain
    refine ⟨hrep, hgen, (congrArg Drain.lastCandidateGeneration hdrain).trans h.last, ?_, ?_⟩
    · rw [hcandidates, hlastPublished, mem_erase_of_ne hne]
      exact h.underway
    · simp only [hcandidates, hpublished, mem_erase_of_ne hne]
      exact h.published
  | publish g' hlabel hidle hidle' hlast hnewer hdrain =>
    obtain rfl : g = g' := h.last.symm.trans hlast
    have hobserved := (hafter.2 hlabel).2
    rw [hlabel, enabled, contains_iff_mem] at hen
    have hcandidates : s'.candidates = s.candidates.erase g := congrArg Drain.candidates hdrain
    have hgone : g ∉ s.candidates.erase g := h.generations.candidates_nodup.not_mem_erase
    have hpublished : s'.published = s.published ++
        if s.observes eventAllTasksCompleted then [g] else [] :=
      congrArg Drain.published hdrain
    rw [if_pos hobserved] at hpublished
    have hcount := h.published
    rw [if_pos hen] at hcount
    refine ⟨hrep, hgen, (congrArg Drain.lastCandidateGeneration hdrain).trans h.last, ?_, ?_⟩
    · rw [hcandidates]
      exact fun hmem => absurd hmem hgone
    · rw [hcandidates, if_neg hgone, hpublished, count_append, hcount]
      simp

/-- The first section of an `onReady` which leaves the queue idle. -/
theorem lastCandidate_of_drain {t : τ} {failed : Bool} {c : Continuation τ} (h : Rep s)
    (hgen : Generations s.drain (Idle s)) (hstep : step s (.onReady t failed c) = some s')
    (hidle : Idle s') : LastCandidate s'.activeWorkGeneration s' := by
  have hrep := rep_step h hstep
  have hgen' := generations_step h hgen hstep
  cases drain_step h hstep with
  | quiet n hdrain hquiet hunformed => exact absurd hidle (hunformed t failed c rfl)
  | form n t' failed' c' hlabel hbusy _ hdrain =>
    have hactive : s'.activeWorkGeneration = s.activeWorkGeneration + n :=
      congrArg Drain.activeWorkGeneration hdrain
    have hlast : s'.lastCandidateGeneration = s.activeWorkGeneration + n :=
      congrArg Drain.lastCandidateGeneration hdrain
    have hlastPublished : s'.lastPublishedGeneration = s.lastPublishedGeneration :=
      congrArg Drain.lastPublishedGeneration hdrain
    have hmem : s'.activeWorkGeneration ∈ s'.candidates := by
      have hcandidates : s'.candidates = s.candidates ++ [s.activeWorkGeneration + n] :=
        congrArg Drain.candidates hdrain
      rw [hcandidates, hactive]
      exact mem_append_right _ (mem_singleton_self _)
    have hlt : s'.lastPublishedGeneration < s'.activeWorkGeneration := by
      have hle := hgen.published_le
      have hbefore := hgen.candidate_lt hbusy
      rw [hlastPublished, hactive]
      exact Nat.lt_add_right n (Nat.lt_of_le_of_lt hle hbefore)
    refine ⟨hrep, hgen', hlast.trans hactive.symm, fun _ => hlt, ?_⟩
    rw [if_pos hmem, count_eq_zero]
    intro hpublished
    have hle := hgen'.log_le _ hpublished
    exact absurd (Nat.lt_of_lt_of_le hlt hle) (Nat.lt_irrefl _)
  | drop _ hlabel | publish _ hlabel => exact absurd hlabel (by simp)

end Steps

/-! ## Every interleaving -/

/-- Every publication happens in a section which finds the queue idle, in
the order of the generations; and the last drain, when no work admitted
after it is left for its second section, is published once. -/
theorem drain_published [DecidableEq τ] [DecidableEq θ] :
    (∀ (s s' : State τ θ) l, Reachable s → step s l = some s' → s'.published ≠ s.published →
      ∃ g, l = .validateCandidate g ∧ Idle s ∧ Idle s' ∧ s'.published = s.published ++ [g] ∧
        ∀ g' ∈ s.published, g' < g) ∧
    ∀ (s₀ s₁ s : State τ θ) t failed c ls, Reachable s₀ →
      step s₀ (.onReady t failed c) = some s₁ → Idle s₁ →
      Transition.run step s₁ ls = some s → s.candidates = [] →
      Transition.Along step (fun m _ => m.observes eventAllTasksCompleted = true) s₁ ls →
      Transition.Along step (fun m l => ∀ t failed c m', l = .onReady t failed c →
        step m l = some m' → ¬ Idle m') s₁ ls →
      (∀ ls₁ ls₂ m, ls = ls₁ ++ .validateCandidate s₁.activeWorkGeneration :: ls₂ →
        Transition.run step s₁ ls₁ = some m →
        ∀ u, (∃ l ∈ ls₁, Admits u l) → u ∉ m.pending ∧ u ∉ m.executing) →
      s.published.count s₁.activeWorkGeneration = 1 := by
  refine ⟨fun s s' l hs => publication_of_step (rep_of_reachable hs) (generations_of_reachable hs),
    ?_⟩
  intro s₀ s₁ s t failed c ls hs₀ hdrain hidle hrun hfinished hobserved hlatest hadmitted
  have hrep₀ := rep_of_reachable hs₀
  have hlast := lastCandidate_of_drain hrep₀ (generations_of_reachable hs₀) hdrain hidle
  have hsecond : Transition.Along step (fun m l =>
      l = .validateCandidate s₁.activeWorkGeneration → Idle m) s₁ ls := by
    refine Transition.along_of_splits fun ls₁ l ls₂ m hls hm hl => ?_
    subst hl
    refine idle_of_forall fun u hu => ?_
    rcases active_of_run hlast.rep hm u hu with hold | hadmits
    · exact hidle.not_active u hold
    · have hout := hadmitted ls₁ ls₂ m hls hm u hadmits
      exact hu.elim hout.1 hout.2
  have hafter : Transition.Along step (AfterLast s₁.activeWorkGeneration) s₁ ls := by
    refine Transition.Along.mono ?_ (hlatest.and (hsecond.and hobserved))
    exact fun m l h => ⟨h.1, fun hl => ⟨h.2.1 hl, h.2.2⟩⟩
  have hend := Transition.run_invariant (fun _ _ _ h hC hstep => lastCandidate_step h hC hstep)
    hlast hafter hrun
  rw [hend.published, hfinished, if_neg List.not_mem_nil]

/-- One task completes and its `onReady` runs both sections. -/
def oneDrain : List (Label (Fin 1) Unit) :=
  [.setNotifyCallback (some 0) 7, .push true false 0]

theorem drain_published_one :
    ∃ s₀ s₁ s : State (Fin 1) Unit,
      Transition.run step (State.init optionKeepFailed 0 fun _ => {}) oneDrain = some s₀ ∧
      step s₀ (.onReady 0 false .none) = some s₁ ∧ step s₁ (.validateCandidate 1) = some s ∧
      s.published.count s₁.activeWorkGeneration = 1 := by
  refine ⟨_, _, _, rfl, rfl, rfl, ?_⟩
  refine drain_published.2 _ _ _ 0 false .none [.validateCandidate 1]
    ⟨_, oneDrain, ⟨optionKeepFailed, 0, fun _ => {}, rfl⟩, rfl⟩ rfl ⟨rfl, rfl⟩ rfl rfl
    ⟨rfl, fun _ _ => trivial⟩ ⟨fun _ _ _ _ h => by simp at h, fun _ _ => trivial⟩ ?_
  intro ls₁ ls₂ m hls hrun u hadmits
  obtain ⟨l, hl, hadmit⟩ := hadmits
  cases ls₁ with
  | nil => exact absurd hl List.not_mem_nil
  | cons l' ls₁ =>
    have hlen := congrArg List.length hls
    simp at hlen

end Baselib.Tasks.ExecutionQueue
