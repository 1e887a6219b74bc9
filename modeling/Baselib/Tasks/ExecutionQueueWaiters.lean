/-
Baselib.Tasks.ExecutionQueueWaiters — which sections let a thread sleep
on although what it waits for is true.

Three predicates are waited for on `m_cvReady`, and only a completion
signals it. `Silent` lists the sections which make the predicate of a
waiter true and do not signal: a task put into the ready list without
being scheduled, and the ways a pending task is removed by another
thread. Every run which avoids them loses no wake-up, and no other does.
-/
import Baselib.Tasks.ExecutionQueueLifecycle

namespace Baselib.Tasks.ExecutionQueue

open Lib List

variable {τ θ : Type*} [DecidableEq τ]

/-! ## What is waited for -/

/-- The callback of the wait gives true. -/
def Waiter.Satisfied (s : State τ θ) : Waiter τ → Prop
  | .flush _ _ => s.pending = [] ∧ s.executing = []
  | .ready _ => s.ready ≠ [] ∨ (s.pending = [] ∧ s.executing = [] ∧ s.ready = [])
  | .task t => s.allTasks t = none ∨ s.allTasks t = some .ready

/-- Nobody sleeps on with a true predicate and no signal underway. -/
def NoLostWakeup (s : State τ θ) : Prop :=
  ∀ th w, s.waiting th = some ⟨w, false⟩ → ¬ w.Satisfied s

def Waiter.forReady : Waiter τ → Bool
  | .ready _ => true
  | _ => false

/-- The waiter waits for nothing but the pending task `t`. -/
def LastFor (s : State τ θ) (t : τ) : Waiter τ → Prop
  | .task u => t = u
  | _ => s.pending = [t] ∧ s.executing = []

/-- The waiter waits for nothing but pending tasks. -/
def PendingOnly (s : State τ θ) : Waiter τ → Prop
  | .task u => u ∈ s.pending
  | _ => s.executing = []

/-- The section makes the predicate of the waiter true without a signal. -/
def Silent (s : State τ θ) : Label τ θ → Waiter τ → Prop
  | .push _ dontSchedule t, w =>
    dontSchedule = true ∧ s.allTasks t = none ∧ w.forReady = true
  | .wait _ t _ cancel, w => cancel = true ∧ t ∈ s.pending.drop (room s) ∧ LastFor s t w
  | .cancel t, w =>
    t ∈ s.pending ∧ (LastFor s t w ∨ s.hasOption optionKeepCanceled = true ∧ w.forReady = true)
  | .flush _ _ discardPending _ _ _, w => discardPending = true ∧ PendingOnly s w
  | _, _ => False

/-- No sleeping thread is affected by the section in that way. -/
def Signals (s : State τ θ) (l : Label τ θ) : Prop :=
  ∀ th w, s.waiting th = some ⟨w, false⟩ → ¬ Silent s l w

/-! ## The predicates over the lists -/

section Satisfied

variable {s s' : State τ θ} {w : Waiter τ} {t : τ}

omit [DecidableEq τ] in
theorem satisfied_flush {a b : Bool} :
    (Waiter.flush a b : Waiter τ).Satisfied s ↔ s.pending = [] ∧ s.executing = [] :=
  Iff.rfl

omit [DecidableEq τ] in
theorem satisfied_ready {a : Bool} :
    (Waiter.ready a : Waiter τ).Satisfied s ↔
      s.ready = [] → s.pending = [] ∧ s.executing = [] := by
  unfold Waiter.Satisfied
  by_cases hready : s.ready = []
  · simp [hready]
  · simp [hready]

theorem satisfied_task (h : Rep s) :
    (Waiter.task t).Satisfied s ↔ t ∉ s.pending ∧ t ∉ s.executing := by
  unfold Waiter.Satisfied
  rw [h.mem_pending, h.mem_executing]
  cases ht : s.allTasks t with
  | none => simp [ht]
  | some q => cases q <;> simp [ht]

omit [DecidableEq τ] in
/-- A thread waits for a ready task only while there is none. -/
theorem ready_nil_of_not_satisfied (hw : ¬ w.Satisfied s) (hfor : w.forReady = true) :
    s.ready = [] := by
  cases w with
  | ready a =>
    rw [satisfied_ready, Classical.not_imp] at hw
    exact hw.1
  | flush _ _ | task _ => exact absurd hfor Bool.false_ne_true

theorem satisfied_of_empty (h : Rep s) (hempty : isEmptyInternal s = true) (w : Waiter τ) :
    w.Satisfied s := by
  simp only [isEmptyInternal, Bool.and_eq_true, List.isEmpty_iff] at hempty
  cases w with
  | flush a b => exact hempty.1
  | ready a =>
    rw [satisfied_ready]
    exact fun _ => hempty.1
  | task u =>
    rw [satisfied_task h, hempty.1.1, hempty.1.2]
    exact ⟨not_mem_nil, not_mem_nil⟩

/-- A section after which the pending and executing tasks are still among
them wakes nobody up, unless it made the ready list non-empty. -/
theorem not_satisfied_mono (h : Rep s) (h' : Rep s')
    (hlists : ∀ u, u ∈ s.pending ∨ u ∈ s.executing → u ∈ s'.pending ∨ u ∈ s'.executing)
    (hready : ∀ a, w = .ready a → s.ready = [] → s'.ready = []) (hw : ¬ w.Satisfied s) :
    ¬ w.Satisfied s' := by
  have hdrained : s'.pending = [] ∧ s'.executing = [] → s.pending = [] ∧ s.executing = [] := by
    intro hboth
    have hnone : ∀ u, ¬ (u ∈ s.pending ∨ u ∈ s.executing) := by
      intro u hu
      have hu' := hlists u hu
      rw [hboth.1, hboth.2] at hu'
      simp at hu'
    exact ⟨eq_nil_iff_forall_not_mem.mpr fun u hu => hnone u (.inl hu),
      eq_nil_iff_forall_not_mem.mpr fun u hu => hnone u (.inr hu)⟩
  cases w with
  | flush a b => exact fun hsat => hw (hdrained hsat)
  | ready a =>
    rw [satisfied_ready] at hw ⊢
    exact fun hsat => hw fun hnil => hdrained (hsat (hready a rfl hnil))
  | task u =>
    rw [satisfied_task h, ← not_or, not_not] at hw
    rw [satisfied_task h', ← not_or, not_not]
    exact hlists u hw

theorem satisfied_pad (h : Rep s) (w : Waiter τ) :
    w.Satisfied (padExecutingQueueNothrow s) ↔ w.Satisfied s := by
  have hdrained := pad_drained s
  cases w with
  | flush a b => exact hdrained
  | ready a => rw [satisfied_ready, satisfied_ready, pad_ready, hdrained]
  | task t =>
    show _ ∨ _ ↔ _ ∨ _
    rw [h.pad_allTasks_none, h.pad_allTasks_ready]

/-- A pending task is gone, and nothing else the waiter looks at changed. -/
theorem satisfied_of_removed (h : Rep s) (h' : Rep s') (ht : t ∈ s.pending)
    (hpending : s'.pending = s.pending.erase t) (hexecuting : s'.executing = s.executing)
    (hready : w.forReady = true → s'.ready = s.ready) (hw : ¬ w.Satisfied s) :
    w.Satisfied s' ↔ LastFor s t w := by
  have hnil : s.pending.erase t = [] ↔ s.pending = [t] := by
    rw [erase_eq_nil_iff]
    exact or_iff_right (ne_nil_of_mem ht)
  cases w with
  | flush a b =>
    show s'.pending = [] ∧ s'.executing = [] ↔ s.pending = [t] ∧ s.executing = []
    rw [hpending, hexecuting, hnil]
  | ready a =>
    show _ ↔ s.pending = [t] ∧ s.executing = []
    rw [satisfied_ready, Classical.not_imp] at hw
    rw [satisfied_ready, hready rfl, hpending, hexecuting, hnil]
    exact forall_prop_of_true hw.1
  | task u =>
    show _ ↔ t = u
    rw [satisfied_task h, ← not_or, not_not] at hw
    rw [satisfied_task h', hpending, hexecuting]
    constructor
    · intro hout
      have hu : u ∈ s.pending := hw.resolve_right hout.2
      by_contra hne
      exact hout.1 ((mem_erase_of_ne (Ne.symm hne)).mpr hu)
    · intro hu
      subst hu
      refine ⟨(h.placed.nodup .pending).not_mem_erase, fun hexec => ?_⟩
      rw [h.mem_executing, h.mem_pending.mp ht] at hexec
      simp at hexec

/-- A pending task went to the ready list. -/
theorem satisfied_of_kept (h : Rep s) (h' : Rep s') (ht : t ∈ s.pending)
    (hpending : s'.pending = s.pending.erase t) (hexecuting : s'.executing = s.executing)
    (hready : s'.ready ≠ []) (hw : ¬ w.Satisfied s) :
    w.Satisfied s' ↔ LastFor s t w ∨ w.forReady = true := by
  cases hfor : w.forReady
  · rw [satisfied_of_removed h h' ht hpending hexecuting (by simp [hfor]) hw]
    simp
  · cases w with
    | ready a =>
      rw [satisfied_ready]
      exact iff_of_true (fun hnil => absurd hnil hready) (.inr rfl)
    | flush _ _ | task _ => simp [Waiter.forReady] at hfor

/-- The pending list was emptied, and nothing else changed. -/
theorem satisfied_of_cleared (h : Rep s) (h' : Rep s') (hpending : s'.pending = [])
    (hexecuting : s'.executing = s.executing) (hready : s'.ready = s.ready)
    (hw : ¬ w.Satisfied s) : w.Satisfied s' ↔ PendingOnly s w := by
  cases w with
  | flush a b =>
    show s'.pending = [] ∧ s'.executing = [] ↔ s.executing = []
    rw [hpending, hexecuting]
    exact and_iff_right rfl
  | ready a =>
    show _ ↔ s.executing = []
    rw [satisfied_ready, Classical.not_imp] at hw
    rw [satisfied_ready, hready, hpending, hexecuting, forall_prop_of_true hw.1]
    exact and_iff_right rfl
  | task u =>
    show _ ↔ u ∈ s.pending
    rw [satisfied_task h, ← not_or, not_not] at hw
    rw [satisfied_task h', hpending, hexecuting]
    constructor
    · intro hout
      exact hw.resolve_right hout.2
    · intro hu
      refine ⟨not_mem_nil, fun hexec => ?_⟩
      rw [h.mem_executing, h.mem_pending.mp hu] at hexec
      simp at hexec

/-- A task put into the ready list as it is wakes up who waits for one. -/
theorem satisfied_of_added (h : Rep s) (h' : Rep s') (hpending : s'.pending = s.pending)
    (hexecuting : s'.executing = s.executing) (hready : s'.ready ≠ []) (hw : ¬ w.Satisfied s) :
    w.Satisfied s' ↔ w.forReady = true := by
  cases w with
  | ready a =>
    rw [satisfied_ready]
    exact iff_of_true (fun hnil => absurd hnil hready) rfl
  | flush a b =>
    rw [satisfied_flush] at hw ⊢
    rw [hpending, hexecuting]
    exact iff_of_false hw Bool.false_ne_true
  | task u =>
    rw [satisfied_task h] at hw
    rw [satisfied_task h', hpending, hexecuting]
    exact iff_of_false hw Bool.false_ne_true

end Satisfied

/-! ## The sections -/

section Sections

variable {s : State τ θ} {w : Waiter τ} {t : τ}

theorem push_satisfied (h : Rep s) (isBack dontSchedule : Bool)
    (ht : s.allTasks t = none ∨ s.allTasks t = some .ready) (hw : ¬ w.Satisfied s) :
    w.Satisfied (pushInternalNoLock isBack t dontSchedule s) ↔
      dontSchedule = true ∧ s.allTasks t = none ∧ w.forReady = true := by
  have hinsert : ∀ (u : τ) (l : List τ), u ∈ l → u ∈ insertTask isBack t l := by
    intro u l hu
    cases isBack <;> simp [insertTask, hu]
  have hlink := linkTask_linked h isBack dontSchedule ht
  rw [pushInternalNoLock_eq, satisfied_pad hlink.rep]
  cases dontSchedule
  · refine iff_of_false ?_ fun hsilent => Bool.false_ne_true hsilent.1
    refine not_satisfied_mono h hlink.rep (fun u hu => ?_) (fun a _ hnil => ?_) hw
    · rw [hlink.pending, hlink.executing]
      exact hu.imp_left (hinsert u s.pending)
    · rw [hlink.ready, hnil]
      rfl
  · rw [and_iff_right rfl]
    by_cases hnew : s.allTasks t = none
    · rw [and_iff_right hnew]
      refine satisfied_of_added h hlink.rep hlink.pending hlink.executing ?_ hw
      rw [hlink.ready, if_pos rfl, if_pos hnew]
      cases isBack <;> simp [insertTask]
    · refine iff_of_false ?_ fun hsilent => hnew hsilent.1
      refine not_satisfied_mono h hlink.rep (fun u hu => ?_) (fun a _ hnil => ?_) hw
      · rwa [hlink.pending, hlink.executing]
      · rw [hlink.ready, if_pos rfl, if_neg hnew, hnil]

/-- Taking a ready task out wakes nobody up: whoever could care about it
is awake. -/
theorem destroyReady_not_satisfied (h : Rep s) (ht : s.allTasks t = some .ready)
    (hw : ¬ w.Satisfied s) : ¬ w.Satisfied (destroyReady t s) := by
  refine not_satisfied_mono h (h.destroyReady ht) (fun u hu => ?_) (fun a _ hnil => ?_) hw
  · show u ∈ s.pending.erase t ∨ u ∈ s.executing.erase t
    rwa [h.erase_pending (by simp [ht]), h.erase_executing (by simp [ht])]
  · show s.ready.erase t = []
    rw [hnil, erase_nil]

theorem takeFirstReady_not_satisfied (h : Rep s) (remove : Bool) (hw : ¬ w.Satisfied s) :
    ¬ w.Satisfied (takeFirstReady remove s).1 := by
  unfold takeFirstReady
  split
  · exact hw
  · rename_i t r hready
    cases remove
    · exact hw
    · exact destroyReady_not_satisfied h (h.mem_ready.mp (hready ▸ mem_cons_self)) hw

theorem moveToFront_not_satisfied (h : Rep s) (ht : s.allTasks t = some .pending)
    (hw : ¬ w.Satisfied s) : ¬ w.Satisfied (moveToFront t s) := by
  refine not_satisfied_mono h (h.moveToFront ht) (fun u hu => ?_) (fun a _ hnil => ?_) hw
  · show u ∈ t :: s.pending.erase t ∨ u ∈ s.executing.erase t
    rw [h.erase_executing (by simp [ht])]
    refine hu.imp_left fun hmem => ?_
    by_cases hu : u = t
    · exact hu ▸ mem_cons_self
    · exact mem_cons_of_mem t ((mem_erase_of_ne hu).mpr hmem)
  · show s.ready.erase t = []
    rw [hnil, erase_nil]

theorem prepareWait_not_satisfied (h : Rep s) {owner : OwnerQueue}
    (ht : s.allTasks t = some owner) (prioritize cancel : Bool) (hw : ¬ w.Satisfied s) :
    ¬ w.Satisfied (prepareWait t prioritize cancel owner s) := by
  cases prioritize <;> cases cancel <;> cases owner <;>
    first | exact hw | exact moveToFront_not_satisfied h ht hw

theorem continueTask_not_satisfied (h : Rep s) (ht : s.allTasks t = some .executing)
    (hw : ¬ w.Satisfied s) : ¬ w.Satisfied (continueTask t s) := by
  have hrep := rep_relinkTask h ht
  rw [continueTask_eq, satisfied_pad hrep]
  refine not_satisfied_mono h hrep (fun u hu => ?_) (fun a _ hnil => ?_) hw
  · show u ∈ s.pending.erase t ++ [t] ∨ u ∈ s.executing.erase t
    rw [h.erase_pending (by simp [ht])]
    by_cases hu' : u = t
    · exact .inl (by simp [hu'])
    · exact hu.imp (mem_append_left _) (mem_erase_of_ne hu').mpr
  · show s.ready.erase t = []
    rw [hnil, erase_nil]

theorem finishFlush_not_satisfied (h : Rep s) (nothrowIfFailed discardReady : Bool)
    (hw : ¬ w.Satisfied s) : ¬ w.Satisfied (finishFlush nothrowIfFailed discardReady s).1 := by
  have hclear := h.clearReady
  have hpending : (clearReady s).pending = s.pending := hclear.others .pending (by simp)
  have hexecuting : (clearReady s).executing = s.executing := hclear.others .executing (by simp)
  have hkept : ¬ w.Satisfied (clearReady s) := by
    refine not_satisfied_mono h hclear.rep (fun u hu => ?_) (fun a _ _ => hclear.self) hw
    rwa [hpending, hexecuting]
  unfold finishFlush
  split
  · exact hkept
  · cases discardReady
    · exact hw
    · exact hkept

theorem prepareFlush_satisfied (h : Rep s) (discardPending cancelExecuting : Bool)
    (hw : ¬ w.Satisfied s) :
    w.Satisfied (prepareFlush discardPending cancelExecuting s) ↔
      discardPending = true ∧ PendingOnly s w := by
  have hrep := rep_prepareFlush h discardPending cancelExecuting
  obtain ⟨hpending, hexecuting, hready⟩ := prepareFlush_lists h discardPending cancelExecuting
  cases discardPending
  · refine iff_of_false ?_ fun hsilent => Bool.false_ne_true hsilent.1
    refine not_satisfied_mono h hrep (fun u hu => ?_) (fun a _ hnil => hready.trans hnil) hw
    rwa [hpending, hexecuting]
  · rw [and_iff_right rfl]
    exact satisfied_of_cleared h hrep hpending hexecuting hready hw

theorem cancel_satisfied (h : Rep s) (t : τ) (hw : ¬ w.Satisfied s) :
    w.Satisfied (cancel t s).1 ↔
      t ∈ s.pending ∧
        (LastFor s t w ∨ s.hasOption optionKeepCanceled = true ∧ w.forReady = true) := by
  unfold cancel
  split
  · rename_i ht
    have hmem := h.mem_pending.mpr ht
    have hexecuting : s.executing.erase t = s.executing := h.erase_executing (by simp [ht])
    have hready : s.ready.erase t = s.ready := h.erase_ready (by simp [ht])
    dsimp only
    rw [and_iff_right hmem]
    split_ifs with hkeep
    · rw [and_iff_right hkeep]
      refine satisfied_of_kept h (h.cancelKeep ht) hmem rfl hexecuting ?_ hw
      show s.ready.erase t ++ [t] ≠ []
      simp
    · rw [satisfied_of_removed h (h.destroyPending ht) hmem rfl hexecuting (fun _ => hready) hw]
      simp [hkeep]
  · rename_i ht
    exact iff_of_false hw fun hsilent => ht (h.mem_pending.mp hsilent.1)

/-- What is last among the admitted and the pending was last before. -/
theorem lastFor_pad (ht : t ∈ s.pending.drop (room s)) :
    LastFor (padExecutingQueueNothrow s) t w ↔ LastFor s t w := by
  have happend := take_append_drop (room s) s.pending
  have hiff : (padExecutingQueueNothrow s).pending = [t] ∧
      (padExecutingQueueNothrow s).executing = [] ↔ s.pending = [t] ∧ s.executing = [] := by
    rw [pad_pending, pad_executing, append_eq_nil_iff]
    constructor
    · intro hlast
      rw [hlast.1, hlast.2.2] at happend
      exact ⟨happend.symm, hlast.2.1⟩
    · intro hlast
      have hroom : room s = 0 := by
        rw [hlast.1] at ht
        by_contra hne
        rw [drop_eq_nil_of_le (Nat.pos_of_ne_zero hne)] at ht
        exact not_mem_nil ht
      rw [hroom]
      simp [hlast.1, hlast.2]
  cases w with
  | flush a b => exact hiff
  | ready a => exact hiff
  | task u => exact Iff.rfl

/-- Whom the beginning of a flush woke, its end does not put to sleep. -/
theorem finishFlush_satisfied (h : Rep s) (nothrowIfFailed discardReady : Bool)
    (hsat : w.Satisfied s) (hready : w.forReady = true → s.ready = []) :
    w.Satisfied (finishFlush nothrowIfFailed discardReady s).1 := by
  have hclear := h.clearReady
  have hpending : (clearReady s).pending = s.pending := hclear.others .pending (by simp)
  have hexecuting : (clearReady s).executing = s.executing := hclear.others .executing (by simp)
  have hkept : w.Satisfied (clearReady s) := by
    cases w with
    | flush a b => rwa [satisfied_flush, hpending, hexecuting]
    | ready a =>
      rw [satisfied_ready] at hsat ⊢
      rw [hpending, hexecuting]
      exact fun _ => hsat (hready rfl)
    | task u =>
      rw [satisfied_task h] at hsat
      rwa [satisfied_task hclear.rep, hpending, hexecuting]
  unfold finishFlush
  split
  · exact hkept
  · cases discardReady
    · exact hsat
    · exact hkept

theorem takeFirstReady_waiting (remove : Bool) (s : State τ θ) :
    (takeFirstReady remove s).1.waiting = s.waiting :=
  congrArg Control.waiting (takeFirstReady_control remove s)

variable [DecidableEq θ]

/-! ## Who goes to sleep -/

/-- The section leaves the sleeping threads alone, but may put its own
thread to sleep on a false predicate. -/
def SleepsOnly (th : θ) (s s' : State τ θ) : Prop :=
  s'.waiting = s.waiting ∨
    ∃ w, s'.waiting = Function.update s.waiting th (some ⟨w, false⟩) ∧ ¬ w.Satisfied s'

theorem waitFirstReady_sleeps (th : θ) (remove : Bool) (s : State τ θ) :
    SleepsOnly th s (waitFirstReady th remove s).1 := by
  unfold waitFirstReady
  split
  · rename_i hblock
    refine .inr ⟨_, rfl, fun hsat => ?_⟩
    rw [satisfied_ready] at hsat
    simp only [Bool.and_eq_true, List.isEmpty_iff, Bool.not_eq_true'] at hblock
    have hboth : s.pending = [] ∧ s.executing = [] := hsat hblock.1
    simp [isEmptyInternal, hblock.1, hboth.1, hboth.2] at hblock
  · exact .inl (takeFirstReady_waiting remove s)

theorem getFirstReady_sleeps (th : θ) (wait remove : Bool) (s : State τ θ) :
    SleepsOnly th s (getFirstReady th wait remove s).1 := by
  unfold getFirstReady SleepsOnly
  rw [← pad_waiting s]
  cases wait
  · exact .inl (takeFirstReady_waiting remove _)
  · exact waitFirstReady_sleeps th remove _

theorem waitTask_sleeps (th : θ) (t : τ) (s : State τ θ) :
    SleepsOnly th s (waitTask th t s).1 := by
  unfold waitTask SleepsOnly
  rw [← pad_waiting s]
  dsimp only
  split
  · exact .inl rfl
  · exact .inl rfl
  · rename_i owner hready howner
    refine .inr ⟨_, rfl, fun hsat => ?_⟩
    rcases hsat with hnone | htag
    · exact absurd (howner.symm.trans hnone) (by simp)
    · exact hready (Option.some.inj (howner.symm.trans htag))

theorem waitInternal_sleeps (th : θ) (t : τ) (prioritize cancel : Bool) (s : State τ θ) :
    SleepsOnly th s (waitInternal th t prioritize cancel s).1 := by
  unfold waitInternal
  dsimp only
  have hpad := pad_waiting s
  split
  · exact .inl hpad
  · split
    · exact .inl hpad
    · split
      · exact .inl hpad
      · rename_i owner howner hready hcancel
        have hsleep := waitTask_sleeps th t
          (prepareWait t prioritize cancel owner (padExecutingQueueNothrow s))
        have hwaiting : (prepareWait t prioritize cancel owner
            (padExecutingQueueNothrow s)).waiting = s.waiting := by
          rw [← pad_waiting s]
          cases prioritize <;> cases cancel <;> cases owner <;> rfl
        unfold SleepsOnly at hsleep
        rwa [hwaiting] at hsleep

theorem endFlush_sleeps (th : θ) (wait nothrowIfFailed discardReady : Bool) (s : State τ θ) :
    SleepsOnly th s (endFlush th wait nothrowIfFailed discardReady s).1 := by
  have hfinish := congrArg Control.waiting (finishFlush_control nothrowIfFailed discardReady s)
  unfold endFlush waitFlush
  cases wait
  · exact .inl hfinish
  · rw [if_pos rfl]
    split
    · rename_i hbusy
      refine .inr ⟨_, rfl, fun hsat => ?_⟩
      have hdrained : s.pending = [] ∧ s.executing = [] := hsat
      simp [hasPendingOrExecuting, hdrained.1, hdrained.2] at hbusy
    · exact .inl hfinish

theorem flushInternal_sleeps (th : θ)
    (wait discardPending nothrowIfFailed discardReady cancelExecuting : Bool) (s : State τ θ) :
    SleepsOnly th s (flushInternal th wait discardPending nothrowIfFailed discardReady
      cancelExecuting s).1 := by
  have hprepare : ∀ (discard : Bool) (s' : State τ θ), s'.waiting = s.waiting →
      SleepsOnly th s (endFlush th wait nothrowIfFailed discardReady
        (prepareFlush discard cancelExecuting s')).1 := by
    intro discard s' hs'
    have hsleep := endFlush_sleeps th wait nothrowIfFailed discardReady
      (prepareFlush discard cancelExecuting s')
    have hwaiting : (prepareFlush discard cancelExecuting s').waiting = s.waiting := by
      rw [← hs']
      exact congrArg Control.waiting (prepareFlush_control discard cancelExecuting s')
    unfold SleepsOnly at hsleep
    rwa [hwaiting] at hsleep
  rw [flushInternal_eq]
  split
  · split
    · exact .inl rfl
    · exact hprepare true s rfl
  · split
    · exact .inl (pad_waiting s)
    · exact hprepare false _ (pad_waiting s)

/-! ## What wakes whom -/

theorem waitFirstReady_not_satisfied (h : Rep s) (th : θ) (remove : Bool)
    (hw : ¬ w.Satisfied s) : ¬ w.Satisfied (waitFirstReady th remove s).1 := by
  unfold waitFirstReady
  split
  · cases w <;> exact hw
  · exact takeFirstReady_not_satisfied h remove hw

theorem getFirstReady_not_satisfied (h : Rep s) (th : θ) (wait remove : Bool)
    (hw : ¬ w.Satisfied s) : ¬ w.Satisfied (getFirstReady th wait remove s).1 := by
  rw [← satisfied_pad h] at hw
  unfold getFirstReady
  cases wait
  · exact takeFirstReady_not_satisfied h.pad remove hw
  · exact waitFirstReady_not_satisfied h.pad th remove hw

theorem waitTask_not_satisfied (h : Rep s) (th : θ) (t : τ) (hw : ¬ w.Satisfied s) :
    ¬ w.Satisfied (waitTask th t s).1 := by
  rw [← satisfied_pad h] at hw
  unfold waitTask
  dsimp only
  split
  · exact hw
  · rename_i ht
    exact destroyReady_not_satisfied h.pad ht hw
  · cases w <;> exact hw

theorem waitInternal_satisfied (h : Rep s) (th : θ) (t : τ) (prioritize cancel : Bool)
    (hw : ¬ w.Satisfied s) :
    w.Satisfied (waitInternal th t prioritize cancel s).1 ↔
      cancel = true ∧ t ∈ s.pending.drop (room s) ∧ LastFor s t w := by
  have hpending : t ∈ s.pending.drop (room s) ↔
      (padExecutingQueueNothrow s).allTasks t = some .pending := by
    rw [← h.pad.mem_pending, pad_pending]
  rw [← satisfied_pad h] at hw
  unfold waitInternal
  dsimp only
  split
  · rename_i hnone
    exact iff_of_false hw fun hsilent =>
      absurd (hnone.symm.trans (hpending.mp hsilent.2.1)) (by simp)
  · rename_i owner howner
    split
    · rename_i hready
      subst hready
      refine iff_of_false (destroyReady_not_satisfied h.pad howner hw) fun hsilent => ?_
      exact absurd (howner.symm.trans (hpending.mp hsilent.2.1)) (by simp)
    · split
      · rename_i hcancel
        obtain ⟨rfl, rfl⟩ := hcancel
        have hmem := hpending.mpr howner
        rw [and_iff_right rfl, and_iff_right hmem, ← lastFor_pad hmem]
        refine satisfied_of_removed h.pad (h.pad.destroyPending howner)
          (h.pad.mem_pending.mpr howner) rfl ?_ (fun _ => ?_) hw
        · exact h.pad.erase_executing (by rw [howner]; simp)
        · exact h.pad.erase_ready (by rw [howner]; simp)
      · rename_i hcancel
        refine iff_of_false ?_ fun hsilent => ?_
        · exact waitTask_not_satisfied (rep_prepareWait h.pad howner prioritize cancel) th t
            (prepareWait_not_satisfied h.pad howner prioritize cancel hw)
        · rw [hpending.mp hsilent.2.1] at howner
          exact hcancel ⟨(Option.some.inj howner).symm, hsilent.1⟩

theorem endFlush_not_satisfied (h : Rep s) (th : θ) (wait nothrowIfFailed discardReady : Bool)
    (hw : ¬ w.Satisfied s) :
    ¬ w.Satisfied (endFlush th wait nothrowIfFailed discardReady s).1 := by
  have hfinish := finishFlush_not_satisfied h nothrowIfFailed discardReady hw
  unfold endFlush waitFlush
  cases wait
  · exact hfinish
  · rw [if_pos rfl]
    split
    · cases w <;> exact hw
    · exact hfinish

theorem flushInternal_satisfied (h : Rep s) (th : θ)
    (wait discardPending nothrowIfFailed discardReady cancelExecuting : Bool)
    (hw : ¬ w.Satisfied s) :
    w.Satisfied (flushInternal th wait discardPending nothrowIfFailed discardReady
      cancelExecuting s).1 ↔ discardPending = true ∧ PendingOnly s w := by
  rw [flushInternal_eq]
  cases discardPending
  · rw [if_neg Bool.false_ne_true]
    rw [← satisfied_pad h] at hw
    refine iff_of_false ?_ fun hsilent => Bool.false_ne_true hsilent.1
    split
    · exact hw
    · refine endFlush_not_satisfied (rep_prepareFlush h.pad false cancelExecuting) th wait
        nothrowIfFailed discardReady ?_
      rw [prepareFlush_satisfied h.pad false cancelExecuting hw]
      exact fun hsilent => Bool.false_ne_true hsilent.1
  · rw [if_pos rfl]
    have hrep := rep_prepareFlush h true cancelExecuting
    have hprepare := prepareFlush_satisfied h true cancelExecuting hw
    split
    · rename_i hempty
      exact absurd (satisfied_of_empty h hempty w) hw
    · rw [← hprepare]
      constructor
      · intro hsat
        by_contra hno
        exact endFlush_not_satisfied hrep th wait nothrowIfFailed discardReady hno hsat
      · intro hsat
        have hready : w.forReady = true → (prepareFlush true cancelExecuting s).ready = [] := by
          intro hfor
          rw [(prepareFlush_lists h true cancelExecuting).2.2]
          exact ready_nil_of_not_satisfied hw hfor
        have hfinish := finishFlush_satisfied hrep nothrowIfFailed discardReady hsat hready
        unfold endFlush waitFlush
        cases wait
        · exact hfinish
        · rw [if_pos rfl]
          split
          · cases w <;> exact hsat
          · exact hfinish

theorem resume_not_satisfied (h : Rep s) (th : θ) (hw : ¬ w.Satisfied s) :
    ¬ w.Satisfied (resume th s).1 := by
  have hrep := rep_unblock h th
  have hw' : ¬ w.Satisfied (unblock th s) := by cases w <;> exact hw
  unfold resume
  split
  · exact hw
  · split
    · exact endFlush_not_satisfied hrep th true _ _ hw'
    · exact waitFirstReady_not_satisfied hrep th _ hw'
    · exact waitTask_not_satisfied hrep th _ hw'

end Sections

/-! ## One step -/

section Step

variable {s s' : State τ θ} {l : Label τ θ}

omit [DecidableEq τ] in
/-- A section which changes the predicates as `Silent` says, and lets at
most its own thread fall asleep. -/
theorem noLostWakeup_iff (hno : NoLostWakeup s)
    (hsat : ∀ w, ¬ w.Satisfied s → (w.Satisfied s' ↔ Silent s l w))
    (hnew : ∀ th w, s'.waiting th = some ⟨w, false⟩ →
      s.waiting th = some ⟨w, false⟩ ∨ ¬ w.Satisfied s')
    (hold : ∀ th w, s.waiting th = some ⟨w, false⟩ → s'.waiting th = some ⟨w, false⟩) :
    NoLostWakeup s' ↔ Signals s l := by
  constructor
  · intro hno' th w hw hsilent
    exact hno' th w (hold th w hw) ((hsat w (hno th w hw)).mpr hsilent)
  · intro hsignals th w hw' hsatisfied
    rcases hnew th w hw' with hw | hfalse
    · exact hsignals th w hw ((hsat w (hno th w hw)).mp hsatisfied)
    · exact hfalse hsatisfied

omit [DecidableEq τ] in
theorem noLostWakeup_iff_of_waiting (hno : NoLostWakeup s)
    (hsat : ∀ w, ¬ w.Satisfied s → (w.Satisfied s' ↔ Silent s l w))
    (hwaiting : s'.waiting = s.waiting) : NoLostWakeup s' ↔ Signals s l := by
  refine noLostWakeup_iff hno hsat (fun th w hw => .inl ?_) fun th w hw => ?_
  · rwa [← hwaiting]
  · rwa [hwaiting]

omit [DecidableEq τ] in
/-- A completion signals whoever sleeps. -/
theorem noLostWakeup_of_notifyAll (s : State τ θ) : NoLostWakeup (notifyAll s) := by
  intro th w hw
  have hsome : (s.waiting th).map (fun w => { w with signalled := true }) = some ⟨w, false⟩ := hw
  rw [Option.map_eq_some_iff] at hsome
  obtain ⟨w₀, _, hw₀⟩ := hsome
  exact absurd (congrArg Waiting.signalled hw₀) (by simp)

omit [DecidableEq τ] in
theorem signals_of_not_silent (h : ∀ w, ¬ Silent s l w) : Signals s l :=
  fun _ w _ => h w

omit [DecidableEq τ] in
theorem noLostWakeup_formCandidate (h : NoLostWakeup s) : NoLostWakeup (formCandidate s) := by
  unfold formCandidate
  split
  · intro th w hw
    have hunsat := h th w hw
    cases w <;> exact hunsat
  · exact h

theorem noLostWakeup_onReady (h : Rep s) (hno : NoLostWakeup s) {t : τ} {failed : Bool}
    {continuation : Continuation τ}
    (hen : enabled s (.onReady t failed continuation : Label τ θ) = true) :
    NoLostWakeup (onReady t failed continuation s) := by
  have hcomplete : ∀ s₁ : State τ θ, NoLostWakeup (completeTask t s₁) := by
    intro s₁
    rw [completeTask_eq]
    exact noLostWakeup_of_notifyAll _
  unfold onReady
  apply noLostWakeup_formCandidate
  cases continuation with
  | none => exact hcomplete _
  | throws => exact hcomplete _
  | task c =>
    dsimp only
    split
    · -- The one completion which does not signal moves its task only.
      have ht : s.allTasks t = some .executing := by
        simp only [enabled, Bool.and_eq_true, beq_iff_eq] at hen
        exact hen.1
      intro th w hw
      have hwaiting : (continueTask t (notifyReady t failed s)).waiting = s.waiting :=
        pad_waiting _
      rw [hwaiting] at hw
      have hunsat : ¬ w.Satisfied (notifyReady t failed s) := by
        have hunsat := hno th w hw
        cases w <;> exact hunsat
      exact continueTask_not_satisfied (rep_notifyReady h t failed) ht hunsat
    · exact hcomplete _

variable [DecidableEq θ]

omit [DecidableEq τ] in
theorem noLostWakeup_iff_of_sleeps {th : θ} (hno : NoLostWakeup s)
    (hsat : ∀ w, ¬ w.Satisfied s → (w.Satisfied s' ↔ Silent s l w))
    (hfree : s.waiting th = none) (hsleeps : SleepsOnly th s s') :
    NoLostWakeup s' ↔ Signals s l := by
  rcases hsleeps with hwaiting | ⟨w₀, hwaiting, hunsat⟩
  · exact noLostWakeup_iff_of_waiting hno hsat hwaiting
  · refine noLostWakeup_iff hno hsat (fun th' w hw => ?_) fun th' w hw => ?_
    · rw [hwaiting, Function.update_apply] at hw
      split at hw
      · obtain ⟨rfl, _⟩ := Waiting.mk.inj (Option.some.inj hw)
        exact .inr hunsat
      · exact .inl hw
    · rw [hwaiting, Function.update_apply, if_neg, hw]
      intro heq
      rw [heq, hfree] at hw
      simp at hw

theorem resume_sleeps (th : θ) (hsome : s.waiting th ≠ none) :
    SleepsOnly th (unblock th s) (resume th s).1 := by
  unfold resume
  split
  · contradiction
  · split
    · exact endFlush_sleeps th true _ _ _
    · exact waitFirstReady_sleeps th _ _
    · exact waitTask_sleeps th _ _

/-- A thread which wakes up goes on, or sleeps on with a false predicate. -/
theorem noLostWakeup_resume (h : Rep s) (hno : NoLostWakeup s) (th : θ)
    (hsome : s.waiting th ≠ none) : NoLostWakeup (resume th s).1 := by
  have hother : ∀ th' w, (unblock th s).waiting th' = some ⟨w, false⟩ →
      ¬ w.Satisfied (resume th s).1 := by
    intro th' w hw
    have hupdate : Function.update s.waiting th none th' = some ⟨w, false⟩ := hw
    rw [Function.update_apply] at hupdate
    split at hupdate
    · simp at hupdate
    · exact resume_not_satisfied h th (hno th' w hupdate)
  intro th' w hw
  rcases resume_sleeps th hsome with hwaiting | ⟨w₀, hwaiting, hunsat⟩
  · rw [hwaiting] at hw
    exact hother th' w hw
  · rw [hwaiting, Function.update_apply] at hw
    split at hw
    · obtain ⟨rfl, _⟩ := Waiting.mk.inj (Option.some.inj hw)
      exact hunsat
    · exact hother th' w hw

/-- A section keeps every sleeper's predicate false, or signals, exactly
when it is not one of the silent ones for a thread which sleeps. -/
theorem noLostWakeup_step (h : Rep s) (hno : NoLostWakeup s) (hstep : step s l = some s') :
    NoLostWakeup s' ↔ Signals s l := by
  obtain ⟨hen, rfl⟩ := step_eq_some.mp hstep
  have hquiet : (∀ w, ¬ Silent s l w) → NoLostWakeup (lockSection s l).1 →
      (NoLostWakeup (lockSection s l).1 ↔ Signals s l) :=
    fun hsilent hno' => iff_of_true hno' (signals_of_not_silent hsilent)
  cases l with
  | push isBack dontSchedule t =>
    refine noLostWakeup_iff_of_waiting hno (fun w hw => ?_) ?_
    · exact push_satisfied h isBack dontSchedule ((pushable_iff t s).mp hen) hw
    · show (pushInternalNoLock isBack t dontSchedule s).waiting = s.waiting
      rw [pushInternalNoLock_eq, pad_waiting]
      exact congrArg Control.waiting
        (linkTask_linked h isBack dontSchedule ((pushable_iff t s).mp hen)).control
  | getFirstReady th wait remove =>
    refine noLostWakeup_iff_of_sleeps hno (fun w hw => ?_) (Option.isNone_iff_eq_none.mp hen)
      (getFirstReady_sleeps th wait remove s)
    exact iff_of_false (getFirstReady_not_satisfied h th wait remove hw) id
  | wait th t prioritize cancel =>
    refine noLostWakeup_iff_of_sleeps hno (fun w hw => ?_) (Option.isNone_iff_eq_none.mp hen)
      (waitInternal_sleeps th t prioritize cancel s)
    exact waitInternal_satisfied h th t prioritize cancel hw
  | prioritize t =>
    refine noLostWakeup_iff_of_waiting hno (fun w hw => iff_of_false ?_ id) ?_
    · show ¬ w.Satisfied (prioritize t s).1
      unfold prioritize
      split
      · exact hw
      · rename_i ht
        exact moveToFront_not_satisfied h ht hw
      · exact hw
    · show (prioritize t s).1.waiting = s.waiting
      unfold prioritize
      split <;> rfl
  | flush th wait discardPending nothrowIfFailed discardReady cancelExecuting =>
    have hfree : s.waiting th = none :=
      Option.isNone_iff_eq_none.mp (Bool.and_eq_true_iff.mp hen).1
    refine noLostWakeup_iff_of_sleeps hno (fun w hw => ?_) hfree
      (flushInternal_sleeps th wait discardPending nothrowIfFailed discardReady
        cancelExecuting s)
    exact flushInternal_satisfied h th wait discardPending nothrowIfFailed discardReady
      cancelExecuting hw
  | cancel t =>
    refine noLostWakeup_iff_of_waiting hno (fun w hw => cancel_satisfied h t hw) ?_
    show (cancel t s).1.waiting = s.waiting
    unfold cancel
    split
    · dsimp only
      split <;> rfl
    · rfl
  | setOptions _ | disconnectObserver =>
    refine noLostWakeup_iff_of_waiting hno (fun w hw => iff_of_false ?_ id) rfl
    cases w <;> exact hw
  | setThrottleLimit maxExecuting =>
    refine noLostWakeup_iff_of_waiting hno (fun w hw => iff_of_false ?_ id) (pad_waiting _)
    show ¬ w.Satisfied (setThrottleLimit maxExecuting s)
    have hrep : Rep { s with maxExecuting := maxExecuting } :=
      ⟨h.placed, h.executingCount, h.readyCount⟩
    unfold setThrottleLimit
    rw [satisfied_pad hrep]
    cases w <;> exact hw
  | setNotifyCallback observer eventsMask =>
    refine noLostWakeup_iff_of_waiting hno (fun w hw => iff_of_false ?_ id) (pad_waiting _)
    show ¬ w.Satisfied (setNotifyCallback observer eventsMask s)
    have hrep : Rep { s with
        notifyCB := observer.isSome
        eventsMask := eventsMask
        maxReadyOrExecuting := observer.getD 0 } :=
      ⟨h.placed, h.executingCount, h.readyCount⟩
    unfold setNotifyCallback
    rw [satisfied_pad hrep]
    cases w <;> exact hw
  | onReady t failed continuation =>
    exact hquiet (fun _ => id) (noLostWakeup_onReady h hno hen)
  | validateCandidate generation =>
    refine noLostWakeup_iff_of_waiting hno (fun w hw => iff_of_false ?_ id) ?_
    · show ¬ w.Satisfied (validateCandidate generation s)
      unfold validateCandidate notifyEvent
      dsimp only
      split
      · split <;> cases w <;> exact hw
      · cases w <;> exact hw
    · show (validateCandidate generation s).waiting = s.waiting
      unfold validateCandidate notifyEvent
      dsimp only
      split
      · split <;> rfl
      · rfl
  | resume th =>
    exact hquiet (fun _ => id) (noLostWakeup_resume h hno th (Option.isSome_iff_ne_none.mp hen))

end Step

/-! ## Every run -/

section Run

variable [DecidableEq θ]

/-- No wake-up is lost anywhere in a run exactly when none of its
sections is a silent one for a thread which sleeps there. -/
theorem run_noLostWakeup_iff (options maxExecuting : Nat) (task : τ → TaskData)
    (ls : List (Label τ θ)) (s : State τ θ)
    (hrun : Transition.run step (State.init options maxExecuting task) ls = some s) :
    Transition.Throughout step NoLostWakeup (State.init options maxExecuting task) ls ↔
      Transition.Along step Signals (State.init options maxExecuting task) ls := by
  refine Transition.throughout_iff_along (I := Rep) (fun _ _ _ => rep_step)
    (fun _ _ _ => noLostWakeup_step) (rep_init options maxExecuting task) ?_ hrun
  intro th w hw
  have hnone : none = some (⟨w, false⟩ : Waiting τ) := hw
  simp at hnone

/-- One thread waits for the second of two tasks while the first one
completes. -/
def waitForSecond : List (Label Nat Unit) :=
  [.push true false 0, .push true false 1, .wait () 1 true false, .onReady 0 false .none,
    .onReady 1 false .none, .resume ()]

theorem run_noLostWakeup_waitForSecond :
    Transition.Throughout step NoLostWakeup (State.init optionKeepFailed 1 fun _ => {})
      waitForSecond := by
  refine (run_noLostWakeup_iff optionKeepFailed 1 (fun _ => {}) waitForSecond _ rfl).mpr ?_
  exact ⟨fun _ _ _ h => Bool.false_ne_true h.1, fun _ _ =>
    ⟨fun _ _ _ h => Bool.false_ne_true h.1, fun _ _ =>
      ⟨fun _ _ _ h => Bool.false_ne_true h.1, fun _ _ =>
        ⟨fun _ _ _ h => h, fun _ _ => ⟨fun _ _ _ h => h, fun _ _ =>
          ⟨fun _ _ _ h => h, fun _ _ => trivial⟩⟩⟩⟩⟩⟩

/-- A thread waits for a pending task and another one cancels it: the
task is gone and nobody told the thread. -/
theorem cancel_loses_wakeup :
    ∃ s : State (Fin 2) Unit,
      Transition.run step (State.init optionKeepFailed 1 fun _ => {})
        [.push true false 0, .push true false 1, .wait () 1 true false, .cancel 1] = some s ∧
      s.waiting () = some ⟨.task 1, false⟩ ∧ s.allTasks 1 = none ∧ ¬ NoLostWakeup s :=
  ⟨_, rfl, rfl, rfl, fun h => h () (.task 1) rfl (.inl rfl)⟩

end Run

end Baselib.Tasks.ExecutionQueue
