/-
Baselib.Transfer.ChunksTransmitterCommit — when the chunks transmitter
finalizes its metadata.

`unwindWorkerTasks` takes empty queues for a transfer that is complete.
While the unit is neither stopped nor failing they are; a stop request
empties them as well.
-/
import Baselib.Transfer.ChunksSendRecvRuns

namespace Baselib.Transfer.ChunksSendRecv

open Lib

variable {χ : Type} [DecidableEq χ] {cfg : Config χ} {turn : Turn} {s s' : State χ}

/-- The metadata is finalized for a transfer whose input has completed and
whose chunks the server has acknowledged, by a unit which is neither stopped
nor failing. -/
structure Commit.Complete (cfg : Config χ) (commit : Commit χ) : Prop where
  stopRequested : commit.stopRequested = false
  exception : commit.exception = none
  dispatchedException : commit.dispatchedException = none
  inputDisconnected : commit.inputDisconnected = true
  acknowledged : (commit.accepted.map cfg.item).Perm commit.acknowledged

def CommitsComplete (cfg : Config χ) (s : State χ) : Prop :=
  ∀ commit, s.finalizedAt = some commit → commit.Complete cfg

/-- The state in which an iteration of a stopped transmitter finds nothing
to unwind. -/
def NothingToUnwind (cfg : Config χ) (s : State χ) : Prop :=
  cfg.kind = .transmitter ∧ s.workersEmpty = true ∧ s.postponedDataChunks.isEmpty = true ∧
    s.finalizedAt.isNone = true

instance (cfg : Config χ) (s : State χ) : Decidable (NothingToUnwind cfg s) :=
  inferInstanceAs (Decidable (_ ∧ _ ∧ _ ∧ _))

/-! ## Where the metadata is finalized -/

omit [DecidableEq χ] in
theorem chk2Finalize_eq (cfg : Config χ) (s : State χ) :
    chk2Finalize cfg s = if NothingToUnwind cfg s then finalize s else s := rfl

theorem chk2Disconnect_finalizedAt (cfg : Config χ) (turn : Turn) (s : State χ) :
    (chk2Disconnect cfg turn s).1.finalizedAt =
      if s.childrenEmpty && (s.isShuttingDown || !s.isWaitingExternalInput) then
        (flushAllPendingTasks cfg turn s).1.finalizedAt
      else s.finalizedAt := by
  unfold chk2Disconnect
  split
  · split
    · rename_i heq
      rw [heq]
    · rename_i heq
      rw [heq]
  · rfl

theorem waitForReadyTask_stopped (hstop : s.stopRequested = true) :
    waitForReadyTask cfg turn s =
      if s.ready.isEmpty then (s, .ok none) else (s, .error .operationAborted) := by
  unfold waitForReadyTask getSuccessfulTopTask
  cases hready : s.ready with
  | nil => simp
  | cons top rest => simp [hstop]

theorem flushAllPendingTasks_stopped (hexception : s.exception = none)
    (hstop : s.stopRequested = true) :
    (flushAllPendingTasks cfg turn s).1.finalizedAt = (chk2Finalize cfg s).finalizedAt := by
  unfold flushAllPendingTasks
  rw [hexception, Option.isSome_none, if_neg Bool.false_ne_true, waitForReadyTask_stopped hstop]
  by_cases hready : s.ready.isEmpty = true
  · rw [if_pos hready]
  · rw [if_neg hready, chk2Finalize_eq, if_neg]
    exact fun h => hready (Bool.and_eq_true_iff.mp h.2.1).1

/-- A stopped unit whose child tasks are gone finalizes its metadata when it
finds nothing to unwind. -/
theorem chk2LoopUntilDoneInternal_stopped (hexception : s.exception = none)
    (hstop : s.stopRequested = true) :
    (chk2LoopUntilDoneInternal cfg turn s).1.finalizedAt =
      if s.phase = .processing ∧ s.childExecuting = [] then (chk2Finalize cfg s).finalizedAt
      else s.finalizedAt := by
  unfold chk2LoopUntilDoneInternal
  by_cases hphase : s.phase = .processing
  · have hchildren : s.cancelChildren.childrenEmpty = s.childExecuting.isEmpty := by
      simp [State.childrenEmpty, State.cancelChildren]
    have hshutting : s.cancelChildren.isShuttingDown = true := by
      simp [State.isShuttingDown, State.cancelChildren, hstop]
    have hfinalized : (chk2Finalize cfg s.cancelChildren).finalizedAt =
        (chk2Finalize cfg s).finalizedAt := by
      have hnothing : NothingToUnwind cfg s.cancelChildren ↔ NothingToUnwind cfg s := Iff.rfl
      simp only [chk2Finalize_eq, hnothing]
      split <;> rfl
    rw [if_neg (not_not.mpr hphase), hstop, Bool.true_or, if_pos rfl, chk2Disconnect_finalizedAt,
      flushAllPendingTasks_stopped (s := s.cancelChildren) hexception hstop, hfinalized, hchildren,
      hshutting]
    simp only [Bool.true_or, Bool.and_true, List.isEmpty_iff, hphase, true_and]
    rfl
  · simp [hphase]

theorem chk2LoopUntilDoneInternal_failing (hexception : s.exception ≠ none) :
    (chk2LoopUntilDoneInternal cfg turn s).1.finalizedAt = s.finalizedAt := by
  have hsome : s.exception.isSome = true := Option.isSome_iff_ne_none.mpr hexception
  unfold chk2LoopUntilDoneInternal
  split
  · rfl
  · rw [hsome, Bool.or_true, if_pos rfl, chk2Disconnect_finalizedAt]
    split
    · unfold flushAllPendingTasks
      rw [show s.cancelChildren.exception.isSome = true from hsome, if_pos rfl]
      rfl
    · rfl

/-- What a unit which is neither stopped nor failing finalizes is
complete. -/
theorem chk2LoopUntilDoneInternal_live (h : Live cfg [] s) (hexception : s.exception = none)
    (hstop : s.stopRequested = false) (hcompleted : s.completed = false)
    (hdispatched : s.dispatchedException = none) :
    (chk2LoopUntilDoneInternal cfg turn s).1.finalizedAt = s.finalizedAt ∨
      CommitsComplete cfg (chk2LoopUntilDoneInternal cfg turn s).1 := by
  unfold chk2LoopUntilDoneInternal
  split
  · exact .inl rfl
  · rw [hexception, hstop, Option.isSome_none, Bool.or_self, if_neg Bool.false_ne_true]
    split
    · rename_i task result _ _
      exact .inl (congrArg Control.finalizedAt (pushReadyTask_control task result))
    · unfold CommitsComplete
      rw [chk2Disconnect_finalizedAt]
      split
      · rename_i hgate
        simp only [State.childrenEmpty, State.isShuttingDown, State.isWaitingExternalInput,
          hexception, hstop, hcompleted, Bool.and_eq_true, List.isEmpty_iff, Option.isSome_none,
          Option.isNone_none, Bool.or_false, Bool.false_or, Bool.true_and, Bool.not_not] at hgate
        have hlive := (h.waitForReadyTask turn).1
        have hcontrol := @waitForReadyTask_control _ cfg turn s _
        have hwork := @waitForReadyTask_work _ cfg turn s _
        unfold flushAllPendingTasks
        rw [hexception, Option.isSome_none, if_neg Bool.false_ne_true]
        split
        · rename_i heq
          rw [heq] at hcontrol
          exact .inl (congrArg Control.finalizedAt hcontrol)
        · rename_i heq
          rw [heq] at hcontrol
          exact .inl (congrArg Control.finalizedAt ((unwindTask_control _).trans hcontrol))
        · rename_i s' heq
          rw [heq] at hlive hcontrol hwork
          rw [chk2Finalize_eq]
          by_cases hnothing : NothingToUnwind cfg s'
          · rw [if_pos hnothing]
            obtain ⟨hkind, hempty, hpostponed, -⟩ := hnothing
            simp only [State.workersEmpty, Bool.and_eq_true, List.isEmpty_iff] at hempty hpostponed
            have hperm := hlive.acknowledged_perm hempty.1 hempty.2 hpostponed
              (by simp [State.remaining, hkind])
            simp only [State.source, hkind] at hperm
            refine .inr fun commit hcommit => ?_
            cases hcommit
            exact
              { stopRequested := (congrArg Control.stopRequested hcontrol).trans hstop
                exception := (congrArg Control.exception hcontrol).trans hexception
                dispatchedException :=
                  (congrArg Control.dispatchedException hcontrol).trans hdispatched
                inputDisconnected := (congrArg Work.inputDisconnected hwork).trans hgate.2
                acknowledged := hperm }
          · rw [if_neg hnothing]
            exact .inl (congrArg Control.finalizedAt hcontrol)
      · exact .inl rfl

/-! ## Runs -/

/-- An iteration of `run()` unwinds a unit which was stopped, and finds
nothing to unwind. -/
def UnwindsStopped (cfg : Config χ) (turn : Turn) (s : State χ) : Prop :=
  s.completed = false ∧ s.notifyCompleteOnError = false ∧ s.dispatchedException = none ∧
    turn.subscribers = none ∧ s.exception = none ∧ s.stopRequested = true ∧
    (s.phase = .created ∨ s.phase = .processing ∧ s.childExecuting = []) ∧ NothingToUnwind cfg s

instance (cfg : Config χ) (turn : Turn) (s : State χ) : Decidable (UnwindsStopped cfg turn s) :=
  inferInstanceAs (Decidable (_ ∧ _ ∧ _ ∧ _ ∧ _ ∧ _ ∧ _ ∧ _))

theorem process_finalizedAt (cfg : Config χ) (turn : Turn) (s : State χ) :
    (process cfg turn s).finalizedAt =
      (chk2LoopUntilDoneInternal cfg turn (chk2InitAndBeginProcessing cfg s)).1.finalizedAt := by
  unfold process
  split
  · rename_i heq
    rw [heq]
  · rename_i heq
    rw [heq]
    rfl
  · rename_i heq
    rw [heq]
    split
    · rfl
    · unfold notifyOnComplete
      split <;> rfl

theorem chk2WaitAllEvents2Flush_finalizedAt (h : Inv cfg s) (hcompleted : s.completed = true) :
    (chk2WaitAllEvents2Flush cfg turn s).finalizedAt = s.finalizedAt := by
  have hloop : (chk2WaitAllEvents2Flush cfg turn s).finalizedAt = (chk2LoopUntilDoneInternal cfg turn
      (if s.exception.isSome then s.cancelWorkers else s)).1.finalizedAt := by
    unfold chk2WaitAllEvents2Flush
    split
    · rename_i heq
      rw [heq]
      split <;> rfl
    · rename_i heq
      rw [heq]
  rw [hloop]
  cases hexception : s.exception with
  | some exception =>
    rw [Option.isSome_some, if_pos rfl]
    exact chk2LoopUntilDoneInternal_failing (s := s.cancelWorkers)
      (hexception ▸ Option.some_ne_none _)
  | none =>
    rw [Option.isSome_none, if_neg Bool.false_ne_true, chk2LoopUntilDoneInternal,
      if_pos (by simp [h.completed hcompleted hexception])]

omit [DecidableEq χ] in
theorem nothingToUnwind_init (cfg : Config χ) (s : State χ) :
    NothingToUnwind cfg (chk2InitAndBeginProcessing cfg s) ↔ NothingToUnwind cfg s := by
  unfold chk2InitAndBeginProcessing
  split <;> exact Iff.rfl

omit [DecidableEq χ] in
theorem init_idle_iff (hkind : cfg.kind = .transmitter) :
    ((chk2InitAndBeginProcessing cfg s).phase = .processing ∧
        (chk2InitAndBeginProcessing cfg s).childExecuting = []) ↔
      (s.phase = .created ∨ s.phase = .processing ∧ s.childExecuting = []) := by
  unfold chk2InitAndBeginProcessing
  by_cases hphase : s.phase = .created
  · simp [hphase, hkind]
  · simp [hphase]

/-- Only an iteration which unwinds a stopped unit finalizes the metadata of
a transfer that is not complete. -/
theorem run_commitsComplete_iff (h : Inv cfg s) (hcommits : CommitsComplete cfg s) :
    CommitsComplete cfg (run cfg turn s) ↔ ¬ UnwindsStopped cfg turn s := by
  have hkept : ∀ s' : State χ, s'.finalizedAt = s.finalizedAt → CommitsComplete cfg s' :=
    fun s' hs' commit hcommit => hcommits commit (hs'.symm.trans hcommit)
  unfold run
  split
  · rename_i hcompleted
    exact iff_of_true (hkept _ (chk2WaitAllEvents2Flush_finalizedAt h hcompleted))
      fun hunwinds => Bool.false_ne_true (hunwinds.1.symm.trans hcompleted)
  · rename_i hcompleted
    split_ifs with hfailing
    · exact iff_of_true (hkept _ rfl) fun hunwinds =>
        Bool.false_ne_true (hunwinds.2.1.symm.trans hfailing)
    · split
      · rename_i hdispatched
        exact iff_of_true (hkept _ rfl) fun hunwinds =>
          nomatch hdispatched.symm.trans hunwinds.2.2.1
      · rename_i hsubscribers
        exact iff_of_true (hkept _ rfl) fun hunwinds =>
          nomatch hsubscribers.symm.trans hunwinds.2.2.2.1
      · rename_i hdispatched hsubscribers
        obtain ⟨phase, hinit, hcreated⟩ := chk2InitAndBeginProcessing_phase cfg s
        have hprocess := process_finalizedAt cfg turn s
        have hfinalized : (chk2InitAndBeginProcessing cfg s).finalizedAt = s.finalizedAt :=
          congrArg Control.finalizedAt hinit
        have hexception : (chk2InitAndBeginProcessing cfg s).exception = s.exception :=
          congrArg Control.exception hinit
        have hstop : (chk2InitAndBeginProcessing cfg s).stopRequested = s.stopRequested :=
          congrArg Control.stopRequested hinit
        by_cases hnone : s.exception = none
        · cases hs : s.stopRequested with
          | true =>
            rw [chk2LoopUntilDoneInternal_stopped (hexception.trans hnone) (hstop.trans hs),
              chk2Finalize_eq] at hprocess
            by_cases hunwinds : UnwindsStopped cfg turn s
            · have ⟨hidle, hnothing⟩ := hunwinds.2.2.2.2.2.2
              rw [if_pos ((init_idle_iff hnothing.1).mpr hidle),
                if_pos ((nothingToUnwind_init cfg s).mpr hnothing)] at hprocess
              refine iff_of_false (fun hcomplete => ?_) (not_not.mpr hunwinds)
              have hcommit := (hcomplete _ hprocess).stopRequested
              exact Bool.false_ne_true (hcommit.symm.trans (hstop.trans hs))
            · refine iff_of_true (hkept _ ?_) hunwinds
              rw [hprocess]
              split
              · rename_i hidle
                split
                · rename_i hnothing
                  have hnothing := (nothingToUnwind_init cfg s).mp hnothing
                  exact absurd ⟨Bool.not_eq_true _ ▸ hcompleted, Bool.not_eq_true _ ▸ hfailing,
                    hdispatched, hsubscribers, hnone, hs, (init_idle_iff hnothing.1).mp hidle,
                    hnothing⟩ hunwinds
                · exact hfinalized
              · exact hfinalized
          | false =>
            have hlive := (h.live hnone hs).chk2InitAndBeginProcessing
            refine iff_of_true ?_ fun hunwinds =>
              Bool.false_ne_true (hs.symm.trans hunwinds.2.2.2.2.2.1)
            obtain hsame | hcomplete := chk2LoopUntilDoneInternal_live hlive
              (hexception.trans hnone) (hstop.trans hs)
              ((congrArg Control.completed hinit).trans (Bool.not_eq_true _ ▸ hcompleted))
              ((congrArg Control.dispatchedException hinit).trans hdispatched)
            · exact hkept _ (hprocess.trans (hsame.trans hfinalized))
            · exact fun commit hcommit => hcomplete commit (hprocess.symm.trans hcommit)
        · refine iff_of_true (hkept _ ?_) fun hunwinds => hnone hunwinds.2.2.2.2.1
          rw [hprocess, chk2LoopUntilDoneInternal_failing (hexception ▸ hnone), hfinalized]

/-- No iteration unwinds a stopped unit with nothing left. -/
def UnwindsRunning (cfg : Config χ) (s : State χ) : Label χ → Prop
  | .run turn => ¬ UnwindsStopped cfg turn s
  | _ => True

instance (cfg : Config χ) : ∀ (s : State χ) (l : Label χ), Decidable (UnwindsRunning cfg s l)
  | s, .run turn => inferInstanceAs (Decidable (¬ UnwindsStopped cfg turn s))
  | _, .onChunkArrived _ _ _ => isTrue trivial
  | _, .onInputCompleted => isTrue trivial
  | _, .dispatchException _ => isTrue trivial
  | _, .requestCancel => isTrue trivial
  | _, .workerCompleted _ _ => isTrue trivial
  | _, .childCompleted _ _ _ => isTrue trivial

theorem step_commitsComplete_iff {l : Label χ} (h : Inv cfg s) (hcommits : CommitsComplete cfg s)
    (hstep : step cfg s l = some s') : CommitsComplete cfg s' ↔ UnwindsRunning cfg s l := by
  have hkept : s'.finalizedAt = s.finalizedAt → (CommitsComplete cfg s' ↔ True) := fun hs' =>
    iff_of_true (fun commit hcommit => hcommits commit (hs'.symm.trans hcommit)) trivial
  unfold step at hstep
  split at hstep
  · cases hstep
  · cases l with
    | run turn =>
      cases hstep
      exact run_commitsComplete_iff h hcommits
    | onChunkArrived turn pooled chunk =>
      dsimp only at hstep
      split at hstep
      · cases hstep
        obtain ⟨accepted, hcontrol⟩ := onChunkArrived_control cfg turn pooled chunk s
        exact hkept (congrArg Control.finalizedAt hcontrol)
      · cases hstep
    | onInputCompleted =>
      dsimp only at hstep
      split at hstep
      · cases hstep
        exact hkept rfl
      · cases hstep
    | dispatchException _ | requestCancel =>
      cases hstep
      exact hkept rfl
    | workerCompleted i completion =>
      obtain ⟨t, -, rfl⟩ := Option.map_eq_some_iff.mp hstep
      obtain ⟨acknowledged, flushes, hcontrol⟩ := recordCompletion_control t completion
        { s with
          executing := s.executing.eraseIdx i
          ready := s.ready ++ [t.completed completion] }
      exact hkept (congrArg Control.finalizedAt hcontrol)
    | childCompleted i result pooled =>
      obtain ⟨task, -, rfl⟩ := Option.map_eq_some_iff.mp hstep
      cases task with
      | scheduler => exact hkept (congrArg Control.finalizedAt (onExecute_control cfg pooled s))
      | connector => exact hkept rfl
      | reconnector => exact hkept rfl

/-- Over a run the metadata is finalized for complete transfers only, just
when no iteration unwinds a stopped transmitter with nothing left. -/
theorem run_commitsComplete (cfg : Config χ) (labels : List (Label χ)) (s : State χ)
    (hrun : Transition.run (step cfg) State.create labels = some s) :
    Transition.Throughout (step cfg) (CommitsComplete cfg) State.create labels ↔
      Transition.Along (step cfg) (UnwindsRunning cfg) State.create labels :=
  Transition.throughout_iff_along (fun _ _ _ => step_inv)
    (fun _ _ _ => step_commitsComplete_iff) (create_inv cfg)
    (fun _ hcommit => nomatch hcommit) hrun

/-- One chunk is sent before the input completes. -/
def sentChunk : List (Label Nat) :=
  [.run quietTurn, .onChunkArrived quietTurn [true] 7, .run quietTurn,
    .onChunkArrived quietTurn [] 7, .workerCompleted 0 .succeeded, .onInputCompleted,
    .run quietTurn, .run quietTurn, .run quietTurn]

theorem run_commitsComplete_sentChunk :
    Transition.Throughout (step (singleConnection .transmitter false []))
      (CommitsComplete (singleConnection .transmitter false [])) State.create sentChunk := by
  obtain ⟨s, hs⟩ := Option.isSome_iff_exists.mp (show (Transition.run
    (step (singleConnection .transmitter false [])) State.create sentChunk).isSome = true by decide)
  exact (run_commitsComplete _ sentChunk s hs).mpr (by decide)

/-- The connection is lost with an accepted chunk, and the transmitter is
stopped before it connects again. -/
def stoppedChunk : List (Label Nat) :=
  [.run quietTurn, .onChunkArrived quietTurn [true] 7, .run quietTurn,
    .onChunkArrived quietTurn [] 7, .workerCompleted 0 (.failed .systemError false),
    .requestCancel, .run quietTurn]

theorem run_commitsComplete_stoppedChunk :
    ∃ s commit, Transition.run (step (singleConnection .transmitter false [])) State.create
        stoppedChunk = some s ∧
      s.finalizedAt = some commit ∧ commit.stopRequested = true ∧ commit.accepted = [7] ∧
      commit.acknowledged = [] ∧ ¬ CommitsComplete (singleConnection .transmitter false []) s :=
  ⟨_, _, rfl, rfl, rfl, rfl, rfl, fun h => Bool.false_ne_true (h _ rfl).stopRequested.symm⟩

end Baselib.Transfer.ChunksSendRecv
