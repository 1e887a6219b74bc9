/-
Baselib.Transfer.ChunksSendRecvDelivery — what a unit has done when it
finishes without error.

Its chunks are transferred once, whatever happens to its connections. The
flush of the sessions can get lost: the authentication of a new connection
takes its place.
-/
import Baselib.Transfer.ChunksSendRecvRuns

namespace Baselib.Transfer.ChunksSendRecv

open Lib List

variable {χ : Type} [DecidableEq χ] {cfg : Config χ} {t : TransferTask χ} {s s' : State χ}

/-- Every chunk of the unit is transferred once, and handed on once where
there is a unit to take it. A flush which was requested has completed after
the last chunk. -/
structure Transferred (cfg : Config χ) (s : State χ) : Prop where
  acknowledged : ((s.source cfg).map cfg.item).Perm s.acknowledged
  delivered : cfg.kind ≠ .transmitter → ((s.source cfg).map cfg.item).Perm s.delivered
  flushed : s.sessionsFlushRequested = true → s.flushes = 1

/-! ## The flush of the sessions -/

/-- Where the flush command is, once the flush is requested. -/
inductive Flushing (ready executing : List (TransferTask χ)) (flushes : Nat) : Prop where
  | underWay (t : TransferTask χ) (hready : ready = []) (hexecuting : executing = [t])
      (hcommand : t.commandId = .flushPeerSessions) (hblock : t.blockType = .normal)
      (hflushes : flushes = 0)
  | dropped (t : TransferTask χ) (hready : ready = [t]) (hexecuting : executing = [])
      (hfailed : t.exception ≠ none) (hbootstrapped : t.isBootstrapped = true)
      (hflushes : flushes = 0)
  | completed (hready : ∀ t ∈ ready, t.exception = none) (hexecuting : executing = [])
      (hflushes : flushes = 1)

structure FlushesOnce (s : State χ) : Prop where
  unrequested : s.sessionsFlushRequested = false → s.flushes = 0
  requested : s.sessionsFlushRequested = true → Flushing s.ready s.executing s.flushes

section

omit [DecidableEq χ]

theorem FlushesOnce.congr (h : FlushesOnce s)
    (hrequested : s'.sessionsFlushRequested = s.sessionsFlushRequested)
    (hready : s'.ready = s.ready) (hexecuting : s'.executing = s.executing)
    (hflushes : s'.flushes = s.flushes) : FlushesOnce s' where
  unrequested hr := hflushes.trans (h.unrequested (hrequested.symm.trans hr))
  requested hr := by
    rw [hready, hexecuting, hflushes]
    exact h.requested (hrequested.symm.trans hr)

/-- Before the flush is requested it is enough that nothing is flushed. -/
theorem FlushesOnce.of_unrequested (h : FlushesOnce s) (hnot : s.sessionsFlushRequested = false)
    (hrequested : s'.sessionsFlushRequested = s.sessionsFlushRequested)
    (hflushes : s'.flushes = s.flushes) : FlushesOnce s' where
  unrequested _ := hflushes.trans (h.unrequested hnot)
  requested hr := absurd (hr.symm.trans (hrequested.trans hnot)) (by simp)

theorem pushBack_executing (hexecuting : s.executing = []) (t : TransferTask χ) :
    (s.pushBack t).executing = [t.scheduled] := by
  simp [State.pushBack, hexecuting]

theorem FlushesOnce.getSuccessfulTopTask (h : FlushesOnce s) (retry : Retry) :
    FlushesOnce (getSuccessfulTopTask cfg retry s).1 := by
  unfold ChunksSendRecv.getSuccessfulTopTask
  split
  · exact h
  · rename_i top rest hready
    split
    · exact h
    · split
      · exact h
      · rename_i exception hexception
        split
        · exact h
        · split
          · exact h
          · split
            · exact h.congr rfl rfl rfl rfl
            · exact h.congr rfl rfl rfl rfl
            · obtain ⟨childReady, childExecuting, heq, -⟩ := startConnection_eq .reconnector ‹Bool›
                { s with
                  isDroppedConnection := true
                  reconnecting := true
                  ready := { top with isAuthenticated := false } :: rest }
              rw [heq]
              refine ⟨h.unrequested, fun hrequested => ?_⟩
              cases h.requested hrequested with
              | underWay t hnone => cases hready.symm.trans hnone
              | dropped t hone hexecuting hfailed hbootstrapped hflushes =>
                obtain ⟨rfl, rfl⟩ := List.cons.inj (hready.symm.trans hone)
                exact .dropped _ rfl hexecuting hfailed hbootstrapped hflushes
              | completed hall =>
                have hnone := hall top (hready ▸ mem_cons_self)
                cases hexception.symm.trans hnone

end

theorem FlushesOnce.waitForReadyTask (h : FlushesOnce s) (turn : Turn) :
    FlushesOnce (waitForReadyTask cfg turn s).1 := by
  have htop : FlushesOnce (ChunksSendRecv.getSuccessfulTopTask cfg turn.retry s).1 :=
    h.getSuccessfulTopTask turn.retry
  unfold ChunksSendRecv.waitForReadyTask
  split
  · rename_i s' top heq
    obtain ⟨rfl, -, hnone, rest, hready⟩ := getSuccessfulTopTask_some heq
    split
    · exact h
    · exact h
    · rename_i t items hhandled
      refine ⟨h.unrequested, fun hrequested => ?_⟩
      cases h.requested hrequested with
      | underWay t hempty => cases hready.symm.trans hempty
      | dropped t hone _ hfailed =>
        obtain ⟨rfl, -⟩ := List.cons.inj (hready.symm.trans hone)
        exact absurd hnone hfailed
      | completed hall hexecuting hflushes =>
        refine .completed (fun t' ht' => ?_) hexecuting hflushes
        obtain rfl | ht' := mem_cons.mp ht'
        · exact (handleReadyTask_kept hhandled).1.trans hnone
        · exact hall t' (mem_of_mem_tail ht')
  · rename_i heq
    rwa [heq] at htop

theorem FlushesOnce.unwindTask {rest : List (TransferTask χ)} (h : FlushesOnce s)
    (hlive : Live cfg [] s) (hready : s.ready = t :: rest) (hnone : t.exception = none) :
    FlushesOnce (unwindTask cfg t s) := by
  unfold ChunksSendRecv.unwindTask
  split
  · rename_i hpostponed
    have hnot : s.sessionsFlushRequested = false := Bool.eq_false_iff.mpr fun hrequested => by
      cases hpostponed.symm.trans (hlive.flushing hrequested).postponed
    exact h.of_unrequested hnot rfl rfl
  · split
    · rename_i hlast
      simp only [Bool.and_eq_true, List.isEmpty_iff, Bool.not_eq_true'] at hlast
      obtain ⟨⟨⟨-, htail⟩, hexecuting⟩, hnot⟩ := hlast
      refine ⟨fun hr => (Bool.false_ne_true hr.symm).elim, fun _ => ?_⟩
      rw [setCommandInfo_flush]
      exact .underWay _ htail (pushBack_executing hexecuting _) rfl rfl (h.unrequested hnot)
    · refine ⟨h.unrequested, fun hrequested => ?_⟩
      cases h.requested hrequested with
      | underWay t' hempty => cases hready.symm.trans hempty
      | dropped t' hone _ hfailed =>
        obtain ⟨rfl, -⟩ := List.cons.inj (hready.symm.trans hone)
        exact absurd hnone hfailed
      | completed hall hexecuting hflushes =>
        exact .completed (fun t' ht' => hall t' (mem_of_mem_tail ht')) hexecuting hflushes

/-! ## Child tasks -/

theorem scheduleAuthenticationTask_sessionsFlushRequested (t : TransferTask χ) (s : State χ) :
    (scheduleAuthenticationTask t s).sessionsFlushRequested = s.sessionsFlushRequested := by
  unfold scheduleAuthenticationTask
  split <;> rfl

theorem reconnected_sessionsFlushRequested (cfg : Config χ) (s : State χ) :
    (reconnected cfg s).sessionsFlushRequested = s.sessionsFlushRequested := by
  unfold reconnected
  split
  · rfl
  · split
    · dsimp only
      split
      · exact scheduleAuthenticationTask_sessionsFlushRequested _ _
      · rfl
    · rfl

theorem chk2ScheduleChunk_sessionsFlushRequested (cfg : Config χ) (turn : Turn)
    (chunkId : ChunkId χ) (chunkData : Option (Data χ)) (s : State χ) :
    (chk2ScheduleChunk cfg turn chunkId chunkData s).1.sessionsFlushRequested =
      s.sessionsFlushRequested := by
  have hwork := congrArg Work.sessionsFlushRequested (@waitForReadyTask_work _ cfg turn s _)
  unfold chk2ScheduleChunk
  split
  · rename_i heq
    rwa [heq] at hwork
  · rename_i heq
    rwa [heq] at hwork
  · rename_i heq
    rw [heq] at hwork
    dsimp only
    unfold scheduleChunk
    split <;> exact hwork

omit [DecidableEq χ] in
theorem rescheduleScheduler_sessionsFlushRequested (s : State χ) :
    (rescheduleScheduler s).sessionsFlushRequested = s.sessionsFlushRequested := by
  unfold rescheduleScheduler
  split <;> rfl

theorem pushReadyTask_sessionsFlushRequested (cfg : Config χ) (turn : Turn) (task : ChildTask)
    (result : Option Exception) (s : State χ) :
    (pushReadyTask cfg turn task result s).1.sessionsFlushRequested =
      s.sessionsFlushRequested := by
  unfold pushReadyTask
  split
  · unfold pushScheduler
    split
    · rfl
    · split
      · exact rescheduleScheduler_sessionsFlushRequested s
      · rename_i chunkId queue _
        have hscheduled := chk2ScheduleChunk_sessionsFlushRequested cfg turn (.chunk chunkId) none s
        split
        · rename_i heq
          rwa [heq] at hscheduled
        · rename_i heq
          rw [heq] at hscheduled
          exact (rescheduleScheduler_sessionsFlushRequested _).trans hscheduled
        · rename_i heq
          rwa [heq] at hscheduled
  · exact reconnected_sessionsFlushRequested cfg s
  · rfl
  · unfold connected
    dsimp only
    split
    · rfl
    · split
      · exact scheduleAuthenticationTask_sessionsFlushRequested _ _
      · rfl

/-- A flush command whose connection was lost is sent again, unless the new
connection has to be authenticated. -/
theorem FlushesOnce.reconnected {top : TransferTask χ} {rest : List (TransferTask χ)}
    (h : FlushesOnce s) (hlive : Live cfg [] s) (hready : s.ready = top :: rest)
    (hfailed : top.exception ≠ none)
    (hkept : cfg.authenticationRequired = true → s.sessionsFlushRequested = false) :
    FlushesOnce (reconnected cfg s) := by
  cases hrequested : s.sessionsFlushRequested with
  | false =>
    exact h.of_unrequested hrequested (reconnected_sessionsFlushRequested cfg s)
      (congrArg Control.flushes reconnected_control)
  | true =>
    have hnot : cfg.authenticationRequired = false := Bool.eq_false_iff.mpr fun hrequired =>
      Bool.false_ne_true ((hkept hrequired).symm.trans hrequested)
    cases h.requested hrequested with
    | underWay t hempty => cases hready.symm.trans hempty
    | completed hall => exact absurd (hall top (hready ▸ mem_cons_self)) hfailed
    | dropped t hone hexecuting _ hbootstrapped hflushes =>
      obtain ⟨rfl, rfl⟩ := List.cons.inj (hready.symm.trans hone)
      unfold ChunksSendRecv.reconnected
      rw [hready]
      dsimp only
      rw [if_pos hbootstrapped, hnot, if_neg Bool.false_ne_true]
      obtain ⟨hno, -⟩ | ⟨hrequired, -⟩ | ⟨-, htidy, hidle⟩ :=
        hlive.tidyUp (hready ▸ mem_cons_self) hfailed hbootstrapped
      · cases hno.symm.trans hrequested
      · cases hrequired.symm.trans hnot
      · rw [htidy]
        refine ⟨fun hr => ?_, fun _ => ?_⟩
        · cases hr.symm.trans hrequested
        · exact .underWay _ rfl (pushBack_executing hexecuting _) rfl hidle.1 hflushes

theorem FlushesOnce.pushReadyTask {task : ChildTask} {result : Option Exception}
    {rest : List (ChildTask × Option Exception)} (h : FlushesOnce s) (hlive : Live cfg [] s)
    (turn : Turn) (hready : s.childReady = (task, result) :: rest)
    (hkept : task = .reconnector → result = none → cfg.authenticationRequired = true →
      s.sessionsFlushRequested = false) :
    FlushesOnce (pushReadyTask cfg turn task result s).1 := by
  cases hrequested : s.sessionsFlushRequested with
  | false =>
    exact h.of_unrequested hrequested (pushReadyTask_sessionsFlushRequested cfg turn task result s)
      (congrArg Control.flushes (pushReadyTask_control task result))
  | true =>
    have htask := (hlive.flushing hrequested).childReady _ (hready ▸ mem_cons_self)
    dsimp only at htask
    obtain rfl := htask
    cases result with
    | none =>
      obtain ⟨-, top, tasks, htop, hfailed⟩ := hlive.popReconnector hready false (by simp)
      exact (h.reconnected hlive htop hfailed (hkept rfl rfl)).congr rfl rfl rfl rfl
    | some exception => exact h.congr rfl rfl rfl rfl

/-! ## Iterations -/

theorem FlushesOnce.flushAllPendingTasks (h : FlushesOnce s) (hlive : Live cfg [] s) (turn : Turn)
    (hexception : s.exception = none) : FlushesOnce (flushAllPendingTasks cfg turn s).1 := by
  obtain ⟨hready, htop⟩ := hlive.waitForReadyTask turn
  have hflush : FlushesOnce (ChunksSendRecv.waitForReadyTask cfg turn s).1 :=
    h.waitForReadyTask turn
  unfold ChunksSendRecv.flushAllPendingTasks
  rw [hexception, Option.isSome_none, if_neg Bool.false_ne_true]
  split
  · rename_i heq
    rwa [heq] at hflush
  · rename_i s' t heq
    rw [heq] at hflush hready htop
    obtain ⟨hfree, -, rest, hrest⟩ := htop t rfl
    exact hflush.unwindTask hready hrest hfree.exception
  · rename_i s' heq
    rw [heq] at hflush
    unfold chk2Finalize
    dsimp only
    split
    · exact hflush.congr rfl rfl rfl rfl
    · exact hflush

theorem FlushesOnce.chk2LoopUntilDoneInternal (h : FlushesOnce s) (hlive : Live cfg [] s)
    (turn : Turn) (hexception : s.exception = none) (hstop : s.stopRequested = false)
    (hkept : s.phase ≠ .disconnected → s.childReady.head? = some (.reconnector, none) →
      cfg.authenticationRequired = true → s.sessionsFlushRequested = false) :
    FlushesOnce (chk2LoopUntilDoneInternal cfg turn s).1 := by
  have hflush : FlushesOnce (ChunksSendRecv.flushAllPendingTasks cfg turn s).1 :=
    h.flushAllPendingTasks hlive turn hexception
  unfold ChunksSendRecv.chk2LoopUntilDoneInternal
  rw [hexception, hstop]
  split
  · exact h
  · rename_i hphase
    simp only [Option.isSome_none, Bool.or_self, Bool.false_eq_true, if_false]
    split
    · rename_i task result rest hready
      refine h.pushReadyTask hlive turn hready fun htask hresult => ?_
      subst htask hresult
      refine hkept ?_ (congrArg head? hready)
      rw [not_not.mp hphase]
      simp
    · unfold chk2Disconnect
      split
      · split
        · rename_i heq
          rw [heq] at hflush
          exact hflush.congr rfl rfl rfl rfl
        · rename_i heq
          rwa [heq] at hflush
      · exact h

theorem FlushesOnce.process (h : FlushesOnce s) (hlive : Live cfg [] s) (turn : Turn)
    (hexception : s.exception = none) (hstop : s.stopRequested = false)
    (hkept : s.phase ≠ .disconnected → s.childReady.head? = some (.reconnector, none) →
      cfg.authenticationRequired = true → s.sessionsFlushRequested = false)
    (hnone : (process cfg turn s).exception = none) : FlushesOnce (process cfg turn s) := by
  obtain ⟨phase, hinit, -⟩ := chk2InitAndBeginProcessing_phase cfg s
  have hloop : FlushesOnce (ChunksSendRecv.chk2LoopUntilDoneInternal cfg turn
      (chk2InitAndBeginProcessing cfg s)).1 := by
    refine FlushesOnce.chk2LoopUntilDoneInternal ?_ hlive.chk2InitAndBeginProcessing turn
      ((congrArg Control.exception hinit).trans hexception)
      ((congrArg Control.stopRequested hinit).trans hstop) ?_
    · unfold chk2InitAndBeginProcessing
      split
      · exact h.congr rfl rfl rfl rfl
      · exact h
    · unfold chk2InitAndBeginProcessing
      split
      · rename_i hphase
        exact fun _ => hkept (by simp [hphase])
      · exact hkept
  unfold ChunksSendRecv.process at hnone ⊢
  split
  · rename_i heq
    rwa [heq] at hloop
  · rename_i exception heq
    rw [heq] at hnone
    exact absurd hnone (failWith_exception exception _)
  · rename_i s' heq
    rw [heq] at hloop hnone
    dsimp only at hloop hnone ⊢
    split
    · rename_i exception hsome
      rw [hsome] at hnone
      exact absurd hnone (failWith_exception exception _)
    · rename_i hpassed
      rw [hpassed] at hnone
      unfold notifyOnComplete at hnone ⊢
      split
      · rename_i exception hthrown
        rw [hthrown] at hnone
        exact absurd hnone (failWith_exception exception _)
      · exact hloop.congr rfl rfl rfl rfl

/-- An iteration which does not fail the unit neither stops it nor ends
it. -/
theorem process_control (cfg : Config χ) (turn : Turn) (s : State χ) :
    (process cfg turn s).finished = s.finished ∧
      ((process cfg turn s).exception = none →
        s.exception = none ∧ (process cfg turn s).stopRequested = s.stopRequested) := by
  obtain ⟨phase, hinit, -⟩ := chk2InitAndBeginProcessing_phase cfg s
  obtain ⟨phase', finalizedAt, hloop, -⟩ :=
    chk2LoopUntilDoneInternal_control cfg turn (chk2InitAndBeginProcessing cfg s)
  rw [hinit] at hloop
  unfold process
  split
  · rename_i heq
    rw [heq] at hloop
    exact ⟨congrArg Control.finished hloop, fun hnone =>
      ⟨(congrArg Control.exception hloop).symm.trans hnone, congrArg Control.stopRequested hloop⟩⟩
  · rename_i exception heq
    rw [heq] at hloop
    exact ⟨congrArg Control.finished hloop, fun hnone => absurd hnone (failWith_exception _ _)⟩
  · rename_i s' heq
    rw [heq] at hloop
    split
    · exact ⟨congrArg Control.finished hloop, fun hnone => absurd hnone (failWith_exception _ _)⟩
    · unfold notifyOnComplete
      split
      · exact ⟨congrArg Control.finished hloop, fun hnone => absurd hnone (failWith_exception _ _)⟩
      · exact ⟨congrArg Control.finished hloop, fun hnone =>
          ⟨(congrArg Control.exception hloop).symm.trans hnone,
            congrArg Control.stopRequested hloop⟩⟩

/-! ## Runs -/

/-- A unit which has disconnected has nothing left to do. -/
theorem Live.transferred (h : Live cfg [] s) (hflush : FlushesOnce s)
    (hphase : s.phase = .disconnected) : Transferred cfg s := by
  obtain ⟨hready, hexecuting, hinput⟩ := h.disconnected hphase
  have hpostponed : s.postponedDataChunks = [] := by
    by_contra hne
    exact (h.attended hne).elim (absurd hready) (absurd hexecuting)
  have hremaining : s.remaining cfg = [] := by
    by_cases hkind : cfg.kind = .transmitter
    · simp [State.remaining, hkind]
    · exact h.input hkind hinput
  refine
    { acknowledged := h.acknowledged_perm hready hexecuting hpostponed hremaining
      delivered := fun hkind => h.delivered_perm hkind hready hexecuting hpostponed hremaining
      flushed := fun hrequested => ?_ }
  cases hflush.requested hrequested with
  | underWay t _ hone => cases hexecuting.symm.trans hone
  | dropped t hone => cases hready.symm.trans hone
  | completed _ _ hflushes => exact hflushes

/-- A failing unit ends with its error. -/
theorem chk2WaitAllEvents2Flush_failing (hexception : s.exception ≠ none)
    (hunfinished : s.finished = none) (turn : Turn) :
    (chk2WaitAllEvents2Flush cfg turn s).exception ≠ none ∧
      (chk2WaitAllEvents2Flush cfg turn s).finished ≠ some none := by
  obtain ⟨exception, hexception⟩ := Option.ne_none_iff_exists'.mp hexception
  obtain ⟨phase, finalizedAt, hloop, -⟩ :=
    chk2LoopUntilDoneInternal_control cfg turn s.cancelWorkers
  have hsome := (congrArg Control.exception hloop).trans hexception
  have hnone := (congrArg Control.finished hloop).trans hunfinished
  unfold chk2WaitAllEvents2Flush
  rw [hexception, Option.isSome_some, if_pos rfl]
  split
  · rename_i s' heq
    rw [heq] at hsome hnone
    dsimp only [State.control] at hsome hnone ⊢
    rw [hsome]
    split
    · exact ⟨by simp, by simp⟩
    · exact ⟨by simp, by simp [hnone]⟩
  · rename_i s' progress _ heq
    rw [heq] at hsome hnone
    dsimp only [State.control] at hsome hnone ⊢
    exact ⟨by simp [hsome], by simp [hnone]⟩

/-- A unit which has completed without an error only waits. -/
theorem chk2WaitAllEvents2Flush_passed (hexception : s.exception = none)
    (hphase : s.phase = .disconnected) (turn : Turn) :
    ∃ finished, chk2WaitAllEvents2Flush cfg turn s =
        { s with exception := turn.subscribers, finished := finished } ∧
      (finished = s.finished ∨
        (finished = some none → turn.subscribers = none ∧ s.stopRequested = false)) := by
  have hdone : chk2LoopUntilDoneInternal cfg turn s = (s, .done) := by
    rw [chk2LoopUntilDoneInternal, if_pos (by simp [hphase])]
  unfold chk2WaitAllEvents2Flush
  rw [hexception, Option.isSome_none, if_neg Bool.false_ne_true, hdone]
  dsimp only
  rw [hexception]
  split
  · refine ⟨_, rfl, .inr fun hfinished => ?_⟩
    cases hsubscribers : turn.subscribers <;> cases hstop : s.stopRequested <;>
      simp [hsubscribers, hstop] at hfinished ⊢
  · exact ⟨s.finished, rfl, .inl rfl⟩

structure Delivers (cfg : Config χ) (s : State χ) : Prop where
  flush : s.exception = none → s.stopRequested = false → FlushesOnce s
  finished : s.finished = some none → Transferred cfg s

omit [DecidableEq χ] in
theorem Delivers.of_unfinished (hunfinished : s.finished = none)
    (hflush : s.exception = none → s.stopRequested = false → FlushesOnce s) : Delivers cfg s where
  flush := hflush
  finished hfinished := by cases hunfinished.symm.trans hfinished

theorem Delivers.chk2WaitAllEvents2Flush (h : Delivers cfg s) (hinv : Inv cfg s) (turn : Turn)
    (hcompleted : s.completed = true) (hunfinished : s.finished = none) :
    Delivers cfg (chk2WaitAllEvents2Flush cfg turn s) := by
  by_cases hexception : s.exception = none
  · have hphase := hinv.completed hcompleted hexception
    obtain ⟨finished, heq, hfinished⟩ :=
      @chk2WaitAllEvents2Flush_passed _ _ cfg s hexception hphase turn
    rw [heq]
    refine ⟨fun _ hstop => (h.flush hexception hstop).congr rfl rfl rfl rfl, fun hpassed => ?_⟩
    obtain hkept | hended := hfinished
    · cases hunfinished.symm.trans (hkept.symm.trans hpassed)
    · have hstop := (hended hpassed).2
      exact { (hinv.live hexception hstop).transferred (h.flush hexception hstop) hphase with }
  · obtain ⟨hsome, hfinished⟩ :=
      @chk2WaitAllEvents2Flush_failing _ _ cfg s hexception hunfinished turn
    exact ⟨fun hnone => absurd hnone hsome, fun hpassed => absurd hpassed hfinished⟩

/-- Unless authentication is not required, no iteration takes a reconnect
once the flush of the sessions is requested. -/
def KeepsFlush (cfg : Config χ) (s : State χ) : Label χ → Prop
  | .run turn =>
    cfg.authenticationRequired = true → s.sessionsFlushRequested = true → ¬ Reconnects turn s
  | _ => True

instance (cfg : Config χ) : ∀ (s : State χ) (l : Label χ), Decidable (KeepsFlush cfg s l)
  | _, .run _ => inferInstanceAs (Decidable (_ → _ → ¬ _))
  | _, .onChunkArrived _ _ _ => isTrue trivial
  | _, .onInputCompleted => isTrue trivial
  | _, .dispatchException _ => isTrue trivial
  | _, .requestCancel => isTrue trivial
  | _, .workerCompleted _ _ => isTrue trivial
  | _, .childCompleted _ _ _ => isTrue trivial

theorem Delivers.run (h : Delivers cfg s) (hinv : Inv cfg s) (turn : Turn)
    (hunfinished : s.finished = none) (hkept : KeepsFlush cfg s (.run turn)) :
    Delivers cfg (run cfg turn s) := by
  unfold ChunksSendRecv.run
  split
  · rename_i hcompleted
    exact h.chk2WaitAllEvents2Flush hinv turn hcompleted hunfinished
  · rename_i hcompleted
    split
    · exact .of_unfinished hunfinished fun hnone hstop =>
        (h.flush hnone hstop).congr rfl rfl rfl rfl
    · rename_i hfailing
      split
      · exact .of_unfinished hunfinished fun hnone => absurd hnone (failWith_exception _ _)
      · exact .of_unfinished hunfinished fun hnone => absurd hnone (failWith_exception _ _)
      · rename_i hdispatched hsubscribers
        obtain ⟨hfinished, hcontrol⟩ := process_control cfg turn s
        refine .of_unfinished (hfinished.trans hunfinished) fun hnone hstop => ?_
        obtain ⟨hexception, hstopped⟩ := hcontrol hnone
        have hstop := hstopped.symm.trans hstop
        refine (h.flush hexception hstop).process (hinv.live hexception hstop) turn hexception hstop
          (fun hphase htop hrequired => Bool.eq_false_iff.mpr fun hrequested => ?_) hnone
        exact hkept hrequired hrequested ⟨Bool.not_eq_true _ ▸ hcompleted,
          Bool.not_eq_true _ ▸ hfailing, hdispatched, hsubscribers, hexception, hstop, hphase, htop⟩

/-! ## Completions -/

omit [DecidableEq χ] in
theorem recordCompletion_flushes (hflush : t.commandId = .flushPeerSessions → t.blockType ≠ .normal)
    (hzero : s.flushes = 0) (completion : Completion) :
    (recordCompletion t completion s).flushes = 0 := by
  unfold recordCompletion
  split
  · exact hzero
  · exact hzero
  · rename_i hcommand hblock
    exact absurd hblock (hflush hcommand)
  · split <;> rfl

omit [DecidableEq χ] in
theorem recordCompletion_flush (hcommand : t.commandId = .flushPeerSessions)
    (hblock : t.blockType = .normal) (completion : Completion) (s : State χ) :
    recordCompletion t completion s =
      { s with flushes := s.flushes + if completion = .succeeded then 1 else 0 } := by
  unfold recordCompletion
  rw [hcommand, hblock]
  cases completion with
  | succeeded => rfl
  | failed exception leavesBlock => simp

/-- The flush command is the last one to complete. -/
theorem FlushesOnce.workerCompleted {i : Nat} (h : FlushesOnce s) (hlive : Live cfg [] s)
    (ht : s.executing[i]? = some t) (completion : Completion) :
    FlushesOnce (recordCompletion t completion
      { s with
        executing := s.executing.eraseIdx i
        ready := s.ready ++ [t.completed completion] }) := by
  have hmem : t ∈ s.executing := mem_of_getElem? ht
  have harmed := hlive.executing t hmem
  obtain ⟨acknowledged, flushes, heq⟩ := recordCompletion_eq t completion
    { s with executing := s.executing.eraseIdx i, ready := s.ready ++ [t.completed completion] }
  have hkept : (recordCompletion t completion
      { s with
        executing := s.executing.eraseIdx i
        ready := s.ready ++ [t.completed completion] }).sessionsFlushRequested =
      s.sessionsFlushRequested := by rw [heq]
  refine ⟨fun hr => ?_, fun hr => ?_⟩
  · have hnot := hkept.symm.trans hr
    have hflush : t.commandId = .flushPeerSessions → t.blockType ≠ .normal := by
      intro hcommand hblock
      obtain ⟨c, -, -, -, hcfg⟩ | ⟨hauthentication, -⟩ | ⟨-, -, hrequested⟩ := harmed.command
      · cases hkind : cfg.kind <;> simp [Config.commandId, hkind, hcommand] at hcfg
      · cases hblock.symm.trans hauthentication
      · cases hnot.symm.trans hrequested
    refine recordCompletion_flushes hflush ?_ completion
    exact h.unrequested hnot
  · cases h.requested (hkept.symm.trans hr) with
    | dropped _ _ hempty | completed _ hempty =>
      rw [hempty] at hmem
      cases hmem
    | underWay t' hready hone hcommand hblock hflushes =>
      obtain rfl := mem_singleton.mp (hone ▸ hmem)
      have herase : s.executing.eraseIdx i = [] := by
        obtain ⟨hi, -⟩ := List.getElem?_eq_some_iff.mp ht
        rw [hone, length_singleton, Nat.lt_one_iff] at hi
        rw [hone, hi, eraseIdx_zero, tail_cons]
      rw [recordCompletion_flush hcommand hblock, herase, hready, nil_append]
      cases completion with
      | succeeded =>
        exact .completed (by simp [TransferTask.completed]) rfl (by simp [hflushes])
      | failed exception leavesBlock =>
        exact .dropped _ rfl rfl (Option.some_ne_none _) harmed.bootstrapped (by simp [hflushes])

theorem onChunkArrived_sessionsFlushRequested (cfg : Config χ) (turn : Turn) (pooled : List Bool)
    (chunk : χ) (s : State χ) :
    (onChunkArrived cfg turn pooled chunk s).sessionsFlushRequested = s.sessionsFlushRequested := by
  have hscheduled := (chk2ScheduleChunk_sessionsFlushRequested cfg turn (.chunk chunk)
    (some (.content (.chunk chunk))) (chk2BeginConnecting cfg pooled s)).trans
    (congrArg Work.sessionsFlushRequested (chk2BeginConnecting_work pooled))
  unfold onChunkArrived
  split
  · rfl
  · split
    · rfl
    · split
      · rename_i heq
        rwa [heq] at hscheduled
      · rename_i heq
        rwa [heq] at hscheduled

omit [DecidableEq χ] in
theorem onExecute_sessionsFlushRequested (cfg : Config χ) (pooled : List Bool) (s : State χ) :
    (onExecute cfg pooled s).sessionsFlushRequested = s.sessionsFlushRequested := by
  unfold onExecute
  split
  · rfl
  · split
    · exact congrArg Work.sessionsFlushRequested (startConnectingTasks_work _ _)
    · rfl

/-! ## Whole runs -/

theorem step_delivers {l : Label χ} (hinv : Inv cfg s) (h : Delivers cfg s)
    (hkept : KeepsFlush cfg s l) (hstep : step cfg s l = some s') : Delivers cfg s' := by
  unfold step at hstep
  split at hstep
  · cases hstep
  · rename_i hunfinished
    rw [Bool.not_eq_true, Option.isSome_eq_false_iff, Option.isNone_iff_eq_none] at hunfinished
    cases l with
    | run turn =>
      cases hstep
      exact h.run hinv turn hunfinished hkept
    | onChunkArrived turn pooled chunk =>
      dsimp only at hstep
      split at hstep
      · rename_i hguard
        cases hstep
        obtain ⟨accepted, hcontrol⟩ := onChunkArrived_control cfg turn pooled chunk s
        refine .of_unfinished ((congrArg Control.finished hcontrol).trans hunfinished)
          fun hnone hstop => ?_
        have hexception := (congrArg Control.exception hcontrol).symm.trans hnone
        have hstop := (congrArg Control.stopRequested hcontrol).symm.trans hstop
        have hnot : s.sessionsFlushRequested = false := Bool.eq_false_iff.mpr fun hrequested =>
          absurd (((hinv.live hexception hstop).flushing hrequested).inputDisconnected.symm.trans
            hguard.2) Bool.false_ne_true.symm
        exact (h.flush hexception hstop).of_unrequested hnot
          (onChunkArrived_sessionsFlushRequested cfg turn pooled chunk s)
          (congrArg Control.flushes hcontrol)
      · cases hstep
    | onInputCompleted =>
      dsimp only at hstep
      split at hstep
      · cases hstep
        exact .of_unfinished hunfinished fun hnone hstop =>
          (h.flush hnone hstop).congr rfl rfl rfl rfl
      · cases hstep
    | dispatchException exception =>
      cases hstep
      exact .of_unfinished hunfinished fun hnone hstop =>
        (h.flush hnone hstop).congr rfl rfl rfl rfl
    | requestCancel =>
      cases hstep
      exact .of_unfinished hunfinished fun _ hstop => absurd hstop Bool.false_ne_true.symm
    | workerCompleted i completion =>
      obtain ⟨t, ht, rfl⟩ := Option.map_eq_some_iff.mp hstep
      obtain ⟨acknowledged, flushes, hcontrol⟩ := recordCompletion_control t completion
        { s with
          executing := s.executing.eraseIdx i
          ready := s.ready ++ [t.completed completion] }
      refine .of_unfinished ((congrArg Control.finished hcontrol).trans hunfinished)
        fun hnone hstop => ?_
      have hexception := (congrArg Control.exception hcontrol).symm.trans hnone
      have hstop := (congrArg Control.stopRequested hcontrol).symm.trans hstop
      exact (h.flush hexception hstop).workerCompleted (hinv.live hexception hstop) ht completion
    | childCompleted i result pooled =>
      obtain ⟨task, htask, rfl⟩ := Option.map_eq_some_iff.mp hstep
      cases task with
      | scheduler =>
        have hcontrol := onExecute_control cfg pooled s
        refine .of_unfinished ((congrArg Control.finished hcontrol).trans hunfinished)
          fun hnone hstop => ?_
        have hexception := (congrArg Control.exception hcontrol).symm.trans hnone
        have hstop := (congrArg Control.stopRequested hcontrol).symm.trans hstop
        have hnot : s.sessionsFlushRequested = false := Bool.eq_false_iff.mpr fun hrequested => by
          cases ((hinv.live hexception hstop).flushing hrequested).childExecuting _
            (mem_of_getElem? htask)
        exact (h.flush hexception hstop).of_unrequested hnot
          (onExecute_sessionsFlushRequested cfg pooled s) (congrArg Control.flushes hcontrol)
      | connector | reconnector =>
        exact .of_unfinished hunfinished fun hnone hstop =>
          (h.flush hnone hstop).congr rfl rfl rfl rfl

omit [DecidableEq χ] in
theorem create_delivers (cfg : Config χ) : Delivers cfg State.create :=
  .of_unfinished rfl fun _ _ => ⟨fun _ => rfl, nofun⟩

/-- A unit whose flush command keeps its connection, or which need not
authenticate it again, has transferred every chunk when it finishes without
error. -/
theorem run_transferred (cfg : Config χ) (labels : List (Label χ)) (s : State χ)
    (hrun : Transition.run (step cfg) State.create labels = some s)
    (hkept : Transition.Along (step cfg) (KeepsFlush cfg) State.create labels)
    (hfinished : s.finished = some none) : Transferred cfg s := by
  have hdelivers : Inv cfg s ∧ Delivers cfg s := by
    refine Transition.run_invariant (P := fun s => Inv cfg s ∧ Delivers cfg s) ?_
      ⟨create_inv cfg, create_delivers cfg⟩ hkept hrun
    intro s l s' h hcondition hstep
    exact ⟨step_inv h.1 hstep, step_delivers h.1 h.2 hcondition hstep⟩
  exact hdelivers.2.finished hfinished

/-- A deleter loses its connection with a chunk. -/
def reconnectedChunk : List (Label Nat) :=
  [.run quietTurn, .childCompleted 0 none [], .run quietTurn, .childCompleted 0 none [],
    .run quietTurn, .childCompleted 0 none [], .workerCompleted 0 .succeeded, .run quietTurn,
    .run quietTurn, .workerCompleted 0 (.failed .systemError false),
    .run { quietTurn with retry := .now true }, .run quietTurn, .workerCompleted 0 .succeeded,
    .run quietTurn, .workerCompleted 0 .succeeded, .run quietTurn, .workerCompleted 0 .succeeded,
    .run quietTurn, .run quietTurn, .run quietTurn]

theorem run_transferred_reconnectedChunk :
    ∃ s, Transition.run (step (singleConnection .deleter true [7])) State.create reconnectedChunk =
        some s ∧
      s.sessionsFlushRequested = true ∧ Transferred (singleConnection .deleter true [7]) s :=
  ⟨_, rfl, rfl, run_transferred (singleConnection .deleter true [7]) reconnectedChunk _ rfl
    (by decide) rfl⟩

/-- A deleter loses its connection with the flush command. -/
def reconnectedFlush : List (Label Nat) :=
  [.run quietTurn, .childCompleted 0 none [], .run quietTurn, .childCompleted 0 none [],
    .run quietTurn, .childCompleted 0 none [], .workerCompleted 0 .succeeded, .run quietTurn,
    .run quietTurn, .workerCompleted 0 .succeeded, .run quietTurn,
    .workerCompleted 0 (.failed .systemError false), .run { quietTurn with retry := .now true },
    .run quietTurn, .workerCompleted 0 .succeeded, .run quietTurn, .run quietTurn, .run quietTurn]

theorem run_transferred_reconnectedFlush :
    ∃ s, Transition.run (step (singleConnection .deleter true [7])) State.create reconnectedFlush =
        some s ∧
      s.finished = some none ∧ s.sessionsFlushRequested = true ∧ s.flushes = 0 ∧
      ¬ Transferred (singleConnection .deleter true [7]) s :=
  ⟨_, rfl, rfl, rfl, rfl, fun h => absurd (h.flushed rfl) (by decide)⟩

end Baselib.Transfer.ChunksSendRecv
