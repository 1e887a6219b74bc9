/-
Baselib.Transfer.ChunksSendRecvRuns — the invariant of a unit over its runs:
while it is neither stopped nor failing, `Live` accounts for its chunks.
-/
import Baselib.Transfer.ChunksSendRecvTheorems
import Mathlib.Data.List.Count

namespace Baselib.Transfer.ChunksSendRecv

open Lib List

variable {χ : Type} [DecidableEq χ] {cfg : Config χ} {t : TransferTask χ} {s s' : State χ}

/-! ## Iterations -/

theorem Live.pushReadyTask {task : ChildTask} {result : Option Exception}
    {rest : List (ChildTask × Option Exception)} (h : Live cfg [] s) (turn : Turn)
    (hready : s.childReady = (task, result) :: rest) (hphase : s.phase ≠ .disconnected) :
    Live cfg [] (pushReadyTask cfg turn task result s).1 := by
  unfold ChunksSendRecv.pushReadyTask
  split
  · exact h.pushScheduler turn hready hphase
  · obtain ⟨hlive, top, tasks, htop, hfailed⟩ := h.popReconnector hready false (by simp)
    have hcomm : { ChunksSendRecv.reconnected cfg s with
        childReady := s.childReady.tail, reconnecting := false, isDroppedConnection := false } =
        ChunksSendRecv.reconnected cfg { s with
          childReady := rest, reconnecting := false, isDroppedConnection := false } := by
      unfold ChunksSendRecv.reconnected ChunksSendRecv.scheduleAuthenticationTask
      dsimp only
      rw [hready]
      repeat' split
      all_goals rfl
    rw [hcomm]
    exact hlive.reconnected htop hfailed rfl hphase
  · rw [hready]
    exact (h.popReconnector hready s.isDroppedConnection id).1
  · have hcomm : { ChunksSendRecv.connected cfg result s with childReady := s.childReady.tail } =
        ChunksSendRecv.connected cfg result { s with childReady := rest } := by
      unfold ChunksSendRecv.connected ChunksSendRecv.scheduleAuthenticationTask
      rw [hready]
      repeat' split
      all_goals rfl
    rw [hcomm]
    exact (h.popChild hready (by simp)).connected hphase result

/-- A task hands on what it has without its result or its stream changed. -/
theorem handleReadyTask_kept {notifyOnNext : Notification} {b : Bool} {top : TransferTask χ}
    {items : List (Item χ)}
    (heq : handleReadyTask cfg notifyOnNext b top = .ok (some (t, items))) :
    t.exception = top.exception ∧ t.streamAuthenticated = top.streamAuthenticated := by
  have hsome : ∀ {t' : TransferTask χ} {items' : List (Item χ)},
      (Except.ok (some (t', items')) : Except Exception _) = .ok (some (t, items)) → t' = t :=
    fun h => (Prod.mk.inj (Option.some.inj (Except.ok.inj h))).1
  unfold handleReadyTask handleReadyTaskImpl at heq
  split at heq
  · obtain rfl := hsome heq
    exact ⟨rfl, rfl⟩
  · split at heq
    · obtain rfl := hsome heq
      exact ⟨rfl, rfl⟩
    · split at heq
      · split at heq
        · cases heq
        · cases heq
        · obtain rfl := hsome heq
          exact ⟨rfl, rfl⟩
      · obtain rfl := hsome heq
        exact ⟨rfl, rfl⟩
    · split at heq
      · split at heq
        · cases heq
        · cases heq
        · obtain rfl := hsome heq
          exact ⟨rfl, rfl⟩
      · obtain rfl := hsome heq
        exact ⟨rfl, rfl⟩

/-- What is left when a task is returned. -/
theorem waitForReadyTask_some {turn : Turn} {s' : State χ}
    (heq : waitForReadyTask cfg turn s = (s', .ok (some t))) :
    s.stopRequested = false ∧ s.ready ≠ [] ∧ s'.childReady = s.childReady ∧
      s'.childExecuting = s.childExecuting := by
  unfold waitForReadyTask at heq
  split at heq
  · rename_i s'' top htop
    obtain ⟨rfl, hstop, -, rest, hready⟩ := getSuccessfulTopTask_some htop
    split at heq
    · simp at heq
    · simp at heq
    · obtain ⟨rfl, -⟩ := Prod.mk.inj heq
      exact ⟨hstop, by simp [hready], rfl, rfl⟩
  · rename_i result hresult htop
    cases heq
    exact (hresult _ rfl).elim

theorem Live.flushAllPendingTasks (h : Live cfg [] s) (turn : Turn) (hexception : s.exception = none)
    (hphase : s.phase = .processing) (hinput : s.inputDisconnected = true)
    (hchildren : s.childReady = [] ∧ s.childExecuting = []) :
    Live cfg [] (flushAllPendingTasks cfg turn s).1 ∧
      ((flushAllPendingTasks cfg turn s).2 = .done →
        (flushAllPendingTasks cfg turn s).1.ready = [] ∧
        (flushAllPendingTasks cfg turn s).1.executing = [] ∧
        (flushAllPendingTasks cfg turn s).1.inputDisconnected = true) := by
  obtain ⟨hlive, htop⟩ := h.waitForReadyTask turn
  have hcontrol := @waitForReadyTask_control _ cfg turn s _
  have hwork := @waitForReadyTask_work _ cfg turn s _
  unfold ChunksSendRecv.flushAllPendingTasks
  rw [hexception, Option.isSome_none, if_neg Bool.false_ne_true]
  split
  · rename_i heq
    rw [heq] at hlive
    exact ⟨hlive, by simp⟩
  · rename_i s' t heq
    obtain ⟨-, -, hready, hexecuting⟩ := waitForReadyTask_some heq
    rw [heq] at hlive htop hcontrol hwork
    obtain ⟨hfree, hdropped, rest, hrest⟩ := htop t rfl
    refine ⟨hlive.unwindTask hrest hfree hdropped
      ((congrArg Control.phase hcontrol).trans hphase)
      ((congrArg Work.inputDisconnected hwork).trans hinput)
      ⟨hready.trans hchildren.1, hexecuting.trans hchildren.2⟩, by simp⟩
  · rename_i s' heq
    rw [heq] at hlive hwork
    have hfinalized : Live cfg [] (chk2Finalize cfg s') := by
      unfold chk2Finalize
      split
      · exact { hlive with }
      · exact hlive
    have hinput' : (chk2Finalize cfg s').inputDisconnected = true := by
      have hsame : (chk2Finalize cfg s').inputDisconnected = s'.inputDisconnected := by
        unfold chk2Finalize
        split <;> rfl
      exact hsame.trans ((congrArg Work.inputDisconnected hwork).trans hinput)
    refine ⟨hfinalized, fun hdone => ?_⟩
    by_cases hempty : (chk2Finalize cfg s').workersEmpty = true
    · simp only [State.workersEmpty, Bool.and_eq_true, List.isEmpty_iff] at hempty
      exact ⟨hempty.1, hempty.2, hinput'⟩
    · simp [hempty] at hdone

theorem Live.chk2Disconnect (h : Live cfg [] s) (turn : Turn) (hexception : s.exception = none)
    (hstop : s.stopRequested = false) (hphase : s.phase = .processing)
    (hcompleted : s.completed = false) : Live cfg [] (chk2Disconnect cfg turn s).1 := by
  unfold ChunksSendRecv.chk2Disconnect
  split
  · rename_i hgate
    simp only [State.childrenEmpty, State.isShuttingDown, State.isWaitingExternalInput, hexception,
      hstop, hcompleted, Bool.and_eq_true, List.isEmpty_iff, Option.isSome_none, Option.isNone_none,
      Bool.or_false, Bool.false_or, Bool.true_and, Bool.not_not] at hgate
    obtain ⟨hlive, hdone⟩ := h.flushAllPendingTasks turn hexception hphase hgate.2 hgate.1
    split
    · rename_i heq
      rw [heq] at hlive hdone
      exact { hlive with
        created := fun hp => by cases hp
        disconnected := fun _ => hdone rfl }
    · rename_i heq
      rwa [heq] at hlive
  · exact h

theorem Live.chk2LoopUntilDoneInternal (h : Live cfg [] s) (turn : Turn)
    (hexception : s.exception = none) (hstop : s.stopRequested = false)
    (hcompleted : s.completed = false) :
    Live cfg [] (chk2LoopUntilDoneInternal cfg turn s).1 := by
  unfold ChunksSendRecv.chk2LoopUntilDoneInternal
  rw [hexception, hstop]
  split
  · exact h
  · rename_i hphase
    have hphase : s.phase = .processing := Classical.not_not.mp hphase
    simp only [Option.isSome_none, Bool.or_self, Bool.false_eq_true, if_false]
    split
    · rename_i hready
      exact h.pushReadyTask turn hready fun hd => by cases hphase.symm.trans hd
    · exact h.chk2Disconnect turn hexception hstop hphase hcompleted

/-! ## Control state of an iteration -/

theorem flushAllPendingTasks_control (cfg : Config χ) (turn : Turn) (s : State χ) :
    ∃ finalizedAt, (flushAllPendingTasks cfg turn s).1.control =
      { s.control with finalizedAt := finalizedAt } := by
  have hcontrol := @waitForReadyTask_control _ cfg turn s _
  unfold flushAllPendingTasks
  split
  · exact ⟨s.finalizedAt, rfl⟩
  · split
    · rename_i heq
      rw [heq] at hcontrol
      exact ⟨s.finalizedAt, hcontrol⟩
    · rename_i heq
      rw [heq] at hcontrol
      exact ⟨s.finalizedAt, (unwindTask_control _).trans hcontrol⟩
    · rename_i s' heq
      rw [heq] at hcontrol
      refine ⟨(chk2Finalize cfg s').finalizedAt, ?_⟩
      rw [← hcontrol]
      unfold chk2Finalize
      split <;> rfl

theorem pushReadyTask_goesOn {turn : Turn} {task : ChildTask} {result : Option Exception} :
    (pushReadyTask cfg turn task result s).2 ≠ .done := by
  unfold pushReadyTask
  split
  · unfold pushScheduler
    split
    · simp
    · split
      · simp
      · split <;> simp
  · simp
  · simp
  · simp

/-- An iteration changes the phase only where it disconnects. -/
theorem chk2LoopUntilDoneInternal_control (cfg : Config χ) (turn : Turn) (s : State χ) :
    ∃ phase finalizedAt, (chk2LoopUntilDoneInternal cfg turn s).1.control =
        { s.control with phase := phase, finalizedAt := finalizedAt } ∧
      (phase = s.phase ∨ phase = .disconnected) ∧
      ((chk2LoopUntilDoneInternal cfg turn s).2 = .done → phase ≠ .processing) := by
  have hdisconnect : ∀ s : State χ, ∃ phase finalizedAt,
      (chk2Disconnect cfg turn s).1.control =
        { s.control with phase := phase, finalizedAt := finalizedAt } ∧
      (phase = s.phase ∨ phase = .disconnected) ∧
      ((chk2Disconnect cfg turn s).2 = .done → phase ≠ .processing) := by
    intro s
    obtain ⟨finalizedAt, hcontrol⟩ := flushAllPendingTasks_control cfg turn s
    unfold chk2Disconnect
    split
    · split
      · rename_i heq
        rw [heq] at hcontrol
        refine ⟨.disconnected, finalizedAt, ?_, .inr rfl, by simp⟩
        have hphase := congrArg (fun c => ({ c with phase := .disconnected } : Control χ)) hcontrol
        exact hphase
      · rename_i hnot heq
        rw [heq] at hcontrol
        exact ⟨s.phase, finalizedAt, hcontrol, .inl rfl, fun hdone => (hnot hdone).elim⟩
    · exact ⟨s.phase, s.finalizedAt, rfl, .inl rfl, by simp⟩
  unfold chk2LoopUntilDoneInternal
  split
  · rename_i hphase
    exact ⟨s.phase, s.finalizedAt, rfl, .inl rfl, fun _ => hphase⟩
  · split
    · exact hdisconnect s.cancelChildren
    · split
      · exact ⟨s.phase, s.finalizedAt, pushReadyTask_control _ _, .inl rfl, fun hdone =>
          absurd hdone pushReadyTask_goesOn⟩
      · exact hdisconnect s

/-! ## Completions -/

theorem eraseIdx_perm {α : Type} {l : List α} {i : Nat} {a : α} (h : l[i]? = some a) :
    l.Perm (a :: l.eraseIdx i) := by
  obtain ⟨hi, rfl⟩ := List.getElem?_eq_some_iff.mp h
  exact (getElem_cons_eraseIdx_perm hi).symm

theorem completed_carries (completion : Completion) (c : χ) (t : TransferTask χ) :
    (t.completed completion).carries c = t.carries c := by
  cases completion <;> rfl

omit [DecidableEq χ] in
/-- How an armed task ends. -/
theorem Armed.completed {b : Bool} (h : Armed cfg b t) (completion : Completion) :
    (t.completed completion).commandId = .noCommand ∧
      ((t.completed completion).exception = none → Succeeded cfg (t.completed completion)) ∧
      ((t.completed completion).exception ≠ none → Failed cfg b (t.completed completion)) := by
  have hcommand : t.commandId = .receiveChunk → cfg.kind = .receiver ∨
      t.blockType = .authentication ∨ t.Idle := fun hc => by
    obtain ⟨c, -, -, -, hcfg⟩ | ⟨hblock, -⟩ | ⟨hidle, -⟩ := h.command
    · rw [hc] at hcfg
      cases hkind : cfg.kind <;> simp [Config.commandId, hkind] at hcfg
      exact .inl rfl
    · exact .inr (.inl hblock)
    · exact .inr (.inr hidle)
  cases completion with
  | succeeded =>
    refine ⟨rfl, fun _ => ⟨h.bootstrapped, ?_⟩, fun hne => absurd rfl hne⟩
    obtain ⟨c, hblock, hchunk, hdata, hcfg⟩ | ⟨hblock, -⟩ | ⟨hidle, hflush, -⟩ := h.command
    · refine .inr (.inr (.inr ⟨c, hblock, hchunk, ?_, rfl⟩))
      cases hkind : cfg.kind <;>
        simp [TransferTask.completed, Config.commandId, Config.item, Config.payload,
          Config.sentData, hkind, hchunk, hdata, hcfg]
    · exact .inr (.inl hblock)
    · refine .inr (.inr (.inl ⟨hidle.1, hidle.2.1, ?_⟩))
      simp [TransferTask.completed, hflush, hidle.2.2]
  | failed exception leavesBlock =>
    refine ⟨rfl, fun hnone => absurd hnone (Option.some_ne_none _), fun _ => ?_⟩
    obtain ⟨c, hblock, hchunk, hdata, hcfg⟩ | ⟨hblock, -, hrequired⟩ | ⟨hidle, hflush, hb⟩ :=
      h.command
    · refine .inr ⟨h.bootstrapped, .inr ⟨c, hblock, hchunk, fun hkind => ?_⟩⟩
      have hne : t.commandId ≠ .receiveChunk := by
        rw [hcfg]
        cases hk : cfg.kind <;> simp_all [Config.commandId]
      simp [TransferTask.completed, hne, hdata]
    · exact .inr ⟨h.bootstrapped, .inl ⟨hblock, hrequired⟩⟩
    · refine .inl ⟨⟨hidle.1, hidle.2.1, ?_⟩, fun _ => hb⟩
      simp [TransferTask.completed, hflush, hidle.2.2]

/-- What an armed task achieves. -/
theorem Armed.record {b : Bool} (h : Armed cfg b t) (completion : Completion) (s : State χ) :
    ∃ acknowledged flushes, recordCompletion t completion s =
        { s with acknowledged := s.acknowledged ++ acknowledged, flushes := flushes } ∧
      (∀ item ∈ acknowledged, ∃ c, item = cfg.item c) ∧
      ∀ c, acknowledged.count (cfg.item c) =
        ((t.completed completion).exception.isNone && t.carries c).toNat := by
  obtain ⟨c, hblock, hchunk, hdata, hcfg⟩ | ⟨hblock, hcommand, -⟩ | ⟨hidle, hcommand, -⟩ :=
    h.command
  · have hitem : (t.chunkId, (t.completed .succeeded).chunkData) = cfg.item c := by
      rw [hchunk]
      cases hkind : cfg.kind <;>
        simp [TransferTask.completed, Config.commandId, Config.item, Config.payload,
          Config.sentData, hkind, hchunk, hdata, hcfg]
    cases completion with
    | succeeded =>
      have hrecord : recordCompletion t .succeeded s =
          { s with acknowledged := s.acknowledged ++ [cfg.item c], flushes := 0 } := by
        rw [← hitem]
        unfold recordCompletion
        rw [hblock, hcfg]
        obtain hk | hk | hk := cfg.commandId_cases <;> rw [hk]
      refine ⟨[cfg.item c], 0, hrecord, fun item hitem => ⟨c, mem_singleton.mp hitem⟩, ?_⟩
      intro c'
      rw [carries_chunk hblock hchunk, count_singleton]
      by_cases hc : c = c'
      · simp [hc, TransferTask.completed]
      · simp [hc, cfg.item_injective.eq_iff]
    | failed exception leavesBlock =>
      have hrecord : recordCompletion t (.failed exception leavesBlock) s =
          { s with flushes := 0 } := by
        unfold recordCompletion
        rw [hblock, hcfg]
        obtain hk | hk | hk := cfg.commandId_cases <;> rw [hk]
      rw [hrecord]
      exact ⟨[], 0, by simp, by simp, fun c' => by simp [TransferTask.completed]⟩
  · refine ⟨[], s.flushes, ?_, by simp, fun c => by simp [carries_of_authentication hblock]⟩
    simp [recordCompletion, hblock, hcommand]
  · cases completion with
    | succeeded =>
      refine ⟨[], s.flushes + 1, ?_, by simp, fun c => by simp [hidle.carries]⟩
      simp [recordCompletion, hidle.1, hcommand]
    | failed exception leavesBlock =>
      refine ⟨[], s.flushes, ?_, by simp, fun c => by simp [hidle.carries]⟩
      simp [recordCompletion, hidle.1, hcommand]

/-- A chunk whose task ends is done or held by the task. -/
theorem Live.workerCompleted {i : Nat} {taken : List χ} (h : Live cfg taken s)
    (ht : s.executing[i]? = some t) (completion : Completion) :
    Live cfg taken (recordCompletion t completion
      { s with
        executing := s.executing.eraseIdx i
        ready := s.ready ++ [t.completed completion] }) := by
  have hmem : t ∈ s.executing := mem_of_getElem? ht
  have harmed := h.executing t hmem
  obtain ⟨hcommand, hsucceeded, hfailed⟩ := harmed.completed completion
  obtain ⟨acknowledged, flushes, heq, hitems, hcount⟩ := harmed.record completion
    { s with executing := s.executing.eraseIdx i, ready := s.ready ++ [t.completed completion] }
  have hready : ∀ {P : TransferTask χ → Prop}, (∀ t' ∈ s.ready, P t') → P (t.completed completion) →
      ∀ t' ∈ s.ready ++ [t.completed completion], P t' := by
    intro P hall hlast t' ht'
    obtain ht' | ht' := mem_append.mp ht'
    · exact hall t' ht'
    · obtain rfl := mem_singleton.mp ht'
      exact hlast
  have hexecuting : ∀ c, s.executing.countP (·.carries c) =
      (s.executing.eraseIdx i).countP (·.carries c) + (t.carries c).toNat := fun c => by
    rw [(eraseIdx_perm ht).countP_eq, countP_cons_eq]
  have hsplit : ∀ c, (t.carries c).toNat =
      ((t.completed completion).retains c).toNat +
        ((t.completed completion).exception.isNone && t.carries c).toNat := fun c => by
    rw [TransferTask.retains, completed_carries]
    cases (t.completed completion).exception <;> cases t.carries c <;> rfl
  rw [heq]
  refine { h with
    executing := fun t' ht' => h.executing t' (mem_of_mem_eraseIdx ht')
    rested := hready h.rested hcommand
    succeeded := hready h.succeeded hsucceeded
    failed := hready h.failed hfailed
    attended := fun _ => .inl (by simp)
    dropped := fun hdropped => ?_
    source := fun c => ?_
    acknowledged := fun item hitem =>
      (mem_append.mp hitem).elim (h.acknowledged item) (hitems item)
    delivery := fun hkind c => ?_
    flushing := fun hrequested => ?_
    disconnected := fun hphase => ?_ }
  · obtain ⟨top, rest, htop, hexception⟩ := h.dropped hdropped
    exact ⟨top, rest ++ [t.completed completion], by rw [htop, cons_append], hexception⟩
  · have hsource := h.source c
    have hc := hcount c
    have he := hexecuting c
    have hs := hsplit c
    simp only [State.held, countP_append, countP_cons_eq, countP_nil, State.source,
      State.remaining, count_append] at hsource ⊢
    omega
  · have hdelivery := h.delivery hkind c
    have hyields : (t.completed completion).yields c =
        ((t.completed completion).exception.isNone && t.carries c) := by
      rw [TransferTask.yields, completed_carries]
    simp only [State.undelivered, countP_append, countP_cons_eq, countP_nil,
      count_append, hyields, hcount c] at hdelivery ⊢
    omega
  · have hquiet := h.flushing hrequested
    exact { hquiet with
      ready := hready hquiet.ready fun c => by
        rw [completed_carries]
        exact hquiet.executing t hmem c
      executing := fun t' ht' => hquiet.executing t' (mem_of_mem_eraseIdx ht') }
  · have hnil := (h.disconnected hphase).2.1
    rw [hnil] at hmem
    cases hmem

theorem Live.childCompleted {i : Nat} {task : ChildTask} (h : Live cfg [] s)
    (htask : s.childExecuting[i]? = some task) (result : Option Exception) :
    Live cfg [] { s with
      childExecuting := s.childExecuting.eraseIdx i
      childReady := s.childReady ++ [(task, result)] } := by
  have hmem : task ∈ s.childExecuting := mem_of_getElem? htask
  have hcount : s.childExecuting.count .reconnector =
      (s.childExecuting.eraseIdx i).count .reconnector + (decide (task = .reconnector)).toNat := by
    rw [(eraseIdx_perm htask).count_eq, count_eq_countP, countP_cons_eq]
    rfl
  have hready : ∀ P : ChildTask → Prop, (∀ child ∈ s.childReady, P child.1) → P task →
      ∀ child ∈ s.childReady ++ [(task, result)], P child.1 := by
    intro P hall hlast child hchild
    obtain hchild | hchild := mem_append.mp hchild
    · exact hall child hchild
    · obtain rfl := mem_singleton.mp hchild
      exact hlast
  refine { h with
    reconnectors := ?_
    scheduler := fun hkind => ?_
    flushing := fun hrequested => ?_ }
  · have hreconnectors := h.reconnectors
    simp only [State.reconnectors, countP_append, countP_cons_eq, countP_nil]
      at hreconnectors ⊢
    omega
  · obtain ⟨hchildren, hexecuting⟩ := h.scheduler hkind
    exact ⟨hready (· ≠ .scheduler) hchildren fun hs => hexecuting (hs ▸ hmem),
      fun hs => hexecuting (mem_of_mem_eraseIdx hs)⟩
  · have hquiet := h.flushing hrequested
    exact { hquiet with
      childReady := hready (· = .reconnector) hquiet.childReady (hquiet.childExecuting task hmem)
      childExecuting := fun child hchild =>
        hquiet.childExecuting child (mem_of_mem_eraseIdx hchild) }

/-- The scheduler lists every chunk once. -/
theorem Live.onExecute {pooled : List Bool} (h : Live cfg [] s)
    (hscheduler : .scheduler ∈ s.childExecuting) : Live cfg [] (onExecute cfg pooled s) := by
  have hflush : s.sessionsFlushRequested = false := Bool.eq_false_iff.mpr fun hrequested => by
    have hchild := (h.flushing hrequested).childExecuting _ hscheduler
    cases hchild
  have hkind : cfg.kind ≠ .transmitter := fun hk => (h.scheduler hk).2 hscheduler
  unfold ChunksSendRecv.onExecute
  split
  · exact h
  · split
    · have hlive : Live cfg [] { s with schedulerConnects := false } := { h with }
      exact hlive.startConnectingTasks cfg.tasksPoolSize pooled hflush
    · have hremaining : ∀ room, State.remaining cfg { s with
          chunksIterator := some ((s.chunksIterator.getD cfg.chunks).drop room)
          chunksQueue := s.chunksQueue ++ (s.chunksIterator.getD cfg.chunks).take room } =
          s.remaining cfg := by
        intro room
        rw [remaining_of_ne hkind, remaining_of_ne hkind]
        simp [append_assoc]
      exact { h with
        source := fun c => by
          have hsource := h.source c
          rwa [hremaining]
        input := fun hk hinput => (hremaining _).trans (h.input hk hinput) }

/-- A chunk which is accepted is with a task. -/
theorem Live.onChunkArrived {turn : Turn} {pooled : List Bool} {chunk : χ} (h : Live cfg [] s)
    (hkind : cfg.kind = .transmitter) (hinput : s.inputDisconnected = false) :
    Live cfg [] (onChunkArrived cfg turn pooled chunk s) := by
  have hflush : s.sessionsFlushRequested = false := Bool.eq_false_iff.mpr fun hrequested =>
    absurd ((h.flushing hrequested).inputDisconnected.symm.trans hinput) Bool.false_ne_true.symm
  have hphase : s.phase ≠ .disconnected := fun hd =>
    absurd ((h.disconnected hd).2.2.symm.trans hinput) Bool.false_ne_true.symm
  have hcontrol := @chk2BeginConnecting_control _ cfg s pooled
  have hwork := @chk2BeginConnecting_work _ cfg s pooled
  have hpayload : some (.content (.chunk chunk)) = cfg.payload chunk := by
    simp [Config.payload, Config.sentData, hkind]
  obtain ⟨htaken, hnot⟩ := (h.chk2BeginConnecting pooled hflush).chk2ScheduleChunk (c := chunk) turn
    (fun hd => hphase ((congrArg Control.phase hcontrol).symm.trans hd))
    ((congrArg Work.sessionsFlushRequested hwork).trans hflush)
  unfold ChunksSendRecv.onChunkArrived
  split
  · exact h
  · split
    · exact h
    · rw [hpayload]
      split
      · rename_i s' heq
        rw [heq] at htaken
        have hlive : Live cfg [chunk] s' := htaken rfl
        exact { hlive with
          source := fun c => by
            have hsource := hlive.source c
            simp only [State.source, State.held, hkind, count_append, count_nil,
              State.remaining] at hsource ⊢
            omega }
      · rename_i s' result hresult heq
        rw [heq] at hnot
        exact hnot fun htrue => (hresult htrue).elim

/-! ## The invariant -/

structure Inv (cfg : Config χ) (s : State χ) : Prop where
  completed : s.completed = true → s.exception = none → s.phase = .disconnected
  failing : s.notifyCompleteOnError = true → s.exception ≠ none
  live : s.exception = none → s.stopRequested = false → Live cfg [] s

theorem create_inv (cfg : Config χ) : Inv cfg State.create where
  completed hcompleted := absurd hcompleted Bool.false_ne_true
  failing hfailing := absurd hfailing Bool.false_ne_true
  live _ _ :=
    { executing := by simp [State.create]
      rested := by simp [State.create]
      succeeded := by simp [State.create]
      failed := by simp [State.create]
      postponed := by simp [State.create]
      attended := by simp [State.create]
      dropped := by simp [State.create]
      reconnecting := by simp [State.create]
      reconnectors := by simp [State.create, State.reconnectors]
      source := fun c => by
        cases hkind : cfg.kind <;> simp [State.create, State.source, State.held, State.remaining, hkind]
      acknowledged := by simp [State.create]
      delivery := by simp [State.create, State.undelivered]
      delivered := by simp [State.create]
      input := by simp [State.create]
      scheduler := by simp [State.create]
      created := by simp [State.create]
      flushing := by simp [State.create]
      disconnected := by simp [State.create] }

theorem Inv.of_failing (hexception : s'.exception ≠ none) : Inv cfg s' where
  completed _ hnone := absurd hnone hexception
  failing _ := hexception
  live hnone := absurd hnone hexception

omit [DecidableEq χ] in
theorem failWith_exception (exception : Exception) (s : State χ) :
    (failWith exception s).exception ≠ none := Option.some_ne_none _

/-- What keeps the control state keeps the invariant, where `Live` is
kept. -/
theorem Inv.of_control (h : Inv cfg s) (hphase : s'.phase = s.phase)
    (hcompleted : s'.completed = s.completed)
    (hfailing : s'.notifyCompleteOnError = s.notifyCompleteOnError)
    (hexception : s'.exception = s.exception) (hstop : s'.stopRequested = s.stopRequested)
    (hlive : Live cfg [] s → Live cfg [] s') : Inv cfg s' where
  completed hc hnone := hphase.trans (h.completed (hcompleted.symm.trans hc) (hexception.symm.trans hnone))
  failing hf hnone := h.failing (hfailing.symm.trans hf) (hexception.symm.trans hnone)
  live hnone hs := hlive (h.live (hexception.symm.trans hnone) (hstop.symm.trans hs))

theorem Live.chk2InitAndBeginProcessing (h : Live cfg [] s) :
    Live cfg [] (chk2InitAndBeginProcessing cfg s) := by
  unfold ChunksSendRecv.chk2InitAndBeginProcessing
  split
  · rename_i hphase
    have hflush := h.created hphase
    exact { h with
      reconnectors := by
        have hcount := h.reconnectors
        simp only [State.reconnectors] at hcount ⊢
        split <;> simp <;> omega
      scheduler := fun hkind => ⟨(h.scheduler hkind).1, by simp [hkind]⟩
      created := fun hp => by cases hp
      flushing := fun hrequested => absurd (hrequested.symm.trans hflush) Bool.false_ne_true.symm
      disconnected := fun hp => by cases hp }
  · exact h

omit [DecidableEq χ] in
theorem chk2InitAndBeginProcessing_phase (cfg : Config χ) (s : State χ) :
    ∃ phase, (chk2InitAndBeginProcessing cfg s).control = { s.control with phase := phase } ∧
      phase ≠ .created := by
  unfold chk2InitAndBeginProcessing
  split
  · exact ⟨.processing, rfl, by simp⟩
  · rename_i hphase
    exact ⟨s.phase, rfl, hphase⟩

/-- An iteration of a unit which is not completed. -/
theorem Inv.process (h : Inv cfg s) (turn : Turn) (hcompleted : s.completed = false)
    (hfailing : s.notifyCompleteOnError = false) : Inv cfg (process cfg turn s) := by
  obtain ⟨phase, hinit, hcreated⟩ := chk2InitAndBeginProcessing_phase cfg s
  obtain ⟨phase', finalizedAt, hloop, hphase, hdone⟩ :=
    chk2LoopUntilDoneInternal_control cfg turn (chk2InitAndBeginProcessing cfg s)
  have hlive : s.exception = none → s.stopRequested = false → Live cfg []
      (chk2LoopUntilDoneInternal cfg turn (chk2InitAndBeginProcessing cfg s)).1 := fun he hs =>
    (h.live he hs).chk2InitAndBeginProcessing.chk2LoopUntilDoneInternal turn
      ((congrArg Control.exception hinit).trans he)
      ((congrArg Control.stopRequested hinit).trans hs)
      ((congrArg Control.completed hinit).trans hcompleted)
  have hphaseInit : (chk2InitAndBeginProcessing cfg s).phase = phase := congrArg Control.phase hinit
  rw [hinit] at hloop
  unfold ChunksSendRecv.process
  split
  · rename_i s' heq
    rw [heq] at hloop hlive
    exact
      { completed := fun hc => absurd (hc.symm.trans ((congrArg Control.completed hloop).trans
          hcompleted)) Bool.false_ne_true.symm
        failing := fun hf => absurd (hf.symm.trans
          ((congrArg Control.notifyCompleteOnError hloop).trans hfailing)) Bool.false_ne_true.symm
        live := fun he hs => hlive ((congrArg Control.exception hloop).symm.trans he)
          ((congrArg Control.stopRequested hloop).symm.trans hs) }
  · exact Inv.of_failing (failWith_exception _ _)
  · rename_i s' heq
    rw [heq] at hloop hlive hdone
    split
    · exact Inv.of_failing (failWith_exception _ _)
    · rename_i hexception
      unfold ChunksSendRecv.notifyOnComplete
      split
      · exact Inv.of_failing (failWith_exception _ _)
      · have hdisconnected : s'.phase = .disconnected := by
          have hp : s'.phase = phase' := congrArg Control.phase hloop
          rw [hp]
          obtain hsame | hsame := hphase
          · have hne := hdone rfl
            rw [hsame, hphaseInit] at hne ⊢
            cases phase with
            | created => exact absurd rfl hcreated
            | processing => exact absurd rfl hne
            | disconnected => rfl
          · exact hsame
        exact
          { completed := fun _ _ => hdisconnected
            failing := fun hf => absurd (hf.symm.trans
              ((congrArg Control.notifyCompleteOnError hloop).trans hfailing))
              Bool.false_ne_true.symm
            live := fun he hs =>
              have hlive' := hlive ((congrArg Control.exception hloop).symm.trans he)
                ((congrArg Control.stopRequested hloop).symm.trans hs)
              { hlive' with } }

theorem Inv.chk2WaitAllEvents2Flush (h : Inv cfg s) (turn : Turn) (hcompleted : s.completed = true) :
    Inv cfg (chk2WaitAllEvents2Flush cfg turn s) := by
  cases hexception : s.exception with
  | some exception =>
    obtain ⟨phase, finalizedAt, hloop, -⟩ :=
      chk2LoopUntilDoneInternal_control cfg turn s.cancelWorkers
    have hsome : (chk2LoopUntilDoneInternal cfg turn s.cancelWorkers).1.exception = some exception :=
      (congrArg Control.exception hloop).trans hexception
    refine Inv.of_failing ?_
    unfold ChunksSendRecv.chk2WaitAllEvents2Flush
    rw [hexception, Option.isSome_some, if_pos rfl]
    split
    · rename_i heq
      rw [heq] at hsome
      dsimp only at hsome ⊢
      split <;> simp [hsome]
    · rename_i heq
      rw [heq] at hsome
      dsimp only at hsome ⊢
      simp [hsome]
  | none =>
    have hphase := h.completed hcompleted hexception
    have hloop : chk2LoopUntilDoneInternal cfg turn s = (s, .done) := by
      simp [chk2LoopUntilDoneInternal, hphase]
    unfold ChunksSendRecv.chk2WaitAllEvents2Flush
    rw [hexception, Option.isSome_none, if_neg Bool.false_ne_true, hloop]
    dsimp only
    cases hsubscribers : turn.subscribers with
    | some exception =>
      refine Inv.of_failing ?_
      split <;> simp [hexception]
    | none =>
      have hnone : (s.exception <|> (none : Option Exception)) = s.exception := by simp [hexception]
      rw [hnone]
      split
      · exact h.of_control rfl rfl rfl rfl rfl fun hlive => { hlive with }
      · exact h

theorem Inv.run (h : Inv cfg s) (turn : Turn) : Inv cfg (run cfg turn s) := by
  unfold ChunksSendRecv.run
  split
  · rename_i hcompleted
    exact h.chk2WaitAllEvents2Flush turn hcompleted
  · rename_i hcompleted
    split_ifs with hfailing
    · exact Inv.of_failing (h.failing hfailing)
    · split
      · exact Inv.of_failing (failWith_exception _ _)
      · exact Inv.of_failing (failWith_exception _ _)
      · exact h.process turn (Bool.not_eq_true _ ▸ hcompleted) (Bool.not_eq_true _ ▸ hfailing)

omit [DecidableEq χ] in
theorem startConnectingTasks_childExecuting (n : Nat) (pooled : List Bool) (s : State χ) :
    ∃ more, (startConnectingTasks n pooled s).childExecuting = s.childExecuting ++ more := by
  induction n generalizing pooled s with
  | zero => exact ⟨[], (append_nil _).symm⟩
  | succ n ih =>
    obtain ⟨more, hmore⟩ := ih pooled.tail (startConnection .connector (pooled.headD false) s)
    rw [startConnectingTasks, hmore]
    unfold startConnection
    split
    · exact ⟨more, rfl⟩
    · exact ⟨.connector :: more, by simp⟩

omit [DecidableEq χ] in
theorem onExecute_childExecuting (cfg : Config χ) (pooled : List Bool) (s : State χ) :
    ∃ more, (onExecute cfg pooled s).childExecuting = s.childExecuting ++ more := by
  have hkept : ∃ more, s.childExecuting = s.childExecuting ++ more :=
    ⟨[], (append_nil _).symm⟩
  unfold onExecute
  split
  · exact hkept
  · split
    · exact startConnectingTasks_childExecuting cfg.tasksPoolSize pooled _
    · exact hkept

omit [DecidableEq χ] in
theorem onExecute_control (cfg : Config χ) (pooled : List Bool) (s : State χ) :
    (onExecute cfg pooled s).control = s.control := by
  unfold onExecute
  split
  · rfl
  · split
    · rw [startConnectingTasks_control]
      rfl
    · rfl

theorem onChunkArrived_control (cfg : Config χ) (turn : Turn) (pooled : List Bool) (chunk : χ)
    (s : State χ) : ∃ accepted, (onChunkArrived cfg turn pooled chunk s).control =
      { s.control with accepted := accepted } := by
  have hkept := (@chk2ScheduleChunk_control _ cfg turn (chk2BeginConnecting cfg pooled s) _
    (.chunk chunk) (some (.content (.chunk chunk)))).trans (chk2BeginConnecting_control pooled)
  unfold onChunkArrived
  split
  · exact ⟨s.accepted, rfl⟩
  · split
    · exact ⟨s.accepted, rfl⟩
    · split
      · rename_i s' heq
        rw [heq] at hkept
        exact ⟨s'.accepted ++ [chunk], congrArg
          (fun c => ({ c with accepted := s'.accepted ++ [chunk] } : Control χ)) hkept⟩
      · rename_i heq
        rw [heq] at hkept
        exact ⟨s.accepted, hkept⟩

omit [DecidableEq χ] in
theorem recordCompletion_eq (t : TransferTask χ) (completion : Completion) (s : State χ) :
    ∃ acknowledged flushes, recordCompletion t completion s =
      { s with acknowledged := acknowledged, flushes := flushes } := by
  unfold recordCompletion
  split
  · exact ⟨s.acknowledged, s.flushes, rfl⟩
  · exact ⟨s.acknowledged, s.flushes, rfl⟩
  · split
    · exact ⟨s.acknowledged, s.flushes + 1, rfl⟩
    · exact ⟨s.acknowledged, s.flushes, rfl⟩
  · split
    · exact ⟨_, 0, rfl⟩
    · exact ⟨s.acknowledged, 0, rfl⟩

omit [DecidableEq χ] in
theorem recordCompletion_control (t : TransferTask χ) (completion : Completion) (s : State χ) :
    ∃ acknowledged flushes, (recordCompletion t completion s).control =
      { s.control with acknowledged := acknowledged, flushes := flushes } := by
  obtain ⟨acknowledged, flushes, heq⟩ := recordCompletion_eq t completion s
  exact ⟨acknowledged, flushes, congrArg State.control heq⟩

theorem step_inv {l : Label χ} (h : Inv cfg s) (hstep : step cfg s l = some s') : Inv cfg s' := by
  unfold step at hstep
  split at hstep
  · cases hstep
  · cases l with
    | run turn =>
      cases hstep
      exact h.run turn
    | onChunkArrived turn pooled chunk =>
      dsimp only at hstep
      split at hstep
      · rename_i hguard
        cases hstep
        obtain ⟨accepted, hcontrol⟩ := onChunkArrived_control cfg turn pooled chunk s
        exact h.of_control (congrArg Control.phase hcontrol) (congrArg Control.completed hcontrol)
          (congrArg Control.notifyCompleteOnError hcontrol) (congrArg Control.exception hcontrol)
          (congrArg Control.stopRequested hcontrol)
          fun hlive => hlive.onChunkArrived hguard.1 hguard.2
      · cases hstep
    | onInputCompleted =>
      dsimp only at hstep
      split at hstep
      · rename_i hkind
        cases hstep
        exact h.of_control rfl rfl rfl rfl rfl fun hlive =>
          { hlive with
            input := fun hk => absurd hkind hk
            flushing := fun hrequested => { hlive.flushing hrequested with inputDisconnected := rfl }
            disconnected := fun hphase =>
              ⟨(hlive.disconnected hphase).1, (hlive.disconnected hphase).2.1, rfl⟩ }
      · cases hstep
    | dispatchException exception =>
      cases hstep
      exact h.of_control rfl rfl rfl rfl rfl fun hlive => { hlive with }
    | requestCancel =>
      cases hstep
      exact
        { completed := h.completed
          failing := h.failing
          live := fun _ hstop => by cases hstop }
    | workerCompleted i completion =>
      obtain ⟨t, ht, rfl⟩ := Option.map_eq_some_iff.mp hstep
      obtain ⟨acknowledged, flushes, hcontrol⟩ := recordCompletion_control t completion
        { s with
          executing := s.executing.eraseIdx i
          ready := s.ready ++ [t.completed completion] }
      exact h.of_control (congrArg Control.phase hcontrol) (congrArg Control.completed hcontrol)
        (congrArg Control.notifyCompleteOnError hcontrol) (congrArg Control.exception hcontrol)
        (congrArg Control.stopRequested hcontrol) fun hlive => hlive.workerCompleted ht completion
    | childCompleted i result pooled =>
      obtain ⟨task, htask, rfl⟩ := Option.map_eq_some_iff.mp hstep
      cases task with
      | scheduler =>
        have hcontrol := onExecute_control cfg pooled s
        refine h.of_control (congrArg Control.phase hcontrol) (congrArg Control.completed hcontrol)
          (congrArg Control.notifyCompleteOnError hcontrol) (congrArg Control.exception hcontrol)
          (congrArg Control.stopRequested hcontrol) fun hlive => ?_
        obtain ⟨more, hmore⟩ := onExecute_childExecuting cfg pooled s
        refine (hlive.onExecute (mem_of_getElem? htask)).childCompleted ?_ none
        rwa [hmore, List.getElem?_append_left (List.getElem?_eq_some_iff.mp htask).1]
      | connector | reconnector =>
        exact h.of_control rfl rfl rfl rfl rfl fun hlive => hlive.childCompleted htask result

/-! ## What is done -/

/-- A list of items is that of the chunks when it has each of them as
often. -/
theorem Config.perm_items (cfg : Config χ) {chunks : List χ} {items : List (Item χ)}
    (hitems : ∀ item ∈ items, ∃ c, item = cfg.item c)
    (hcount : ∀ c, chunks.count c = items.count (cfg.item c)) :
    (chunks.map cfg.item).Perm items := by
  refine perm_iff_count.mpr fun item => ?_
  by_cases hitem : ∃ c, item = cfg.item c
  · obtain ⟨c, rfl⟩ := hitem
    rw [count_map_of_injective _ _ cfg.item_injective, hcount]
  · have hmap : item ∉ chunks.map cfg.item := fun hmem => by
      obtain ⟨c, -, hc⟩ := mem_map.mp hmem
      exact hitem ⟨c, hc.symm⟩
    rw [count_eq_zero.mpr hmap, count_eq_zero.mpr fun hmem => hitem (hitems item hmem)]

/-- Nothing is lost when nothing is under way. -/
theorem Live.acknowledged_perm (h : Live cfg [] s) (hready : s.ready = [])
    (hexecuting : s.executing = []) (hpostponed : s.postponedDataChunks = [])
    (hremaining : s.remaining cfg = []) : ((s.source cfg).map cfg.item).Perm s.acknowledged := by
  refine cfg.perm_items h.acknowledged fun c => ?_
  have hsource := h.source c
  simpa [State.held, hready, hexecuting, hpostponed, hremaining] using hsource

theorem Live.delivered_perm (h : Live cfg [] s) (hkind : cfg.kind ≠ .transmitter)
    (hready : s.ready = []) (hexecuting : s.executing = [])
    (hpostponed : s.postponedDataChunks = []) (hremaining : s.remaining cfg = []) :
    ((s.source cfg).map cfg.item).Perm s.delivered := by
  refine cfg.perm_items h.delivered fun c => ?_
  have hsource := h.source c
  have hdelivery := h.delivery hkind c
  simp only [State.undelivered, hready, countP_nil, Nat.add_zero] at hdelivery
  simpa [State.held, hready, hexecuting, hpostponed, hremaining, hdelivery] using hsource

/-! ## Reconnects -/

/-- The iteration takes a reconnect which has succeeded. -/
def Reconnects (turn : Turn) (s : State χ) : Prop :=
  s.completed = false ∧ s.notifyCompleteOnError = false ∧ s.dispatchedException = none ∧
    turn.subscribers = none ∧ s.exception = none ∧ s.stopRequested = false ∧
    s.phase ≠ .disconnected ∧ s.childReady.head? = some (.reconnector, none)

instance (turn : Turn) (s : State χ) : Decidable (Reconnects turn s) :=
  inferInstanceAs (Decidable (_ ∧ _ ∧ _ ∧ _ ∧ _ ∧ _ ∧ _ ∧ _))

/-! ## Units with one connection -/

/-- A turn in which the environment has nothing to say. -/
def quietTurn : Turn where
  subscribers := none
  retry := .later
  notifyOnNext := .accepted
  notifyOnComplete := none
  areAllEventsFlushed := true

def singleConnection (kind : Kind) (authenticationRequired : Bool) (chunks : List Nat) :
    Config Nat where
  kind := kind
  peerSessions := false
  authenticationRequired := authenticationRequired
  tasksPoolSize := 1
  chunks := chunks

end Baselib.Transfer.ChunksSendRecv
