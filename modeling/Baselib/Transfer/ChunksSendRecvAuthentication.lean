/-
Baselib.Transfer.ChunksSendRecvAuthentication — the streams on which a unit
runs its commands, when its context has an authentication block.

A ready task which has succeeded is on an authenticated stream, with one
exception: the task of a first connect that failed is taken for a ready one
as soon as its reconnect succeeds.
-/
import Baselib.Transfer.ChunksSendRecvRuns

namespace Baselib.Transfer.ChunksSendRecv

open Lib List

variable {χ : Type} [DecidableEq χ] {cfg : Config χ} {t : TransferTask χ} {s s' : State χ}

/-- Every command other than an authentication runs on a stream on which an
authentication has completed since it was attached. -/
def StreamsAuthenticated (s : State χ) : Prop :=
  ∀ t ∈ s.executing, t.blockType ≠ .authentication → t.streamAuthenticated = true

structure Streams (s : State χ) : Prop where
  executing : ∀ t ∈ s.executing,
    (t.blockType = .authentication ∧ t.commandId = .sendChunk) ∨ t.streamAuthenticated = true
  ready : ∀ t ∈ s.ready, t.exception = none → t.streamAuthenticated = true

/-! ## Operations -/

section

omit [DecidableEq χ]

theorem Streams.congr (h : Streams s) (hready : s'.ready = s.ready)
    (hexecuting : s'.executing = s.executing) : Streams s' where
  executing := hexecuting ▸ h.executing
  ready := hready ▸ h.ready

theorem Streams.cancelWorkers (h : Streams s) : Streams s.cancelWorkers where
  executing := h.executing
  ready := by simp [State.cancelWorkers]

theorem Streams.popTop (h : Streams s) : Streams { s with ready := s.ready.tail } where
  executing := h.executing
  ready t ht := h.ready t (mem_of_mem_tail ht)

theorem Streams.pushBack (h : Streams s)
    (ht : (t.blockType = .authentication ∧ t.commandId = .sendChunk) ∨
      t.streamAuthenticated = true) : Streams (s.pushBack t) where
  executing t' ht' := by
    obtain ht' | ht' := mem_append.mp ht'
    · exact h.executing t' ht'
    · obtain rfl := mem_singleton.mp ht'
      exact ht
  ready := h.ready

theorem Streams.pushReady (h : Streams s)
    (ht : t.exception = none → t.streamAuthenticated = true) :
    Streams { s with ready := s.ready ++ [t] } where
  executing := h.executing
  ready t' ht' := by
    obtain ht' | ht' := mem_append.mp ht'
    · exact h.ready t' ht'
    · obtain rfl := mem_singleton.mp ht'
      exact ht

theorem startConnection_workers (task : ChildTask) (pooled : Bool) (s : State χ) :
    (startConnection task pooled s).ready = s.ready ∧
      (startConnection task pooled s).executing = s.executing := by
  unfold startConnection
  split <;> exact ⟨rfl, rfl⟩

theorem startConnectingTasks_workers (n : Nat) (pooled : List Bool) (s : State χ) :
    (startConnectingTasks n pooled s).ready = s.ready ∧
      (startConnectingTasks n pooled s).executing = s.executing := by
  induction n generalizing pooled s with
  | zero => exact ⟨rfl, rfl⟩
  | succ n ih =>
    obtain ⟨hready, hexecuting⟩ := startConnection_workers .connector (pooled.headD false) s
    obtain ⟨hready', hexecuting'⟩ :=
      ih pooled.tail (startConnection .connector (pooled.headD false) s)
    exact ⟨hready'.trans hready, hexecuting'.trans hexecuting⟩

theorem Streams.getSuccessfulTopTask (h : Streams s) (retry : Retry) :
    Streams (getSuccessfulTopTask cfg retry s).1 := by
  unfold ChunksSendRecv.getSuccessfulTopTask
  split
  · exact h
  · rename_i top rest hready
    split
    · exact h
    · split
      · exact h
      · split
        · exact h
        · split
          · exact h
          · split
            · exact h.congr rfl rfl
            · exact h.congr rfl rfl
            · obtain ⟨hready', hexecuting'⟩ := startConnection_workers .reconnector ‹Bool›
                { s with
                  isDroppedConnection := true
                  reconnecting := true
                  ready := { top with isAuthenticated := false } :: rest }
              refine Streams.congr (s := { s with ready := { top with isAuthenticated := false } :: rest })
                ⟨h.executing, fun t' ht' hnone => ?_⟩ hready' hexecuting'
              obtain rfl | ht' := mem_cons.mp ht'
              · exact h.ready top (hready ▸ mem_cons_self) hnone
              · exact h.ready t' (hready ▸ mem_cons_of_mem _ ht') hnone

end

theorem Streams.waitForReadyTask (h : Streams s) (turn : Turn) :
    Streams (waitForReadyTask cfg turn s).1 ∧
      ∀ t, (waitForReadyTask cfg turn s).2 = .ok (some t) → t.streamAuthenticated = true := by
  have htop : Streams (ChunksSendRecv.getSuccessfulTopTask cfg turn.retry s).1 :=
    h.getSuccessfulTopTask turn.retry
  unfold ChunksSendRecv.waitForReadyTask
  split
  · rename_i s' top heq
    obtain ⟨rfl, -, hnone, rest, hready⟩ := getSuccessfulTopTask_some heq
    have hstream := h.ready top (hready ▸ mem_cons_self) hnone
    split
    · exact ⟨h, by simp⟩
    · exact ⟨h, by simp⟩
    · rename_i t items hhandled
      obtain ⟨-, hkept⟩ := handleReadyTask_kept hhandled
      refine ⟨⟨h.executing, fun t' ht' => ?_⟩, fun t' ht' => ?_⟩
      · obtain rfl | ht' := mem_cons.mp ht'
        · exact fun _ => hkept.trans hstream
        · exact h.ready t' (mem_of_mem_tail ht')
      · obtain rfl := Option.some.inj (Except.ok.inj ht')
        exact hkept.trans hstream
  · rename_i s' result hresult heq
    rw [heq] at htop
    refine ⟨htop, fun t ht => ?_⟩
    subst ht
    exact (hresult _ rfl).elim

theorem Streams.chk2ScheduleChunk (h : Streams s) (turn : Turn) (chunkId : ChunkId χ)
    (chunkData : Option (Data χ)) :
    Streams (chk2ScheduleChunk cfg turn chunkId chunkData s).1 := by
  have ⟨hstreams, htop⟩ := @Streams.waitForReadyTask _ _ cfg s h turn
  unfold ChunksSendRecv.chk2ScheduleChunk
  split
  · rename_i heq
    rwa [heq] at hstreams
  · rename_i heq
    rwa [heq] at hstreams
  · rename_i s' t heq
    rw [heq] at hstreams htop
    have ht := htop t rfl
    dsimp only
    unfold scheduleChunk
    split
    · exact hstreams.popTop.pushBack (t := t.setCommandInfo _ _ _ _) (.inr ht)
    · refine Streams.pushBack (t := t.setCommandInfo _ _ _ _) ?_ (.inr ht)
      exact hstreams.popTop.congr rfl rfl

theorem Streams.unwindTask (h : Streams s) (ht : t.streamAuthenticated = true) :
    Streams (unwindTask cfg t s) := by
  unfold ChunksSendRecv.unwindTask
  split
  · refine Streams.pushBack (t := t.detachChunkData.setCommandInfo _ _ _ _) ?_ (.inr ht)
    exact h.popTop.congr rfl rfl
  · split
    · refine Streams.pushBack (t := t.setCommandInfo _ _ _ _) ?_ (.inr ht)
      exact h.popTop.congr rfl rfl
    · exact h.popTop

theorem Streams.scheduleAuthenticationTask (h : Streams s) (t : TransferTask χ) :
    Streams (scheduleAuthenticationTask t s) := by
  unfold ChunksSendRecv.scheduleAuthenticationTask
  rw [setCommandInfo_authentication]
  refine Streams.pushBack ?_ (.inl ⟨rfl, rfl⟩)
  split
  · exact h
  · exact h.congr rfl rfl

/-- A connection is authenticated first, when it is not that of a task whose
first connect has failed. -/
theorem Streams.reconnected (h : Streams s) (hrequired : cfg.authenticationRequired = true)
    (hbootstrapped : ∀ top ∈ s.ready.head?, top.isBootstrapped = true) :
    Streams (reconnected cfg s) := by
  unfold ChunksSendRecv.reconnected
  split
  · exact h
  · rename_i top rest hready
    rw [if_pos (hbootstrapped top (by simp [hready])), hrequired]
    have hpopped := h.popTop
    rw [hready] at hpopped
    exact hpopped.scheduleAuthenticationTask _

theorem Streams.connected (h : Streams s) (hrequired : cfg.authenticationRequired = true)
    (result : Option Exception) : Streams (connected cfg result s) := by
  unfold ChunksSendRecv.connected
  split
  · exact h.pushReady fun hnone => absurd hnone (Option.some_ne_none _)
  · rw [if_pos hrequired]
    exact h.scheduleAuthenticationTask _

/-! ## Iterations -/

omit [DecidableEq χ] in
theorem Streams.rescheduleScheduler (h : Streams s) : Streams (rescheduleScheduler s) := by
  unfold ChunksSendRecv.rescheduleScheduler
  split <;> exact h.congr rfl rfl

theorem Streams.pushReadyTask (h : Streams s) (turn : Turn)
    (hrequired : cfg.authenticationRequired = true) {task : ChildTask} {result : Option Exception}
    (hreconnects : task = .reconnector → result = none →
      ∀ top ∈ s.ready.head?, top.isBootstrapped = true) :
    Streams (pushReadyTask cfg turn task result s).1 := by
  unfold ChunksSendRecv.pushReadyTask
  split
  · unfold pushScheduler
    split
    · exact h.congr rfl rfl
    · split
      · exact h.rescheduleScheduler
      · rename_i chunkId queue _
        have hscheduled := @Streams.chk2ScheduleChunk _ _ cfg s h turn (.chunk chunkId) none
        split
        · rename_i heq
          rwa [heq] at hscheduled
        · rename_i heq
          rw [heq] at hscheduled
          exact hscheduled.rescheduleScheduler
        · rename_i heq
          rw [heq] at hscheduled
          exact hscheduled.congr rfl rfl
  · exact (h.reconnected hrequired (hreconnects rfl rfl)).congr rfl rfl
  · exact h.congr rfl rfl
  · exact (h.connected hrequired result).congr rfl rfl

theorem Streams.chk2Disconnect (h : Streams s) (turn : Turn) :
    Streams (chk2Disconnect cfg turn s).1 := by
  have hflush : Streams (flushAllPendingTasks cfg turn s).1 := by
    have ⟨hstreams, htop⟩ := @Streams.waitForReadyTask _ _ cfg s h turn
    unfold flushAllPendingTasks
    split
    · exact h.cancelWorkers
    · split
      · rename_i heq
        rwa [heq] at hstreams
      · rename_i t heq
        rw [heq] at hstreams htop
        exact hstreams.unwindTask (htop t rfl)
      · rename_i heq
        rw [heq] at hstreams
        unfold chk2Finalize
        split
        · exact hstreams.congr rfl rfl
        · exact hstreams
  unfold ChunksSendRecv.chk2Disconnect
  split
  · split
    · rename_i heq
      rw [heq] at hflush
      exact hflush.congr rfl rfl
    · rename_i heq
      rwa [heq] at hflush
  · exact h

theorem Streams.chk2LoopUntilDoneInternal (h : Streams s) (turn : Turn)
    (hrequired : cfg.authenticationRequired = true)
    (hreconnects : s.exception = none → s.stopRequested = false → s.phase = .processing →
      s.childReady.head? = some (.reconnector, none) →
      ∀ top ∈ s.ready.head?, top.isBootstrapped = true) :
    Streams (chk2LoopUntilDoneInternal cfg turn s).1 := by
  unfold ChunksSendRecv.chk2LoopUntilDoneInternal
  split
  · exact h
  · rename_i hphase
    split
    · have hcanceled : Streams s.cancelChildren := h.congr rfl rfl
      exact hcanceled.chk2Disconnect turn
    · rename_i hgoes
      simp only [Bool.or_eq_true, not_or, Bool.not_eq_true, Option.isSome_eq_false_iff,
        Option.isNone_iff_eq_none] at hgoes
      split
      · rename_i task result rest hready
        refine h.pushReadyTask turn hrequired ?_
        rintro rfl rfl
        exact hreconnects hgoes.2 hgoes.1 (Classical.not_not.mp hphase) (by rw [hready]; rfl)
      · exact h.chk2Disconnect turn

omit [DecidableEq χ] in
theorem Streams.failWith (h : Streams s) (exception : Exception) :
    Streams (failWith exception s) where
  executing := h.executing
  ready := by simp [ChunksSendRecv.failWith, State.requestStop, State.cancelWorkers,
    State.cancelChildren]

theorem Streams.process (h : Streams s) (turn : Turn) (hrequired : cfg.authenticationRequired = true)
    (hreconnects : s.exception = none → s.stopRequested = false → s.phase ≠ .disconnected →
      s.childReady.head? = some (.reconnector, none) →
      ∀ top ∈ s.ready.head?, top.isBootstrapped = true) : Streams (process cfg turn s) := by
  have hloop : Streams (ChunksSendRecv.chk2LoopUntilDoneInternal cfg turn
      (chk2InitAndBeginProcessing cfg s)).1 := by
    unfold chk2InitAndBeginProcessing
    split
    · rename_i hphase
      refine Streams.chk2LoopUntilDoneInternal ?_ turn hrequired ?_
      · exact h.congr rfl rfl
      · exact fun hexception hstop _ htop => hreconnects hexception hstop (by simp [hphase]) htop
    · refine h.chk2LoopUntilDoneInternal turn hrequired ?_
      exact fun hexception hstop hphase htop => hreconnects hexception hstop (by simp [hphase]) htop
  unfold ChunksSendRecv.process
  split
  · rename_i heq
    rwa [heq] at hloop
  · rename_i exception heq
    rw [heq] at hloop
    exact hloop.failWith exception
  · rename_i heq
    rw [heq] at hloop
    split
    · rename_i exception _
      exact hloop.failWith exception
    · unfold notifyOnComplete
      split
      · rename_i exception _
        refine Streams.failWith ?_ exception
        exact hloop.congr rfl rfl
      · exact hloop.congr rfl rfl

/-- No iteration takes the reconnect of a task whose first connect has
failed. -/
def ReconnectsBootstrapped (s : State χ) : Label χ → Prop
  | .run turn => Reconnects turn s → ∀ top ∈ s.ready.head?, top.isBootstrapped = true
  | _ => True

instance : ∀ (s : State χ) (l : Label χ), Decidable (ReconnectsBootstrapped s l)
  | s, .run turn => inferInstanceAs (Decidable (Reconnects turn s → _))
  | _, .onChunkArrived _ _ _ => isTrue trivial
  | _, .onInputCompleted => isTrue trivial
  | _, .dispatchException _ => isTrue trivial
  | _, .requestCancel => isTrue trivial
  | _, .workerCompleted _ _ => isTrue trivial
  | _, .childCompleted _ _ _ => isTrue trivial

theorem Streams.chk2WaitAllEvents2Flush (h : Streams s) (hinv : Inv cfg s) (turn : Turn)
    (hcompleted : s.completed = true) (hrequired : cfg.authenticationRequired = true) :
    Streams (chk2WaitAllEvents2Flush cfg turn s) := by
  have hloop : Streams (ChunksSendRecv.chk2LoopUntilDoneInternal cfg turn
      (if s.exception.isSome then s.cancelWorkers else s)).1 := by
    split
    · rename_i hsome
      refine h.cancelWorkers.chk2LoopUntilDoneInternal turn hrequired ?_
      exact fun hnone => absurd hnone (Option.isSome_iff_ne_none.mp hsome)
    · refine h.chk2LoopUntilDoneInternal turn hrequired fun hnone _ hprocessing => ?_
      exact absurd ((hinv.completed hcompleted hnone).symm.trans hprocessing) (by simp)
  unfold ChunksSendRecv.chk2WaitAllEvents2Flush
  split
  · rename_i heq
    rw [heq] at hloop
    split <;> exact hloop.congr rfl rfl
  · rename_i heq
    rwa [heq] at hloop

theorem Streams.run (h : Streams s) (hinv : Inv cfg s) (turn : Turn)
    (hrequired : cfg.authenticationRequired = true)
    (hreconnects : ReconnectsBootstrapped s (.run turn)) : Streams (run cfg turn s) := by
  unfold ChunksSendRecv.run
  split
  · rename_i hcompleted
    exact h.chk2WaitAllEvents2Flush hinv turn hcompleted hrequired
  · rename_i hcompleted
    split
    · exact h.congr rfl rfl
    · rename_i hfailing
      split
      · rename_i exception _
        refine Streams.failWith ?_ exception
        exact h.congr rfl rfl
      · rename_i exception _ _
        exact h.failWith exception
      · rename_i hdispatched hsubscribers
        refine h.process turn hrequired fun hexception hstop hphase htop => ?_
        exact hreconnects ⟨Bool.not_eq_true _ ▸ hcompleted, Bool.not_eq_true _ ▸ hfailing,
          hdispatched, hsubscribers, hexception, hstop, hphase, htop⟩

/-! ## Completions -/

omit [DecidableEq χ] in
/-- A command completes on the stream on which it was executed. -/
theorem Streams.workerCompleted {i : Nat} (h : Streams s) (ht : s.executing[i]? = some t)
    (completion : Completion) :
    Streams (recordCompletion t completion
      { s with
        executing := s.executing.eraseIdx i
        ready := s.ready ++ [t.completed completion] }) := by
  have hstreams : Streams
      { s with
        executing := s.executing.eraseIdx i
        ready := s.ready ++ [t.completed completion] } := by
    refine Streams.pushReady (s := { s with executing := s.executing.eraseIdx i })
      ⟨fun t' ht' => h.executing t' (mem_of_mem_eraseIdx ht'), h.ready⟩ fun hnone => ?_
    cases completion with
    | failed exception leavesBlock => cases hnone
    | succeeded =>
      obtain ⟨hblock, hcommand⟩ | hstream := h.executing t (mem_of_getElem? ht)
      · simp [TransferTask.completed, hblock, hcommand]
      · simp [TransferTask.completed, hstream]
  unfold recordCompletion
  split
  · exact hstreams
  · exact hstreams
  · split
    · exact hstreams.congr rfl rfl
    · exact hstreams
  · split <;> exact hstreams.congr rfl rfl

theorem Streams.onChunkArrived (h : Streams s) (turn : Turn) (pooled : List Bool) (chunk : χ) :
    Streams (onChunkArrived cfg turn pooled chunk s) := by
  have hconnecting : Streams (chk2BeginConnecting cfg pooled s) := by
    unfold chk2BeginConnecting
    split
    · exact h
    · obtain ⟨hready, hexecuting⟩ := startConnectingTasks_workers cfg.tasksPoolSize pooled s
      exact h.congr hready hexecuting
  have hscheduled := @Streams.chk2ScheduleChunk _ _ cfg _ hconnecting turn (.chunk chunk)
    (some (.content (.chunk chunk)))
  unfold ChunksSendRecv.onChunkArrived
  split
  · exact h
  · split
    · exact h
    · split
      · rename_i heq
        rw [heq] at hscheduled
        exact hscheduled.congr rfl rfl
      · rename_i heq
        rwa [heq] at hscheduled

omit [DecidableEq χ] in
theorem Streams.onExecute (h : Streams s) (pooled : List Bool) :
    Streams (onExecute cfg pooled s) := by
  unfold ChunksSendRecv.onExecute
  split
  · exact h
  · split
    · obtain ⟨hready, hexecuting⟩ := startConnectingTasks_workers cfg.tasksPoolSize pooled
        { s with schedulerConnects := false }
      exact h.congr hready hexecuting
    · exact h.congr rfl rfl

/-! ## Runs -/

theorem step_streams (hrequired : cfg.authenticationRequired = true) {l : Label χ}
    (hinv : Inv cfg s) (h : Streams s) (hreconnects : ReconnectsBootstrapped s l)
    (hstep : step cfg s l = some s') : Streams s' := by
  unfold step at hstep
  split at hstep
  · cases hstep
  · cases l with
    | run turn =>
      cases hstep
      exact h.run hinv turn hrequired hreconnects
    | onChunkArrived turn pooled chunk =>
      dsimp only at hstep
      split at hstep
      · cases hstep
        exact h.onChunkArrived turn pooled chunk
      · cases hstep
    | onInputCompleted =>
      dsimp only at hstep
      split at hstep
      · cases hstep
        exact h.congr rfl rfl
      · cases hstep
    | dispatchException exception =>
      cases hstep
      exact h.congr rfl rfl
    | requestCancel =>
      cases hstep
      exact h.cancelWorkers.congr rfl rfl
    | workerCompleted i completion =>
      obtain ⟨t, ht, rfl⟩ := Option.map_eq_some_iff.mp hstep
      exact h.workerCompleted ht completion
    | childCompleted i result pooled =>
      obtain ⟨task, -, rfl⟩ := Option.map_eq_some_iff.mp hstep
      cases task with
      | scheduler => exact (@Streams.onExecute _ cfg s h pooled).congr rfl rfl
      | connector | reconnector => exact h.congr rfl rfl

omit [DecidableEq χ] in
theorem create_streams : Streams (State.create : State χ) where
  executing := by simp [State.create]
  ready := by simp [State.create]

/-- A unit which never takes the reconnect of a task whose first connect has
failed executes every command on an authenticated stream. -/
theorem run_streamsAuthenticated (cfg : Config χ) (hrequired : cfg.authenticationRequired = true)
    (labels : List (Label χ)) (s : State χ)
    (hrun : Transition.run (step cfg) State.create labels = some s)
    (hreconnects : Transition.Along (step cfg) ReconnectsBootstrapped State.create labels) :
    StreamsAuthenticated s := by
  have hinv : Inv cfg s ∧ Streams s := by
    refine Transition.run_invariant (P := fun s => Inv cfg s ∧ Streams s) ?_
      ⟨create_inv cfg, create_streams⟩ hreconnects hrun
    intro s l s' h hcondition hstep
    exact ⟨step_inv h.1 hstep, step_streams hrequired h.1 h.2 hcondition hstep⟩
  intro t ht hblock
  obtain ⟨hauthentication, -⟩ | hstream := hinv.2.executing t ht
  · exact absurd hauthentication hblock
  · exact hstream

/-- A deleter authenticates its connection before it removes a chunk. -/
def removedChunk : List (Label Nat) :=
  [.run quietTurn, .childCompleted 0 none [], .run quietTurn, .childCompleted 0 none [],
    .run quietTurn, .childCompleted 0 none [], .workerCompleted 0 .succeeded, .run quietTurn]

theorem run_streamsAuthenticated_removedChunk :
    ∃ s, Transition.run (step (singleConnection .deleter true [7])) State.create removedChunk =
      some s ∧ s.executing ≠ [] ∧ StreamsAuthenticated s :=
  ⟨_, rfl, by decide, run_streamsAuthenticated (singleConnection .deleter true [7]) rfl removedChunk
    _ rfl (by decide)⟩

/-- The first connect of a deleter fails, and its reconnect succeeds. -/
def reconnectedFirst : List (Label Nat) :=
  [.run quietTurn, .childCompleted 0 none [], .run quietTurn,
    .childCompleted 0 (some .systemError) [], .run quietTurn, .childCompleted 0 none [],
    .run { quietTurn with retry := .now true }, .run quietTurn, .childCompleted 0 none [],
    .run quietTurn]

theorem run_streamsAuthenticated_reconnectedFirst :
    ∃ s t, Transition.run (step (singleConnection .deleter true [7])) State.create
        reconnectedFirst = some s ∧
      s.executing = [t] ∧ t.commandId = .removeChunk ∧ t.chunkId = .chunk 7 ∧
      t.streamAuthenticated = false ∧ ¬ StreamsAuthenticated s :=
  ⟨_, _, rfl, rfl, rfl, rfl, rfl, fun h =>
    Bool.false_ne_true (h _ (List.mem_singleton.mpr rfl) (by decide))⟩

end Baselib.Transfer.ChunksSendRecv
