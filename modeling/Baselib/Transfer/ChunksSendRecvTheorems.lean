/-
Baselib.Transfer.ChunksSendRecvTheorems — where the chunks of a unit are
while it is neither stopped nor failing.

A chunk is with a task that executes, with one whose connection was lost,
among the postponed ones, or done. Each operation of the unit moves it from
one of these places to another; `Live` counts them.
-/
import Baselib.Transfer.ChunksSendRecv
import Mathlib.Data.List.Perm.Basic

namespace Baselib.Transfer.ChunksSendRecv

open TransferTask (attachStream setCommandInfo setCommandInfoStateInternal)

variable {χ : Type}

/-! ## Control state -/

/-- What the tasks and the connections have no part in. -/
structure Control (χ : Type) where
  phase : Phase
  stopRequested : Bool
  completed : Bool
  notifyCompleteOnError : Bool
  exception : Option Exception
  dispatchedException : Option Exception
  finished : Option (Option Exception)
  accepted : List χ
  acknowledged : List (Item χ)
  flushes : Nat
  finalizedAt : Option (Commit χ)

def State.control (s : State χ) : Control χ where
  phase := s.phase
  stopRequested := s.stopRequested
  completed := s.completed
  notifyCompleteOnError := s.notifyCompleteOnError
  exception := s.exception
  dispatchedException := s.dispatchedException
  finished := s.finished
  accepted := s.accepted
  acknowledged := s.acknowledged
  flushes := s.flushes
  finalizedAt := s.finalizedAt

section Control

variable {cfg : Config χ} {turn : Turn} {s : State χ}

@[simp] theorem startConnection_control (task : ChildTask) (pooled : Bool) :
    (startConnection task pooled s).control = s.control := by
  unfold startConnection
  split <;> rfl

@[simp] theorem startConnectingTasks_control (n : Nat) (pooled : List Bool) :
    (startConnectingTasks n pooled s).control = s.control := by
  induction n generalizing pooled s with
  | zero => rfl
  | succ n ih => simp [startConnectingTasks, ih]

@[simp] theorem chk2BeginConnecting_control (pooled : List Bool) :
    (chk2BeginConnecting cfg pooled s).control = s.control := by
  unfold chk2BeginConnecting
  split
  · rfl
  · exact startConnectingTasks_control cfg.tasksPoolSize pooled

@[simp] theorem getSuccessfulTopTask_control (retry : Retry) :
    (getSuccessfulTopTask cfg retry s).1.control = s.control := by
  unfold getSuccessfulTopTask
  split
  · rfl
  · split
    · rfl
    · split
      · rfl
      · split
        · rfl
        · split
          · rfl
          · split
            · rfl
            · rfl
            · rw [startConnection_control]
              rfl

variable [DecidableEq χ]

@[simp] theorem waitForReadyTask_control :
    (waitForReadyTask cfg turn s).1.control = s.control := by
  have htop := @getSuccessfulTopTask_control _ cfg s turn.retry
  unfold waitForReadyTask
  split
  · rename_i heq
    rw [heq] at htop
    split <;> exact htop
  · rename_i heq
    rwa [heq] at htop

@[simp] theorem scheduleChunk_control (chunkId : ChunkId χ) (chunkData : Option (Data χ))
    (t : TransferTask χ) : (scheduleChunk cfg chunkId chunkData t s).1.control = s.control := by
  unfold scheduleChunk
  split <;> rfl

@[simp] theorem chk2ScheduleChunk_control (chunkId : ChunkId χ) (chunkData : Option (Data χ)) :
    (chk2ScheduleChunk cfg turn chunkId chunkData s).1.control = s.control := by
  have hready := @waitForReadyTask_control _ cfg turn s _
  unfold chk2ScheduleChunk
  split
  · rename_i heq
    rwa [heq] at hready
  · rename_i heq
    rwa [heq] at hready
  · rename_i heq
    rw [heq] at hready
    exact (scheduleChunk_control _ _ _).trans hready

@[simp] theorem scheduleAuthenticationTask_control (t : TransferTask χ) :
    (scheduleAuthenticationTask t s).control = s.control := by
  unfold scheduleAuthenticationTask
  split <;> rfl

@[simp] theorem reconnected_control : (reconnected cfg s).control = s.control := by
  unfold reconnected
  split
  · rfl
  · split
    · dsimp only
      split
      · rw [scheduleAuthenticationTask_control]
        rfl
      · rfl
    · rfl

@[simp] theorem connected_control (result : Option Exception) :
    (connected cfg result s).control = s.control := by
  unfold connected
  split
  · rfl
  · split
    · rw [scheduleAuthenticationTask_control]
    · rfl

omit [DecidableEq χ] in
@[simp] theorem rescheduleScheduler_control : (rescheduleScheduler s).control = s.control := by
  unfold rescheduleScheduler
  split <;> rfl

@[simp] theorem pushScheduler_control : (pushScheduler cfg turn s).1.control = s.control := by
  unfold pushScheduler
  split
  · rfl
  · split
    · exact rescheduleScheduler_control
    · rename_i chunkId queue _
      have hscheduled := @chk2ScheduleChunk_control _ cfg turn s _ (.chunk chunkId) none
      split
      · rename_i heq
        rwa [heq] at hscheduled
      · rename_i heq
        rw [heq] at hscheduled
        exact rescheduleScheduler_control.trans hscheduled
      · rename_i heq
        rwa [heq] at hscheduled

@[simp] theorem pushReadyTask_control (task : ChildTask) (result : Option Exception) :
    (pushReadyTask cfg turn task result s).1.control = s.control := by
  unfold pushReadyTask
  split
  · exact pushScheduler_control
  · exact @reconnected_control _ cfg s _
  · rfl
  · exact @connected_control _ cfg s _ _

@[simp] theorem unwindTask_control (t : TransferTask χ) :
    (unwindTask cfg t s).control = s.control := by
  unfold unwindTask
  split
  · rfl
  · split <;> rfl

end Control

/-- What looking for a ready task leaves as it is. -/
structure Work (χ : Type) where
  executing : List (TransferTask χ)
  sessionsFlushRequested : Bool
  inputDisconnected : Bool
  postponedDataChunks : List (Item χ)
  chunksIterator : Option (List χ)
  chunksQueue : List χ

def State.work (s : State χ) : Work χ where
  executing := s.executing
  sessionsFlushRequested := s.sessionsFlushRequested
  inputDisconnected := s.inputDisconnected
  postponedDataChunks := s.postponedDataChunks
  chunksIterator := s.chunksIterator
  chunksQueue := s.chunksQueue

section Work

variable {cfg : Config χ} {turn : Turn} {s : State χ}

@[simp] theorem startConnection_work (task : ChildTask) (pooled : Bool) :
    (startConnection task pooled s).work = s.work := by
  unfold startConnection
  split <;> rfl

@[simp] theorem startConnectingTasks_work (n : Nat) (pooled : List Bool) :
    (startConnectingTasks n pooled s).work = s.work := by
  induction n generalizing pooled s with
  | zero => rfl
  | succ n ih => simp [startConnectingTasks, ih]

@[simp] theorem chk2BeginConnecting_work (pooled : List Bool) :
    (chk2BeginConnecting cfg pooled s).work = s.work := by
  unfold chk2BeginConnecting
  split
  · rfl
  · exact startConnectingTasks_work cfg.tasksPoolSize pooled

@[simp] theorem getSuccessfulTopTask_work (retry : Retry) :
    (getSuccessfulTopTask cfg retry s).1.work = s.work := by
  unfold getSuccessfulTopTask
  split
  · rfl
  · split
    · rfl
    · split
      · rfl
      · split
        · rfl
        · split
          · rfl
          · split
            · rfl
            · rfl
            · rw [startConnection_work]
              rfl

@[simp] theorem waitForReadyTask_work [DecidableEq χ] :
    (waitForReadyTask cfg turn s).1.work = s.work := by
  have htop := @getSuccessfulTopTask_work _ cfg s turn.retry
  unfold waitForReadyTask
  split
  · rename_i heq
    rw [heq] at htop
    split <;> exact htop
  · rename_i heq
    rwa [heq] at htop

end Work

/-! ## What a task carries -/

/-- The block the unit sends for a chunk. -/
def Config.payload (cfg : Config χ) (c : χ) : Option (Data χ) :=
  cfg.sentData (some (.content (.chunk c)))

/-- A chunk when it is done: a block which was sent or received goes with
its id. -/
def Config.item (cfg : Config χ) (c : χ) : Item χ :=
  (.chunk c, match cfg.kind with
    | .transmitter | .receiver => some (.content (.chunk c))
    | .deleter => none)

theorem Config.item_injective (cfg : Config χ) : Function.Injective cfg.item := by
  intro c c' h
  simpa [Config.item] using congrArg Prod.fst h

theorem Config.commandId_cases (cfg : Config χ) :
    cfg.commandId = .sendChunk ∨ cfg.commandId = .receiveChunk ∨ cfg.commandId = .removeChunk := by
  unfold Config.commandId
  split <;> simp

/-- The task has no chunk to transfer. -/
def TransferTask.Idle (t : TransferTask χ) : Prop :=
  t.blockType = .normal ∧ t.chunkId = .nil ∧ t.chunkData = none

section

variable [DecidableEq χ]

def TransferTask.carries (c : χ) (t : TransferTask χ) : Bool :=
  t.blockType = .normal && t.chunkId = .chunk c

@[simp] theorem scheduled_carries (c : χ) (t : TransferTask χ) :
    t.scheduled.carries c = t.carries c := rfl

/-- The task has lost its connection with the chunk. -/
def TransferTask.retains (c : χ) (t : TransferTask χ) : Bool :=
  t.exception.isSome && t.carries c

/-- The task has transferred the chunk. -/
def TransferTask.yields (c : χ) (t : TransferTask χ) : Bool :=
  t.exception.isNone && t.carries c

theorem TransferTask.Idle.carries {t : TransferTask χ} (h : t.Idle) (c : χ) :
    t.carries c = false := by
  simp [TransferTask.carries, h.2.1]

theorem carries_of_authentication {t : TransferTask χ} (h : t.blockType = .authentication) (c : χ) :
    t.carries c = false := by
  simp [TransferTask.carries, h]

theorem carries_chunk {t : TransferTask χ} {c : χ} (hblock : t.blockType = .normal)
    (hchunk : t.chunkId = .chunk c) (c' : χ) : t.carries c' = decide (c = c') := by
  simp [TransferTask.carries, hblock, hchunk]

/-! ## Commands -/

variable {cfg : Config χ} {t : TransferTask χ}

theorem setCommandInfo_chunk (cfg : Config χ) (c : χ) (chunkData : Option (Data χ))
    (t : TransferTask χ) :
    t.setCommandInfo cfg.commandId (.chunk c) chunkData .normal =
      { t with
        commandId := cfg.commandId
        chunkId := .chunk c
        blockType := .normal
        chunkData := chunkData } := by
  rcases cfg.commandId_cases with h | h | h <;>
    simp [setCommandInfo, setCommandInfoStateInternal, h]

theorem setCommandInfo_flush (t : TransferTask χ) :
    t.setCommandInfo .flushPeerSessions .nil none .normal =
      { t with
        commandId := .flushPeerSessions
        chunkId := .nil
        blockType := .normal
        chunkData := none } := by
  simp [setCommandInfo, setCommandInfoStateInternal]

theorem setCommandInfo_authentication (t : TransferTask χ) :
    t.setCommandInfo .sendChunk .nil (some .authentication) .authentication =
      { t with
        commandId := .sendChunk
        chunkId := .default
        blockType := .authentication
        chunkData := some .authentication } := by
  simp [setCommandInfo, setCommandInfoStateInternal]

/-- A task which executes transfers a chunk, authenticates its stream or
flushes the sessions. -/
structure Armed (cfg : Config χ) (sessionsFlushRequested : Bool) (t : TransferTask χ) : Prop where
  bootstrapped : t.isBootstrapped = true
  command :
    (∃ c, t.blockType = .normal ∧ t.chunkId = .chunk c ∧ t.chunkData = cfg.payload c ∧
      t.commandId = cfg.commandId) ∨
    (t.blockType = .authentication ∧ t.commandId = .sendChunk ∧
      cfg.authenticationRequired = true) ∨
    (t.Idle ∧ t.commandId = .flushPeerSessions ∧ sessionsFlushRequested = true)

/-- A ready task which has succeeded. What a transmitter has sent counts no
more. -/
structure Succeeded (cfg : Config χ) (t : TransferTask χ) : Prop where
  bootstrapped : t.isBootstrapped = true
  result : cfg.kind = .transmitter ∨ t.blockType = .authentication ∨ t.Idle ∨
    ∃ c, t.blockType = .normal ∧ t.chunkId = .chunk c ∧ t.chunkData = (cfg.item c).2 ∧
      t.isCompleted = true

/-- A ready task which has failed; a receiver can have a part of a chunk in
its block. -/
def Failed (cfg : Config χ) (sessionsFlushRequested : Bool) (t : TransferTask χ) : Prop :=
  (t.Idle ∧ (t.isBootstrapped = true → sessionsFlushRequested = true)) ∨
  (t.isBootstrapped = true ∧
    ((t.blockType = .authentication ∧ cfg.authenticationRequired = true) ∨
      ∃ c, t.blockType = .normal ∧ t.chunkId = .chunk c ∧
        (cfg.kind ≠ .receiver → t.chunkData = cfg.payload c)))

theorem Armed.chunk (ht : t.isBootstrapped = true) (b : Bool) (c : χ) :
    Armed cfg b (t.setCommandInfo cfg.commandId (.chunk c) (cfg.payload c) .normal).scheduled := by
  rw [setCommandInfo_chunk]
  exact ⟨ht, .inl ⟨c, rfl, rfl, rfl, rfl⟩⟩

theorem Armed.authentication (ht : t.isBootstrapped = true)
    (hrequired : cfg.authenticationRequired = true) (b : Bool) :
    Armed cfg b (t.setCommandInfo .sendChunk .nil (some .authentication) .authentication).scheduled := by
  rw [setCommandInfo_authentication]
  exact ⟨ht, .inr (.inl ⟨rfl, rfl, hrequired⟩)⟩

theorem Armed.flush (ht : t.isBootstrapped = true) :
    Armed cfg true (t.setCommandInfo .flushPeerSessions .nil none .normal).scheduled := by
  rw [setCommandInfo_flush]
  exact ⟨ht, .inr (.inr ⟨⟨rfl, rfl, rfl⟩, rfl, rfl⟩)⟩

omit [DecidableEq χ] in
theorem sentData_payload (cfg : Config χ) (c : χ) : cfg.sentData (cfg.payload c) = cfg.payload c := by
  unfold Config.payload Config.sentData
  cases cfg.kind <;> rfl

/-! ## Where the chunks are -/

namespace State

/-- The chunks of the unit. -/
def source (cfg : Config χ) (s : State χ) : List χ :=
  match cfg.kind with
  | .transmitter => s.accepted
  | .receiver | .deleter => cfg.chunks

/-- The chunks which are not scheduled yet. -/
def remaining (cfg : Config χ) (s : State χ) : List χ :=
  match cfg.kind with
  | .transmitter => []
  | .receiver | .deleter => s.chunksQueue ++ s.chunksIterator.getD cfg.chunks

/-- How often the chunk is under way. -/
def held (c : χ) (s : State χ) : Nat :=
  s.executing.countP (·.carries c) + s.ready.countP (·.retains c) +
    s.postponedDataChunks.countP (·.1 = .chunk c)

/-- How often the chunk is done but not handed on. -/
def undelivered (c : χ) (s : State χ) : Nat := s.ready.countP (·.yields c)

/-- The reconnect tasks. -/
def reconnectors (s : State χ) : Nat :=
  s.childReady.countP (·.1 = .reconnector) + s.childExecuting.count .reconnector

end State

/-- Once a flush of the sessions is requested there is nothing else left
to do. -/
structure Quiet (inputDisconnected : Bool) (postponed : List (Item χ))
    (ready executing : List (TransferTask χ)) (childReady : List (ChildTask × Option Exception))
    (childExecuting : List ChildTask) : Prop where
  inputDisconnected : inputDisconnected = true
  postponed : postponed = []
  ready : ∀ t ∈ ready, ∀ c, t.carries c = false
  executing : ∀ t ∈ executing, ∀ c, t.carries c = false
  childReady : ∀ child ∈ childReady, child.1 = .reconnector
  childExecuting : ∀ child ∈ childExecuting, child = .reconnector

/-- The state of a unit which is neither stopped nor failing, when it has
taken the chunks `taken` besides those it accounts for. -/
structure Live (cfg : Config χ) (taken : List χ) (s : State χ) : Prop where
  executing : ∀ t ∈ s.executing, Armed cfg s.sessionsFlushRequested t
  rested : ∀ t ∈ s.ready, t.commandId = .noCommand
  succeeded : ∀ t ∈ s.ready, t.exception = none → Succeeded cfg t
  failed : ∀ t ∈ s.ready, t.exception ≠ none → Failed cfg s.sessionsFlushRequested t
  postponed : ∀ item ∈ s.postponedDataChunks, ∃ c, item = (.chunk c, cfg.payload c)
  attended : s.postponedDataChunks ≠ [] → s.ready ≠ [] ∨ s.executing ≠ []
  dropped : s.isDroppedConnection = true → ∃ top rest, s.ready = top :: rest ∧ top.exception ≠ none
  reconnecting : s.reconnecting = true → s.isDroppedConnection = true
  reconnectors : s.reconnectors ≤ s.reconnecting.toNat
  source : ∀ c, (s.source cfg).count c + taken.count c =
    s.acknowledged.count (cfg.item c) + s.held c + (s.remaining cfg).count c
  acknowledged : ∀ item ∈ s.acknowledged, ∃ c, item = cfg.item c
  delivery : cfg.kind ≠ .transmitter → ∀ c,
    s.acknowledged.count (cfg.item c) = s.delivered.count (cfg.item c) + s.undelivered c
  delivered : ∀ item ∈ s.delivered, ∃ c, item = cfg.item c
  input : cfg.kind ≠ .transmitter → s.inputDisconnected = true → s.remaining cfg = []
  scheduler : cfg.kind = .transmitter →
    (∀ child ∈ s.childReady, child.1 ≠ .scheduler) ∧ .scheduler ∉ s.childExecuting
  created : s.phase = .created → s.sessionsFlushRequested = false
  flushing : s.sessionsFlushRequested = true →
    Quiet s.inputDisconnected s.postponedDataChunks s.ready s.executing s.childReady
      s.childExecuting
  disconnected : s.phase = .disconnected →
    s.ready = [] ∧ s.executing = [] ∧ s.inputDisconnected = true

/-! ## Moving a chunk -/

theorem countP_cons_eq {α : Type} (p : α → Bool) (a : α) (l : List α) :
    (a :: l).countP p = l.countP p + (p a).toNat := by
  cases h : p a <;> simp [h]

variable {s : State χ} {taken taken' : List χ}

theorem Live.pushBack (h : Live cfg taken s) (hphase : s.phase ≠ .disconnected)
    (harmed : Armed cfg s.sessionsFlushRequested t.scheduled)
    (hcount : ∀ c, taken'.count c = taken.count c + (t.carries c).toNat)
    (hflush : s.sessionsFlushRequested = true → ∀ c, t.carries c = false) :
    Live cfg taken' (s.pushBack t) :=
  { h with
    executing := by
      intro t' ht'
      obtain ht' | ht' := List.mem_append.mp ht'
      · exact h.executing t' ht'
      · obtain rfl := List.mem_singleton.mp ht'
        exact harmed
    attended _ := .inr (List.append_ne_nil_of_right_ne_nil _ (List.cons_ne_nil _ _))
    source c := by
      have hsource := h.source c
      have hheld : (s.pushBack t).held c = s.held c + (t.carries c).toNat := by
        simp only [State.held, State.pushBack, List.countP_append, countP_cons_eq,
          List.countP_nil, scheduled_carries]
        omega
      rw [hcount, hheld]
      simp only [State.pushBack, State.source, State.remaining] at hsource ⊢
      omega
    flushing hrequested := by
      have hquiet := h.flushing hrequested
      refine { hquiet with executing := fun t' ht' => ?_ }
      obtain ht' | ht' := List.mem_append.mp ht'
      · exact hquiet.executing t' ht'
      · obtain rfl := List.mem_singleton.mp ht'
        exact hflush hrequested
    disconnected hdisconnected := absurd hdisconnected hphase }

theorem Live.popPostponed {c : χ} {item : Item χ} {rest : List (Item χ)}
    (h : Live cfg (c :: taken) s) (hpostponed : s.postponedDataChunks = item :: rest)
    (hitem : item.1 = .chunk c) :
    Live cfg taken { s with postponedDataChunks := rest } :=
  { h with
    postponed := fun item' hitem' =>
      h.postponed item' (hpostponed ▸ List.mem_cons_of_mem _ hitem')
    attended := fun _ => h.attended (hpostponed ▸ List.cons_ne_nil _ _)
    source := by
      intro c'
      have hsource := h.source c'
      simp only [State.held, hpostponed, List.countP_cons, hitem, ChunkId.chunk.injEq,
        List.count_cons, beq_iff_eq, decide_eq_true_eq, State.source, State.remaining]
        at hsource ⊢
      omega
    flushing := fun hrequested =>
      absurd (h.flushing hrequested).postponed (hpostponed ▸ List.cons_ne_nil _ _) }

theorem Live.popTop {top : TransferTask χ} {rest : List (TransferTask χ)}
    (h : Live cfg taken s) (hready : s.ready = top :: rest)
    (hdropped : s.isDroppedConnection = false)
    (hattended : s.postponedDataChunks ≠ [] → rest ≠ [] ∨ s.executing ≠ [])
    (hcount : ∀ c, taken.count c = taken'.count c + (top.retains c).toNat)
    (hyields : cfg.kind ≠ .transmitter → ∀ c, top.yields c = false) :
    Live cfg taken' { s with ready := rest } :=
  have hmem : ∀ t ∈ rest, t ∈ s.ready := fun t ht => hready ▸ List.mem_cons_of_mem _ ht
  { h with
    rested := fun t ht => h.rested t (hmem t ht)
    succeeded := fun t ht => h.succeeded t (hmem t ht)
    failed := fun t ht => h.failed t (hmem t ht)
    attended := hattended
    dropped := fun hd => absurd (hd.symm.trans hdropped) Bool.false_ne_true.symm
    source := by
      intro c
      have hsource := h.source c
      have hc := hcount c
      simp only [State.held, hready, countP_cons_eq, State.source, State.remaining]
        at hsource ⊢
      omega
    delivery := by
      intro hkind c
      have hdelivery := h.delivery hkind c
      simp only [State.undelivered, hready, countP_cons_eq, hyields hkind c,
        Bool.toNat_false, Nat.add_zero] at hdelivery ⊢
      exact hdelivery
    flushing := fun hrequested =>
      have hquiet := h.flushing hrequested
      { hquiet with ready := fun t ht => hquiet.ready t (hmem t ht) }
    disconnected := fun hphase => by
      obtain ⟨hnil, -⟩ := h.disconnected hphase
      exact absurd (hready.symm.trans hnil) (List.cons_ne_nil _ _) }

/-! ## Connections -/

omit [DecidableEq χ] in
theorem startConnection_eq (task : ChildTask) (pooled : Bool) (s : State χ) :
    ∃ childReady childExecuting,
      startConnection task pooled s =
        { s with childReady := childReady, childExecuting := childExecuting } ∧
      (∀ child ∈ childReady, child ∈ s.childReady ∨ child.1 = task) ∧
      (∀ child ∈ childExecuting, child ∈ s.childExecuting ∨ child = task) ∧
      childReady.countP (·.1 = .reconnector) + childExecuting.count .reconnector =
        s.reconnectors + (decide (task = .reconnector)).toNat := by
  unfold startConnection
  split
  · refine ⟨_, _, rfl, fun child hchild => ?_, fun child hchild => .inl hchild, ?_⟩
    · refine (List.mem_append.mp hchild).imp_right fun hchild => ?_
      rw [List.mem_singleton.mp hchild]
    · simp only [List.countP_append, countP_cons_eq, List.countP_nil, State.reconnectors]
      omega
  · refine ⟨_, _, rfl, fun child hchild => .inl hchild, fun child hchild => ?_, ?_⟩
    · exact (List.mem_append.mp hchild).imp_right List.mem_singleton.mp
    · simp only [List.count_eq_countP, List.countP_append, countP_cons_eq, List.countP_nil,
        State.reconnectors, beq_eq_decide]
      omega

theorem Live.startConnection (h : Live cfg taken s) (task : ChildTask) (pooled : Bool)
    (htask : task ≠ .scheduler)
    (hflush : s.sessionsFlushRequested = true → task = .reconnector)
    (hreconnectors : s.reconnectors + (decide (task = .reconnector)).toNat ≤
      s.reconnecting.toNat) :
    Live cfg taken (startConnection task pooled s) := by
  obtain ⟨childReady, childExecuting, heq, hready, hexecuting, hcount⟩ :=
    startConnection_eq task pooled s
  rw [heq]
  refine { h with
    reconnectors := Nat.le_trans (Nat.le_of_eq hcount) hreconnectors
    scheduler := fun hkind => ⟨fun child hchild => ?_, fun hchild => ?_⟩
    flushing := fun hrequested => ?_ }
  · exact (hready child hchild).elim ((h.scheduler hkind).1 child) fun hc => hc ▸ htask
  · exact (hexecuting _ hchild).elim (h.scheduler hkind).2 htask.symm
  · have hquiet := h.flushing hrequested
    have hreconnector := hflush hrequested
    refine { hquiet with
      childReady := fun child hchild => ?_
      childExecuting := fun child hchild => ?_ }
    · exact (hready child hchild).elim (hquiet.childReady child) (·.trans hreconnector)
    · exact (hexecuting child hchild).elim (hquiet.childExecuting child) (·.trans hreconnector)

theorem Live.startConnectingTasks (n : Nat) (pooled : List Bool) (h : Live cfg taken s)
    (hflush : s.sessionsFlushRequested = false) :
    Live cfg taken (startConnectingTasks n pooled s) := by
  induction n generalizing pooled s with
  | zero => exact h
  | succ n ih =>
    refine ih pooled.tail (h.startConnection .connector (pooled.headD false) (by simp) ?_ ?_) ?_
    · exact fun hrequested => absurd (hrequested.symm.trans hflush) Bool.false_ne_true.symm
    · exact h.reconnectors
    · exact (congrArg Work.sessionsFlushRequested (startConnection_work _ _)).trans hflush

theorem Live.chk2BeginConnecting (h : Live cfg taken s) (pooled : List Bool)
    (hflush : s.sessionsFlushRequested = false) :
    Live cfg taken (chk2BeginConnecting cfg pooled s) := by
  unfold ChunksSendRecv.chk2BeginConnecting
  split
  · exact h
  · exact { h.startConnectingTasks cfg.tasksPoolSize pooled hflush with }

omit [DecidableEq χ] in
/-- A top task is returned as it is, and has succeeded. -/
theorem getSuccessfulTopTask_some {retry : Retry} {s' : State χ} {top : TransferTask χ}
    (heq : getSuccessfulTopTask cfg retry s = (s', .ok (some top))) :
    s' = s ∧ s.stopRequested = false ∧ top.exception = none ∧ ∃ rest, s.ready = top :: rest := by
  unfold getSuccessfulTopTask at heq
  split at heq
  · simp at heq
  · rename_i top' rest hready
    split at heq
    · simp at heq
    · rename_i hstop
      split at heq
      · rename_i hexception
        simp only [Prod.mk.injEq, Except.ok.injEq, Option.some.injEq] at heq
        obtain ⟨rfl, rfl⟩ := heq
        exact ⟨rfl, Bool.not_eq_true _ ▸ hstop, hexception, rest, hready⟩
      · split at heq
        · simp at heq
        · split at heq
          · simp at heq
          · split at heq <;> simp at heq

/-- The top task is not authenticated any more. -/
theorem Live.startReconnect {top : TransferTask χ} {rest : List (TransferTask χ)}
    (h : Live cfg taken s) (hready : s.ready = top :: rest) (hfailed : top.exception ≠ none) :
    Live cfg taken { s with
      isDroppedConnection := true
      reconnecting := true
      ready := { top with isAuthenticated := false } :: rest } := by
  have hmem : ∀ {P : TransferTask χ → Prop}, (∀ t, P t → P { t with isAuthenticated := false }) →
      (∀ t ∈ s.ready, P t) →
      ∀ t ∈ ({ top with isAuthenticated := false } : TransferTask χ) :: rest, P t := by
    intro P hP hall t ht
    obtain rfl | ht := List.mem_cons.mp ht
    · exact hP top (hall top (hready ▸ List.mem_cons_self))
    · exact hall t (hready ▸ List.mem_cons_of_mem _ ht)
  have hcount : ∀ p : TransferTask χ → Bool, p { top with isAuthenticated := false } = p top →
      (({ top with isAuthenticated := false } : TransferTask χ) :: rest).countP p =
        s.ready.countP p := by
    intro p hp
    rw [hready, countP_cons_eq, countP_cons_eq, hp]
  refine { h with
    rested := hmem (fun t ht => ht) h.rested
    succeeded := hmem (fun t ht hexception => ?_) h.succeeded
    failed := hmem (fun t ht hexception => ht hexception) h.failed
    attended := fun _ => .inl (List.cons_ne_nil _ _)
    dropped := fun _ => ⟨_, rest, rfl, hfailed⟩
    reconnecting := fun _ => rfl
    reconnectors := Nat.le_trans h.reconnectors (Bool.toNat_le _)
    source := fun c => ?_
    delivery := fun hkind c => ?_
    flushing := fun hrequested => ?_
    disconnected := fun hphase => ?_ }
  · exact { ht hexception with }
  · have hsource := h.source c
    simp only [State.held, State.source, State.remaining] at hsource ⊢
    rwa [hcount (·.retains c) rfl]
  · have hdelivery := h.delivery hkind c
    simp only [State.undelivered] at hdelivery ⊢
    rwa [hcount (·.yields c) rfl]
  · have hquiet := h.flushing hrequested
    exact { hquiet with ready := hmem (fun t ht c => ht c) hquiet.ready }
  · exact absurd (hready.symm.trans (h.disconnected hphase).1) (List.cons_ne_nil _ _)

/-- Waiting for a reconnect leaves every chunk where it is. -/
theorem Live.getSuccessfulTopTask (h : Live cfg taken s) (retry : Retry) :
    Live cfg taken (getSuccessfulTopTask cfg retry s).1 := by
  unfold ChunksSendRecv.getSuccessfulTopTask
  split
  · exact h
  · rename_i top rest hready
    split
    · exact h
    · split
      · exact h
      · rename_i exception hexception
        have hfailed : top.exception ≠ none := hexception ▸ Option.some_ne_none _
        have hdropped : Live cfg taken { s with isDroppedConnection := true } :=
          { h with
            dropped := fun _ => ⟨top, rest, hready, hfailed⟩
            reconnecting := fun _ => rfl }
        split
        · exact h
        · rename_i hreconnecting
          split
          · exact h
          · split
            · exact hdropped
            · exact hdropped
            · rename_i pooled
              have hcount := h.reconnectors
              simp only [Bool.not_eq_true] at hreconnecting
              rw [hreconnecting] at hcount
              exact (h.startReconnect hready hfailed).startConnection .reconnector pooled (by simp)
                (fun _ => rfl) (Nat.succ_le_succ hcount)

/-! ## Handing on -/

theorem setChunkId_nil (hblock : t.blockType = .normal) :
    t.setChunkId .nil = { t with chunkId := .nil } := by
  simp [TransferTask.setChunkId, setCommandInfoStateInternal, hblock]

/-- A task which is ready for a command has handed on what it had. -/
theorem handleReadyTask_spec {notifyOnNext : Notification} {b : Bool} {top : TransferTask χ}
    {items : List (Item χ)} (htop : Succeeded cfg top)
    (hflush : b = true → ∀ c, top.carries c = false)
    (heq : handleReadyTask cfg notifyOnNext b top = .ok (some (t, items))) :
    t.exception = top.exception ∧ t.commandId = top.commandId ∧ Succeeded cfg t ∧
      (∀ c, top.carries c = false → t.carries c = false) ∧
      (∀ item ∈ items, ∃ c, item = cfg.item c) ∧
      (cfg.kind ≠ .transmitter →
        ∀ c, t.carries c = false ∧ items.count (cfg.item c) = (top.carries c).toNat) := by
  have hidle : top.Idle → ∀ c, top.carries c = false ∧
      ([] : List (Item χ)).count (cfg.item c) = (top.carries c).toNat := fun h c => by
    simp [h.carries c]
  have hchunk : ∀ c, top.blockType = .normal → top.chunkId = .chunk c →
      ∀ c', [cfg.item c].count (cfg.item c') = (top.carries c').toNat := fun c hblock hchunk c' => by
    rw [carries_chunk hblock hchunk, List.count_singleton]
    by_cases hc : c = c'
    · simp [hc]
    · simp [hc, cfg.item_injective.eq_iff]
  unfold handleReadyTask at heq
  split at heq
  · rename_i hkind
    simp only [Except.ok.injEq, Option.some.injEq, Prod.mk.injEq] at heq
    obtain ⟨rfl, rfl⟩ := heq
    refine ⟨rfl, rfl, ⟨htop.bootstrapped, hkind.imp_right .inl⟩, fun _ => id, by simp, fun hne c => ?_⟩
    have hblock := hkind.resolve_left hne
    simp [carries_of_authentication hblock,
      carries_of_authentication (t := top.detachChunkData) hblock]
  · rename_i hkind
    obtain ⟨hkind, hblock⟩ := not_or.mp hkind
    have hresult := (htop.result.resolve_left hkind).resolve_left hblock
    unfold handleReadyTaskImpl at heq
    split at heq
    · rename_i htransmitter
      exact absurd htransmitter hkind
    · rename_i hreceiver
      split at heq
      · rename_i hsome
        split at heq
        · simp at heq
        · simp at heq
        · simp only [Except.ok.injEq, Option.some.injEq, Prod.mk.injEq] at heq
          obtain ⟨rfl, rfl⟩ := heq
          obtain hnone | ⟨c, hnormal, hc, hdata, -⟩ := hresult
          · simp [hnone.2.2] at hsome
          · have hitem : (top.chunkId, top.chunkData) = cfg.item c := Prod.ext hc hdata
            rw [setChunkId_nil (t := top.detachChunkData) hnormal, hitem]
            refine ⟨rfl, rfl, ⟨htop.bootstrapped, .inr (.inr (.inl ⟨hnormal, rfl, rfl⟩))⟩, ?_, ?_, ?_⟩
            · exact fun c' _ => by simp [TransferTask.carries]
            · exact fun item hitem => ⟨c, List.mem_singleton.mp hitem⟩
            · exact fun _ c' => ⟨by simp [TransferTask.carries], hchunk c hnormal hc c'⟩
      · rename_i hnone
        simp only [Except.ok.injEq, Option.some.injEq, Prod.mk.injEq] at heq
        obtain ⟨rfl, rfl⟩ := heq
        obtain hempty | ⟨c, -, -, hdata, -⟩ := hresult
        · exact ⟨rfl, rfl, htop, fun _ => id, by simp, fun _ => hidle hempty⟩
        · simp [hdata, Config.item, hreceiver] at hnone
    · rename_i hdeleter
      split at heq
      · rename_i hcondition
        split at heq
        · simp at heq
        · simp at heq
        · simp only [Except.ok.injEq, Option.some.injEq, Prod.mk.injEq] at heq
          obtain ⟨rfl, rfl⟩ := heq
          obtain hnone | ⟨c, hnormal, hc, hdata, -⟩ := hresult
          · exact absurd hnone.2.1 hcondition.1
          · have hdata' : top.chunkData = none := by simp [hdata, Config.item, hdeleter]
            have hitem : (top.chunkId, (none : Option (Data χ))) = cfg.item c := by
              simp [Config.item, hdeleter, hc]
            rw [setChunkId_nil hnormal, hitem]
            refine ⟨rfl, rfl, ⟨htop.bootstrapped, .inr (.inr (.inl ⟨hnormal, rfl, hdata'⟩))⟩, ?_, ?_, ?_⟩
            · exact fun c' _ => by simp [TransferTask.carries]
            · exact fun item hitem => ⟨c, List.mem_singleton.mp hitem⟩
            · exact fun _ c' => ⟨by simp [TransferTask.carries], hchunk c hnormal hc c'⟩
      · rename_i hcondition
        simp only [Except.ok.injEq, Option.some.injEq, Prod.mk.injEq] at heq
        obtain ⟨rfl, rfl⟩ := heq
        obtain hempty | ⟨c, hnormal, hc, -, hcompleted⟩ := hresult
        · exact ⟨rfl, rfl, htop, fun _ => id, by simp, fun _ => hidle hempty⟩
        · refine absurd ⟨by simp [hc], hcompleted, Bool.eq_false_iff.mpr fun hb => ?_⟩ hcondition
          have hcarries := hflush hb c
          simp [carries_chunk hnormal hc] at hcarries

/-- The top task takes a command. -/
structure Free (cfg : Config χ) (t : TransferTask χ) : Prop where
  exception : t.exception = none
  bootstrapped : t.isBootstrapped = true
  carries : cfg.kind ≠ .transmitter → ∀ c, t.carries c = false

theorem Free.retains (h : Free cfg t) (c : χ) : t.retains c = false := by
  simp [TransferTask.retains, h.exception]

theorem Free.yields (h : Free cfg t) (hkind : cfg.kind ≠ .transmitter) (c : χ) :
    t.yields c = false := by
  simp [TransferTask.yields, h.carries hkind]

/-- The top task hands on what it has transferred. -/
theorem Live.handOn {top : TransferTask χ} {rest : List (TransferTask χ)} {items : List (Item χ)}
    (h : Live cfg taken s) (hready : s.ready = top :: rest)
    (hdropped : s.isDroppedConnection = false) (htop : ∀ c, top.retains c = false)
    (hnone : t.exception = none) (hcommand : t.commandId = .noCommand)
    (hsucceeded : Succeeded cfg t) (hkept : ∀ c, top.carries c = false → t.carries c = false)
    (hitems : ∀ item ∈ items, ∃ c, item = cfg.item c)
    (hcarries : cfg.kind ≠ .transmitter →
      ∀ c, t.carries c = false ∧ items.count (cfg.item c) = (top.yields c).toNat) :
    Live cfg taken { s with ready := t :: rest, delivered := s.delivered ++ items } := by
  have hmem : ∀ t' ∈ rest, t' ∈ s.ready := fun t' ht' => hready ▸ List.mem_cons_of_mem _ ht'
  refine { h with
    rested := fun t' ht' => ?_
    succeeded := fun t' ht' hexception => ?_
    failed := fun t' ht' hexception => ?_
    attended := fun _ => .inl (List.cons_ne_nil _ _)
    dropped := fun hd => absurd (hd.symm.trans hdropped) Bool.false_ne_true.symm
    source := fun c => ?_
    delivery := fun hkind c => ?_
    delivered := fun item hitem => ?_
    flushing := fun hrequested => ?_
    disconnected := fun hphase => ?_ }
  · obtain rfl | ht' := List.mem_cons.mp ht'
    · exact hcommand
    · exact h.rested t' (hmem t' ht')
  · obtain rfl | ht' := List.mem_cons.mp ht'
    · exact hsucceeded
    · exact h.succeeded t' (hmem t' ht') hexception
  · obtain rfl | ht' := List.mem_cons.mp ht'
    · exact absurd hnone hexception
    · exact h.failed t' (hmem t' ht') hexception
  · have hsource := h.source c
    have hretains : t.retains c = false := by simp [TransferTask.retains, hnone]
    simp only [State.held, hready, countP_cons_eq, htop c, hretains, State.source,
      State.remaining] at hsource ⊢
    exact hsource
  · have hdelivery := h.delivery hkind c
    obtain ⟨hc, hcount⟩ := hcarries hkind c
    have hyields : t.yields c = false := by simp [TransferTask.yields, hc]
    simp only [State.undelivered, hready, countP_cons_eq, hyields, Bool.toNat_false,
      List.count_append, hcount] at hdelivery ⊢
    omega
  · exact (List.mem_append.mp hitem).elim (h.delivered item) (hitems item)
  · have hquiet := h.flushing hrequested
    refine { hquiet with ready := fun t' ht' => ?_ }
    obtain rfl | ht' := List.mem_cons.mp ht'
    · exact fun c => hkept c (hquiet.ready top (hready ▸ List.mem_cons_self) c)
    · exact hquiet.ready t' (hmem t' ht')
  · exact absurd (hready.symm.trans (h.disconnected hphase).1) (List.cons_ne_nil _ _)

/-- A task which waits for a command is the top one. -/
theorem Live.waitForReadyTask (h : Live cfg taken s) (turn : Turn) :
    Live cfg taken (waitForReadyTask cfg turn s).1 ∧
      ∀ t, (waitForReadyTask cfg turn s).2 = .ok (some t) →
        Free cfg t ∧ (waitForReadyTask cfg turn s).1.isDroppedConnection = false ∧
          ∃ rest, (waitForReadyTask cfg turn s).1.ready = t :: rest := by
  have htop := h.getSuccessfulTopTask turn.retry
  unfold ChunksSendRecv.waitForReadyTask
  split
  · rename_i s' top heq
    obtain ⟨rfl, -, hnone, rest, hready⟩ := getSuccessfulTopTask_some heq
    have hmem : top ∈ s'.ready := hready ▸ List.mem_cons_self
    split
    · exact ⟨h, by simp⟩
    · exact ⟨h, by simp⟩
    · rename_i t items hhandled
      obtain ⟨hexception, hcommand, hsucceeded, hkept, hitems, hcarries⟩ :=
        handleReadyTask_spec (h.succeeded top hmem hnone)
          (fun hrequested => (h.flushing hrequested).ready top hmem) hhandled
      have hdropped : s'.isDroppedConnection = false := by
        refine Bool.eq_false_iff.mpr fun hdropped => ?_
        obtain ⟨top', rest', hready', hfailed⟩ := h.dropped hdropped
        exact hfailed ((List.cons.inj (hready.symm.trans hready')).1 ▸ hnone)
      have hyields : ∀ c, top.yields c = top.carries c := fun c => by
        simp [TransferTask.yields, hnone]
      rw [hready]
      refine ⟨h.handOn hready hdropped (fun c => by simp [TransferTask.retains, hnone])
        (hexception.trans hnone) (hcommand.trans (h.rested top hmem)) hsucceeded hkept hitems
        fun hkind c => by rw [hyields]; exact hcarries hkind c, ?_⟩
      intro t' ht'
      obtain rfl := Option.some.inj (Except.ok.inj ht')
      exact ⟨⟨hexception.trans hnone, hsucceeded.bootstrapped, fun hkind c => (hcarries hkind c).1⟩,
        hdropped, rest, rfl⟩
  · rename_i s' result hresult heq
    rw [heq] at htop
    refine ⟨htop, fun t ht => ?_⟩
    subst ht
    exact (hresult _ rfl).elim

/-! ## Commands for the top task -/

theorem toNat_carries_chunk (c c' : χ) (chunkData : Option (Data χ)) :
    ((t.setCommandInfo cfg.commandId (.chunk c) chunkData .normal).carries c').toNat =
      [c].count c' := by
  rw [setCommandInfo_chunk, carries_chunk rfl rfl, List.count_singleton]
  by_cases hc : c = c' <;> simp [hc]

theorem Live.armTop {c : χ} {rest : List (TransferTask χ)} (h : Live cfg taken s)
    (hready : s.ready = t :: rest) (hfree : Free cfg t) (hdropped : s.isDroppedConnection = false)
    (hphase : s.phase ≠ .disconnected) (hflush : s.sessionsFlushRequested = false) :
    Live cfg (c :: taken)
      ({ s with ready := rest }.pushBack
        (t.setCommandInfo cfg.commandId (.chunk c) (cfg.payload c) .normal)) := by
  have hpushed : Live cfg (c :: taken)
      (s.pushBack (t.setCommandInfo cfg.commandId (.chunk c) (cfg.payload c) .normal)) := by
    refine h.pushBack hphase (Armed.chunk hfree.bootstrapped _ c) (fun c' => ?_) fun hrequested => ?_
    · rw [toNat_carries_chunk, List.count_cons, List.count_singleton]
    · exact absurd (hrequested.symm.trans hflush) Bool.false_ne_true.symm
  exact hpushed.popTop hready hdropped (fun hpostponed => .inr (by simp [State.pushBack]))
    (fun c' => by simp [hfree.retains]) hfree.yields

theorem Live.armPostponed {item : Item χ} {postponed : List (Item χ)}
    {rest : List (TransferTask χ)} (h : Live cfg taken s)
    (hpostponed : s.postponedDataChunks = item :: postponed) (hready : s.ready = t :: rest)
    (hfree : Free cfg t) (hdropped : s.isDroppedConnection = false)
    (hphase : s.phase ≠ .disconnected) :
    item.2 = cfg.sentData item.2 ∧
      Live cfg taken
        ({ s with ready := rest, postponedDataChunks := postponed }.pushBack
          (t.setCommandInfo cfg.commandId item.1 item.2 .normal)) := by
  obtain ⟨c, rfl⟩ := h.postponed item (hpostponed ▸ List.mem_cons_self)
  have hflush : s.sessionsFlushRequested = false := Bool.eq_false_iff.mpr fun hrequested =>
    List.cons_ne_nil _ _ (hpostponed.symm.trans (h.flushing hrequested).postponed)
  have harmed := h.armTop (c := c) hready hfree hdropped hphase hflush
  exact ⟨(sentData_payload cfg c).symm, harmed.popPostponed hpostponed rfl⟩

theorem Live.scheduleChunk {c : χ} {rest : List (TransferTask χ)} (h : Live cfg taken s)
    (hready : s.ready = t :: rest) (hfree : Free cfg t) (hdropped : s.isDroppedConnection = false)
    (hphase : s.phase ≠ .disconnected) (hflush : s.sessionsFlushRequested = false) :
    ((scheduleChunk cfg (.chunk c) (cfg.payload c) t s).2 = true →
        Live cfg (c :: taken) (scheduleChunk cfg (.chunk c) (cfg.payload c) t s).1) ∧
      ((scheduleChunk cfg (.chunk c) (cfg.payload c) t s).2 = false →
        Live cfg taken (scheduleChunk cfg (.chunk c) (cfg.payload c) t s).1) := by
  unfold ChunksSendRecv.scheduleChunk
  rw [hready]
  split
  · exact ⟨fun _ => h.armTop hready hfree hdropped hphase hflush, by simp⟩
  · rename_i hpostponed
    obtain ⟨hdata, harmed⟩ := h.armPostponed hpostponed hready hfree hdropped hphase
    refine ⟨by simp, fun _ => ?_⟩
    rwa [← hdata]

theorem Live.chk2ScheduleChunk {c : χ} (h : Live cfg taken s) (turn : Turn)
    (hphase : s.phase ≠ .disconnected) (hflush : s.sessionsFlushRequested = false) :
    ((chk2ScheduleChunk cfg turn (.chunk c) (cfg.payload c) s).2 = .ok true →
        Live cfg (c :: taken) (chk2ScheduleChunk cfg turn (.chunk c) (cfg.payload c) s).1) ∧
      ((chk2ScheduleChunk cfg turn (.chunk c) (cfg.payload c) s).2 ≠ .ok true →
        Live cfg taken (chk2ScheduleChunk cfg turn (.chunk c) (cfg.payload c) s).1) := by
  obtain ⟨hlive, htop⟩ := h.waitForReadyTask turn
  have hcontrol := @waitForReadyTask_control _ cfg turn s _
  have hwork := @waitForReadyTask_work _ cfg turn s _
  unfold ChunksSendRecv.chk2ScheduleChunk
  split
  · rename_i heq
    rw [heq] at hlive
    exact ⟨by simp, fun _ => hlive⟩
  · rename_i heq
    rw [heq] at hlive
    exact ⟨by simp, fun _ => hlive⟩
  · rename_i s' t heq
    rw [heq] at hlive htop hcontrol hwork
    obtain ⟨hfree, hdropped, rest, hready⟩ := htop t rfl
    obtain ⟨hnew, hfailed⟩ := hlive.scheduleChunk (c := c) hready hfree hdropped
      (fun hd => hphase ((congrArg Control.phase hcontrol).symm.trans hd))
      ((congrArg Work.sessionsFlushRequested hwork).trans hflush)
    simp only [ne_eq, Except.ok.injEq, Bool.not_eq_true]
    exact ⟨hnew, hfailed⟩

/-- Unwinding a task leaves no chunk behind. -/
theorem Live.unwindTask {rest : List (TransferTask χ)} (h : Live cfg taken s)
    (hready : s.ready = t :: rest) (hfree : Free cfg t) (hdropped : s.isDroppedConnection = false)
    (hphase : s.phase = .processing) (hinput : s.inputDisconnected = true)
    (hchildren : s.childReady = [] ∧ s.childExecuting = []) :
    Live cfg taken (unwindTask cfg t s) := by
  have hactive : s.phase ≠ .disconnected := fun hd => by cases hphase.symm.trans hd
  unfold ChunksSendRecv.unwindTask
  rw [hready]
  split
  · rename_i hpostponed
    exact (h.armPostponed hpostponed hready { hfree with } hdropped hactive).2
  · rename_i hpostponed
    split
    · rename_i hlast
      simp only [Bool.and_eq_true, List.tail_cons, List.isEmpty_iff, Bool.not_eq_true'] at hlast
      obtain ⟨⟨⟨-, rfl⟩, hexecuting⟩, hnot⟩ := hlast
      have hpopped : Live cfg taken { s with ready := [] } :=
        h.popTop hready hdropped (fun hne => absurd hpostponed hne) (fun c => by simp [hfree.retains])
          hfree.yields
      have hrequested : Live cfg taken { s with ready := [], sessionsFlushRequested := true } :=
        { hpopped with
          executing := by simp [hexecuting]
          failed := by simp
          created := fun hp => by cases hphase.symm.trans hp
          flushing := fun _ =>
            { inputDisconnected := hinput
              postponed := hpostponed
              ready := by simp
              executing := by simp [hexecuting]
              childReady := by simp [hchildren.1]
              childExecuting := by simp [hchildren.2] } }
      have hcarries : ∀ c,
          (t.setCommandInfo .flushPeerSessions .nil none .normal).carries c = false := fun c => by
        simp [setCommandInfo_flush, TransferTask.carries]
      exact hrequested.pushBack hactive (Armed.flush hfree.bootstrapped)
        (fun c => by simp [hcarries]) fun _ => hcarries
    · exact h.popTop hready hdropped (fun hne => absurd hpostponed hne)
        (fun c => by simp [hfree.retains]) hfree.yields

/-- The authentication goes before the chunk of the task. -/
theorem Live.scheduleAuthenticationTask (h : Live cfg taken s) (hphase : s.phase ≠ .disconnected)
    (hrequired : cfg.authenticationRequired = true) (ht : t.isBootstrapped = true)
    (hchunk : t.chunkId ≠ .nil → s.sessionsFlushRequested = false ∧
      ∃ c, (t.chunkId, t.chunkData) = (.chunk c, cfg.payload c) ∧
        ∀ c', taken'.count c' = taken.count c' + [c].count c')
    (hnone : t.chunkId = .nil → taken' = taken) :
    Live cfg taken' (scheduleAuthenticationTask t s) := by
  have hcarries : ∀ c, (t.setCommandInfo .sendChunk .nil (some .authentication)
      .authentication).carries c = false := fun c => by
    rw [setCommandInfo_authentication]
    exact carries_of_authentication rfl c
  unfold ChunksSendRecv.scheduleAuthenticationTask
  split
  · rename_i hnil
    obtain rfl := hnone hnil
    exact h.pushBack hphase (Armed.authentication ht hrequired _) (fun c => by simp [hcarries])
      fun _ => hcarries
  · rename_i hne
    obtain ⟨hflush, c, hitem, hcount⟩ := hchunk hne
    rw [hitem]
    have hpushed : Live cfg taken
        (s.pushBack (t.setCommandInfo .sendChunk .nil (some .authentication) .authentication)) :=
      h.pushBack hphase (Armed.authentication ht hrequired _) (fun c => by simp [hcarries]) fun _ => hcarries
    exact { hpushed with
      postponed := fun item hitem' => by
        obtain hitem' | hitem' := List.mem_append.mp hitem'
        · exact h.postponed item hitem'
        · exact ⟨c, List.mem_singleton.mp hitem'⟩
      attended := fun _ => .inr (by simp [State.pushBack])
      source := fun c' => by
        have hsource := hpushed.source c'
        have hc' := hcount c'
        rw [List.count_singleton] at hc'
        simp only [State.held, List.countP_append, List.countP_singleton, ChunkId.chunk.injEq,
          decide_eq_true_eq, beq_iff_eq, State.source, State.remaining, State.pushBack]
          at hsource hc' ⊢
        omega
      flushing := fun hrequested =>
        absurd (hrequested.symm.trans hflush) Bool.false_ne_true.symm }

/-! ## Child tasks -/

theorem Live.pushReady (h : Live cfg taken s) (hphase : s.phase ≠ .disconnected)
    (hcommand : t.commandId = .noCommand) (hsucceeded : t.exception = none → Succeeded cfg t)
    (hfailed : t.exception ≠ none → Failed cfg s.sessionsFlushRequested t)
    (hcarries : ∀ c, t.carries c = false) : Live cfg taken { s with ready := s.ready ++ [t] } := by
  have hmem : ∀ {P : TransferTask χ → Prop}, (∀ t' ∈ s.ready, P t') → P t →
      ∀ t' ∈ s.ready ++ [t], P t' := by
    intro P hall ht t' ht'
    obtain ht' | ht' := List.mem_append.mp ht'
    · exact hall t' ht'
    · obtain rfl := List.mem_singleton.mp ht'
      exact ht
  refine { h with
    rested := hmem h.rested hcommand
    succeeded := hmem h.succeeded hsucceeded
    failed := hmem h.failed hfailed
    attended := fun _ => .inl (by simp)
    dropped := fun hdropped => ?_
    source := fun c => ?_
    delivery := fun hkind c => ?_
    flushing := fun hrequested => ?_
    disconnected := fun hdisconnected => absurd hdisconnected hphase }
  · obtain ⟨top, rest, hready, hexception⟩ := h.dropped hdropped
    exact ⟨top, rest ++ [t], by rw [hready, List.cons_append], hexception⟩
  · have hsource := h.source c
    simp only [State.held, List.countP_append, countP_cons_eq, List.countP_nil,
      TransferTask.retains, hcarries, Bool.and_false, Bool.toNat_false, Nat.add_zero,
      State.source, State.remaining] at hsource ⊢
    exact hsource
  · have hdelivery := h.delivery hkind c
    simp only [State.undelivered, List.countP_append, countP_cons_eq, List.countP_nil,
      TransferTask.yields, hcarries, Bool.and_false, Bool.toNat_false, Nat.add_zero] at hdelivery ⊢
    exact hdelivery
  · have hquiet := h.flushing hrequested
    exact { hquiet with ready := hmem hquiet.ready hcarries }

theorem Live.connected (h : Live cfg taken s) (hphase : s.phase ≠ .disconnected)
    (result : Option Exception) : Live cfg taken (connected cfg result s) := by
  have hcarries : ∀ t : TransferTask χ, t.chunkId = .nil → ∀ c, t.carries c = false :=
    fun t ht c => by simp [TransferTask.carries, ht]
  unfold ChunksSendRecv.connected
  split
  · exact h.pushReady hphase rfl (fun hnone => absurd hnone (Option.some_ne_none _))
      (fun _ => .inl ⟨⟨rfl, rfl, rfl⟩, fun hb => absurd hb Bool.false_ne_true⟩) (hcarries _ rfl)
  · split
    · rename_i hrequired
      exact h.scheduleAuthenticationTask hphase hrequired rfl (fun hne => absurd rfl hne)
        fun _ => rfl
    · exact h.pushReady hphase rfl (fun _ => ⟨rfl, .inr (.inr (.inl ⟨rfl, rfl, rfl⟩))⟩)
        (fun hne => absurd rfl hne) (hcarries _ rfl)

theorem Live.popChild {child : ChildTask × Option Exception}
    {rest : List (ChildTask × Option Exception)} (h : Live cfg taken s)
    (hready : s.childReady = child :: rest) (hchild : child.1 ≠ .reconnector) :
    Live cfg taken { s with childReady := rest } :=
  { h with
    reconnectors := by
      have hcount := h.reconnectors
      simp only [State.reconnectors, hready, countP_cons_eq, hchild, decide_false,
        Bool.toNat_false, Nat.add_zero] at hcount ⊢
      exact hcount
    scheduler := fun hkind =>
      ⟨fun child' hchild' =>
        (h.scheduler hkind).1 child' (hready ▸ List.mem_cons_of_mem _ hchild'),
        (h.scheduler hkind).2⟩
    flushing := fun hrequested =>
      absurd ((h.flushing hrequested).childReady child (hready ▸ List.mem_cons_self)) hchild }

/-- The reconnect task is popped. The task it was started for is the top
one. -/
theorem Live.popReconnector {result : Option Exception}
    {rest : List (ChildTask × Option Exception)} (h : Live cfg taken s)
    (hready : s.childReady = (.reconnector, result) :: rest) (isDroppedConnection : Bool)
    (hdropped : isDroppedConnection = true → s.isDroppedConnection = true) :
    Live cfg taken { s with
      childReady := rest
      reconnecting := false
      isDroppedConnection := isDroppedConnection } ∧
      ∃ top tasks, s.ready = top :: tasks ∧ top.exception ≠ none := by
  have hcount := h.reconnectors
  simp only [State.reconnectors, hready, countP_cons_eq, decide_true, Bool.toNat_true] at hcount
  have hreconnecting : s.reconnecting = true := by
    cases hr : s.reconnecting
    · rw [hr] at hcount
      exact absurd hcount (by simp)
    · rfl
  rw [hreconnecting, Bool.toNat_true] at hcount
  refine ⟨{ h with
    dropped := fun hd => h.dropped (hdropped hd)
    reconnecting := fun hr => absurd hr Bool.false_ne_true
    reconnectors := by
      simp only [State.reconnectors, Bool.toNat_false]
      omega
    scheduler := fun hkind =>
      ⟨fun child hchild => (h.scheduler hkind).1 child (hready ▸ List.mem_cons_of_mem _ hchild),
        (h.scheduler hkind).2⟩
    flushing := fun hrequested => ?_ }, h.dropped (h.reconnecting hreconnecting)⟩
  have hquiet := h.flushing hrequested
  exact { hquiet with
    childReady := fun child hchild =>
      hquiet.childReady child (hready ▸ List.mem_cons_of_mem _ hchild) }

/-- The command of a bootstrapped task is the one which has failed. -/
theorem Live.tidyUp {top : TransferTask χ} (h : Live cfg taken s) (hmem : top ∈ s.ready)
    (hfailed : top.exception ≠ none) (hbootstrapped : top.isBootstrapped = true) :
    (s.sessionsFlushRequested = false ∧ ∃ c,
      tidyUpTransferTaskOnFailure cfg s.sessionsFlushRequested top.attachStream =
        { top.attachStream with
          commandId := cfg.commandId, chunkId := .chunk c, blockType := .normal,
          chunkData := cfg.payload c } ∧
      ∀ c', top.carries c' = decide (c = c')) ∨
    (cfg.authenticationRequired = true ∧ ∃ t,
      tidyUpTransferTaskOnFailure cfg s.sessionsFlushRequested top.attachStream = t ∧
      t.isBootstrapped = true ∧ t.chunkId = .nil ∧ ∀ c, top.carries c = false) ∨
    (s.sessionsFlushRequested = true ∧
      tidyUpTransferTaskOnFailure cfg s.sessionsFlushRequested top.attachStream =
        { top.attachStream with commandId := .flushPeerSessions } ∧ top.Idle) := by
  have hcommand := h.rested top hmem
  obtain ⟨⟨hblock, hchunk, hdata⟩, hflush⟩ | ⟨-, ⟨hblock, hrequired⟩ | ⟨c, hblock, hchunk, hdata⟩⟩ :=
    h.failed top hmem hfailed
  · refine .inr (.inr ⟨hflush hbootstrapped, ?_, hblock, hchunk, hdata⟩)
    cases hkind : cfg.kind <;>
      simp [tidyUpTransferTaskOnFailure, tidyUpTaskOnFailure, attachStream,
        TransferTask.detachChunkData, TransferTask.setCommandId,
        setCommandInfoStateInternal, Config.commandId, hkind, hblock, hchunk, hdata,
        hflush hbootstrapped]
  · refine .inr (.inl ⟨hrequired, _, rfl, ?_, ?_, carries_of_authentication hblock⟩) <;>
      simp [tidyUpTransferTaskOnFailure, attachStream, TransferTask.setChunkId,
        setCommandInfoStateInternal, hblock, hcommand, hbootstrapped]
  · have hcarries := carries_chunk hblock hchunk
    have hflush : s.sessionsFlushRequested = false := Bool.eq_false_iff.mpr fun hrequested => by
      have hnone := (h.flushing hrequested).ready top hmem c
      simp [hcarries] at hnone
    refine .inl ⟨hflush, c, ?_, hcarries⟩
    cases hkind : cfg.kind <;> simp only [hkind, ne_eq, not_true, false_implies, reduceCtorEq,
      not_false_eq_true, forall_const] at hdata <;>
      simp [tidyUpTransferTaskOnFailure, tidyUpTaskOnFailure, attachStream,
        TransferTask.detachChunkData, TransferTask.setCommandId,
        setCommandInfoStateInternal, Config.commandId, Config.payload,
        Config.sentData, hkind, hblock, hchunk, hdata, hflush]

theorem scheduleAuthenticationTask_popTop (t : TransferTask χ) (rest : List (TransferTask χ)) :
    scheduleAuthenticationTask t { s with ready := rest } =
      { scheduleAuthenticationTask t s with ready := rest } := by
  unfold ChunksSendRecv.scheduleAuthenticationTask
  split <;> rfl

/-- The first task whose connection was lost has one again. -/
theorem Live.reconnected {top : TransferTask χ} {rest : List (TransferTask χ)}
    (h : Live cfg taken s) (hready : s.ready = top :: rest) (hfailed : top.exception ≠ none)
    (hdropped : s.isDroppedConnection = false) (hphase : s.phase ≠ .disconnected) :
    Live cfg taken (reconnected cfg s) := by
  have hmem : top ∈ s.ready := hready ▸ List.mem_cons_self
  have hyields : ∀ c, top.yields c = false := fun c => by
    simp [TransferTask.yields, hfailed]
  have hretains : ∀ c, top.retains c = top.carries c := fun c => by
    simp [TransferTask.retains, Option.isSome_iff_ne_none, hfailed]
  have hpop : ∀ {taken' : List χ} {s' : State χ}, Live cfg taken' s' → s'.ready = s.ready →
      s'.isDroppedConnection = s.isDroppedConnection → s'.executing ≠ [] →
      (∀ c, taken'.count c = taken.count c + (top.carries c).toNat) →
      Live cfg taken { s' with ready := rest } := by
    intro taken' s' h' hready' hdropped' hexecuting hcount
    refine h'.popTop (hready'.trans hready) (hdropped'.trans hdropped) (fun _ => .inr hexecuting)
      (fun c => ?_) fun _ => hyields
    rw [hretains]
    exact hcount c
  have hexecuting : ∀ t : TransferTask χ, (s.pushBack t).executing ≠ [] := fun t => by
    simp [State.pushBack]
  have hauthenticated : ∀ t : TransferTask χ,
      (ChunksSendRecv.scheduleAuthenticationTask t s).ready = s.ready ∧
      (ChunksSendRecv.scheduleAuthenticationTask t s).isDroppedConnection = s.isDroppedConnection ∧
      (ChunksSendRecv.scheduleAuthenticationTask t s).executing ≠ [] := fun t => by
    unfold ChunksSendRecv.scheduleAuthenticationTask
    split <;> exact ⟨rfl, rfl, hexecuting _⟩
  unfold ChunksSendRecv.reconnected
  rw [hready]
  dsimp only
  split
  · rename_i hbootstrapped
    obtain ⟨hflush, c, htidy, hcarries⟩ | ⟨hrequired, t, htidy, ht, hnil, hcarries⟩ |
        ⟨hrequested, htidy, hidle⟩ := h.tidyUp hmem hfailed hbootstrapped
    · rw [htidy]
      have hcount : ∀ c', (c :: taken).count c' = taken.count c' + (top.carries c').toNat := by
        intro c'
        rw [hcarries, List.count_cons]
        by_cases hc : c = c' <;> simp [hc]
      split
      · rename_i hrequired
        rw [scheduleAuthenticationTask_popTop]
        obtain ⟨hr, hd, he⟩ := hauthenticated { top.attachStream with
          commandId := cfg.commandId, chunkId := .chunk c, blockType := .normal,
          chunkData := cfg.payload c }
        refine hpop (h.scheduleAuthenticationTask hphase hrequired hbootstrapped
          (fun _ => ⟨hflush, c, rfl, fun c' => ?_⟩) nofun) hr hd he hcount
        rw [List.count_cons, List.count_singleton]
      · refine hpop (h.pushBack (t := { top.attachStream with
            commandId := cfg.commandId, chunkId := .chunk c, blockType := .normal,
            chunkData := cfg.payload c }) hphase ⟨hbootstrapped, .inl ⟨c, rfl, rfl, rfl, rfl⟩⟩
          (fun c' => ?_) fun hrequested =>
            absurd (hrequested.symm.trans hflush) Bool.false_ne_true.symm)
          rfl rfl (hexecuting _) hcount
        rw [hcount, hcarries, carries_chunk rfl rfl]
    · rw [htidy, hrequired, if_pos rfl, scheduleAuthenticationTask_popTop]
      obtain ⟨hr, hd, he⟩ := hauthenticated t
      exact hpop (h.scheduleAuthenticationTask hphase hrequired ht (fun hne => absurd hnil hne)
        (fun _ => rfl)) hr hd he fun c => by simp [hcarries]
    · rw [htidy]
      have hnone : ∀ c, top.carries c = false := hidle.carries
      have hcarries : ∀ c, TransferTask.carries c
          { top.attachStream with commandId := .flushPeerSessions } = false := hnone
      split
      · rename_i hrequired
        rw [scheduleAuthenticationTask_popTop]
        obtain ⟨hr, hd, he⟩ := hauthenticated
          { top.attachStream with commandId := .flushPeerSessions }
        exact hpop (h.scheduleAuthenticationTask hphase hrequired hbootstrapped
          (fun hne => absurd hidle.2.1 hne) (fun _ => rfl)) hr hd he fun c => by simp [hnone]
      · have hpushed : Live cfg taken
            (s.pushBack { top.attachStream with commandId := .flushPeerSessions }) :=
          h.pushBack hphase ⟨hbootstrapped, .inr (.inr ⟨hidle, rfl, hrequested⟩)⟩
            (fun c => by rw [hcarries]; rfl) fun _ => hcarries
        exact hpop hpushed rfl rfl (hexecuting _) fun c => by simp [hnone]
  · rename_i hbootstrapped
    obtain ⟨hidle, -⟩ | ⟨hb, -⟩ := h.failed top hmem hfailed
    · have hnone : ∀ c, top.carries c = false := hidle.carries
      have hlive : Live cfg taken { s with
          ready := { top.attachStream.markCompleted none with isBootstrapped := true } :: rest
          delivered := s.delivered ++ [] } :=
        h.handOn hready hdropped (fun c => by rw [hretains, hnone]) rfl (h.rested top hmem)
          ⟨rfl, .inr (.inr (.inl hidle))⟩ (fun c _ => hnone c) (by simp)
          fun _ c => ⟨hnone c, by simp [hyields]⟩
      simpa using hlive
    · exact absurd hb hbootstrapped

/-! ## The scheduler -/

omit [DecidableEq χ] in
theorem getSuccessfulTopTask_childReady (cfg : Config χ) (retry : Retry) (s : State χ) :
    ∃ more, (getSuccessfulTopTask cfg retry s).1.childReady = s.childReady ++ more := by
  have hkept : ∃ more, s.childReady = s.childReady ++ more := ⟨[], (List.append_nil _).symm⟩
  unfold getSuccessfulTopTask
  split
  · exact hkept
  · split
    · exact hkept
    · split
      · exact hkept
      · split
        · exact hkept
        · split
          · exact hkept
          · split
            · exact hkept
            · exact hkept
            · unfold startConnection
              split
              · exact ⟨_, rfl⟩
              · exact hkept

theorem waitForReadyTask_childReady (cfg : Config χ) (turn : Turn) (s : State χ) :
    ∃ more, (waitForReadyTask cfg turn s).1.childReady = s.childReady ++ more := by
  have htop := getSuccessfulTopTask_childReady cfg turn.retry s
  unfold waitForReadyTask
  split
  · rename_i heq
    rw [heq] at htop
    split <;> exact htop
  · rename_i heq
    rwa [heq] at htop

theorem chk2ScheduleChunk_childReady (cfg : Config χ) (turn : Turn) (chunkId : ChunkId χ)
    (chunkData : Option (Data χ)) (s : State χ) :
    ∃ more, (chk2ScheduleChunk cfg turn chunkId chunkData s).1.childReady =
      s.childReady ++ more := by
  have hready := waitForReadyTask_childReady cfg turn s
  unfold chk2ScheduleChunk
  split
  · rename_i heq
    rwa [heq] at hready
  · rename_i heq
    rwa [heq] at hready
  · rename_i t heq
    rw [heq] at hready
    dsimp only
    unfold scheduleChunk
    split <;> exact hready

theorem chk2ScheduleChunk_chunksQueue (cfg : Config χ) (turn : Turn) (chunkId : ChunkId χ)
    (chunkData : Option (Data χ)) (s : State χ) :
    (chk2ScheduleChunk cfg turn chunkId chunkData s).1.chunksQueue = s.chunksQueue := by
  have hqueue := congrArg Work.chunksQueue (@waitForReadyTask_work _ cfg turn s _)
  unfold chk2ScheduleChunk
  split
  · rename_i heq
    rwa [heq] at hqueue
  · rename_i heq
    rwa [heq] at hqueue
  · rename_i t heq
    rw [heq] at hqueue
    dsimp only
    unfold scheduleChunk
    split <;> exact hqueue

/-- The scheduler has all chunks handed out, or it runs again. -/
theorem Live.rescheduleScheduler {result : Option Exception}
    {rest : List (ChildTask × Option Exception)} (h : Live cfg taken s)
    (hready : s.childReady = (.scheduler, result) :: rest) (hkind : cfg.kind ≠ .transmitter) :
    Live cfg taken (rescheduleScheduler s) := by
  have hpopped := h.popChild hready (by simp)
  have hflush : s.sessionsFlushRequested ≠ true := fun hrequested => by
    have hchild := (h.flushing hrequested).childReady _ (hready ▸ List.mem_cons_self)
    cases hchild
  unfold ChunksSendRecv.rescheduleScheduler
  rw [hready]
  split
  · exact { hpopped with
      reconnectors := by
        have hcount := hpopped.reconnectors
        simp only [State.reconnectors, List.count_append, List.tail_cons] at hcount ⊢
        exact hcount
      scheduler := fun hk => absurd hk hkind
      flushing := fun hrequested => absurd hrequested hflush }
  · rename_i hmore
    have hremaining : s.remaining cfg = [] := by
      unfold hasMoreWork at hmore
      split at hmore
      · exact absurd rfl hmore
      · rename_i chunks hiterator
        simp only [Bool.or_eq_true, Bool.not_eq_true', List.isEmpty_eq_false_iff, ne_eq, not_or,
          not_not] at hmore
        unfold State.remaining
        rw [hiterator, hmore.1, hmore.2]
        cases cfg.kind <;> rfl
    exact { hpopped with
      input := fun _ _ => hremaining
      flushing := fun hrequested => absurd hrequested hflush
      disconnected := fun hphase =>
        ⟨(h.disconnected hphase).1, (h.disconnected hphase).2.1, rfl⟩ }

omit [DecidableEq χ] in
theorem remaining_of_ne (hkind : cfg.kind ≠ .transmitter) (s : State χ) :
    s.remaining cfg = s.chunksQueue ++ s.chunksIterator.getD cfg.chunks := by
  unfold State.remaining
  split
  · rename_i htransmitter
    exact absurd htransmitter hkind
  · rfl
  · rfl

omit [DecidableEq χ] in
theorem Config.payload_none (hkind : cfg.kind ≠ .transmitter) (c : χ) : cfg.payload c = none := by
  unfold Config.payload Config.sentData
  split
  · rename_i htransmitter
    exact absurd htransmitter hkind
  · rfl
  · rfl

/-- The scheduler hands out a chunk once. -/
theorem Live.pushScheduler {result : Option Exception}
    {rest : List (ChildTask × Option Exception)} (h : Live cfg [] s) (turn : Turn)
    (hready : s.childReady = (.scheduler, result) :: rest) (hphase : s.phase ≠ .disconnected) :
    Live cfg [] (pushScheduler cfg turn s).1 := by
  have hkind : cfg.kind ≠ .transmitter := fun hk =>
    (h.scheduler hk).1 _ (hready ▸ List.mem_cons_self) rfl
  have hflush : s.sessionsFlushRequested = false := Bool.eq_false_iff.mpr fun hrequested => by
    have hchild := (h.flushing hrequested).childReady _ (hready ▸ List.mem_cons_self)
    cases hchild
  unfold ChunksSendRecv.pushScheduler
  split
  · rw [hready]
    exact h.popChild hready (by simp)
  · split
    · exact h.rescheduleScheduler hready hkind
    · rename_i c queue hqueue
      obtain ⟨htaken, hnot⟩ := h.chk2ScheduleChunk (c := c) turn hphase hflush
      obtain ⟨more, hmore⟩ := chk2ScheduleChunk_childReady cfg turn (.chunk c) none s
      have hqueue' := chk2ScheduleChunk_chunksQueue cfg turn (.chunk c) none s
      rw [Config.payload_none hkind] at htaken hnot
      rw [hready] at hmore
      split
      · rename_i heq
        rw [heq] at hnot
        exact hnot (by simp)
      · rename_i heq
        rw [heq] at hnot hmore
        exact (hnot (by simp)).rescheduleScheduler hmore hkind
      · rename_i s' heq
        rw [heq, hqueue] at hqueue'
        rw [heq] at htaken
        have hlive : Live cfg [c] s' := htaken rfl
        have hremaining : s'.remaining cfg = c :: State.remaining cfg { s' with chunksQueue := queue } := by
          rw [remaining_of_ne hkind, remaining_of_ne hkind, show s'.chunksQueue = _ from hqueue']
          rfl
        exact { hlive with
          source := fun c' => by
            have hsource := hlive.source c'
            rw [hremaining, List.count_cons, List.count_cons, List.count_nil] at hsource
            simp only [List.count_nil, State.held, State.source] at hsource ⊢
            omega
          input := fun hk hinput => by
            rw [hlive.input hk hinput] at hremaining
            cases hremaining }

end

end Baselib.Transfer.ChunksSendRecv
