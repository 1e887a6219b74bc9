/-
Baselib.Messaging.AutoPushConnectionTheorems — what becomes of the blocks
a connection accepts (`Accounts`): at any time those completed, those
whose callbacks are due and those queued are the accepted ones in their
order. A block is completed without an exception when the remote has
acknowledged it before a stop was requested.
-/
import Baselib.Messaging.AutoPushConnection

namespace Baselib.Messaging.AutoPushConnection

open Lib List
open Lib.Transition (run Along run_invariant run_append_eq_some run_cons_eq_some)
open Connection (acknowledge callback continuationTask create notified proceed resume sentCallback
  setCommandInfo terminate)

variable {π : Type} {c c' : Connection π} {exception : Option (Exception π)}

/-! ## The accepted blocks -/

/-- The callbacks which are due, with what they will be called with. -/
def Connection.due (c : Connection π) : List (Nat × Option (Exception π)) :=
  match c.phase with
  | .dispatching dispatch => dispatch.callbacks.map fun callback => (callback, dispatch.exception)
  | _ => []

def Connection.settled (c : Connection π) : List (Nat × Option (Exception π)) :=
  c.completed ++ c.due

structure Connection.Accounts (c : Connection π) : Prop where
  /-- Every accepted block is settled or queued, in the order of acceptance. -/
  order : c.settled.map Prod.fst ++ c.pendingQueue.map (·.callback) = List.range c.accepted
  reported : ∀ entry ∈ c.settled, entry.2 = none ↔ (entry.1, false) ∈ c.acknowledged
  unsent : ∀ info ∈ c.pendingQueue, (info.callback, false) ∉ c.acknowledged
  known : ∀ entry ∈ c.acknowledged, entry.1 < c.accepted

theorem Connection.Accounts.congr (h : c.Accounts)
    (hsettled : c'.settled = c.settled) (hpending : c'.pendingQueue = c.pendingQueue)
    (haccepted : c'.accepted = c.accepted) (hacknowledged : c'.acknowledged = c.acknowledged) :
    c'.Accounts where
  order := by
    rw [hsettled, hpending, haccepted]
    exact h.order
  reported := by
    rw [hsettled, hacknowledged]
    exact h.reported
  unsent := by
    rw [hpending, hacknowledged]
    exact h.unsent
  known := by
    rw [hacknowledged, haccepted]
    exact h.known

/-! ## The task -/

/-- The state of a task which is scheduled or is to be scheduled again. -/
structure Connection.Runs (c : Connection π) : Prop where
  original : ∀ exception, c.originalException = some exception →
    c.decidesTermination (some exception) = true
  terminated : c.taskTerminated = c.originalException.isSome
  /-- The block of the command is the first one of the queue. -/
  command : ∀ dataBlock, c.dataRawPtr = some dataBlock →
    c.originalException = none ∧ c.wrappedTask = .connectionTask ∧
      ∃ info rest, c.pendingQueue = info :: rest ∧ info.dataBlock = dataBlock
  valid : ∀ info ∈ c.pendingQueue, chkProtocolDataSize info.dataBlock = none

structure Connection.Ended (c : Connection π) : Prop where
  terminated : c.taskTerminated = true
  empty : c.pendingQueue = []

def Connection.Placed (c : Connection π) : Prop :=
  match c.phase with
  | .created => c.Runs ∧ c.taskTerminated = false
  | .executing => c.Runs
  | .dispatching dispatch =>
    if dispatch.safeToContinue then
      c.Runs ∧ (c.taskTerminated = true → c.protocolShutdownInProgress = true)
    else c.Ended
  | .finished thrown => thrown = none ∧ c.Ended

structure Connection.Inv (c : Connection π) : Prop where
  accounts : c.Accounts
  placed : c.Placed

theorem create_inv (nil peerId : π) (notifies : Bool) :
    (create nil peerId notifies).Inv where
  accounts := by
    refine ⟨rfl, ?_, ?_, ?_⟩ <;> simp [create, Connection.settled, Connection.due]
  placed := by
    refine ⟨⟨?_, rfl, ?_, ?_⟩, rfl⟩ <;> simp [create]

/-! ## Calls of other threads -/

theorem tryScheduleBlock_terminated (h : c.taskTerminated = true)
    (targetPeerId : π) (dataBlock : DataBlock) :
    tryScheduleBlock targetPeerId dataBlock c = (.error .mk, c) := by
  simp [tryScheduleBlock, h]

theorem tryScheduleBlock_accounts (h : c.Accounts) (targetPeerId : π)
    (dataBlock : DataBlock) : (tryScheduleBlock targetPeerId dataBlock c).2.Accounts := by
  unfold tryScheduleBlock
  split
  · exact h
  split
  · exact h
  have hsettled : ∀ pendingQueue accepted, Connection.settled
      { c with pendingQueue := pendingQueue, accepted := accepted } = c.settled :=
    fun _ _ => rfl
  refine ⟨?_, h.reported, ?_, fun entry hin => Nat.lt_succ_of_lt (h.known entry hin)⟩
  · rw [hsettled, map_append, ← append_assoc, h.order, range_succ]
    rfl
  · intro info hin hacknowledged
    obtain hin | hnew := mem_append.mp hin
    · exact h.unsent info hin hacknowledged
    · obtain rfl := mem_singleton.mp hnew
      exact absurd (h.known _ hacknowledged) (Nat.lt_irrefl _)

theorem tryScheduleBlock_runs (h : c.Runs) {dataBlock : DataBlock}
    (hvalid : chkProtocolDataSize dataBlock = none) (targetPeerId : π) :
    (tryScheduleBlock targetPeerId dataBlock c).2.Runs := by
  unfold tryScheduleBlock
  split
  · exact h
  split
  · exact h
  refine ⟨h.original, h.terminated, fun block hblock => ?_, fun info hin => ?_⟩
  · obtain ⟨horiginal, hwrapped, info, rest, hpending, hinfo⟩ := h.command block hblock
    refine ⟨horiginal, hwrapped, info, rest ++ [⟨targetPeerId, dataBlock, c.accepted⟩], ?_, hinfo⟩
    rw [hpending, cons_append]
  · obtain hin | hnew := mem_append.mp hin
    · exact h.valid info hin
    · obtain rfl := mem_singleton.mp hnew
      exact hvalid

theorem tryScheduleBlock_kept (c : Connection π) (targetPeerId : π) (dataBlock : DataBlock) :
    ∃ pendingQueue accepted, (tryScheduleBlock targetPeerId dataBlock c).2 =
      { c with pendingQueue := pendingQueue, accepted := accepted } := by
  unfold tryScheduleBlock
  split
  · exact ⟨_, _, rfl⟩
  split <;> exact ⟨_, _, rfl⟩

theorem tryScheduleBlock_placed (h : c.Placed) {dataBlock : DataBlock}
    (hvalid : chkProtocolDataSize dataBlock = none) (targetPeerId : π) :
    (tryScheduleBlock targetPeerId dataBlock c).2.Placed := by
  by_cases hterminated : c.taskTerminated = true
  · rwa [tryScheduleBlock_terminated hterminated]
  · obtain ⟨pendingQueue, accepted, heq⟩ := tryScheduleBlock_kept c targetPeerId dataBlock
    have hphase : (tryScheduleBlock targetPeerId dataBlock c).2.phase = c.phase := by
      rw [heq]
    have hkept : (tryScheduleBlock targetPeerId dataBlock c).2.taskTerminated =
        c.taskTerminated := by
      rw [heq]
    have hruns := fun h' : c.Runs => tryScheduleBlock_runs h' hvalid targetPeerId
    simp only [Connection.Placed] at h ⊢
    rw [hphase, hkept]
    cases hcase : c.phase with
    | created =>
      rw [hcase] at h
      exact ⟨hruns h.1, h.2⟩
    | executing =>
      rw [hcase] at h
      exact hruns h
    | dispatching dispatch =>
      simp only [hcase] at h ⊢
      split_ifs with hsafe
      · rw [if_pos hsafe] at h
        exact ⟨hruns h.1, fun ht => absurd ht hterminated⟩
      · rw [if_neg hsafe] at h
        exact absurd h.terminated hterminated
    | finished thrown =>
      rw [hcase] at h
      exact absurd h.2.terminated hterminated

theorem requestHeartbeat_inv (h : c.Inv) : (requestHeartbeat c).Inv where
  accounts := h.accounts.congr rfl rfl rfl rfl
  placed := by
    have hruns : c.Runs → (requestHeartbeat c).Runs :=
      fun h => ⟨h.original, h.terminated, h.command, h.valid⟩
    have hended : c.Ended → (requestHeartbeat c).Ended := fun h => ⟨h.terminated, h.empty⟩
    have hplaced := h.placed
    simp only [Connection.Placed, requestHeartbeat] at hplaced hruns hended ⊢
    grind

theorem requestCancel_inv (h : c.Inv) : (requestCancel c).Inv where
  accounts := h.accounts.congr rfl rfl rfl rfl
  placed := by
    have hruns : c.Runs → (requestCancel c).Runs :=
      fun h => ⟨fun exception _ => rfl, h.terminated, h.command, h.valid⟩
    have hended : c.Ended → (requestCancel c).Ended := fun h => ⟨h.terminated, h.empty⟩
    have hplaced := h.placed
    simp only [Connection.Placed, requestCancel] at hplaced hruns hended ⊢
    grind

/-! ## The locked section of `continuationTask` -/

theorem handleAckPacket_eq [DecidableEq π] (nil : π) (c : Connection π) (declared : Option π) :
    ∃ remotePeerId, c.handleAckPacket nil declared = { c with remotePeerId := remotePeerId } := by
  cases declared with
  | none => exact ⟨_, rfl⟩
  | some peerId =>
    simp only [Connection.handleAckPacket]
    split <;> exact ⟨_, rfl⟩

theorem acknowledge_eq (c : Connection π) (exception : Option (Exception π)) :
    ∃ acknowledged, c.acknowledge exception = { c with acknowledged := acknowledged } := by
  unfold acknowledge
  split <;> exact ⟨_, rfl⟩

/-- Only the block that is sent is acknowledged. -/
theorem mem_acknowledge {entry : Nat × Bool} : entry ∈ (c.acknowledge exception).acknowledged ↔
      entry ∈ c.acknowledged ∨ c.sendsBlock = true ∧ exception = none ∧
        ∃ info, c.pendingQueue.head? = some info ∧
          entry = (info.callback, c.stopWasRequested) := by
  unfold acknowledge
  split_ifs with h
  · simp only [Bool.and_eq_true, Option.isNone_iff_eq_none] at h
    simp [h, Option.map_eq_some_iff, eq_comm (b := entry)]
  · simp only [Bool.and_eq_true, Option.isNone_iff_eq_none] at h
    exact ⟨.inl, fun hin => hin.elim id fun hin => absurd ⟨hin.1, hin.2.1⟩ h⟩

theorem Connection.Runs.sendsBlock (h : c.Runs) (hsends : c.sendsBlock = true) :
    c.originalException = none ∧ ∃ info rest, c.pendingQueue = info :: rest := by
  simp only [Connection.sendsBlock, Bool.and_eq_true, Option.isSome_iff_exists] at hsends
  obtain ⟨-, dataBlock, hdata⟩ := hsends
  obtain ⟨horiginal, -, info, rest, hpending, -⟩ := h.command dataBlock hdata
  exact ⟨horiginal, info, rest, hpending⟩

theorem setCommandInfo_eq
    (hvalid : ∀ info ∈ c.pendingQueue, chkProtocolDataSize info.dataBlock = none) :
    ∃ targetPeerId dataRawPtr wrappedTask, c.setCommandInfo =
        .ok { c with
          targetPeerId := targetPeerId, dataRawPtr := dataRawPtr, wrappedTask := wrappedTask } ∧
      (dataRawPtr = none → targetPeerId = c.remotePeerId) ∧
      ∀ dataBlock, dataRawPtr = some dataBlock → wrappedTask = .connectionTask ∧
        ∃ info rest, c.pendingQueue = info :: rest ∧ info.dataBlock = dataBlock := by
  unfold setCommandInfo
  split
  · exact ⟨_, none, _, rfl, fun _ => rfl, fun dataBlock h => nomatch h⟩
  · rename_i info rest hpending
    rw [hvalid info (hpending ▸ mem_cons_self)]
    exact ⟨_, some info.dataBlock, _, rfl, (fun h => nomatch h),
      fun dataBlock h => ⟨rfl, info, rest, hpending, Option.some.inj h⟩⟩

/-- The queue after a run which does not end the task. -/
def Connection.remaining (c : Connection π) : List (DataBlockInfo π) :=
  if c.sendsBlock then c.pendingQueue.tail else c.pendingQueue

theorem popSent_eq (c : Connection π) : c.popSent = { c with pendingQueue := c.remaining } := by
  unfold Connection.popSent Connection.remaining
  split <;> rfl

theorem activate_eq (c : Connection π) (exception : Option (Exception π)) :
    c.activate exception =
      { c with
        activated := c.activated || c.wrappedTask == .connectionTask && exception.isNone
        heartbeatWasRequested := c.heartbeatWasRequested &&
          !(c.wrappedTask == .connectionTask && exception.isNone) } := by
  unfold Connection.activate
  split_ifs with h
  · simp [h]
  · rw [Bool.not_eq_true] at h
    simp [h]

theorem mem_remaining {info : DataBlockInfo π} (h : info ∈ c.remaining) :
    info ∈ c.pendingQueue := by
  unfold Connection.remaining at h
  split at h
  · exact mem_of_mem_tail h
  · exact h

/-- What the section leaves of a task which goes on. -/
theorem proceed_eq (exception : Option (Exception π))
    (hvalid : ∀ info ∈ c.pendingQueue, chkProtocolDataSize info.dataBlock = none) :
    ∃ targetPeerId dataRawPtr wrappedTask, c.proceed exception =
        { c with
          pendingQueue := c.remaining
          activated := c.activated || c.wrappedTask == .connectionTask && exception.isNone
          heartbeatWasRequested := c.heartbeatWasRequested &&
            !(c.wrappedTask == .connectionTask && exception.isNone)
          targetPeerId := targetPeerId
          dataRawPtr := dataRawPtr
          wrappedTask := wrappedTask
          phase := .dispatching
            ⟨c.notifyEvents exception, c.sentCallback, exception, true⟩ } ∧
      (dataRawPtr = none → targetPeerId = c.remotePeerId) ∧
      ∀ dataBlock, dataRawPtr = some dataBlock → wrappedTask = .connectionTask ∧
        ∃ info rest, c.remaining = info :: rest ∧ info.dataBlock = dataBlock := by
  obtain ⟨targetPeerId, dataRawPtr, wrappedTask, hset, htarget, hcommand⟩ :=
    @setCommandInfo_eq _ (c.popSent.activate exception) fun info hin => by
      rw [activate_eq, popSent_eq] at hin
      exact hvalid info (mem_remaining hin)
  refine ⟨targetPeerId, dataRawPtr, wrappedTask, ?_, ?_, ?_⟩
  · unfold proceed
    dsimp only
    rw [hset, activate_eq, popSent_eq]
  · rwa [activate_eq, popSent_eq] at htarget
  · rwa [activate_eq, popSent_eq] at hcommand

theorem settled_of_executing (h : c.phase = .executing) : c.settled = c.completed := by
  simp [Connection.settled, Connection.due, h]

/-- An acknowledgment after a stop was requested. -/
theorem acknowledge_accounts (h : c.Accounts)
    (hstop : c.stopWasRequested = true ∨ exception ≠ none) :
    (c.acknowledge exception).Accounts := by
  have hmem : ∀ callback, (callback, false) ∈ (c.acknowledge exception).acknowledged ↔
      (callback, false) ∈ c.acknowledged := by
    intro callback
    rw [mem_acknowledge]
    refine or_iff_left ?_
    rintro ⟨-, hnone, info, -, heq⟩
    rw [hstop.resolve_right (not_not_intro hnone)] at heq
    exact absurd (congrArg Prod.snd heq) Bool.false_ne_true
  have hknown : ∀ entry ∈ (c.acknowledge exception).acknowledged, entry.1 < c.accepted := by
    intro entry hin
    obtain hin | ⟨-, -, info, hhead, rfl⟩ := mem_acknowledge.mp hin
    · exact h.known entry hin
    · have hin : info.callback ∈ List.range c.accepted := by
        rw [← h.order]
        exact mem_append_right _ (mem_map_of_mem (mem_of_mem_head? hhead))
      exact mem_range.mp hin
  obtain ⟨acknowledged, heq⟩ := acknowledge_eq c exception
  rw [heq] at hmem hknown ⊢
  have hsettled : Connection.settled { c with acknowledged := acknowledged } = c.settled := rfl
  refine ⟨hsettled ▸ h.order, fun entry hin => ?_, fun info hin => ?_, hknown⟩
  · rw [hmem]
    exact h.reported entry hin
  · rw [hmem]
    exact h.unsent info hin

theorem terminate_accounts (h : c.Accounts) (hphase : c.phase = .executing)
    (exception : Exception π) (isShutdownNeeded : Bool) :
    (c.terminate exception isShutdownNeeded).Accounts := by
  have hsettled := settled_of_executing hphase
  unfold terminate
  dsimp only
  split
  · refine h.congr ?_ rfl rfl rfl
    rw [hsettled]
    simp [Connection.settled, Connection.due]
  · refine ⟨?_, ?_, ?_, h.known⟩
    · have horder := h.order
      rw [hsettled] at horder
      simpa [Connection.settled, Connection.due, Function.comp_def] using horder
    · intro entry hin
      obtain hin | hdue := mem_append.mp hin
      · exact h.reported entry (hsettled ▸ hin)
      · simp only [Connection.due, List.map_map, mem_map] at hdue
        obtain ⟨info, hinfo, rfl⟩ := hdue
        exact iff_of_false (fun heq => nomatch heq) (h.unsent info hinfo)
    · exact fun info hin => absurd hin not_mem_nil

/-- The block that was sent is settled, the others stay queued. -/
theorem proceed_accounts (h : c.Accounts) (hruns : c.Runs)
    (hphase : c.phase = .executing) (hstop : c.stopWasRequested = false)
    (exception : Option (Exception π)) :
    ((c.acknowledge exception).proceed exception).Accounts := by
  have hsettled := settled_of_executing hphase
  have horder := h.order
  rw [hsettled] at horder
  have hreported := h.reported
  rw [hsettled] at hreported
  obtain ⟨acknowledged, heq⟩ := acknowledge_eq c exception
  have hmem : ∀ entry, entry ∈ acknowledged ↔ entry ∈ c.acknowledged ∨
      c.sendsBlock = true ∧ exception = none ∧
        ∃ info, c.pendingQueue.head? = some info ∧ entry = (info.callback, false) := by
    intro entry
    have hmem := @mem_acknowledge _ c exception entry
    rwa [heq, hstop] at hmem
  rw [heq]
  obtain ⟨targetPeerId, dataRawPtr, wrappedTask, hproceed, -, -⟩ :=
    @proceed_eq _ { c with acknowledged := acknowledged } exception hruns.valid
  rw [hproceed]
  cases hsends : c.sendsBlock with
  | false =>
    have hsame : ∀ entry, entry ∈ acknowledged ↔ entry ∈ c.acknowledged := by
      simpa [hsends] using hmem
    have hremaining : Connection.remaining { c with acknowledged := acknowledged } =
        c.pendingQueue := if_neg (Bool.not_eq_true _ ▸ hsends)
    have hcallback : sentCallback { c with acknowledged := acknowledged } = [] :=
      if_neg (Bool.not_eq_true _ ▸ hsends)
    rw [hremaining, hcallback]
    refine ⟨?_, fun entry hin => ?_, fun info hin => ?_, fun entry hin => ?_⟩
    · simpa [Connection.settled, Connection.due] using horder
    · rw [hsame]
      exact hreported entry (by simpa [Connection.settled, Connection.due] using hin)
    · rw [hsame]
      exact h.unsent info hin
    · exact h.known entry ((hsame entry).mp hin)
  | true =>
    obtain ⟨-, info, rest, hpending⟩ := hruns.sendsBlock hsends
    have hremaining : Connection.remaining { c with acknowledged := acknowledged } = rest :=
      (if_pos hsends).trans (congrArg List.tail hpending)
    have hcallback : sentCallback { c with acknowledged := acknowledged } =
        [info.callback] :=
      (if_pos hsends).trans (by rw [hpending]; rfl)
    have hin : ∀ entry, entry ∈ acknowledged ↔ entry ∈ c.acknowledged ∨
        exception = none ∧ entry = (info.callback, false) := by
      simpa [hsends, hpending] using hmem
    rw [hpending, map_cons, append_cons] at horder
    have hnodup := horder ▸ nodup_range
    rw [nodup_append] at hnodup
    have hcompleted : ∀ entry ∈ c.completed, entry.1 ≠ info.callback := by
      have hnodup := hnodup.1
      rw [nodup_append] at hnodup
      exact fun entry hin => hnodup.2.2 _ (mem_map_of_mem hin) _ (mem_singleton_self _)
    have hrest : ∀ queued ∈ rest, queued.callback ≠ info.callback := fun queued hin heq =>
      hnodup.2.2 info.callback (mem_append_right _ (mem_singleton_self _)) _
        (mem_map_of_mem hin) heq.symm
    have hunsent := h.unsent
    rw [hpending] at hunsent
    rw [hremaining, hcallback]
    refine ⟨?_, fun entry hentry => ?_, fun queued hqueued => ?_, fun entry hentry => ?_⟩
    · simpa [Connection.settled, Connection.due] using horder
    · simp only [Connection.settled, Connection.due, map_cons, map_nil,
        mem_append, mem_singleton] at hentry
      obtain hentry | rfl := hentry
      · rw [hin, or_iff_left fun heq => hcompleted entry hentry (congrArg Prod.fst heq.2)]
        exact hreported entry hentry
      · rw [hin, or_iff_right (hunsent info mem_cons_self)]
        exact (and_iff_left rfl).symm
    · rw [hin, or_iff_left fun heq => hrest queued hqueued (congrArg Prod.fst heq.2)]
      exact hunsent queued (mem_cons_of_mem _ hqueued)
    · obtain hentry | ⟨-, rfl⟩ := (hin entry).mp hentry
      · exact h.known entry hentry
      · have hlt : info.callback ∈ List.range c.accepted := by
          rw [← horder]
          exact mem_append_left _ (mem_append_right _ (mem_singleton_self _))
        exact mem_range.mp hlt

theorem terminate_placed (hruns : c.Runs) {exception : Exception π}
    (hdecides : c.decidesTermination (some exception) = true) (isShutdownNeeded : Bool) :
    (c.terminate exception isShutdownNeeded).Placed := by
  unfold terminate
  dsimp only
  split
  · refine ⟨⟨fun original h => ?_, rfl, fun dataBlock h => ?_, hruns.valid⟩, fun _ => rfl⟩
    · exact Option.some.inj h ▸ hdecides
    · cases h
  · exact ⟨rfl, rfl⟩

theorem proceed_placed (hruns : c.Runs) (horiginal : c.originalException = none)
    (exception : Option (Exception π)) : (c.proceed exception).Placed := by
  obtain ⟨targetPeerId, dataRawPtr, wrappedTask, heq, -, hcommand⟩ :=
    proceed_eq exception hruns.valid
  have hterminated : c.taskTerminated = false := by
    rw [hruns.terminated, horiginal]
    rfl
  rw [heq]
  refine ⟨⟨hruns.original, hruns.terminated, fun dataBlock h => ?_, fun info hin => ?_⟩,
    fun h => ?_⟩
  · exact ⟨horiginal, hcommand dataBlock h⟩
  · exact hruns.valid info (mem_remaining hin)
  · exact absurd (hterminated.symm.trans h) Bool.false_ne_true

theorem decidesTermination_getD (h : c.decidesTermination exception = true) :
    c.decidesTermination (some (exception.getD .operationAborted)) = true := by
  cases exception with
  | none => exact Bool.or_eq_true_iff.mpr (.inl h)
  | some exception => exact h

/-- A task with an original exception terminates. -/
theorem Connection.Runs.decides (h : c.Runs)
    (hgoes : c.decidesTermination (c.originalException <|> exception) = false) :
    c.originalException = none ∧ c.decidesTermination exception = false := by
  cases horiginal : c.originalException with
  | none => exact ⟨rfl, by simpa [horiginal] using hgoes⟩
  | some original =>
    have hdecides := h.original original horiginal
    rw [horiginal] at hgoes
    exact absurd (hdecides.symm.trans hgoes) Bool.false_ne_true.symm

theorem stopWasRequested_of_goes
    (h : c.decidesTermination exception = false) : c.stopWasRequested = false := by
  cases exception with
  | none => exact h
  | some exception => exact (Bool.or_eq_false_iff.mp h).1

/-- The section after a run, with the acknowledgment of the run. -/
theorem continuationTask_inv (h : c.Accounts) (hruns : c.Runs)
    (hphase : c.phase = .executing) (exception : Option (Exception π)) (isShutdownNeeded : Bool) :
    ((c.acknowledge exception).continuationTask exception isShutdownNeeded).Inv := by
  obtain ⟨acknowledged, heq⟩ := acknowledge_eq c exception
  have hruns' : (c.acknowledge exception).Runs := by
    rw [heq]
    exact ⟨hruns.original, hruns.terminated, hruns.command, hruns.valid⟩
  have hphase' : (c.acknowledge exception).phase = .executing := by
    rwa [heq]
  have horiginal' : (c.acknowledge exception).originalException = c.originalException := by
    rw [heq]
  have hdecides' : ∀ e, (c.acknowledge exception).decidesTermination e =
      c.decidesTermination e := by
    rw [heq]
    exact fun e => rfl
  unfold continuationTask
  dsimp only
  rw [hdecides', horiginal']
  split
  · rename_i hdecides
    refine ⟨?_, terminate_placed hruns' ?_ _⟩
    · by_cases hsent : c.stopWasRequested = true ∨ exception ≠ none
      · exact terminate_accounts (acknowledge_accounts h hsent) hphase' _ _
      · -- only a connection in its protocol shutdown terminates without either
        obtain ⟨hstop, hnone⟩ := not_or.mp hsent
        rw [not_not] at hnone
        have hsends : c.sendsBlock = false := by
          by_contra hsends
          obtain ⟨horiginal, -⟩ := hruns.sendsBlock (Bool.not_eq_false _ ▸ hsends)
          rw [horiginal, hnone] at hdecides
          exact hstop hdecides
        have hsame : c.acknowledge exception = c := by
          simp [acknowledge, hsends]
        rw [hsame]
        exact terminate_accounts h hphase _ _
    · rw [hdecides']
      exact decidesTermination_getD hdecides
  · rename_i hgoes
    obtain ⟨horiginal, hgoes⟩ := hruns.decides (Bool.not_eq_true _ ▸ hgoes)
    rw [horiginal]
    exact ⟨proceed_accounts h hruns hphase (stopWasRequested_of_goes hgoes) exception,
      proceed_placed hruns' (horiginal'.trans horiginal) exception⟩

/-! ## After the section -/

theorem scheduleNothrow_eq (h : scheduleNothrow c = some c') : ∃ inProgress,
      c' = { c with protocolShutdownInProgress := inProgress, phase := .executing } := by
  unfold scheduleNothrow at h
  split at h
  · exact ⟨_, (Option.some.inj h).symm⟩
  split at h
  · cases h
  · exact ⟨_, (Option.some.inj h).symm⟩

theorem scheduleNothrow_inv (h : c.Accounts) (hruns : c.Runs)
    (hdue : c.due = []) (hschedule : scheduleNothrow c = some c') : c'.Inv := by
  obtain ⟨inProgress, rfl⟩ := scheduleNothrow_eq hschedule
  refine ⟨h.congr ?_ rfl rfl rfl, hruns.original, hruns.terminated, hruns.command, hruns.valid⟩
  rw [Connection.settled, Connection.settled, hdue]
  rfl

/-- What is left to do does not matter, only whether the task goes on. -/
theorem Connection.Placed.redispatch {dispatch dispatch' : Dispatch π}
    {completed : List (Nat × Option (Exception π))} (h : c.Placed)
    (hphase : c.phase = .dispatching dispatch)
    (hsafe : dispatch'.safeToContinue = dispatch.safeToContinue) :
    Connection.Placed { c with completed := completed, phase := .dispatching dispatch' } := by
  simp only [Connection.Placed, hphase] at h ⊢
  rw [hsafe]
  split
  · rename_i hcontinue
    rw [if_pos hcontinue] at h
    obtain ⟨hruns, hprogress⟩ := h
    exact ⟨⟨hruns.original, hruns.terminated, hruns.command, hruns.valid⟩, hprogress⟩
  · rename_i hends
    rw [if_neg hends] at h
    exact ⟨h.terminated, h.empty⟩

theorem notified_inv {dispatch : Dispatch π} (h : c.Inv)
    (hphase : c.phase = .dispatching dispatch) (hstep : c.notified dispatch none = some c') :
    c'.Inv := by
  simp only [notified] at hstep
  split at hstep
  · cases hstep
  cases hstep
  refine ⟨h.accounts.congr ?_ rfl rfl rfl, h.placed.redispatch hphase rfl⟩
  simp [Connection.settled, Connection.due, hphase]

theorem callback_inv {dispatch : Dispatch π} (h : c.Inv)
    (hphase : c.phase = .dispatching dispatch) (hstep : c.callback dispatch = some c') :
    c'.Inv := by
  unfold callback at hstep
  split at hstep
  · rename_i callback callbacks hevents hcallbacks
    cases hstep
    refine ⟨h.accounts.congr ?_ rfl rfl rfl, h.placed.redispatch hphase rfl⟩
    simp [Connection.settled, Connection.due, hphase, hcallbacks]
  · cases hstep

theorem resume_inv {dispatch : Dispatch π} (h : c.Inv)
    (hphase : c.phase = .dispatching dispatch) (hstep : c.resume dispatch = some c') :
    c'.Inv := by
  have hplaced := h.placed
  simp only [Connection.Placed, hphase] at hplaced
  unfold resume at hstep
  split at hstep
  · rename_i hevents hcallbacks
    have hdue : c.due = [] := by simp [Connection.due, hphase, hcallbacks]
    split at hstep
    · rename_i hsafe
      rw [if_pos hsafe] at hplaced
      exact scheduleNothrow_inv h.accounts hplaced.1 hdue hstep
    · rename_i hsafe
      rw [if_neg hsafe] at hplaced
      cases hstep
      refine ⟨h.accounts.congr ?_ rfl rfl rfl, rfl, hplaced.terminated, hplaced.empty⟩
      rw [Connection.settled, Connection.settled, hdue]
      rfl
  · cases hstep

/-! ## Runs -/

/-- No notify callback throws, and the protocol data of a block which is
offered lies within the block. -/
def Returns (_ : Connection π) : Label π → Prop
  | .notified thrown => thrown = none
  | .tryScheduleBlock _ dataBlock => chkProtocolDataSize dataBlock = none
  | _ => True

instance [DecidableEq π] (c : Connection π) : ∀ l : Label π, Decidable (Returns c l)
  | .notified thrown => inferInstanceAs (Decidable (thrown = none))
  | .tryScheduleBlock _ dataBlock =>
    inferInstanceAs (Decidable (chkProtocolDataSize dataBlock = none))
  | .start | .requestHeartbeat | .requestCancel | .completed _ _ _ | .callback | .resume =>
    .isTrue trivial

section

variable [DecidableEq π] {nil : π}

theorem step_inv {l : Label π} (h : c.Inv) (hl : Returns c l)
    (hstep : step nil c l = some c') : c'.Inv := by
  cases l with
  | start =>
    simp only [step] at hstep
    split at hstep
    · rename_i hphase
      have hplaced := h.placed
      simp only [Connection.Placed, hphase] at hplaced
      exact scheduleNothrow_inv h.accounts hplaced.1 (by simp [Connection.due, hphase]) hstep
    · cases hstep
  | tryScheduleBlock targetPeerId dataBlock =>
    cases hstep
    exact ⟨tryScheduleBlock_accounts h.accounts targetPeerId dataBlock,
      tryScheduleBlock_placed h.placed hl targetPeerId⟩
  | requestHeartbeat => exact Option.some.inj hstep ▸ requestHeartbeat_inv h
  | requestCancel => exact Option.some.inj hstep ▸ requestCancel_inv h
  | completed declaredPeerId exception isShutdownNeeded =>
    simp only [step] at hstep
    split at hstep
    · rename_i hphase
      split at hstep
      · cases hstep
        have hruns := h.placed
        simp only [Connection.Placed, hphase] at hruns
        obtain ⟨remotePeerId, heq⟩ := handleAckPacket_eq nil c declaredPeerId
        rw [heq]
        refine @continuationTask_inv _ { c with remotePeerId := remotePeerId }
          (h.accounts.congr rfl rfl rfl rfl) ?_ hphase exception isShutdownNeeded
        exact ⟨hruns.original, hruns.terminated, hruns.command, hruns.valid⟩
      · cases hstep
    · cases hstep
  | notified thrown =>
    obtain rfl : thrown = none := hl
    simp only [step] at hstep
    split at hstep
    · exact notified_inv h ‹_› hstep
    · cases hstep
  | callback =>
    simp only [step] at hstep
    split at hstep
    · exact callback_inv h ‹_› hstep
    · cases hstep
  | resume =>
    simp only [step] at hstep
    split at hstep
    · exact resume_inv h ‹_› hstep
    · cases hstep

theorem run_inv {peerId : π} {notifies : Bool} {ls : List (Label π)}
    (hrun : run (step nil) (.create nil peerId notifies) ls = some c)
    (hreturns : Along (step nil) Returns (.create nil peerId notifies) ls) : c.Inv :=
  run_invariant (fun _ _ _ => step_inv) (create_inv nil peerId notifies) hreturns hrun

end

/-! ## Termination -/

theorem proceed_kept (c : Connection π) (exception : Option (Exception π)) :
    (c.proceed exception).taskTerminated = c.taskTerminated ∧
      (c.proceed exception).accepted = c.accepted := by
  unfold proceed
  dsimp only
  rw [activate_eq, popSent_eq]
  split
  · exact ⟨rfl, rfl⟩
  · rename_i next hnext
    unfold setCommandInfo at hnext
    split at hnext
    · cases hnext
      exact ⟨rfl, rfl⟩
    · split at hnext
      · cases hnext
      · cases hnext
        exact ⟨rfl, rfl⟩

theorem terminate_kept (c : Connection π) (exception : Exception π) (isShutdownNeeded : Bool) :
    (c.terminate exception isShutdownNeeded).taskTerminated = true ∧
      (c.terminate exception isShutdownNeeded).accepted = c.accepted := by
  unfold terminate
  dsimp only
  split <;> exact ⟨rfl, rfl⟩

theorem continuationTask_kept (c : Connection π) (exception : Option (Exception π))
    (isShutdownNeeded : Bool) :
    (c.continuationTask exception isShutdownNeeded).accepted = c.accepted ∧
      (c.taskTerminated = true ∨
          c.decidesTermination (c.originalException <|> exception) = true →
        (c.continuationTask exception isShutdownNeeded).taskTerminated = true) := by
  unfold continuationTask
  dsimp only
  split
  · obtain ⟨hterminated, haccepted⟩ := terminate_kept c
      ((c.originalException <|> exception).getD .operationAborted) isShutdownNeeded
    exact ⟨haccepted, fun _ => hterminated⟩
  · rename_i hgoes
    obtain ⟨hterminated, haccepted⟩ := proceed_kept c (c.originalException <|> exception)
    exact ⟨haccepted, fun h => hterminated.trans (h.resolve_right hgoes)⟩

/-- The step after which the task only terminates. -/
theorem step_decides [DecidableEq π] {nil : π} {declaredPeerId : Option π} {isShutdownNeeded : Bool}
    (hstep : step nil c (.completed declaredPeerId exception isShutdownNeeded) = some c') :
    c'.accepted = c.accepted ∧
      (c.taskTerminated = true ∨
          c.decidesTermination (c.originalException <|> exception) = true →
        c'.taskTerminated = true) := by
  simp only [step] at hstep
  split at hstep
  · split at hstep
    · cases hstep
      obtain ⟨remotePeerId, heq⟩ := handleAckPacket_eq nil c declaredPeerId
      obtain ⟨acknowledged, heq'⟩ :=
        acknowledge_eq { c with remotePeerId := remotePeerId } exception
      rw [heq, heq']
      exact continuationTask_kept
        { c with remotePeerId := remotePeerId, acknowledged := acknowledged } _ _
    · cases hstep
  · cases hstep

theorem step_terminated [DecidableEq π] {nil : π} {l : Label π}
    (h : c.taskTerminated = true) (hstep : step nil c l = some c') :
    c'.taskTerminated = true ∧ c'.accepted = c.accepted := by
  have hschedule : ∀ {c'}, scheduleNothrow c = some c' →
      c'.taskTerminated = true ∧ c'.accepted = c.accepted := fun hschedule => by
    obtain ⟨inProgress, rfl⟩ := scheduleNothrow_eq hschedule
    exact ⟨h, rfl⟩
  cases l with
  | start =>
    simp only [step] at hstep
    split at hstep
    · exact hschedule hstep
    · cases hstep
  | tryScheduleBlock targetPeerId dataBlock =>
    simp only [step, tryScheduleBlock_terminated h, Option.some.injEq] at hstep
    exact hstep ▸ ⟨h, rfl⟩
  | requestHeartbeat | requestCancel => exact Option.some.inj hstep ▸ ⟨h, rfl⟩
  | completed declaredPeerId exception isShutdownNeeded =>
    obtain ⟨haccepted, hterminated⟩ := step_decides hstep
    exact ⟨hterminated (.inl h), haccepted⟩
  | notified thrown =>
    simp only [step] at hstep
    split at hstep
    · unfold notified at hstep
      split at hstep <;> split at hstep <;> cases hstep <;> exact ⟨h, rfl⟩
    · cases hstep
  | callback =>
    simp only [step] at hstep
    split at hstep
    · unfold callback at hstep
      split at hstep <;> cases hstep
      exact ⟨h, rfl⟩
    · cases hstep
  | resume =>
    simp only [step] at hstep
    split at hstep
    · unfold resume at hstep
      split at hstep
      · split at hstep
        · exact hschedule hstep
        · cases hstep
          exact ⟨h, rfl⟩
      · cases hstep
    · cases hstep

/-- No block is accepted after the run that decides the termination. -/
theorem run_decides [DecidableEq π] {nil : π} {m : Connection π}
    {declaredPeerId : Option π} {isShutdownNeeded : Bool}
    {ls : List (Label π)}
    (hrun : run (step nil) m (.completed declaredPeerId exception isShutdownNeeded :: ls) = some c)
    (hdecides : m.decidesTermination (m.originalException <|> exception) = true) :
    c.accepted = m.accepted := by
  obtain ⟨m', hstep, hrun⟩ := run_cons_eq_some.mp hrun
  obtain ⟨haccepted, hterminated⟩ := step_decides hstep
  have hafter : c.taskTerminated = true ∧ c.accepted = m.accepted :=
    run_invariant (P := fun s => s.taskTerminated = true ∧ s.accepted = m.accepted)
      (fun s l s' hs _ hstep => by
        obtain ⟨ht, ha⟩ := step_terminated hs.1 hstep
        exact ⟨ht, ha.trans hs.2⟩)
      ⟨hterminated (.inr hdecides), haccepted⟩ Transition.along_true hrun
  exact hafter.2

/-! ## The blocks of a run -/

section

variable [DecidableEq π] {nil peerId : π} {notifies : Bool}

/-- Every accepted block is completed once and in its turn, and without an
exception when it was acknowledged before a stop was requested. -/
theorem run_completes (ls : List (Label π)) (c : Connection π)
    (hrun : run (step nil) (.create nil peerId notifies) ls = some c)
    (hreturns : Along (step nil) Returns (.create nil peerId notifies) ls) :
    c.completed.map Prod.fst <+: List.range c.accepted ∧
      ((∃ thrown, c.phase = .finished thrown) →
        c.completed.map Prod.fst = List.range c.accepted) ∧
      (∀ entry ∈ c.completed, entry.2 = none ↔ (entry.1, false) ∈ c.acknowledged) ∧
      ∀ ls₁ declaredPeerId exception isShutdownNeeded ls₂ m,
        ls = ls₁ ++ .completed declaredPeerId exception isShutdownNeeded :: ls₂ →
        run (step nil) (.create nil peerId notifies) ls₁ = some m →
        m.decidesTermination (m.originalException <|> exception) = true →
          c.accepted = m.accepted := by
  have hinv := run_inv hrun hreturns
  refine ⟨?_, fun ⟨thrown, hphase⟩ => ?_, fun entry hin => ?_, ?_⟩
  · rw [← hinv.accounts.order, Connection.settled, List.map_append, List.append_assoc]
    exact List.prefix_append _ _
  · have hplaced := hinv.placed
    simp only [Connection.Placed, hphase] at hplaced
    have horder := hinv.accounts.order
    simpa [Connection.settled, Connection.due, hphase, hplaced.2.empty] using horder
  · exact hinv.accounts.reported entry (List.mem_append_left _ hin)
  · rintro ls₁ declaredPeerId exception isShutdownNeeded ls₂ m rfl hrun₁ hdecides
    obtain ⟨m', hrun₁', hrun₂⟩ := run_append_eq_some.mp hrun
    obtain rfl := Option.some.inj (hrun₁.symm.trans hrun₁')
    exact run_decides hrun₂ hdecides

end

/-- A block is sent, another one is queued when the connection is
cancelled and shut down. -/
def cancelledWithQueue : List (Label Nat) :=
  [.start, .tryScheduleBlock 7 ⟨4, 0⟩, .completed (some 7) none false, .notified none, .resume,
    .completed none none false, .callback, .resume, .tryScheduleBlock 7 ⟨4, 2⟩, .requestCancel,
    .completed none none true, .notified none, .resume, .completed none (some .other) false,
    .callback, .resume]

theorem run_completes_cancelled :
    ∃ c, run (step 0) (.create 0 1 true) cancelledWithQueue = some c ∧
      c.completed.map Prod.fst = List.range c.accepted ∧
      ∀ entry ∈ c.completed, entry.2 = none ↔ (entry.1, false) ∈ c.acknowledged := by
  obtain ⟨c, hrun⟩ := Option.isSome_iff_exists.mp
    (show (run (step 0) (.create 0 1 true) cancelledWithQueue).isSome = true by decide)
  obtain ⟨-, hcompleted, hreported, -⟩ :=
    run_completes cancelledWithQueue c hrun (by decide)
  have hphase : (run (step 0) (.create 0 1 true) cancelledWithQueue).map Connection.phase =
      some (.finished none) := by decide
  rw [hrun] at hphase
  exact ⟨c, hrun, hcompleted ⟨none, Option.some.inj hphase⟩, hreported⟩

/-- The remote acknowledges the block after the connection was cancelled. -/
def cancelledInFlight : List (Label Nat) :=
  [.start, .tryScheduleBlock 7 ⟨4, 0⟩, .completed (some 7) none false, .notified none, .resume,
    .requestCancel, .completed none none false, .notified none, .callback, .resume]

theorem run_completes_inFlight :
    Along (step 0) Returns (.create 0 1 true) cancelledInFlight ∧
      ∃ c, run (step 0) (.create 0 1 true) cancelledInFlight = some c ∧
        c.phase = .finished none ∧ c.acknowledged.map Prod.fst = [0] ∧
        c.completed = [(0, some .operationAborted)] ∧
        ¬ ∀ entry ∈ c.completed, entry.2 = none ↔ entry.1 ∈ c.acknowledged.map Prod.fst :=
  ⟨by decide, _, rfl, rfl, rfl, rfl, by decide⟩

end Baselib.Messaging.AutoPushConnection
