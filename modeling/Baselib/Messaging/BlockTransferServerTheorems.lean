/-
Baselib.Messaging.BlockTransferServerTheorems — whether the server keeps
the stream in step (`InStep`): what it transfers for a command is what the
client is told to expect. Every command but `GetDataBlock` is served in
step. A `GetDataBlock` is, exactly when the path it takes happens to check
what it answers (`GetsInStep`): the cached chunk is sent as it is, and a
size of zero is taken for the question about the size.
-/
import Baselib.Messaging.BlockTransferServer

namespace Baselib.Messaging.BlockTransferServer

open Lib

variable {υ : Type} {p : Parameters υ} {s s' : State υ}
variable {command command' : CommandBlock υ} {result : AsyncResult} {operation : Operation υ}
variable {data : DataBlock υ} {transfers : List (Transfer υ)} {backend : Backend υ}

/-! ## What is transferred for a command -/

/-- One acknowledgment with the error bit. -/
def Refused (transfers : List (Transfer υ)) : Prop :=
  ∃ block, transfers = [.acknowledgement block] ∧ block.isError = true

/-- Refused, or acknowledged and followed by as many octets as the
acknowledgment says, which have been loaded for the command. -/
def GetReply (command : CommandBlock υ) (transfers : List (Transfer υ)) : Prop :=
  Refused transfers ∨
    ∃ block data, transfers = [.acknowledgement block, .sent data] ∧ block.isError = false ∧
      data.octets.length = block.chunkSize.toNat ∧
      data.loadedFor = some (command.chunkId, command.blockType)

/-- Refused, or acknowledged, then as many octets taken as the command
announces, then acknowledged once more. -/
def PutReply (command : CommandBlock υ) (transfers : List (Transfer υ)) : Prop :=
  Refused transfers ∨
    ∃ block last, transfers =
        [.acknowledgement block, .received command.chunkSize.toNat, .acknowledgement last] ∧
      block.isError = false

def InStep (command : CommandBlock υ) (transfers : List (Transfer υ)) : Prop :=
  if command.cntrlCode = CntrlCode.getDataBlock then GetReply command transfers
  else if command.cntrlCode = CntrlCode.putDataBlock then PutReply command transfers
  else ∃ block, transfers = [.acknowledgement block]

/-! ## Flags -/

@[simp] theorem isError_setErrorCode (command : CommandBlock υ) (errorCode : UInt32) :
    (command.setErrorCode errorCode).isError = true := by
  rw [CommandBlock.isError, CommandBlock.setErrorCode, bne_iff_ne, ne_eq, ← UInt16.toNat_inj,
    UInt16.toNat_and, UInt16.toNat_or, Nat.and_or_distrib_right]
  simp [errBit]

@[simp] theorem isError_response (p : Parameters υ) (command : CommandBlock υ) (s : State υ) :
    (response p command s).isError = command.isError := by
  have hflags : (command.flags ||| ackBit) &&& errBit = command.flags &&& errBit := by
    rw [← UInt16.toNat_inj, UInt16.toNat_and, UInt16.toNat_or, Nat.and_or_distrib_right]
    simp [errBit, ackBit]
  rw [CommandBlock.isError, response, hflags, CommandBlock.isError]

theorem length_octets (data : DataBlock υ) : data.octets.length = data.size :=
  (List.length_take ..).trans (min_eq_left data.size_le)

/-! ## Operations of the backend -/

/-- The result is one which is reported to the client of the command. -/
def AsyncResult.isReported (command : CommandBlock υ) : AsyncResult → Bool
  | .serverError errorNo genericErrorCode =>
    let errorValue := errorValue errorNo genericErrorCode
    !(errorValue = 0 || command.cntrlCode == CntrlCode.removeDataBlock &&
      command.blockFlags &&& ignoreIfNotFound != 0 && errorValue == noSuchFileOrDirectory)
  | _ => false

/-- What `chk4ServerErrors` makes of the command. -/
theorem chk4ServerErrors_ok (h : chk4ServerErrors command result = .ok command') :
    result.isReported command = true ∧ command'.isError = true ∨
      result.isReported command = false ∧ command' = command := by
  cases result with
  | completed => exact .inr ⟨rfl, (Except.ok.inj h).symm⟩
  | failed => cases h
  | serverError errorNo genericErrorCode =>
    simp only [chk4ServerErrors] at h
    split at h
    · rename_i hignored
      exact .inr ⟨congrArg not hignored, (Except.ok.inj h).symm⟩
    · rename_i hreported
      cases h
      rw [Bool.not_eq_true] at hreported
      exact .inl ⟨congrArg not hreported, isError_setErrorCode _ _⟩

theorem scheduleResponseCommand_ok {newCommand : Bool}
    (h : scheduleResponseCommand p newCommand command s = .ok (transfers, s')) :
    transfers = [.acknowledgement (response p command s)] :=
  (congrArg Prod.fst (Except.ok.inj h)).symm

/-- After an operation of the backend the command is refused, or what
follows is done for the command as it was. -/
theorem chkAsyncResult_ok {proceed : CommandBlock υ → Served υ}
    (h : chkAsyncResult p result command s proceed = .ok (transfers, s')) :
    if result.isReported command || command.isError then Refused transfers
    else proceed command = .ok (transfers, s') := by
  unfold chkAsyncResult at h
  split at h
  · cases h
  rename_i command' hchecked
  obtain ⟨hreported, herror⟩ | ⟨hreported, rfl⟩ := chk4ServerErrors_ok hchecked
  · rw [if_pos herror] at h
    rw [hreported, Bool.true_or, if_pos rfl]
    exact ⟨_, scheduleResponseCommand_ok h, (isError_response ..).trans herror⟩
  · rw [hreported, Bool.false_or]
    split at h
    · rename_i herror
      rw [if_pos herror]
      exact ⟨_, scheduleResponseCommand_ok h, (isError_response ..).trans herror⟩
    · rename_i herror
      rwa [if_neg herror]

/-- `onChunkAllocated`, when it does not end the connection. -/
theorem onChunkAllocated_ok {size : UInt32} {allocated : Option (DataBlock υ)}
    {postAllocCallback : CommandBlock υ → DataBlock υ → Served υ}
    (h : onChunkAllocated p size result allocated command operation s postAllocCallback =
      .ok (transfers, s')) :
    if result.isReported command || command.isError then Refused transfers
    else ∃ data data', allocated = some data ∧ allocatedSize operation size data = .ok data' ∧
      postAllocCallback command data' = .ok (transfers, s') := by
  have hchecked := chkAsyncResult_ok h
  split
  · rename_i hrefused
    rwa [if_pos hrefused] at hchecked
  · rename_i hproceed
    rw [if_neg hproceed] at hchecked
    split at hchecked
    · cases hchecked
    · rename_i data
      split at hchecked
      · cases hchecked
      · split at hchecked
        · cases hchecked
        · rename_i data' hsize
          exact ⟨data, data', rfl, hsize, hchecked⟩

theorem respond2GetSize_ok (h : respond2GetSize p command s = .ok (transfers, s')) :
    ∃ block, transfers = [.acknowledgement block] ∧ block.isError = command.isError :=
  ⟨_, scheduleResponseCommand_ok h, isError_response ..⟩

/-- A loaded chunk, when it does not end the connection. -/
theorem handleChunkLoaded_ok {chunkSizeExpected : UInt32} {loaded : Option (DataBlock υ)}
    (h : handleChunkLoaded p chunkSizeExpected result loaded command operation s =
      .ok (transfers, s')) :
    if result.isReported command || command.isError then Refused transfers
    else if chunkSizeExpected = 0 then
      ∃ block, transfers = [.acknowledgement block] ∧ block.isError = false
    else ∃ data block, loaded = some data ∧ data.size = chunkSizeExpected.toNat ∧
      transfers = [.acknowledgement block, .sent data] ∧ block.isError = false ∧
      block.chunkSize = command.chunkSize := by
  have hchecked := chkAsyncResult_ok h
  split
  · rename_i hrefused
    rwa [if_pos hrefused] at hchecked
  · rename_i hproceed
    rw [if_neg hproceed] at hchecked
    have hnoError : command.isError = false := by
      rw [Bool.or_eq_true, not_or] at hproceed
      exact Bool.not_eq_true _ ▸ hproceed.2
    split at hchecked
    · cases hchecked
    · rename_i data
      split at hchecked
      · cases hchecked
      · dsimp only at hchecked
        split at hchecked
        · rename_i hexpected
          rw [if_neg hexpected]
          split at hchecked
          · rename_i hsize
            obtain ⟨rfl, -⟩ := Prod.mk.inj (Except.ok.inj hchecked)
            exact ⟨data, _, rfl, hsize.symm, rfl, (isError_response ..).trans hnoError, rfl⟩
          · cases hchecked
        · rename_i hexpected
          rw [if_pos (not_not.mp hexpected)]
          obtain ⟨block, hblock, herror⟩ := respond2GetSize_ok hchecked
          exact ⟨block, hblock, herror.trans hnoError⟩

/-- The operation which loads the chunk of a command. -/
def Backend.loadResult (backend : Backend υ) (command : CommandBlock υ) : AsyncResult :=
  if command.blockType == BlockType.transferOnly then backend.alloc.1 else backend.load.1

/-- Loading the chunk is refused. -/
def Backend.refuses (backend : Backend υ) (command : CommandBlock υ) : Bool :=
  command.isError || backend.alloc.1.isReported command ||
    (backend.loadResult command).isReported command

theorem loadChunk_ok {chunkSizeExpected : UInt32}
    (h : loadChunk p backend chunkSizeExpected command s = .ok (transfers, s')) :
    if backend.refuses command then Refused transfers
    else if chunkSizeExpected = 0 then
      ∃ block, transfers = [.acknowledgement block] ∧ block.isError = false
    else ∃ data block, transfers = [.acknowledgement block, .sent data] ∧
      data.size = chunkSizeExpected.toNat ∧ block.isError = false ∧
      block.chunkSize = command.chunkSize ∧
      (data.loadedFor = some (command.chunkId, command.blockType) ↔
        backend.loadResult command = .completed) := by
  have hloaded : ∀ (data : DataBlock υ) (result : AsyncResult),
      (data.loadedBy result (command.operation command.chunkId)).loadedFor =
        some (command.chunkId, command.blockType) ↔ result = .completed := by
    intro data result
    by_cases hresult : result = .completed <;>
      simp [DataBlock.loadedBy, CommandBlock.operation, hresult]
  have halloc := onChunkAllocated_ok h
  by_cases hrefused : (backend.alloc.1.isReported command || command.isError) = true
  · rw [if_pos hrefused] at halloc
    have hrefuses : backend.refuses command = true := by
      rw [Backend.refuses, Bool.or_comm command.isError, hrefused, Bool.true_or]
    rwa [if_pos hrefuses]
  rw [if_neg hrefused] at halloc
  rw [Bool.not_eq_true, Bool.or_eq_false_iff] at hrefused
  obtain ⟨data, data', -, -, hpost⟩ := halloc
  cases htransfer : command.blockType == BlockType.transferOnly with
  | true =>
    rw [if_pos htransfer] at hpost
    have hresult : backend.loadResult command = backend.alloc.1 := if_pos htransfer
    have hrefuses : backend.refuses command = false := by
      simp [Backend.refuses, hresult, hrefused]
    have hget := handleChunkLoaded_ok hpost
    rw [if_neg (by simp [AsyncResult.isReported, hrefused])] at hget
    rw [hrefuses, if_neg Bool.false_ne_true]
    split_ifs with hzero
    · rwa [if_pos hzero] at hget
    · rw [if_neg hzero] at hget
      obtain ⟨data, block, hdata, hsize, htransfers, herror, hchunkSize⟩ := hget
      refine ⟨data, block, htransfers, hsize, herror, hchunkSize, ?_⟩
      rw [← Option.some.inj hdata, hresult]
      exact hloaded _ _
  | false =>
    rw [if_neg (Bool.not_eq_true _ ▸ htransfer)] at hpost
    have hresult : backend.loadResult command = backend.load.1 :=
      if_neg (Bool.not_eq_true _ ▸ htransfer)
    have hrefuses : backend.refuses command = backend.load.1.isReported command := by
      simp [Backend.refuses, hresult, hrefused]
    have hget := handleChunkLoaded_ok hpost
    rw [hrefused.2, Bool.or_false] at hget
    rw [hrefuses]
    split
    · rename_i hreported
      rwa [if_pos hreported] at hget
    · rename_i hreported
      rw [if_neg hreported] at hget
      split
      · rename_i hzero
        rwa [if_pos hzero] at hget
      · rename_i hzero
        rw [if_neg hzero] at hget
        obtain ⟨data, block, hdata, hsize, htransfers, herror, hchunkSize⟩ := hget
        refine ⟨data, block, htransfers, hsize, herror, hchunkSize, ?_⟩
        obtain ⟨data', -, rfl⟩ := Option.map_eq_some_iff.mp hdata
        rw [hresult]
        exact hloaded _ _

/-! ## The commands -/

theorem inStep_getDataBlock (h : command.cntrlCode = CntrlCode.getDataBlock) :
    InStep command transfers ↔ GetReply command transfers := by
  rw [InStep, if_pos h]

/-- A refused command is in step, whichever it is. -/
theorem Refused.inStep (h : Refused transfers) : InStep command transfers := by
  unfold InStep
  split
  · exact .inl h
  · split
    · exact .inl h
    · obtain ⟨block, hblock, -⟩ := h
      exact ⟨block, hblock⟩

theorem Refused.exists_block (h : Refused transfers) :
    ∃ block, transfers = [.acknowledgement block] :=
  let ⟨block, hblock, _⟩ := h
  ⟨block, hblock⟩

theorem onAsyncCommandCompleted_ok
    (h : onAsyncCommandCompleted p result command s = .ok (transfers, s')) :
    ∃ block, transfers = [.acknowledgement block] := by
  have hchecked := chkAsyncResult_ok h
  split at hchecked
  · exact hchecked.exists_block
  · exact ⟨_, scheduleResponseCommand_ok hchecked⟩

/-- `onChunkDataProcessed` ends with one acknowledgment. -/
theorem onChunkDataProcessed_ok
    (h : onChunkDataProcessed p result command operation s = .ok (transfers, s')) :
    ∃ block, transfers = [.acknowledgement block] := by
  unfold onChunkDataProcessed at h
  split at h
  · cases h
  · split at h
    · exact ⟨_, scheduleResponseCommand_ok h⟩
    · exact ⟨_, (congrArg Prod.fst (Except.ok.inj h)).symm⟩

theorem onChunkReceived_ok
    (h : onChunkReceived p backend command operation data s = .ok (transfers, s')) :
    ∃ block, transfers = [.acknowledgement block] := by
  unfold onChunkReceived at h
  split at h
  · split at h
    · cases h
    · exact onChunkDataProcessed_ok h
  · split at h
    · exact onChunkDataProcessed_ok h
    · cases h

/-- The size of an allocated block is the one asked for. -/
theorem allocatedSize_ok {size : UInt32} {data' : DataBlock υ} (hsize : size ≠ 0)
    (h : allocatedSize operation size data = .ok data') : data'.size = size.toNat := by
  unfold allocatedSize at h
  split at h
  · rename_i hzero
    rw [Bool.and_eq_true, beq_iff_eq, beq_iff_eq] at hzero
    exact absurd hzero.2 hsize
  · unfold DataBlock.setSizeChecked at h
    split at h
    · exact congrArg DataBlock.size (Except.ok.inj h).symm
    · cases h

theorem onPutDataAck_ok (herror : command.isError = false)
    (h : onPutDataAck p backend command operation data s = .ok (transfers, s')) :
    ∃ last, transfers =
      [.acknowledgement command, .received data.size, .acknowledgement last] := by
  unfold onPutDataAck at h
  rw [herror, if_neg Bool.false_ne_true] at h
  split at h
  · cases h
  · rename_i transfers' s'' hreceived
    obtain ⟨last, hlast⟩ := onChunkReceived_ok hreceived
    obtain ⟨rfl, -⟩ := Prod.mk.inj (Except.ok.inj h)
    exact ⟨last, by rw [hlast, length_octets]⟩

theorem schedulePutRequest_ok (h : schedulePutRequest p backend command s = .ok (transfers, s')) :
    PutReply command transfers := by
  unfold schedulePutRequest at h
  split at h
  · cases h
  rename_i hsize
  have halloc := onChunkAllocated_ok h
  split at halloc
  · exact .inl halloc
  rename_i hproceed
  obtain ⟨data, data', -, hdata, hput⟩ := halloc
  rw [Bool.not_eq_true, Bool.or_eq_false_iff] at hproceed
  have herror : ∀ s : State υ, (response p command s).isError = false := fun s =>
    (isError_response p command s).trans hproceed.2
  obtain ⟨last, rfl⟩ := onPutDataAck_ok (herror _) hput
  exact .inr ⟨_, last, by rw [allocatedSize_ok hsize hdata], herror _⟩

theorem getReply_acknowledgement {block : CommandBlock υ} :
    GetReply command [.acknowledgement block] ↔ block.isError = true := by
  simp [GetReply, Refused]

theorem getReply_sent {block : CommandBlock υ} :
    GetReply command [.acknowledgement block, .sent data] ↔ block.isError = false ∧
      data.size = block.chunkSize.toNat ∧
        data.loadedFor = some (command.chunkId, command.blockType) := by
  simp [GetReply, Refused, length_octets]

variable [DecidableEq υ]

/-- What a `GetDataBlock` which is not turned away has to meet: the cached
chunk is the one the command asks for and is as long as it says, and the
command does not come with the error bit; or the chunk has to be loaded,
which is refused, or completes when the size is not zero. -/
def GetsInStep (p : Parameters υ) (s : State υ) (l : Label υ) : Prop :=
  l.command.cntrlCode = CntrlCode.getDataBlock → refusal p l.command s = none →
    if s.isLoaded l.command then
      l.command.isError = false ∧ ∀ data ∈ s.operation.bind Operation.data,
        data.size = l.command.chunkSize.toNat ∧
          data.loadedFor = some (l.command.chunkId, l.command.blockType)
    else
      l.backend.refuses l.command = true ∨
        l.command.chunkSize ≠ 0 ∧ l.backend.loadResult l.command = .completed

instance (p : Parameters υ) (s : State υ) (l : Label υ) : Decidable (GetsInStep p s l) := by
  unfold GetsInStep
  infer_instance

theorem scheduleGetRequest_ok (h : scheduleGetRequest p backend command s = .ok (transfers, s')) :
    GetReply command transfers ↔
      if s.isLoaded command then
        command.isError = false ∧ ∀ data ∈ s.operation.bind Operation.data,
          data.size = command.chunkSize.toNat ∧
            data.loadedFor = some (command.chunkId, command.blockType)
      else
        backend.refuses command = true ∨
          command.chunkSize ≠ 0 ∧ backend.loadResult command = .completed := by
  unfold scheduleGetRequest at h
  split at h
  · rename_i hcached
    rw [if_pos hcached]
    split at h
    · rename_i data hdata
      obtain ⟨rfl, -⟩ := Prod.mk.inj (Except.ok.inj h)
      rw [getReply_sent, isError_response]
      simp only [hdata, Option.mem_def, Option.some.injEq, forall_eq', response]
    · cases h
  · rename_i hcached
    rw [if_neg hcached]
    have hload := loadChunk_ok h
    split at hload
    · rename_i hrefuses
      exact iff_of_true (.inl hload) (.inl hrefuses)
    · rename_i hrefuses
      split at hload
      · rename_i hzero
        obtain ⟨block, rfl, herror⟩ := hload
        rw [getReply_acknowledgement, herror]
        simp [hrefuses, hzero]
      · rename_i hzero
        obtain ⟨data, block, rfl, hsize, herror, hchunkSize, hloaded⟩ := hload
        rw [getReply_sent, herror, hchunkSize, hloaded]
        simp [hrefuses, hzero, hsize]

omit [DecidableEq υ] in
theorem scheduleGetSetProtocolVersion_ok [DecidableEq υ]
    (h : scheduleGetSetProtocolVersion p command s = .ok (transfers, s')) :
    ∃ block, transfers = [.acknowledgement block] := ⟨_, scheduleResponseCommand_ok h⟩

theorem scheduleGetSizeorRemoveRequest_ok
    (h : scheduleGetSizeorRemoveRequest p backend command s = .ok (transfers, s')) :
    ∃ block, transfers = [.acknowledgement block] := by
  unfold scheduleGetSizeorRemoveRequest at h
  split at h
  · split at h
    · exact ⟨_, scheduleResponseCommand_ok h⟩
    · exact onAsyncCommandCompleted_ok h
  · split at h
    · obtain ⟨block, hblock, -⟩ := respond2GetSize_ok h
      exact ⟨block, hblock⟩
    · have hload := loadChunk_ok h
      split at hload
      · exact hload.exists_block
      · rw [if_pos rfl] at hload
        obtain ⟨block, hblock, -⟩ := hload
        exact ⟨block, hblock⟩

omit [DecidableEq υ] in
theorem clientSessionsDataFlush_ok
    (h : clientSessionsDataFlush p backend command s = .ok (transfers, s')) :
    ∃ block, transfers = [.acknowledgement block] := by
  unfold clientSessionsDataFlush at h
  split at h
  · exact ⟨_, scheduleResponseCommand_ok h⟩
  · exact onAsyncCommandCompleted_ok h

theorem onCommandRead_ok (h : onCommandRead p backend command s = .ok (transfers, s')) :
    InStep command transfers ↔ GetsInStep p s ⟨command, backend⟩ := by
  unfold onCommandRead at h
  split at h
  · cases h
  cases hrefusal : refusal p command s with
  | some r =>
    rw [hrefusal] at h
    have hrefused : Refused transfers :=
      ⟨_, scheduleResponseCommand_ok h, by rw [isError_response, isError_setErrorCode]⟩
    refine iff_of_true hrefused.inStep fun _ hnone => ?_
    rw [hrefusal] at hnone
    cases hnone
  | none =>
    rw [hrefusal] at h
    dsimp only at h
    unfold schedule at h
    by_cases hget : command.cntrlCode = CntrlCode.getDataBlock
    · have hserved : scheduleGetRequest p backend command s = .ok (transfers, s') := by
        simpa [hget, CommandBlock.isVersion, CntrlCode.getDataBlock,
          CntrlCode.getProtocolVersion, CntrlCode.setProtocolVersion,
          CntrlCode.removeDataBlock, CntrlCode.getDataBlockSize] using h
      rw [inStep_getDataBlock hget, scheduleGetRequest_ok hserved, GetsInStep]
      simp [hget, hrefusal]
    · refine iff_of_true ?_ fun hcode => absurd hcode hget
      rw [InStep, if_neg hget]
      split_ifs with hput
      · have hserved : schedulePutRequest p backend command s = .ok (transfers, s') := by
          simpa [hput, CommandBlock.isVersion, CntrlCode.getDataBlock, CntrlCode.putDataBlock,
            CntrlCode.getProtocolVersion, CntrlCode.setProtocolVersion,
            CntrlCode.removeDataBlock, CntrlCode.getDataBlockSize] using h
        exact schedulePutRequest_ok hserved
      · split at h
        · exact scheduleGetSetProtocolVersion_ok h
        · split at h
          · exact scheduleGetSizeorRemoveRequest_ok h
          · rw [if_neg (by rwa [beq_iff_eq]), if_neg (by rwa [beq_iff_eq])] at h
            exact clientSessionsDataFlush_ok h

/-! ## Runs -/

/-- Everything so far has been in step. -/
def AllInStep (s : State υ) : Prop := ∀ e ∈ s.log, InStep e.1 e.2

theorem step_allInStep {l : Label υ} (h : AllInStep s) (hstep : step p s l = some s') :
    AllInStep s' ↔ GetsInStep p s l := by
  unfold step at hstep
  split at hstep
  · cases hstep
  · rename_i transfers s'' hserved
    cases hstep
    rw [← onCommandRead_ok hserved]
    simp only [AllInStep, List.forall_mem_append, List.forall_mem_singleton]
    exact and_iff_right h

/-- Every sequence of commands, whatever the backend makes of them. -/
theorem run_inStep_iff (p : Parameters υ) (ls : List (Label υ)) (s : State υ)
    (hrun : Transition.run (step p) (.initial p) ls = some s) :
    Transition.Throughout (step p) AllInStep (.initial p) ls ↔
      Transition.Along (step p) (GetsInStep p) (.initial p) ls :=
  Transition.throughout_iff_along (I := fun _ => True) (fun _ _ _ _ _ => trivial)
    (fun _ _ _ _ h hstep => step_allInStep h hstep) trivial (List.forall_mem_nil _) hrun

/-! ## The cached chunk -/

/-! ## A size which is not the chunk's -/

/-- A server without authentication; uuids are numbers. -/
def plainParameters : Parameters Nat := ⟨0, 100, none, false⟩

def plainCommand (cntrlCode : UInt16) (chunkSize reserved1 : UInt32) : CommandBlock Nat :=
  ⟨cntrlCode, 0, 0, 1, 7, chunkSize, reserved1, 0, BlockType.normal⟩

/-- A backend whose chunk is three octets long. -/
def plainBackend : Backend Nat where
  alloc := (.completed, some ⟨[0, 0, 0, 0], 0, 0, none, by decide⟩)
  load := (.completed, some ⟨[1, 2, 3, 0], 3, 0, none, by decide⟩)
  command := .completed
  put := .completed

/-- The version is set, the size of the chunk is asked for, the chunk is
got. -/
def getRun (chunkSize : UInt32) : List (Label Nat) :=
  [⟨plainCommand CntrlCode.setProtocolVersion 0 serverVersion, plainBackend⟩,
    ⟨plainCommand CntrlCode.getDataBlockSize 0 0, plainBackend⟩,
    ⟨plainCommand CntrlCode.getDataBlock chunkSize 0, plainBackend⟩]

theorem run_inStep_three :
    Transition.Throughout (step plainParameters) AllInStep (.initial plainParameters)
      (getRun 3) := by
  obtain ⟨s, hs⟩ := Option.isSome_iff_exists.mp
    (show (Transition.run (step plainParameters) (.initial plainParameters) (getRun 3)).isSome =
      true by decide)
  exact (run_inStep_iff plainParameters (getRun 3) s hs).mpr (by decide)

/-- Five octets are announced, three are sent. -/
theorem run_inStep_five :
    ∃ s block data, Transition.run (step plainParameters) (.initial plainParameters)
        (getRun 5) = some s ∧
      s.log.getLast? = some (plainCommand CntrlCode.getDataBlock 5 0,
        [.acknowledgement block, .sent data]) ∧
      block.isError = false ∧ block.chunkSize.toNat = 5 ∧ data.octets.length = 3 ∧
      ¬ AllInStep s := by
  refine ⟨_, _, _, rfl, rfl, rfl, rfl, rfl, fun h => ?_⟩
  have hlast := h (plainCommand CntrlCode.getDataBlock 5 0, [.acknowledgement _, .sent _])
    (List.mem_of_getLast? rfl)
  exact absurd (getReply_sent.mp ((inStep_getDataBlock rfl).mp hlast)).2.1 (by decide)

end Baselib.Messaging.BlockTransferServer
