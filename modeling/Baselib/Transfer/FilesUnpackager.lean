/-
Baselib.Transfer.FilesUnpackager — the scheduling of the unpackager of
`transfer/FilesUnpackagerUnit.h`, over the base classes
`transfer/FilesPkgUnpkgBase.h` and `reactive/FanoutTasksObservable.h`.

The scheduler task walks over the entries and queues those that get a
task without a chunk; it then comes back to the unit, which hands the
queue to the worker tasks (`pushReadyTask`) and schedules it again. The
input brings the chunks. A label is a section of one of these parties.
Workers complete at any time, also in the middle of `pushReadyTask`,
whose turns are labels of their own; whether a task throws is up to the
environment. An exception which the unit gets to see ends the run: from
then on the unit cancels its tasks. So does a stop, which is left out.
What a task writes is in `UnpackedFile`; here a task with a chunk books
it, and finalizes the file with the last one.
-/
import Baselib.Data.FilesystemMetadataTheorems
import Baselib.Lib.Transition

namespace Baselib.Transfer.FilesUnpackager

open Lib
open Data (EntryType)
open Data.FilesystemMetadataInMemory

/-! ## Packages -/

/-- What the unit asks the metadata store: `queryAllEntries`, the type in
`loadEntryInfo`, `queryChunks`, `queryEntryId`, and the position in
`loadChunkInfo`. Only files have chunks, each at a position of its own. -/
structure Package (ι : Type) where
  entries : List ι
  type : ι → EntryType
  chunkIds : ι → List ι
  entryId : ι → Option ι
  position : ι → Nat
  entries_nodup : entries.Nodup
  chunkIds_nodup : ∀ e, (chunkIds e).Nodup
  entryId_eq_some : ∀ c e, entryId c = some e ↔ c ∈ chunkIds e
  file_of_chunk : ∀ e, chunkIds e ≠ [] → e ∈ entries ∧ type e = .file
  positions_nodup : ∀ e, ((chunkIds e).map position).Nodup

/-- `queryChunksCount`. -/
def Package.chunksCount {ι : Type} (p : Package ι) (e : ι) : Nat := (p.chunkIds e).length

/-- `isDirectoryOrZeroLengthFile`. -/
def Package.isDirectoryOrZeroLengthFile {ι : Type} (p : Package ι) (e : ι) : Bool :=
  p.type e = .directory || (p.type e = .file && p.chunksCount e = 0)

/-- The predicate of the symlinks. -/
def Package.isSymlink {ι : Type} (p : Package ι) (e : ι) : Bool := p.type e = .symlink

/-- The types that `scheduleEntries` takes. -/
def Package.isKnown {ι : Type} (p : Package ι) (e : ι) : Bool :=
  p.type e = .file || p.type e = .symlink || p.type e = .directory

section

variable {ι : Type} [DecidableEq ι]

/-- Where the chunk begins in its file, from its information. -/
def chunkPosition (s : Store ι) (chunkId : ι) : Nat :=
  match getChunk s chunkId with
  | .ok chunk => chunk.info.position
  | .error _ => 0

/-- What is asked of an entry beyond the containers of the store. -/
structure Packaged (s : Store ι) : Prop where
  consistent : s.Consistent
  locked : s.locked = true
  file_of_chunk : ∀ e entry, s.files.lookup e = some entry → entry.chunkIds ≠ [] →
    entry.info.type = .file
  positions_nodup : ∀ e, ((s.chunksOf e).map (chunkPosition s)).Nodup

/-- The package in a store. -/
def Package.ofStore (s : Store ι) (h : Packaged s) : Package ι where
  entries := s.fileIds
  type := fun e => ((s.files.lookup e).map (·.info.type)).getD .file
  chunkIds := s.chunksOf
  entryId := fun c => s.chunk2files.lookup c
  position := chunkPosition s
  entries_nodup := h.consistent.fileIds_nodup
  chunkIds_nodup := fun e => by
    unfold Store.chunksOf
    cases he : s.files.lookup e with
    | none => exact List.nodup_nil
    | some entry => exact (h.consistent.entry_ok e entry he).chunkIds_nodup
  entryId_eq_some := h.consistent.chunk_entry
  file_of_chunk := fun e hne => by
    unfold Store.chunksOf at hne
    cases he : s.files.lookup e with
    | none =>
      rw [he] at hne
      exact absurd rfl hne
    | some entry =>
      rw [he] at hne
      have hmem : e ∈ s.files := AList.lookup_isSome.mp (by rw [he]; rfl)
      exact ⟨(h.consistent.mem_fileIds e).mpr hmem, h.file_of_chunk e entry he hne⟩
  positions_nodup := h.positions_nodup

/-- The package has what the store answers. -/
theorem Package.ofStore_answers (s : Store ι) (h : Packaged s) :
    queryAllEntries s = .ok (ofStore s h).entries ∧
    (∀ e ∈ (ofStore s h).entries,
      (loadEntryInfo e s).map (·.type) = .ok ((ofStore s h).type e) ∧
      queryChunksCount e s = .ok ((ofStore s h).chunksCount e)) ∧
    ∀ c e, queryEntryId c s = .ok e ↔ (ofStore s h).entryId c = some e := by
  have hlocked : chkLocked s = (.ok () : Except (Failure ι) Unit) := if_pos h.locked
  refine ⟨?_, fun e he => ?_, fun c e => ?_⟩
  · unfold queryAllEntries query
    rw [hlocked]
    rfl
  · obtain ⟨entry, hentry⟩ := Option.isSome_iff_exists.mp
      (AList.lookup_isSome.mpr ((h.consistent.mem_fileIds e).mp he))
    simp [loadEntryInfo, queryChunksCount, query, hlocked, getEntry, hentry, ofStore,
      Package.chunksCount, Store.chunksOf, Except.map]
  · unfold queryEntryId query
    rw [hlocked]
    cases hc : s.chunk2files.lookup c <;> simp [ofStore, hc]

end

/-! ## The state of the unit -/

/-- `attachData`: what a worker is handed, an entry with a chunk of it or
without. -/
structure Work (ι : Type) where
  entryId : ι
  chunkId : Option ι
  deriving DecidableEq

/-- A worker task in the ready queue. -/
structure Worker (ι : Type) where
  entryId : Option ι
  isEntryFinalized : Bool
  isFailed : Bool
  deriving DecidableEq

/-- A worker without data. -/
def Worker.idle {ι : Type} : Worker ι := ⟨none, false, false⟩

/-- The entry that a worker has finalized. -/
def Worker.finalizedEntry {ι : Type} (w : Worker ι) : Option ι :=
  if w.isEntryFinalized then w.entryId else none

/-- What happens to the entries: one is handed to a worker, a worker has
finalized one. -/
inductive Event (ι : Type) where
  | handed (work : Work ι)
  | finalized (entryId : ι)
  deriving DecidableEq

/-- Where the scheduler task is: with the thread pool, in the ready queue
of the unit, in the loop of `pushReadyTask`, behind it, or popped. -/
inductive Phase where
  | scheduled
  | ready
  | pushing
  | pushed
  | popped
  deriving DecidableEq

/-- How the unit ends. -/
inductive Ending where
  | success
  | failure
  deriving DecidableEq

/-- The scheduler task, the unit with its worker tasks, and what has
happened. `iterator` has the entries from the current one on; a file of
several chunks has one object, whose `chunksWritten` are the positions
booked. -/
structure State (ι : Type) where
  phase : Phase
  iterator : List ι
  entriesQueue : List ι
  allDirectoriesScheduled : Bool
  allFilesAndDirsDone : Bool
  isFinished : Bool
  isInputDisconnectedAndAllWorkersDone : Bool
  inputDisconnected : Bool
  ready : List (Worker ι)
  executing : List (Work ι)
  chunksWritten : ι → List Nat
  entriesInProgress : List ι
  entriesCompleted : List ι
  outcome : Option Ending
  log : List (Event ι)

/-- `createSeedingTask`: the workers are there, and the scheduler task is
scheduled. -/
def State.init {ι : Type} (p : Package ι) (tasksPoolSize : Nat) : State ι where
  phase := .scheduled
  iterator := p.entries
  entriesQueue := []
  allDirectoriesScheduled := false
  allFilesAndDirsDone := false
  isFinished := false
  isInputDisconnectedAndAllWorkersDone := false
  inputDisconnected := false
  ready := List.replicate tasksPoolSize .idle
  executing := []
  chunksWritten := fun _ => []
  entriesInProgress := []
  entriesCompleted := []
  outcome := none
  log := []

/-- The unit is failing. -/
def State.fail {ι : Type} (s : State ι) : State ι := { s with outcome := some .failure }

/-- The work of an event. -/
def Event.work {ι : Type} : Event ι → Option (Work ι)
  | .handed work => some work
  | .finalized _ => none

/-- What the workers have been handed. -/
def State.handed {ι : Type} (s : State ι) : List (Work ι) := s.log.filterMap Event.work

/-! ## The scheduler task -/

section

variable {ι : Type} (p : Package ι)

/-- `scheduleEntries`: the iterator and the queue afterwards. -/
def scheduleEntries (maxEntriesQueueSize : Nat) (pred : ι → Bool) :
    List ι → List ι → Option (List ι × List ι)
  | [], entriesQueue => some ([], entriesQueue)
  | e :: rest, entriesQueue =>
    if entriesQueue.length = maxEntriesQueueSize then some (e :: rest, entriesQueue)
    else if p.isKnown e then
      scheduleEntries maxEntriesQueueSize pred rest
        (if pred e then entriesQueue ++ [e] else entriesQueue)
    else none

/-- The first block of `scheduleTasks`. -/
def State.scheduleDirectories (maxEntriesQueueSize : Nat) (s : State ι) : Option (State ι) :=
  if s.allDirectoriesScheduled then some s
  else
    (scheduleEntries p maxEntriesQueueSize p.isDirectoryOrZeroLengthFile s.iterator
      s.entriesQueue).map fun r =>
        if r.1 = [] ∧ r.2 = [] then
          { s with iterator := p.entries, entriesQueue := r.2, allDirectoriesScheduled := true }
        else { s with iterator := r.1, entriesQueue := r.2 }

/-- The end of `scheduleTasks`; `updateDirsTimestamps` leaves the iterator
behind the last entry. -/
def State.scheduleSymlinks (maxEntriesQueueSize : Nat) (s : State ι) : Option (State ι) :=
  (scheduleEntries p maxEntriesQueueSize p.isSymlink s.iterator s.entriesQueue).map fun r =>
    { s with
      iterator := r.1
      entriesQueue := r.2
      isFinished := r.1 = [] ∧ r.2 = [] ∧ s.isInputDisconnectedAndAllWorkersDone }

/-- `scheduleTasks`. It goes on behind the first block whether or not
the directories are all scheduled. -/
def State.scheduleTasks (maxEntriesQueueSize : Nat) (s : State ι) : Option (State ι) :=
  (s.scheduleDirectories p maxEntriesQueueSize).bind fun s =>
    if !s.allFilesAndDirsDone && !s.isInputDisconnectedAndAllWorkersDone then some s
    else { s with allFilesAndDirsDone := true }.scheduleSymlinks p maxEntriesQueueSize

/-- `onExecute`; an exception is seen when the task is ready. -/
def State.onExecute (maxEntriesQueueSize : Nat) (s : State ι) : State ι :=
  if s.isFinished then { s with phase := .ready }
  else
    match s.scheduleTasks p maxEntriesQueueSize with
    | none => s.fail
    | some s' => { s' with phase := .ready }

/-! ## The worker tasks -/

variable [DecidableEq ι]

/-- `processTopReadyTask`. -/
def State.processTopReadyTask (s : State ι) (w : Worker ι) : State ι :=
  { s with
    entriesInProgress := w.finalizedEntry.elim s.entriesInProgress s.entriesInProgress.erase
    entriesCompleted :=
      w.finalizedEntry.elim s.entriesCompleted fun e => s.entriesCompleted.insert e }

/-- The top ready worker was processed, and is still the top one. -/
def State.topReady (s : State ι) (w : Worker ι) (rest : List (Worker ι)) : State ι :=
  { s.processTopReadyTask w with ready := .idle :: rest }

/-- `waitForReadyWorkerTask`: it throws when the top worker has failed,
and there may be none. -/
def State.waitForReadyWorkerTask (s : State ι) : Except Unit (Option (State ι)) :=
  match s.ready with
  | [] => .ok none
  | w :: rest => if w.isFailed then .error () else .ok (some (s.topReady w rest))

/-- The top ready worker gets its data and is pushed. -/
def State.attachData (s : State ι) (work : Work ι) : State ι :=
  { s with
    ready := s.ready.tail
    executing := s.executing ++ [work]
    log := s.log ++ [.handed work] }

/-- Whether the task finalizes its entry, and the positions that are
booked for it. -/
def State.doExecute (s : State ι) (work : Work ι) : Bool × List Nat :=
  match work.chunkId with
  | none => (true, s.chunksWritten work.entryId)
  | some c =>
    if p.chunksCount work.entryId = 1 then (true, s.chunksWritten work.entryId)
    else
      let written := (s.chunksWritten work.entryId).insert (p.position c)
      (written.length = p.chunksCount work.entryId, written)

/-- A worker which has executed its work without an exception. -/
def State.executed (s : State ι) (i : Nat) (work : Work ι) : State ι :=
  let (isEntryFinalized, written) := s.doExecute p work
  { s with
    executing := s.executing.eraseIdx i
    ready := s.ready ++ [⟨some work.entryId, isEntryFinalized, false⟩]
    chunksWritten := Function.update s.chunksWritten work.entryId written
    log := if isEntryFinalized then s.log ++ [.finalized work.entryId] else s.log }

/-- A worker whose task has thrown. -/
def State.threw (s : State ι) (i : Nat) (work : Work ι) : State ι :=
  { s with
    executing := s.executing.eraseIdx i
    ready := s.ready ++ [⟨some work.entryId, false, true⟩] }

/-! ## The unit -/

/-- `chk2ScheduleChunk`, where a worker is ready. -/
def State.scheduleChunk (s : State ι) (c : ι) : State ι :=
  match p.entryId c with
  | none => s.fail
  | some e =>
    if e ∈ s.entriesCompleted then s.fail
    else if e ∈ s.entriesInProgress then s.attachData ⟨e, some c⟩
    else if p.chunksCount e = 0 then s.fail
    else if 1 < p.chunksCount e then
      { s with entriesInProgress := e :: s.entriesInProgress }.attachData ⟨e, some c⟩
    else s.attachData ⟨e, some c⟩

/-- `flushAllPendingTasks`: the ready workers are processed and popped,
and when no other is left the entries are counted. -/
def State.flushAllPendingTasks (s : State ι) : State ι :=
  if s.ready.any (·.isFailed) then s.fail
  else
    let s := { s.ready.foldl State.processTopReadyTask s with ready := [] }
    if s.executing ≠ [] then s
    else if s.entriesInProgress = [] ∧ p.entries.length = s.entriesCompleted.length then
      { s with outcome := some .success }
    else s.fail

/-- A section: the scheduler task executes; `canAcceptReadyTask` lets it
into `pushReadyTask`; a turn of the loop there; what follows the loop; a
worker completes, or throws; a chunk or the end of the input arrives; the
unit flushes. -/
inductive Label (ι : Type) where
  | execute
  | accept
  | pushNext
  | reschedule
  | complete (worker : Nat) (succeeds : Bool)
  | chunkArrived (chunkId : ι)
  | inputCompleted
  | flush
  deriving DecidableEq

/-- One section. A chunk for which no worker is ready is refused, and
offered again. -/
def step (maxEntriesQueueSize : Nat) (s : State ι) (l : Label ι) : Option (State ι) :=
  if s.outcome.isSome then none
  else
    match l with
    | .execute =>
      if s.phase = .scheduled then some (s.onExecute p maxEntriesQueueSize) else none
    | .accept =>
      if s.phase = .ready then
        match s.waitForReadyWorkerTask with
        | .error () => some s.fail
        | .ok none => none
        | .ok (some s') => some { s' with phase := .pushing }
      else none
    | .pushNext =>
      if s.phase = .pushing then
        match s.entriesQueue with
        | [] => some { s with phase := .pushed }
        | e :: rest =>
          match s.waitForReadyWorkerTask with
          | .error () => some s.fail
          | .ok none => some { s with phase := .pushed }
          | .ok (some s') => some ({ s' with entriesQueue := rest }.attachData ⟨e, none⟩)
      else none
    | .reschedule =>
      if s.phase = .pushed then
        if s.entriesQueue = [] ∧ s.isFinished then some { s with phase := .popped }
        else
          some { s with
            phase := .scheduled
            isInputDisconnectedAndAllWorkersDone := s.inputDisconnected && s.executing = [] }
      else none
    | .complete worker succeeds =>
      s.executing[worker]?.map fun work =>
        if succeeds then s.executed p worker work else s.threw worker work
    | .chunkArrived c =>
      if s.inputDisconnected then none
      else
        match s.waitForReadyWorkerTask with
        | .error () => some s.fail
        | .ok none => some s
        | .ok (some s') => some (s'.scheduleChunk p c)
    | .inputCompleted =>
      if s.inputDisconnected then none else some { s with inputDisconnected := true }
    | .flush =>
      if s.phase = .popped ∧ s.inputDisconnected then some (s.flushAllPendingTasks p) else none

end

end Baselib.Transfer.FilesUnpackager
