/-
Baselib.Transfer.BlockReader — the reading of one file by the packager
of `transfer/FilesPackagerUnit.h`.

A reader task reads one block and completes; the unit then offers the
block downstream, gives the reader a new one and schedules it again
(`processTopReadyTask`). A label is one of these two: what the
environment decides is whether the task is cancelled, whether downstream
takes the block, and whether a new block can be had. The pool has blocks
of one capacity. The file does not change while it is read; its size is
an `off_t`. Hashes and the totals of the statistics are left out.
-/
import Baselib.Core.Checksum
import Baselib.Data.FilesystemMetadata
import Baselib.Lib.SortedMap
import Baselib.Lib.Transition
import Baselib.Lib.Tiling

namespace Baselib.Transfer.BlockReader

open Lib List
open Baselib.Core (Crc32 uint32Bytes)
open Data (ChunkInfo)
open Data.ChunkInfo (position extent)
open Transition (run)

/-- The file which is read. -/
structure SourceFile where
  octets : Octets
  size_lt : octets.length < 2 ^ 63

/-- `fileSize`. -/
def SourceFile.fileSize (f : SourceFile) : Nat := f.octets.length

/-- `DataChunkBlock`, with the information that the metadata has about
the chunk. -/
structure DataChunk where
  chunkInfo : ChunkInfo
  data : Octets
  deriving DecidableEq

/-- The reader, and what it and the unit have done for the file: the
chunks created in the metadata, the ones downstream has taken, and the
checksum associated with the entry. -/
structure State where
  scheduled : Bool
  abandoned : Bool
  filePos : Nat
  dataBlock : Option Octets
  chunkInfo : ChunkInfo
  chunksChecksums : SortedMap Nat UInt32
  created : List ChunkInfo
  emitted : List DataChunk
  checksum : Option UInt32

/-- `pushReadyTask`: a reader is scheduled for a file which is not empty. -/
def State.init (f : SourceFile) : State where
  scheduled := f.fileSize ≠ 0
  abandoned := false
  filePos := 0
  dataBlock := if f.fileSize = 0 then none else some []
  chunkInfo := ⟨0, 0, 0⟩
  chunksChecksums := .empty
  created := []
  emitted := []
  checksum := none

/-- `hasMoreBlocks`. -/
def State.hasMoreBlocks (f : SourceFile) (s : State) : Bool :=
  !s.abandoned && s.filePos < f.fileSize

/-- `doExecute`: the size of the chunk is cut to 32 bits. -/
def State.doExecute (f : SourceFile) (capacity : Nat) (s : State) : State :=
  let bytesLeft := f.fileSize - s.filePos
  let bytesToRead := if bytesLeft ≤ capacity then bytesLeft else capacity
  let data := (f.octets.drop s.filePos).take bytesToRead
  let chunk : ChunkInfo :=
    ⟨UInt64.ofNat s.filePos, UInt32.ofNat bytesToRead, Crc32.ofBytes data⟩
  { s with
    dataBlock := some data
    chunkInfo := chunk
    chunksChecksums := s.chunksChecksums.assign s.filePos chunk.checksum
    created := s.created ++ [chunk]
    filePos := s.filePos + bytesToRead }

/-- `abandon`. -/
def State.abandon (s : State) : State := { s with dataBlock := none, abandoned := true }

/-- `onExecute`; the cancellation is looked at before the read and after
it. -/
def State.onExecute (f : SourceFile) (capacity : Nat) (canceledBefore canceledAfter : Bool)
    (s : State) : State :=
  let s := if canceledBefore then s else s.doExecute f capacity
  let s := if canceledBefore || canceledAfter then s.abandon else s
  { s with scheduled := false }

/-- The checksum of the file, from the checksums of its chunks. -/
def fileChecksum (checksums : List UInt32) : UInt32 :=
  (checksums.foldl (fun crcc checksum => crcc.processBytes (uint32Bytes checksum))
    Crc32.init).checksum

/-- The end of `processTopReadyTask`, with the block pushed: the reader
goes on, or the checksum of the file is associated with its entry. A
block which cannot be had is an exception, and the unit comes back. -/
def State.nextBlock (f : SourceFile) (newBlock : Bool) (s : State) : State :=
  if s.hasMoreBlocks f then
    if newBlock then { s with dataBlock := some [], scheduled := true } else s
  else if s.chunksChecksums.size ≠ 0 then
    { s with checksum := some (fileChecksum s.chunksChecksums.values) }
  else s

/-- Downstream has taken the block. -/
def State.push (s : State) (data : Octets) : State :=
  { s with emitted := s.emitted ++ [⟨s.chunkInfo, data⟩], dataBlock := none }

/-- `processTopReadyTask`; a block which downstream does not take stays
with the reader. -/
def State.processTopReadyTask (f : SourceFile) (accepted newBlock : Bool) (s : State) : State :=
  if s.abandoned then s
  else
    match s.dataBlock with
    | none => s.nextBlock f newBlock
    | some data =>
      if accepted then (s.push data).nextBlock f newBlock else s

inductive Label where
  | execute (canceledBefore canceledAfter : Bool)
  | process (accepted newBlock : Bool)
  deriving DecidableEq

/-- A scheduled reader executes, a completed one is processed. -/
def step (f : SourceFile) (capacity : Nat) (s : State) : Label → Option State
  | .execute canceledBefore canceledAfter =>
    if s.scheduled then some (s.onExecute f capacity canceledBefore canceledAfter) else none
  | .process accepted newBlock =>
    if s.scheduled then none else some (s.processTopReadyTask f accepted newBlock)

/-- The unit is done with the file: it is empty, or has its checksum. -/
def State.Finished (f : SourceFile) (s : State) : Prop := f.fileSize = 0 ∨ s.checksum.isSome

/-! ## What has been read -/

/-- A chunk is a piece of the file, not empty and no larger than a block,
with the checksum of its octets. -/
structure Piece (f : SourceFile) (capacity : Nat) (c : DataChunk) : Prop where
  data_eq : c.data = (f.octets.drop (position c.chunkInfo)).take c.data.length
  length_eq : c.data.length = extent c.chunkInfo
  pos : 0 < extent c.chunkInfo
  le : extent c.chunkInfo ≤ capacity
  checksum_eq : c.chunkInfo.checksum = Crc32.ofBytes c.data

/-- The block which is offered downstream. -/
def State.pending (s : State) : List DataChunk :=
  if s.scheduled then [] else (s.dataBlock.map (DataChunk.mk s.chunkInfo)).toList

/-- The chunks so far. -/
def State.chunks (s : State) : List DataChunk := s.emitted ++ s.pending

/-- A reader which was not cancelled. -/
structure Reading (f : SourceFile) (capacity : Nat) (s : State) : Prop where
  filePos_le : s.filePos ≤ f.fileSize
  scheduled_more : s.scheduled = true → s.filePos < f.fileSize
  piece : ∀ c ∈ s.chunks, Piece f capacity c
  created_eq : s.created = s.chunks.map (·.chunkInfo)
  tiles : Tiles position extent 0 s.created s.filePos
  checksums_eq : s.chunksChecksums.entries = s.created.map fun c => (position c, c.checksum)
  finished : ∀ x, s.checksum = some x → s.scheduled = false ∧ s.dataBlock = none ∧
    s.filePos = f.fileSize ∧ x = fileChecksum (s.created.map (·.checksum))

/-- Either the reader was cancelled, and the file gets no checksum, or
what has been read is in order. -/
def Inv (f : SourceFile) (capacity : Nat) (s : State) : Prop :=
  if s.abandoned then s.scheduled = false ∧ s.checksum = none ∧ f.fileSize ≠ 0
  else Reading f capacity s

section

variable {f : SourceFile} {capacity : Nat} {s : State}

theorem reading_init (f : SourceFile) (capacity : Nat) : Reading f capacity (.init f) := by
  have hchunks : (State.init f).chunks = [] := by
    by_cases h : f.fileSize = 0 <;> simp [State.chunks, State.pending, State.init, h]
  exact {
    filePos_le := Nat.zero_le _
    scheduled_more := fun h => Nat.pos_of_ne_zero (by simpa [State.init] using h)
    piece := fun c hc => by
      rw [hchunks] at hc
      cases hc
    created_eq := by
      rw [hchunks]
      rfl
    tiles := rfl
    checksums_eq := rfl
    finished := fun _ h => by cases h }

/-- A reader with a block to read has no checksum for its file yet. -/
theorem Reading.checksum_eq_none (h : Reading f capacity s) (hs : s.scheduled = true) :
    s.checksum = none := by
  cases hc : s.checksum with
  | none => rfl
  | some x => exact absurd hs (by simp [(h.finished x hc).1])

theorem chunks_scheduled (hs : s.scheduled = true) : s.chunks = s.emitted := by
  simp [State.chunks, State.pending, hs]

theorem doExecute_reading (h : Reading f capacity s) (hs : s.scheduled = true)
    (hcap : 0 < capacity) (hsize : min capacity f.fileSize < 2 ^ 32) :
    Reading f capacity { s.doExecute f capacity with scheduled := false } := by
  have hmore := h.scheduled_more hs
  -- the size of the block
  obtain ⟨n, hn⟩ : ∃ n, n = if f.fileSize - s.filePos ≤ capacity then f.fileSize - s.filePos
      else capacity := ⟨_, rfl⟩
  have hbounds : 0 < n ∧ n ≤ capacity ∧ s.filePos + n ≤ f.fileSize ∧ n < 2 ^ 32 := by
    rw [hn]
    split <;> omega
  obtain ⟨hpos, hle, hend, h32⟩ := hbounds
  obtain ⟨c, hc⟩ : ∃ c : DataChunk, c =
      ⟨⟨UInt64.ofNat s.filePos, UInt32.ofNat n,
        Crc32.ofBytes ((f.octets.drop s.filePos).take n)⟩, (f.octets.drop s.filePos).take n⟩ :=
    ⟨_, rfl⟩
  have hposition : position c.chunkInfo = s.filePos := by
    rw [hc]
    have hfile : f.fileSize < 2 ^ 63 := f.size_lt
    have h64 : s.filePos < UInt64.size := by
      simp only [UInt64.size]
      omega
    exact UInt64.toNat_ofNat_of_lt' h64
  have hextent : extent c.chunkInfo = n := by
    rw [hc]
    exact UInt32.toNat_ofNat_of_lt' h32
  have hlen : c.data.length = n := by
    rw [hc, length_take, length_drop]
    unfold SourceFile.fileSize at hend
    omega
  have hpiece : Piece f capacity c := {
    data_eq := by
      rw [hposition, hlen, hc]
    length_eq := hlen.trans hextent.symm
    pos := hextent ▸ hpos
    le := hextent ▸ hle
    checksum_eq := by rw [hc] }
  have hstate : s.doExecute f capacity = { s with
      dataBlock := some c.data
      chunkInfo := c.chunkInfo
      chunksChecksums := s.chunksChecksums.assign s.filePos c.chunkInfo.checksum
      created := s.created ++ [c.chunkInfo]
      filePos := s.filePos + n } := by
    rw [hc, hn]
    rfl
  have hchunks : s.chunks = s.emitted := chunks_scheduled hs
  have hpending : ({ s.doExecute f capacity with scheduled := false } : State).chunks
      = s.emitted ++ [c] := by
    rw [hstate]
    rfl
  have hbelow : ∀ e ∈ s.chunksChecksums.entries, e.1 < s.filePos := by
    intro e he
    rw [h.checksums_eq] at he
    obtain ⟨x, hx, rfl⟩ := mem_map.mp he
    have hb := (h.tiles.bounds x hx).2
    rw [h.created_eq] at hx
    obtain ⟨y, hy, rfl⟩ := mem_map.mp hx
    have := (h.piece y hy).pos
    omega
  refine { filePos_le := ?_, scheduled_more := ?_, piece := ?_, created_eq := ?_, tiles := ?_,
           checksums_eq := ?_, finished := ?_ }
  · rwa [hstate]
  · exact nofun
  · intro x hx
    rw [hpending] at hx
    rcases mem_append.mp hx with hx | hx
    · exact h.piece x (hchunks ▸ hx)
    · rwa [mem_singleton.mp hx]
  · rw [hpending, map_append, ← hchunks, ← h.created_eq, hstate]
    rfl
  · rw [hstate]
    exact Tiles.append (by rw [← hposition, ← hextent]; exact ⟨rfl, rfl⟩) h.tiles
  · rw [hstate]
    show SortedMap.assignEntry _ _ _ = _
    rw [SortedMap.assignEntry_of_lt _ _ hbelow, h.checksums_eq, map_append, ← hposition]
    rfl
  · intro x hx
    rw [hstate] at hx
    have hnone := h.checksum_eq_none hs
    rw [show s.checksum = some x from hx] at hnone
    cases hnone

theorem nextBlock_reading (h : Reading f capacity s) (hs : s.scheduled = false)
    (ha : s.abandoned = false) (hblock : s.dataBlock = none) (newBlock : Bool) :
    Reading f capacity (s.nextBlock f newBlock) := by
  have hchunks : s.chunks = s.emitted := by simp [State.chunks, State.pending, hs, hblock]
  unfold State.nextBlock State.hasMoreBlocks
  rw [ha]
  by_cases hmore : s.filePos < f.fileSize
  · have hnone : s.checksum = none := by
      cases hc : s.checksum with
      | none => rfl
      | some x =>
        have := (h.finished x hc).2.2.1
        omega
    rw [if_pos (by simpa using hmore)]
    cases newBlock with
    | false => exact h
    | true =>
      have hnew : ({ s with dataBlock := some [], scheduled := true } : State).chunks = s.chunks :=
        (chunks_scheduled rfl).trans hchunks.symm
      exact { h with
        scheduled_more := fun _ => hmore
        piece := fun c hc => h.piece c (hnew ▸ hc)
        created_eq := h.created_eq.trans (congrArg _ hnew.symm)
        finished := fun x hx => by
          rw [show s.checksum = some x from hx] at hnone
          cases hnone }
  · rw [if_neg (by simpa using hmore)]
    by_cases hsize : s.chunksChecksums.size ≠ 0
    · rw [if_pos hsize]
      exact { h with
        finished := fun x hx => by
          refine ⟨hs, hblock, Nat.le_antisymm h.filePos_le (Nat.le_of_not_lt hmore), ?_⟩
          have hvalues : s.chunksChecksums.values = s.created.map (·.checksum) := by
            rw [SortedMap.values, h.checksums_eq, List.map_map]
            rfl
          rw [← hvalues]
          exact (Option.some.inj hx).symm }
    · rwa [if_neg hsize]

theorem push_reading (h : Reading f capacity s) (hs : s.scheduled = false) {data : Octets}
    (hblock : s.dataBlock = some data) : Reading f capacity (s.push data) := by
  have hchunks : (s.push data).chunks = s.chunks := by
    simp [State.chunks, State.pending, State.push, hs, hblock]
  exact {
    filePos_le := h.filePos_le
    scheduled_more := h.scheduled_more
    piece := fun c hc => h.piece c (hchunks ▸ hc)
    created_eq := h.created_eq.trans (by rw [hchunks])
    tiles := h.tiles
    checksums_eq := h.checksums_eq
    finished := fun x hx => by
      obtain ⟨-, hnone, -⟩ := h.finished x hx
      rw [hblock] at hnone
      cases hnone }

theorem inv_of_reading (h : Reading f capacity s) (ha : s.abandoned = false) :
    Inv f capacity s := by
  unfold Inv
  rwa [if_neg (by simp [ha])]

theorem onExecute_inv (h : Reading f capacity s) (hs : s.scheduled = true)
    (ha : s.abandoned = false) (hcap : 0 < capacity) (hsize : min capacity f.fileSize < 2 ^ 32)
    (canceledBefore canceledAfter : Bool) :
    Inv f capacity (s.onExecute f capacity canceledBefore canceledAfter) := by
  have hnone := h.checksum_eq_none hs
  have hfile : f.fileSize ≠ 0 := by
    have := h.scheduled_more hs
    omega
  cases canceledBefore with
  | true => exact ⟨rfl, hnone, hfile⟩
  | false =>
    cases canceledAfter with
    | true => exact ⟨rfl, hnone, hfile⟩
    | false => exact inv_of_reading (doExecute_reading h hs hcap hsize) ha

theorem nextBlock_frame (newBlock : Bool) :
    (s.nextBlock f newBlock).abandoned = s.abandoned ∧
      (s.nextBlock f newBlock).emitted = s.emitted ∧
      (s.nextBlock f newBlock).filePos = s.filePos := by
  unfold State.nextBlock
  split
  · split <;> exact ⟨rfl, rfl, rfl⟩
  · split <;> exact ⟨rfl, rfl, rfl⟩

theorem processTopReadyTask_inv (h : Reading f capacity s) (hs : s.scheduled = false)
    (ha : s.abandoned = false) (accepted newBlock : Bool) :
    Inv f capacity (s.processTopReadyTask f accepted newBlock) := by
  unfold State.processTopReadyTask
  rw [if_neg (by simp [ha])]
  cases hblock : s.dataBlock with
  | none =>
    exact inv_of_reading (nextBlock_reading h hs ha hblock newBlock)
      ((nextBlock_frame newBlock).1.trans ha)
  | some data =>
    cases accepted with
    | false => exact inv_of_reading h ha
    | true =>
      exact inv_of_reading (nextBlock_reading (push_reading h hs hblock) hs ha rfl newBlock)
        ((nextBlock_frame newBlock).1.trans ha)

theorem step_inv (hcap : 0 < capacity) (hsize : min capacity f.fileSize < 2 ^ 32) {l : Label}
    {s' : State} (h : Inv f capacity s) (hstep : step f capacity s l = some s') :
    Inv f capacity s' := by
  by_cases ha : s.abandoned = true
  · have h' := h
    unfold Inv at h'
    rw [if_pos ha] at h'
    cases l with
    | execute canceledBefore canceledAfter =>
      rw [step, if_neg (by simp [h'.1])] at hstep
      cases hstep
    | process accepted newBlock =>
      rw [step, if_neg (by simp [h'.1]), State.processTopReadyTask, if_pos ha] at hstep
      cases hstep
      exact h
  · have hread : Reading f capacity s := by
      unfold Inv at h
      rwa [if_neg ha] at h
    have ha' : s.abandoned = false := by simpa using ha
    by_cases hs : s.scheduled = true
    · cases l with
      | execute canceledBefore canceledAfter =>
        rw [step, if_pos hs] at hstep
        cases hstep
        exact onExecute_inv hread hs ha' hcap hsize canceledBefore canceledAfter
      | process accepted newBlock =>
        rw [step, if_pos hs] at hstep
        cases hstep
    · cases l with
      | execute canceledBefore canceledAfter =>
        rw [step, if_neg hs] at hstep
        cases hstep
      | process accepted newBlock =>
        rw [step, if_neg hs] at hstep
        cases hstep
        exact processTopReadyTask_inv hread (by simpa using hs) ha' accepted newBlock

theorem run_inv (hcap : 0 < capacity) (hsize : min capacity f.fileSize < 2 ^ 32)
    {ls : List Label} (hrun : run (step f capacity) (.init f) ls = some s) :
    Inv f capacity s := by
  exact Transition.run_invariant (C := fun _ _ => True)
    (fun s l s' h _ hstep => step_inv hcap hsize h hstep)
    (inv_of_reading (reading_init f capacity) rfl) Transition.along_true hrun

/-! ## Finished files -/

/-- What the packager has emitted of a file it is done with. -/
structure Packed (f : SourceFile) (capacity : Nat) (s : State) : Prop where
  piece : ∀ c ∈ s.emitted, Piece f capacity c
  created_eq : s.created = s.emitted.map (·.chunkInfo)
  tiles : Tiles position extent 0 s.created f.fileSize
  checksum_eq : s.created ≠ [] → s.checksum = some (fileChecksum (s.created.map (·.checksum)))
  checksum_none : s.created = [] → s.checksum = none

theorem Packed.extent_pos (h : Packed f capacity s) : ∀ c ∈ s.created, 0 < extent c := by
  intro c hc
  rw [h.created_eq] at hc
  obtain ⟨e, he, rfl⟩ := mem_map.mp hc
  exact (h.piece e he).pos

theorem Packed.sorted (h : Packed f capacity s) :
    s.created.Pairwise fun a b => position a < position b :=
  h.tiles.pairwise_lt h.extent_pos

/-- An empty file is not read. -/
theorem run_of_empty (hempty : f.fileSize = 0) {ls : List Label} :
    ∀ {s : State}, run (step f capacity) (.init f) ls = some s → s = .init f := by
  induction ls with
  | nil =>
    intro s hrun
    exact (Option.some.inj hrun).symm
  | cons l ls ih =>
    intro s hrun
    obtain ⟨m, hm, hrun⟩ := Transition.run_cons_eq_some.mp hrun
    have hstay : m = .init f := by
      cases l with
      | execute canceledBefore canceledAfter => simp [step, State.init, hempty] at hm
      | process accepted newBlock =>
        simpa [step, State.init, hempty, State.processTopReadyTask, State.nextBlock,
          State.hasMoreBlocks, SortedMap.size, SortedMap.empty, eq_comm] using hm
    rw [hstay] at hrun
    exact ih hrun

theorem run_packed (hcap : 0 < capacity) (hsize : min capacity f.fileSize < 2 ^ 32)
    {ls : List Label} (hrun : run (step f capacity) (.init f) ls = some s)
    (hfin : s.Finished f) : Packed f capacity s := by
  by_cases hempty : f.fileSize = 0
  · rw [run_of_empty hempty hrun]
    exact {
      piece := fun _ h => nomatch h
      created_eq := rfl
      tiles := hempty.symm
      checksum_eq := fun h => absurd rfl h
      checksum_none := fun _ => rfl }
  · obtain ⟨x, hx⟩ := Option.isSome_iff_exists.mp (hfin.resolve_left hempty)
    have hinv := run_inv hcap hsize hrun
    unfold Inv at hinv
    by_cases ha : s.abandoned = true
    · rw [if_pos ha] at hinv
      rw [hinv.2.1] at hx
      cases hx
    · rw [if_neg ha] at hinv
      obtain ⟨hs, hblock, hpos, rfl⟩ := hinv.finished x hx
      have hchunks : s.chunks = s.emitted := by
        simp [State.chunks, State.pending, hs, hblock]
      exact {
        piece := fun c hc => hinv.piece c (hchunks ▸ hc)
        created_eq := hinv.created_eq.trans (by rw [hchunks])
        tiles := hpos ▸ hinv.tiles
        checksum_eq := fun _ => hx
        checksum_none := fun hnil => by
          have htiles := hinv.tiles
          rw [hnil] at htiles
          have hzero : 0 = s.filePos := htiles
          omega }

/-! ## Progress -/

theorem size_assign_ne_zero (m : SortedMap Nat UInt32) (k : Nat) (v : UInt32) :
    (m.assign k v).size ≠ 0 := by
  have hmem : (k, v) ∈ (m.assign k v).entries := SortedMap.mem_assignEntry_self k v m.entries
  exact Nat.ne_of_gt (length_pos_of_mem hmem)

/-- A block which is read and taken is the last one, or the reader is
scheduled for the next one. -/
theorem readBlock (hcap : 0 < capacity) (hs : s.scheduled = true) (ha : s.abandoned = false) :
    ∃ m, run (step f capacity) s [.execute false false, .process true true] = some m ∧
      m.emitted.map (·.chunkInfo)
        = s.emitted.map (·.chunkInfo) ++ [(s.doExecute f capacity).chunkInfo] ∧
      m.filePos = (s.doExecute f capacity).filePos ∧
      (m.Finished f ∨ (m.scheduled = true ∧ m.abandoned = false ∧
        s.filePos < m.filePos ∧ m.filePos < f.fileSize)) := by
  obtain ⟨data, hdata⟩ : ∃ data, (s.doExecute f capacity).dataBlock = some data := ⟨_, rfl⟩
  obtain ⟨m, hm⟩ : ∃ m, m = ({ s.doExecute f capacity with scheduled := false } : State).push data :=
    ⟨_, rfl⟩
  have hma : m.abandoned = false := by
    rwa [hm]
  have hrun : run (step f capacity) s [.execute false false, .process true true]
      = some (m.nextBlock f true) := by
    have hexec : step f capacity s (.execute false false)
        = some { s.doExecute f capacity with scheduled := false } := if_pos hs
    rw [run, hexec, Option.bind_some, Transition.run_singleton, step,
      if_neg Bool.false_ne_true, State.processTopReadyTask, if_neg (by simp [State.doExecute, ha])]
    simp only [hdata, if_pos, hm]
  obtain ⟨-, hemitted, hfilePos⟩ := nextBlock_frame (f := f) (s := m) true
  refine ⟨_, hrun, ?_, ?_, ?_⟩
  · rw [hemitted, hm, State.push, map_append]
    rfl
  · rw [hfilePos, hm]
    rfl
  unfold State.nextBlock State.hasMoreBlocks
  rw [hma]
  by_cases hmore : m.filePos < f.fileSize
  · right
    rw [if_pos (by simpa using hmore), if_pos rfl]
    have hpos : m.filePos = s.filePos + if f.fileSize - s.filePos ≤ capacity
        then f.fileSize - s.filePos else capacity := by
      rw [hm]
      rfl
    refine ⟨rfl, rfl, ?_, hmore⟩
    show s.filePos < m.filePos
    split at hpos <;> omega
  · left
    have hsize : m.chunksChecksums.size ≠ 0 := by
      rw [hm]
      exact size_assign_ne_zero _ _ _
    rw [if_neg (by simpa using hmore), if_pos hsize]
    exact .inr rfl

/-- A reader whose blocks are all taken comes to the end of the file. -/
theorem exists_finished_of_scheduled (hcap : 0 < capacity) (left : Nat) : ∀ {s : State},
    f.fileSize - s.filePos ≤ left → s.scheduled = true → s.abandoned = false →
    ∃ ls s', run (step f capacity) s ls = some s' ∧ s'.Finished f := by
  induction left with
  | zero =>
    intro s hleft hs ha
    obtain ⟨m, hrun, -, -, hfin | ⟨-, -, hlt, hm⟩⟩ := readBlock (f := f) hcap hs ha
    · exact ⟨_, m, hrun, hfin⟩
    · omega
  | succ left ih =>
    intro s hleft hs ha
    obtain ⟨m, hrun, -, -, hfin | ⟨hms, hma, hlt, hm⟩⟩ := readBlock (f := f) hcap hs ha
    · exact ⟨_, m, hrun, hfin⟩
    · obtain ⟨ls, s', hrest, hfin⟩ := ih (by omega) hms hma
      exact ⟨_ ++ ls, s', Transition.run_append_eq_some.mpr ⟨m, hrun, hrest⟩, hfin⟩

theorem exists_finished (f : SourceFile) (hcap : 0 < capacity) :
    ∃ ls s, run (step f capacity) (.init f) ls = some s ∧ s.Finished f := by
  by_cases hempty : f.fileSize = 0
  · exact ⟨[], .init f, rfl, .inl hempty⟩
  · exact exists_finished_of_scheduled hcap _ (Nat.le_refl _)
      (by simp [State.init, hempty]) rfl

end

end Baselib.Transfer.BlockReader
