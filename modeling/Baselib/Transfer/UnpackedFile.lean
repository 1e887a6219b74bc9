/-
Baselib.Transfer.UnpackedFile — the writing of one file by the
unpackager of `transfer/FilesUnpackagerUnit.h`.

A task is run for each chunk of the file, and one without a chunk for a
file of which none is expected. The tasks of a file of several chunks
share its entry object and hold its lock, so they take their turns one
by one; a file of one chunk gets an entry object with every chunk that
arrives for it. `step` is the whole turn of a task, with what
`onTaskStoppedNothrow` does after an exception. Input and output are
assumed to succeed; attributes and times of the file are left out.
-/
import Baselib.Core.Checksum
import Baselib.Data.FilesystemMetadata
import Baselib.Lib.SortedMap
import Baselib.Lib.Tiling

namespace Baselib.Transfer

open Lib
open Baselib.Core (Crc32 uint32Bytes)
open Core.FsPath (Path)
open Data (EntryInfo ChunkInfo)
open Data.ChunkInfo (position extent)

namespace UnpackedFile

/-! ## The state of a file -/

/-- A chunk which has arrived: the information about it from the metadata
and the memory its data block points to. -/
structure Delivery where
  chunkInfo : ChunkInfo
  pv : Nat → UInt8

/-- The first octets of the data block. -/
def Delivery.octets (d : Delivery) (count : Nat) : Octets := (List.range count).map d.pv

/-- `ChunkInfo()`, without a data block. -/
def Delivery.empty : Delivery := ⟨⟨0, 0, 0⟩, fun _ => 0⟩

/-- `EntryObj`; the keys of `chunksWritten` are positions. -/
structure EntryObj where
  info : EntryInfo
  chunksExpected : Nat
  filePtr : Bool
  canceled : Bool
  chunksWritten : SortedMap Nat ChunkInfo

/-- The entry object, the file in the staging directory, and whether a
task has finalized the entry. -/
structure State where
  entry : EntryObj
  file : Option Octets
  finalized : Bool

def EntryObj.create (info : EntryInfo) (chunksExpected : Nat) : EntryObj where
  info := info
  chunksExpected := chunksExpected
  filePtr := false
  canceled := false
  chunksWritten := .empty

def State.init (info : EntryInfo) (chunksExpected : Nat) : State where
  entry := .create info chunksExpected
  file := none
  finalized := false

/-- The exceptions of a task. -/
inductive Failure where
  | chunksMissingOrDuplicated
  | invalidFileChecksum (expected computed : UInt32) (relPath : Path)
  | invalidChunkChecksum (expected computed : UInt32) (relPath : Path)
  | invalidOffset (offset : UInt64)
  | fileExists
  | operationAborted
  | zeroChunksExpected
  deriving DecidableEq

/-- The message of the exception. -/
def Failure.message (decimal : Nat → Octets) (fullPath : Path) : Failure → Octets
  | .chunksMissingOrDuplicated =>
    octets "Some chunks have not arrived properly or duplicated chunks were received"
  | .invalidFileChecksum expected computed relPath =>
    octets "Integrity check failed. Invalid file checksum, expected: "
      ++ decimal expected.toNat ++ octets " computed: " ++ decimal computed.toNat
      ++ octets " for file " ++ relPath
  | .invalidChunkChecksum expected computed relPath =>
    octets "Integrity check failed. Invalid chunk checksum, expected: "
      ++ decimal expected.toNat ++ octets " computed: " ++ decimal computed.toNat
      ++ octets " for file " ++ relPath
  | .invalidOffset offset =>
    octets "Invalid offset parameter value " ++ decimal offset.toNat
      ++ octets " passed to stdio API"
  | .fileExists => octets "File " ++ fullPath ++ octets " is not expected to exist"
  | .operationAborted => octets "This entry has been canceled already"
  | .zeroChunksExpected =>
    octets "Chunk has arrived for an entry which is expected to have zero chunks"

/-! ## The task of a chunk -/

/-- `pos + size`, in 64 bits. -/
def endOf (chunk : ChunkInfo) : UInt64 := chunk.pos + chunk.size.toUInt64

/-- `finalizeFile`: the file is closed. -/
def State.finalizeFile (s : State) : State :=
  { s with entry := { s.entry with filePtr := false }, finalized := true }

/-- The loop of `verifyChecksumAndAllChunksPresent` over `chunksWritten`. -/
def verifyChunks (isChecksumSet : Bool) : Option ChunkInfo → Crc32 → List ChunkInfo →
    Except Failure (Option ChunkInfo × Crc32)
  | prev, crcc, [] => .ok (prev, crcc)
  | prev, crcc, chunkInfo :: rest =>
    if (prev.all fun prev => endOf prev = chunkInfo.pos) = false then
      .error .chunksMissingOrDuplicated
    else
      verifyChunks isChecksumSet (some chunkInfo)
        (if isChecksumSet then crcc.processBytes (uint32Bytes chunkInfo.checksum) else crcc) rest

/-- `verifyChecksumAndAllChunksPresent`. -/
def verifyChecksumAndAllChunksPresent (entry : EntryObj) : Except Failure Unit :=
  match verifyChunks entry.info.isChecksumSet none .init entry.chunksWritten.values with
  | .error e => .error e
  | .ok (prev, crcc) =>
    if entry.info.isChecksumSet ∧ entry.info.checksum ≠ crcc.checksum then
      .error (.invalidFileChecksum entry.info.checksum crcc.checksum entry.info.path)
    else if prev.any fun prev => endOf prev = entry.info.size then .ok ()
    else .error .chunksMissingOrDuplicated

/-- `os::fseek` takes no offset of 2^63 or more: `stdioChkOffset`. -/
def stdioChkOffset (offset : UInt64) : Except Failure Unit :=
  if offset.toNat < 2 ^ 63 then .ok () else .error (.invalidOffset offset)

/-- `os::fopen` with "wb". -/
def State.fopen (s : State) : State :=
  if s.entry.filePtr then s
  else { s with entry := { s.entry with filePtr := true }, file := some [] }

/-- `os::fwrite` after `os::fseek`; `fwrite` takes as many octets from the
block as the chunk declares. -/
def State.fwrite (s : State) (d : Delivery) : State :=
  { s with
    file := s.file.map fun file =>
      writeAt 0 file (position d.chunkInfo) (d.octets (extent d.chunkInfo)) }

/-- The check of the octets of the chunk against its checksum. -/
def chkChunkChecksum (info : EntryInfo) (d : Delivery) : Except Failure Unit :=
  let computed := Crc32.ofBytes (d.octets (extent d.chunkInfo))
  if info.isChecksumSet ∧ d.chunkInfo.checksum ≠ computed then
    .error (.invalidChunkChecksum d.chunkInfo.checksum computed info.path)
  else .ok ()

/-- The end of `handleFileInternal`, after the chunk was written: the
bookkeeping, and the checks when it is the last one expected. -/
def State.chunkWritten (s : State) (chunkInfo : ChunkInfo) : Except Failure State :=
  if s.entry.chunksExpected = 1 then
    if endOf chunkInfo = s.entry.info.size then .ok s.finalizeFile
    else .error .chunksMissingOrDuplicated
  else
    let entry := { s.entry with
      chunksWritten := s.entry.chunksWritten.assign (position chunkInfo) chunkInfo }
    let s := { s with entry := entry }
    if entry.chunksWritten.size = entry.chunksExpected then
      match verifyChecksumAndAllChunksPresent entry with
      | .error e => .error e
      | .ok () => .ok s.finalizeFile
    else .ok s

/-- `handleFileInternal`, with the file open. -/
def handleFileInternal (s : State) (d : Delivery) : Except Failure State :=
  if s.entry.chunksExpected = 0 then .ok s.finalizeFile
  else
    match chkChunkChecksum s.entry.info d with
    | .error e => .error e
    | .ok () =>
      match stdioChkOffset d.chunkInfo.pos with
      | .error e => .error e
      | .ok () => (s.fwrite d).chunkWritten d.chunkInfo

/-- The checks of `handleFileNoLock` before the file is opened. -/
def chkFile (s : State) : Except Failure Unit :=
  if s.entry.canceled then .error .operationAborted
  else if s.entry.filePtr = false ∧ s.file.isSome then .error .fileExists
  else .ok ()

/-- `onTaskStoppedNothrow` after an exception: the file is closed and the
entry cancelled. What the task has written and booked before the
exception is not looked at again. -/
def State.taskStopped (s : State) : State :=
  { s with entry := { s.entry with filePtr := false, canceled := true } }

/-- The turn of a task: `handleFileNoLock`. -/
def runTask (s : State) (d : Delivery) : Except Failure Unit × State :=
  match chkFile s with
  | .error e => (.error e, s.taskStopped)
  | .ok () =>
    match handleFileInternal s.fopen d with
    | .error e => (.error e, s.fopen.taskStopped)
    | .ok s' => (.ok (), s')

/-- The scheduling of a task: with a chunk that has arrived
(`chk2ScheduleChunk`) or, for a file of which no chunks are expected,
without one (`chk2ScheduleEntryOnly`). -/
def step (s : State) : Option Delivery → Except Failure Unit × State
  | none =>
    -- a file of which chunks are expected is not one of the entries scheduled without them
    if s.entry.chunksExpected = 0 then runTask s .empty else (.ok (), s)
  | some d =>
    if s.entry.chunksExpected = 0 then (.error .zeroChunksExpected, s)
    else if s.entry.chunksExpected = 1 then
      runTask { s with entry := .create s.entry.info s.entry.chunksExpected } d
    else runTask s d

/-- The file after arrivals, in the order in which the tasks take their
turns. -/
def run (s : State) (arrivals : List (Option Delivery)) : State :=
  arrivals.foldl (fun s a => (step s a).2) s

end UnpackedFile

end Baselib.Transfer
