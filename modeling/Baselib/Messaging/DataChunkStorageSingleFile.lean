/-
Baselib.Messaging.DataChunkStorageSingleFile — the chunk store in one file
of `messaging/DataChunkStorageFilesystem.h`,
`DataChunkStorageFilesystemSingleFileT`.

The file is the list of its octets. A header goes to it as the code's
compilers lay it out: forty octets, the integers in little endian, the last
four octets padding whose content is not specified. The environment decides
how each write ends: it completes, or it is reported by an exception after
some of its octets have reached the file, and then the others never do. A
file is never longer than `off_t` can count.

Seeks and reads do not fail here, other than a read past the end of the
file. Sessions, the file's path and the temporary directory are left out.
-/
import Mathlib.Data.List.AList
import Baselib.Lib.LittleEndian
import Baselib.Lib.Loop
import Baselib.Lib.Tiling

namespace Baselib.Messaging.DataChunkStorageSingleFile

open Lib

/-! ## Headers -/

/-- So many octets. -/
abbrev FixedOctets (n : Nat) := { octets : Octets // octets.length = n }

/-- `uuid_t`. -/
abbrev Uuid := FixedOctets 16

structure ChunkHeader where
  chunkId : Uuid
  pos : UInt64
  size : UInt64
  flags : UInt32
  deriving DecidableEq

/-- `CHUNK_FLAG_DELETED`. -/
def chunkFlagDeleted : UInt32 := 1

/-- `sizeof( ChunkHeader )`. -/
def sizeofChunkHeader : Nat := 40

namespace ChunkHeader

def isDeleted (header : ChunkHeader) : Bool := header.flags &&& chunkFlagDeleted ≠ 0

/-- What stands before the flags. -/
def head (header : ChunkHeader) : Octets :=
  header.chunkId.1 ++ toLittleEndian 8 header.pos.toNat ++ toLittleEndian 8 header.size.toNat

def octets (header : ChunkHeader) (padding : FixedOctets 4) : Octets :=
  header.head ++ (toLittleEndian 4 header.flags.toNat ++ padding.1)

/-- The octets from `i` on. -/
def field {m : Nat} (octets : FixedOctets m) (i n : Nat) (h : i + n ≤ m) : FixedOctets n :=
  ⟨(octets.1.drop i).take n, by
    have hlength := octets.2
    simp only [List.length_take, List.length_drop]
    omega⟩

def ofOctets (octets : FixedOctets sizeofChunkHeader) : ChunkHeader where
  chunkId := field octets 0 16 (by decide)
  pos := .ofNat (ofLittleEndian (field octets 16 8 (by decide)).1)
  size := .ofNat (ofLittleEndian (field octets 24 8 (by decide)).1)
  flags := .ofNat (ofLittleEndian (field octets 32 4 (by decide)).1)

end ChunkHeader

/-- `m_activeChunks`. -/
abbrev ActiveChunks := AList fun _ : Uuid => ChunkHeader

/-- `isDisposed` is `m_disposed`. -/
structure Store where
  file : Octets
  activeChunks : ActiveChunks
  isDisposed : Bool

inductive Failure where
  | disposed
  | doesNotExist
  | capacityTooSmall
  | endOfFile
  | writeFailed
  deriving DecidableEq

/-! ## The file -/

/-- `os::fread` at `pos`. -/
def fread (file : Octets) (pos n : Nat) : Option (FixedOctets n) :=
  if h : pos + n ≤ file.length then
    some ⟨(file.drop pos).take n, by
      simp only [List.length_take, List.length_drop]
      omega⟩
  else none

/-- `os::fwrite` at `pos`; a write that fails says how many octets have
reached the file. -/
def fwrite (failed : Option Nat) (pos : Nat) (octets : Octets) (s : Store) :
    Store × Option Failure :=
  match failed with
  | none => ({ s with file := writeAt 0 s.file pos octets }, none)
  | some n => ({ s with file := writeAt 0 s.file pos (octets.take n) }, some .writeFailed)

/-- The greatest `off_t`. -/
def maxOffset : Nat := 2 ^ 63 - 1

/-! ## Opening -/

/-- `emplace`, which keeps an entry that is there. -/
def emplace (header : ChunkHeader) (activeChunks : ActiveChunks) : ActiveChunks :=
  if (activeChunks.lookup header.chunkId).isSome then activeChunks
  else activeChunks.insert header.chunkId header

/-- A round of the loop of `loadChunksData`; it answers `none` where
`chkFileFormatInvariant` throws. -/
def loadChunk (file : Octets) (scan : Nat × ActiveChunks) :
    (Nat × ActiveChunks) ⊕ Option ActiveChunks :=
  if scan.1 < file.length then
    match fread file scan.1 sizeofChunkHeader with
    | none => .inr none
    | some octets =>
      let header := ChunkHeader.ofOctets octets
      let pos := scan.1 + sizeofChunkHeader
      if header.pos.toNat = scan.1 ∧ header.size.toNat ≤ file.length - pos then
        .inl (pos + header.size.toNat,
          if header.isDeleted then scan.2 else emplace header scan.2)
      else .inr none
  else .inr (some scan.2)

/-- `loadChunksData`, within `n` rounds of its loop. -/
def loadChunksData (file : Octets) (n : Nat) : Option (Option ActiveChunks) :=
  loop (loadChunk file) n (0, ∅)

/-- The constructor, on the file; `none` where it throws. -/
def Store.create (file : Octets) : Option Store :=
  ((loadChunksData file (file.length + 1)).getD none).map fun activeChunks =>
    ⟨file, activeChunks, false⟩

/-! ## The members -/

/-- How the writes of a call end, and the padding of the headers. -/
structure Writes where
  markPadding : FixedOctets 4
  headerPadding : FixedOctets 4
  mark : Option Nat
  header : Option Nat
  data : Option Nat

/-- The entry is marked in memory before the mark is written. -/
def removeChunk (chunkId : Uuid) (throwIfDoesNotExist : Bool) (writes : Writes) (s : Store) :
    Store × Option Failure :=
  match s.activeChunks.lookup chunkId with
  | none => (s, if throwIfDoesNotExist then some .doesNotExist else none)
  | some header =>
    let header := { header with flags := header.flags ||| chunkFlagDeleted }
    let marked := fwrite writes.mark header.pos.toNat (header.octets writes.markPadding)
      { s with activeChunks := s.activeChunks.insert chunkId header }
    match marked.2 with
    | none => ({ marked.1 with activeChunks := s.activeChunks.erase chunkId }, none)
    | some failure => (marked.1, some failure)

/-- The content, for a block of the given capacity. -/
def load (capacity : Nat) (chunkId : Uuid) (s : Store) : Except Failure Octets :=
  if s.isDisposed then .error .disposed
  else
    match s.activeChunks.lookup chunkId with
    | none => .error .doesNotExist
    | some header =>
      if header.size.toNat ≤ capacity then
        if header.size.toNat = 0 then .ok []
        else
          match fread s.file (header.pos.toNat + sizeofChunkHeader) header.size.toNat with
          | none => .error .endOfFile
          | some octets => .ok octets.1
      else .error .capacityTooSmall

/-- The header of a chunk at the end of the file. -/
def newHeader (chunkId : Uuid) (data : Octets) (s : Store) : ChunkHeader :=
  ⟨chunkId, .ofNat s.file.length, .ofNat data.length, 0⟩

/-- What `save` does after `removeChunk`. -/
def append (chunkId : Uuid) (data : Octets) (writes : Writes) (s : Store) :
    Store × Option Failure :=
  let header := newHeader chunkId data s
  let written := fwrite writes.header s.file.length (header.octets writes.headerPadding) s
  match written.2 with
  | some failure => (written.1, some failure)
  | none =>
    let saved :=
      if data = [] then (written.1, none)
      else fwrite writes.data written.1.file.length data written.1
    match saved.2 with
    | some failure => (saved.1, some failure)
    | none =>
      ({ saved.1 with activeChunks := saved.1.activeChunks.insert chunkId header }, none)

def save (chunkId : Uuid) (data : Octets) (writes : Writes) (s : Store) :
    Store × Option Failure :=
  if s.isDisposed then (s, some .disposed)
  else
    let removed := removeChunk chunkId false writes s
    match removed.2 with
    | some failure => (removed.1, some failure)
    | none => append chunkId data writes removed.1

def remove (chunkId : Uuid) (writes : Writes) (s : Store) : Store × Option Failure :=
  if s.isDisposed then (s, some .disposed) else removeChunk chunkId true writes s

def dispose (s : Store) : Store := { s with isDisposed := true }

/-! ## Runs -/

inductive Label where
  | save (chunkId : Uuid) (data : Octets) (writes : Writes)
  | remove (chunkId : Uuid) (writes : Writes)
  | dispose
  /-- A new store on the file, after the old one was disposed. -/
  | create

/-- The chunk of the call. -/
def Label.chunkId : Label → Option Uuid
  | .save chunkId _ _ | .remove chunkId _ => some chunkId
  | _ => none

/-- What a call leaves, and the exception it throws. -/
def Label.call (s : Store) : Label → Option (Store × Option Failure)
  | .save chunkId data writes => some (DataChunkStorageSingleFile.save chunkId data writes s)
  | .remove chunkId writes => some (DataChunkStorageSingleFile.remove chunkId writes s)
  | .dispose => some (DataChunkStorageSingleFile.dispose s, none)
  | .create => if s.isDisposed then (Store.create s.file).map fun s' => (s', none) else none

/-- A step whose file fits. -/
def step (s : Store) (l : Label) : Option Store :=
  ((l.call s).map Prod.fst).filter fun s' => s'.file.length ≤ maxOffset

/-- A store on a new file. -/
def Store.empty : Store := ⟨[], ∅, false⟩

end Baselib.Messaging.DataChunkStorageSingleFile
