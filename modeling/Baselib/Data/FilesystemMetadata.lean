/-
Baselib.Data.FilesystemMetadata — the files metadata store of
`data/FilesystemMetadata.h` and `data/FilesystemMetadataInMemoryImpl.h`.

Every member takes the store and gives its result and the store
afterwards, also when it throws: the containers are updated one after
the other, and what an exception leaves behind is what the scope guards
leave. `uuids::create` is carried by the call that draws the id. The
iterators the queries hand out are the lists they walk over. Times,
flags, source paths and the hash of a chunk are read by no member and
are left out.
-/
import Mathlib.Data.List.AList
import Baselib.Core.FsPath

namespace Baselib.Data

open Lib
open Core.FsPath (Path)

/-! ## FilesystemMetadata -/

/-- `EntryType`; a value which is none of the enumerators can come from
the wire. -/
inductive EntryType where
  | file
  | directory
  | symlink
  | other (value : Int)
  deriving DecidableEq, Repr

structure EntryInfo where
  type : EntryType
  size : UInt64
  relPath : Option Path
  targetPath : Option Path
  isChecksumSet : Bool
  checksum : UInt32
  hash : Option Octets
  deriving DecidableEq

structure ChunkInfo where
  pos : UInt64
  size : UInt32
  checksum : UInt32
  deriving DecidableEq

/-- Where a chunk begins. -/
def ChunkInfo.position (chunk : ChunkInfo) : Nat := chunk.pos.toNat

/-- How many octets a chunk has. -/
def ChunkInfo.extent (chunk : ChunkInfo) : Nat := chunk.size.toNat

structure MetadataStatistics where
  entriesCount : UInt32
  symlinksCount : UInt32
  directoriesCount : UInt32
  filesCount : UInt32
  totalSize : UInt64
  deriving DecidableEq

/-- `ScalarTypeIniter` and an empty `ObjPtr`: what `EntryInfo` starts as. -/
def EntryInfo.default : EntryInfo where
  type := .file
  size := 0
  relPath := none
  targetPath := none
  isChecksumSet := false
  checksum := 0
  hash := none

/-- The path of an entry, empty when there is none. -/
def EntryInfo.path (info : EntryInfo) : Path := info.relPath.getD []

namespace FilesystemMetadataInMemory

/-! ## The store -/

structure ChunkObj (ι : Type) where
  chunkId : ι
  info : ChunkInfo

structure EntryObj (ι : Type) where
  entryId : ι
  info : EntryInfo
  chunkIds : List ι
  chunksInfo : AList fun _ : ι => ChunkObj ι

structure Store (ι : Type) where
  fileIds : List ι
  chunkIds : List ι
  files : AList fun _ : ι => EntryObj ι
  chunk2files : AList fun _ : ι => ι
  locked : Bool
  relPaths : Finset Path

/-- A store as it is created. -/
def Store.empty {ι : Type} : Store ι where
  fileIds := []
  chunkIds := []
  files := ∅
  chunk2files := ∅
  locked := false
  relPaths := ∅

/-- The exceptions of the members. -/
inductive Failure (ι : Type) where
  | invalidEntryId (entryId : ι)
  | invalidChunkId (chunkId : ι)
  | onlyImmutable
  | onlyMutable
  | tooManyEntries (count : Nat)
  | unexpectedType (type : EntryType)
  | emptyPath
  | absolutePath (relPath : Path)
  | parentReference (relPath : Path)
  | emptyTargetPath
  | relPathNotUnique
  deriving DecidableEq

/-- The message of the exception. -/
def Failure.message {ι : Type} (uuid2string : ι → Octets) (decimal : Nat → Octets)
    (typeText : EntryType → Octets) : Failure ι → Octets
  | .invalidEntryId entryId =>
    octets "Invalid entry id '" ++ uuid2string entryId ++ octets "'"
  | .invalidChunkId chunkId =>
    octets "Invalid chunk id '" ++ uuid2string chunkId ++ octets "'"
  | .onlyImmutable =>
    octets "Using the FilesystemMetadataRO interface is only allowed on immutable object"
  | .onlyMutable =>
    octets "Using the FilesystemMetadataWO interface is only allowed on mutable object"
  | .tooManyEntries count =>
    octets "Number of entries being uploaded " ++ decimal count ++ octets " is too big"
  | .unexpectedType type => octets "Unexpected file system entry type: " ++ typeText type
  | .emptyPath => octets "The relative path of a filesystem metadata entry is empty"
  | .absolutePath relPath =>
    octets "The relative path of a filesystem metadata entry must not be absolute: '" ++ relPath
      ++ octets "'"
  | .parentReference relPath =>
    octets "The relative path of a filesystem metadata entry must not contain "
      ++ octets "a parent directory reference: '" ++ relPath ++ octets "'"
  | .emptyTargetPath => octets "The target path of a symlink metadata entry is empty"
  | .relPathNotUnique => octets "relPath must be unique for each entry"

section

variable {ι : Type}

/-- `chkLocked`. -/
def chkLocked (s : Store ι) : Except (Failure ι) Unit :=
  if s.locked then .ok () else .error .onlyImmutable

/-- `chkUnlocked`. -/
def chkUnlocked (s : Store ι) : Except (Failure ι) Unit :=
  if s.locked then .error .onlyMutable else .ok ()

/-- `chkEntryInfo`. -/
def chkEntryInfo (info : EntryInfo) : Except (Failure ι) Unit :=
  let relPath := info.path
  if relPath = [] then .error .emptyPath
  else if Core.FsPath.isAbsolute relPath then .error (.absolutePath relPath)
  else if Core.FsPath.dotDot ∈ Core.FsPath.elements relPath then .error (.parentReference relPath)
  else if info.type = .symlink ∧ info.targetPath.getD [] = [] then .error .emptyTargetPath
  else .ok ()

variable [DecidableEq ι]

/-- `getEntry`. -/
def getEntry (s : Store ι) (entryId : ι) : Except (Failure ι) (EntryObj ι) :=
  match s.files.lookup entryId with
  | some entry => .ok entry
  | none => .error (.invalidEntryId entryId)

/-- `getChunk`. -/
def getChunk (s : Store ι) (chunkId : ι) : Except (Failure ι) (ChunkObj ι) :=
  match s.chunk2files.lookup chunkId with
  | none => .error (.invalidChunkId chunkId)
  | some entryId =>
    match getEntry s entryId with
    | .error e => .error e
    | .ok entry =>
      match entry.chunksInfo.lookup chunkId with
      | some chunk => .ok chunk
      | none => .error (.invalidChunkId chunkId)

/-! ## FilesystemMetadataWO -/

/-- The result of a member which changes the store, and the store. -/
abbrev Outcome (ι α : Type) := Except (Failure ι) α × Store ι

/-- What the scope guards of `createEntry` undo, the last one first. -/
def Store.undoEntry (s : Store ι) (entryId : ι) : Store ι :=
  { s with files := s.files.erase entryId, fileIds := s.fileIds.dropLast }

/-- `createEntry`; `entryId` is what `uuids::create` gives. -/
def createEntry (entryId : ι) (entryInfo : EntryInfo) (s : Store ι) : Outcome ι ι :=
  match chkUnlocked s with
  | .error e => (.error e, s)
  | .ok () =>
    let pushed := { s with fileIds := s.fileIds ++ [entryId] }
    let created := (pushed.files.lookup entryId).getD ⟨entryId, .default, [], ∅⟩
    let newObj := { created with entryId := entryId, info := entryInfo }
    let filed := { pushed with files := pushed.files.insert entryId newObj }
    match chkEntryInfo newObj.info with
    | .error e => (.error e, filed.undoEntry entryId)
    | .ok () =>
      if newObj.info.path ∈ filed.relPaths then
        (.error .relPathNotUnique, filed.undoEntry entryId)
      else
        (.ok entryId, { filed with relPaths := insert newObj.info.path filed.relPaths })

/-- A change of the information about one entry. -/
def updateInfo (entryId : ι) (change : EntryInfo → EntryInfo) (s : Store ι) : Outcome ι Unit :=
  match chkUnlocked s with
  | .error e => (.error e, s)
  | .ok () =>
    match getEntry s entryId with
    | .error e => (.error e, s)
    | .ok entry =>
      let changed := { entry with info := change entry.info }
      (.ok (), { s with files := s.files.insert entryId changed })

/-- `associateChecksum`. -/
def associateChecksum (entryId : ι) (checksum : UInt32) (s : Store ι) : Outcome ι Unit :=
  updateInfo entryId (fun info => { info with checksum := checksum, isChecksumSet := true }) s

/-- `associateHash`. -/
def associateHash (entryId : ι) (hash : Octets) (s : Store ι) : Outcome ι Unit :=
  updateInfo entryId (fun info => { info with hash := some hash }) s

/-- `createChunk`; `chunkId` is what `uuids::create` gives. Nothing can
throw once the entry is found. -/
def createChunk (chunkId entryId : ι) (chunkInfo : ChunkInfo) (s : Store ι) : Outcome ι ι :=
  match chkUnlocked s with
  | .error e => (.error e, s)
  | .ok () =>
    let pushed := { s with chunkIds := s.chunkIds ++ [chunkId] }
    match getEntry pushed entryId with
    | .error e => (.error e, { pushed with chunkIds := pushed.chunkIds.dropLast })
    | .ok entry =>
      let entry' :=
        { entry with
          chunkIds := entry.chunkIds ++ [chunkId]
          chunksInfo := entry.chunksInfo.insert chunkId ⟨chunkId, chunkInfo⟩ }
      (.ok chunkId,
        { pushed with
          files := pushed.files.insert entryId entry'
          chunk2files := pushed.chunk2files.insert chunkId entryId })

/-- `finalize`. -/
def finalize (s : Store ι) : Outcome ι Unit :=
  match chkUnlocked s with
  | .error e => (.error e, s)
  | .ok () => (.ok (), { s with locked := true })

/-! ## FilesystemMetadataRO -/

/-- A query: nothing but an immutable store is asked. -/
def query {α : Type} (answer : Store ι → Except (Failure ι) α) (s : Store ι) :
    Except (Failure ι) α :=
  match chkLocked s with
  | .error e => .error e
  | .ok () => answer s

/-- `queryAllEntries`. -/
def queryAllEntries : Store ι → Except (Failure ι) (List ι) := query fun s => .ok s.fileIds

/-- `queryAllChunks`. -/
def queryAllChunks : Store ι → Except (Failure ι) (List ι) := query fun s => .ok s.chunkIds

/-- `queryEntriesCount`. -/
def queryEntriesCount : Store ι → Except (Failure ι) Nat := query fun s => .ok s.fileIds.length

/-- `queryChunks`. -/
def queryChunks (entryId : ι) : Store ι → Except (Failure ι) (List ι) :=
  query fun s => (getEntry s entryId).map (·.chunkIds)

/-- `queryChunksCount`. -/
def queryChunksCount (entryId : ι) : Store ι → Except (Failure ι) Nat :=
  query fun s => (getEntry s entryId).map (·.chunkIds.length)

/-- `queryEntryId`. -/
def queryEntryId (chunkId : ι) : Store ι → Except (Failure ι) ι :=
  query fun s =>
    match s.chunk2files.lookup chunkId with
    | some entryId => .ok entryId
    | none => .error (.invalidChunkId chunkId)

/-- `loadEntryInfo`. -/
def loadEntryInfo (entryId : ι) : Store ι → Except (Failure ι) EntryInfo :=
  query fun s => (getEntry s entryId).map (·.info)

/-- `loadChunkInfo`. -/
def loadChunkInfo (chunkId : ι) : Store ι → Except (Failure ι) ChunkInfo :=
  query fun s => (getChunk s chunkId).map (·.info)

/-- The turn of `computeStatistics` at one entry. -/
def addToStatistics (result : MetadataStatistics) (info : EntryInfo) :
    Except (Failure ι) MetadataStatistics :=
  let result := { result with totalSize := result.totalSize + info.size }
  match info.type with
  | .symlink => .ok { result with symlinksCount := result.symlinksCount + 1 }
  | .directory => .ok { result with directoriesCount := result.directoriesCount + 1 }
  | .file => .ok { result with filesCount := result.filesCount + 1 }
  | .other value => .error (.unexpectedType (.other value))

/-- `computeStatistics`. -/
def computeStatistics : Store ι → Except (Failure ι) MetadataStatistics :=
  query fun s =>
    let entriesCount := UInt32.ofNat s.files.keys.length
    if entriesCount.toNat = s.files.keys.length then
      s.files.entries.foldlM (fun result entry => addToStatistics result entry.2.info)
        ⟨entriesCount, 0, 0, 0, 0⟩
    else .error (.tooManyEntries s.files.keys.length)

/-! ## Calls -/

/-- A call of a member, with the id which `uuids::create` gives it. -/
inductive Call (ι : Type) where
  | createEntry (drawn : ι) (entryInfo : EntryInfo)
  | associateChecksum (entryId : ι) (checksum : UInt32)
  | associateHash (entryId : ι) (hash : Octets)
  | createChunk (drawn entryId : ι) (chunkInfo : ChunkInfo)
  | finalize
  | isFinalized
  | queryAllEntries
  | queryAllChunks
  | queryEntriesCount
  | queryChunks (entryId : ι)
  | queryChunksCount (entryId : ι)
  | queryEntryId (chunkId : ι)
  | loadEntryInfo (entryId : ι)
  | loadChunkInfo (chunkId : ι)
  | computeStatistics

/-- What a call gives back. -/
inductive Value (ι : Type) where
  | done
  | flag (value : Bool)
  | id (value : ι)
  | ids (values : List ι)
  | count (value : Nat)
  | entryInfo (value : EntryInfo)
  | chunkInfo (value : ChunkInfo)
  | statistics (value : MetadataStatistics)

/-- A query leaves the store as it is. -/
def asking {α : Type} (value : α → Value ι) (answer : Store ι → Except (Failure ι) α)
    (s : Store ι) : Outcome ι (Value ι) :=
  ((answer s).map value, s)

/-- The outcome of a call. -/
def Call.outcome : Call ι → Store ι → Outcome ι (Value ι)
  | .createEntry drawn entryInfo, s =>
    (FilesystemMetadataInMemory.createEntry drawn entryInfo s).map (·.map .id) id
  | .associateChecksum entryId checksum, s =>
    (FilesystemMetadataInMemory.associateChecksum entryId checksum s).map
      (·.map fun _ => .done) id
  | .associateHash entryId hash, s =>
    (FilesystemMetadataInMemory.associateHash entryId hash s).map (·.map fun _ => .done) id
  | .createChunk drawn entryId chunkInfo, s =>
    (FilesystemMetadataInMemory.createChunk drawn entryId chunkInfo s).map (·.map .id) id
  | .finalize, s => (FilesystemMetadataInMemory.finalize s).map (·.map fun _ => .done) id
  | .isFinalized, s => (.ok (.flag s.locked), s)
  | .queryAllEntries, s => asking .ids FilesystemMetadataInMemory.queryAllEntries s
  | .queryAllChunks, s => asking .ids FilesystemMetadataInMemory.queryAllChunks s
  | .queryEntriesCount, s => asking .count FilesystemMetadataInMemory.queryEntriesCount s
  | .queryChunks entryId, s => asking .ids (FilesystemMetadataInMemory.queryChunks entryId) s
  | .queryChunksCount entryId, s =>
    asking .count (FilesystemMetadataInMemory.queryChunksCount entryId) s
  | .queryEntryId chunkId, s => asking .id (FilesystemMetadataInMemory.queryEntryId chunkId) s
  | .loadEntryInfo entryId, s =>
    asking .entryInfo (FilesystemMetadataInMemory.loadEntryInfo entryId) s
  | .loadChunkInfo chunkId, s =>
    asking .chunkInfo (FilesystemMetadataInMemory.loadChunkInfo chunkId) s
  | .computeStatistics, s => asking .statistics FilesystemMetadataInMemory.computeStatistics s

/-- The store after a call. -/
def Store.after (s : Store ι) (call : Call ι) : Store ι := (call.outcome s).2

/-- The store after calls. -/
def Store.run (s : Store ι) (calls : List (Call ι)) : Store ι := calls.foldl Store.after s

end

end FilesystemMetadataInMemory

end Baselib.Data
