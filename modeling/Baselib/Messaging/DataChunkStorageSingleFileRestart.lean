/-
Baselib.Messaging.DataChunkStorageSingleFileRestart — what a new store finds
on the file of an old one.

A file which was written without damage is a log of records. The opening
scan reads the log and keeps the first record of each chunk which carries no
mark; the index has an entry for each record without a mark, so the scan
finds the index again. A chunk whose mark has reached the flags without
completing stays in the index, and a new store does not find it: these are
the chunks in doubt.
-/
import Baselib.Messaging.DataChunkStorageSingleFileTheorems

namespace Baselib.Messaging.DataChunkStorageSingleFile

open Lib List

variable {s s' : Store} {id chunkId : Uuid} {header : ChunkHeader} {data : Octets}
  {writes : Writes} {active : ActiveChunks}
variable {records : List Record}

/-! ## Headers -/

theorem ofOctets_octets (header : ChunkHeader) (padding : FixedOctets 4) :
    ChunkHeader.ofOctets ⟨header.octets padding, length_octets header padding⟩ = header := by
  obtain ⟨⟨chunkId, hchunkId⟩, pos, size, flags⟩ := header
  have hpos := @ofLittleEndian_toLittleEndian 8 _ pos.toNat_lt
  have hsize := @ofLittleEndian_toLittleEndian 8 _ size.toNat_lt
  have hflags := @ofLittleEndian_toLittleEndian 4 _ flags.toNat_lt
  have hsizeAt : chunkId.drop 24 = [] := drop_eq_nil_of_le (by omega)
  have hflagsAt : chunkId.drop 32 = [] := drop_eq_nil_of_le (by omega)
  have hposEnd : (toLittleEndian 8 pos.toNat).drop 16 = [] := drop_eq_nil_of_le (by simp)
  simp [ChunkHeader.ofOctets, ChunkHeader.field, ChunkHeader.octets, ChunkHeader.head,
    drop_append, hchunkId, hsizeAt, hflagsAt, hposEnd, hpos, hsize, hflags]

/-- Octets which begin as the header does are this header with some flags. -/
theorem exists_flags {octets : Octets} (hlength : octets.length = sizeofChunkHeader)
    (hhead : octets.take 32 = header.head) :
    ∃ flags padding, octets = ({ header with flags := flags } : ChunkHeader).octets padding := by
  have hrest : (octets.drop 32).length = 8 := by
    rw [length_drop, hlength]
    rfl
  have hflags : ((octets.drop 32).take 4).length = 4 := by
    rw [length_take, hrest]
    rfl
  have hword : ofLittleEndian ((octets.drop 32).take 4) < UInt32.size := by
    have hlt := ofLittleEndian_lt ((octets.drop 32).take 4)
    rwa [hflags] at hlt
  refine ⟨.ofNat (ofLittleEndian ((octets.drop 32).take 4)),
    ⟨(octets.drop 32).drop 4, by rw [length_drop, hrest]⟩, ?_⟩
  have hback := toLittleEndian_ofLittleEndian ((octets.drop 32).take 4)
  rw [hflags] at hback
  rw [ChunkHeader.octets, UInt32.toNat_ofNat_of_lt' hword, hback, take_append_drop]
  change octets = header.head ++ octets.drop 32
  rw [← hhead, take_append_drop]

/-- A mark deletes, whatever the flags were. -/
theorem isDeleted_marked (header : ChunkHeader) : header.marked.isDeleted = true := by
  have hmarked : (header.flags ||| chunkFlagDeleted) &&& chunkFlagDeleted = 1 := by
    apply UInt32.toBitVec_inj.mp
    ext i hi
    simp only [chunkFlagDeleted, UInt32.toBitVec_and, UInt32.toBitVec_or, BitVec.getElem_and,
      BitVec.getElem_or]
    cases (UInt32.toBitVec 1)[i] <;> simp
  rw [ChunkHeader.isDeleted, hmarked]
  rfl

/-! ## Logs -/

/-- A record of the file. -/
structure Record where
  header : ChunkHeader
  padding : FixedOctets 4
  data : Octets
  size_eq : header.size.toNat = data.length

namespace Record

def octets (r : Record) : Octets := r.header.octets r.padding ++ r.data

def pos (r : Record) : Nat := r.header.pos.toNat

theorem length_octets (r : Record) : r.octets.length = sizeofChunkHeader + r.header.size.toNat := by
  rw [octets, length_append, DataChunkStorageSingleFile.length_octets, r.size_eq]

theorem length_octets_pos (r : Record) : 0 < r.octets.length := by
  rw [r.length_octets]
  exact Nat.add_pos_left (by decide) _

end Record

/-- The file is the records, one after the other, each at its position. -/
structure IsLog (file : Octets) (records : List Record) : Prop where
  file_eq : file = records.flatMap Record.octets
  tiles : Tiles Record.pos (fun r => r.octets.length) 0 records file.length

theorem length_flatMap_of_tiles :
    ∀ {a b : Nat}, Tiles Record.pos (fun r => r.octets.length) a records b →
      a + (records.flatMap Record.octets).length = b := by
  induction records with
  | nil => exact fun h => h
  | cons r records ih =>
    intro a b h
    have hrest : r.pos + r.octets.length + _ = b := ih h.2
    have hpos : r.pos = a := h.1
    rw [flatMap_cons, length_append]
    omega

/-- What the scan makes of a record. -/
def scanned (active : ActiveChunks) (r : Record) : ActiveChunks :=
  if r.header.isDeleted then active else emplace r.header active

theorem fread_append {before part after : Octets} {n : Nat} (hlength : part.length = n) :
    fread (before ++ (part ++ after)) before.length n = some ⟨part, hlength⟩ := by
  unfold fread
  rw [dif_pos (by simp [hlength])]
  simp [← hlength]

/-- The scan reads a log from any record on. -/
theorem loop_records {file : Octets} : ∀ {before : Octets} {active : ActiveChunks} {n : Nat},
      file = before ++ records.flatMap Record.octets →
      Tiles Record.pos (fun r => r.octets.length) before.length records file.length →
      records.length < n →
      loop (loadChunk file) n (before.length, active) =
        some (some (records.foldl scanned active)) := by
  induction records with
  | nil =>
    intro before active n hfile htiles hn
    obtain ⟨n, rfl⟩ := Nat.exists_eq_succ_of_ne_zero (Nat.ne_of_gt hn)
    have hend : before.length = file.length := htiles
    refine loop_answer ?_ n
    rw [loadChunk, if_neg (by simp [hend])]
    rfl
  | cons r records ih =>
    intro before active n hfile htiles hn
    obtain ⟨n, rfl⟩ := Nat.exists_eq_succ_of_ne_zero (Nat.ne_of_gt (Nat.zero_lt_of_lt hn))
    have hpos : r.header.pos.toNat = before.length := htiles.1
    have hlength := r.length_octets
    have hstop : before.length + r.octets.length ≤ file.length := by
      have hbound := htiles.bounds r mem_cons_self
      rw [Record.pos, hpos] at hbound
      exact hbound.2
    have hread : fread file before.length sizeofChunkHeader =
        some ⟨r.header.octets r.padding, DataChunkStorageSingleFile.length_octets _ _⟩ := by
      rw [hfile, flatMap_cons, Record.octets, append_assoc]
      exact fread_append (DataChunkStorageSingleFile.length_octets _ _)
    have hnext : loadChunk file (before.length, active) =
        .inl ((before ++ r.octets).length, scanned active r) := by
      unfold loadChunk
      rw [if_pos (by dsimp only; have := r.length_octets_pos; omega), hread]
      dsimp only
      rw [ofOctets_octets, if_pos ⟨hpos, by omega⟩, length_append, hlength, Nat.add_assoc]
      rfl
    rw [loop_next hnext, foldl_cons]
    refine ih ?_ ?_ (Nat.lt_of_succ_lt_succ hn)
    · rw [hfile, flatMap_cons, append_assoc]
    · have hrest := htiles.2
      rw [Record.pos, hpos] at hrest
      rwa [length_append]

theorem create_log {file : Octets} (h : IsLog file records) :
    Store.create file = some ⟨file, records.foldl scanned ∅, false⟩ := by
  have hcount : ∀ records : List Record,
      records.length ≤ (records.flatMap Record.octets).length := by
    intro records
    induction records with
    | nil => exact Nat.le_refl _
    | cons r records ih =>
      have hpos := r.length_octets_pos
      rw [flatMap_cons, length_append, length_cons]
      omega
  have hn : records.length < file.length + 1 := by
    rw [h.file_eq]
    exact Nat.lt_succ_of_le (hcount records)
  have hscan : loadChunksData file (file.length + 1) = some (some (records.foldl scanned ∅)) :=
    @loop_records records file [] ∅ _ h.file_eq h.tiles hn
  rw [Store.create, hscan]
  rfl

theorem lookup_emplace (header : ChunkHeader) (active : ActiveChunks) (id : Uuid) :
    (emplace header active).lookup id =
      (active.lookup id).or (if header.chunkId = id then some header else none) := by
  unfold emplace
  obtain rfl | hid := eq_or_ne header.chunkId id
  · cases hlookup : active.lookup header.chunkId with
    | none => simp
    | some old => simp [hlookup]
  · rw [if_neg hid, Option.or_none]
    split
    · rfl
    · exact AList.lookup_insert_ne (Ne.symm hid)

/-- The first record of the chunk without a mark. -/
def isLive (id : Uuid) (r : Record) : Bool := !r.header.isDeleted && r.header.chunkId = id

theorem lookup_scanned (id : Uuid) : ∀ {active : ActiveChunks},
    (records.foldl scanned active).lookup id =
      (active.lookup id).or ((records.find? (isLive id)).map Record.header) := by
  induction records with
  | nil => intro active; simp
  | cons r records ih =>
    intro active
    rw [foldl_cons, ih]
    cases hdeleted : r.header.isDeleted with
    | true => simp [scanned, isLive, hdeleted]
    | false =>
      rw [scanned, hdeleted, if_neg Bool.false_ne_true, lookup_emplace]
      by_cases hid : r.header.chunkId = id
      · simp [isLive, hdeleted, hid]
      · simp [isLive, hid]

/-! ## Stores on a log -/

/-- The file is a log whose live records are the ones of the index, apart
from the chunks in doubt: their records may be marked. -/
structure Logged (doubtful : Uuid → Prop) (s : Store) (records : List Record) : Prop where
  log : IsLog s.file records
  indexed : ∀ id header, s.activeChunks.lookup id = some header →
    ∃ r ∈ records, r.header.chunkId = id ∧ r.header.pos = header.pos ∧
      r.header.size = header.size ∧ (¬ doubtful id → r.header.isDeleted = false)
  live : ∀ r ∈ records, r.header.isDeleted = false →
    ∃ header, s.activeChunks.lookup r.header.chunkId = some header ∧ header.pos = r.header.pos

theorem IsLog.eq_of_pos {file : Octets} (h : IsLog file records)
    {r r' : Record} (hr : r ∈ records) (hr' : r' ∈ records) (hpos : r.header.pos = r'.header.pos) :
    r = r' := by
  have hsorted := h.tiles.pairwise_lt fun r _ => r.length_octets_pos
  have hnodup : (records.map Record.pos).Nodup :=
    pairwise_map.mpr (hsorted.imp fun hlt => Nat.ne_of_lt hlt)
  exact inj_on_of_nodup_map hnodup hr hr' (congrArg UInt64.toNat hpos)

/-- The live record of a chunk which the scan keeps. -/
theorem mem_of_find?_isLive {r : Record} (hfind : records.find? (isLive id) = some r) :
    r ∈ records ∧ r.header.isDeleted = false ∧ r.header.chunkId = id := by
  have hlive := find?_some hfind
  simp only [isLive, Bool.and_eq_true, Bool.not_eq_true', decide_eq_true_eq] at hlive
  exact ⟨mem_of_find?_eq_some hfind, hlive⟩

theorem IsLog.length_before {file : Octets} {before after : List Record} {r : Record}
    (h : IsLog file (before ++ r :: after)) :
    (before.flatMap Record.octets).length = r.header.pos.toNat := by
  obtain ⟨b, hbefore, hrest⟩ := tiles_append_iff.mp h.tiles
  have hlength := length_flatMap_of_tiles hbefore
  have hpos : r.header.pos.toNat = b := hrest.1
  omega

/-- A record gives way to another one of its place and length. -/
theorem IsLog.replace {file : Octets} {before after : List Record} {r r' : Record}
    (h : IsLog file (before ++ r :: after)) (hpos : r'.header.pos = r.header.pos)
    (hsize : r'.header.size = r.header.size) :
    IsLog (before.flatMap Record.octets ++ (r'.octets ++ after.flatMap Record.octets))
      (before ++ r' :: after) := by
  have hlength : r'.octets.length = r.octets.length := by
    rw [r'.length_octets, r.length_octets, hsize]
  have hsame : r'.pos = r.pos := congrArg UInt64.toNat hpos
  refine ⟨by simp, ?_⟩
  have hfile : (before.flatMap Record.octets ++
      (r'.octets ++ after.flatMap Record.octets)).length = file.length := by
    rw [h.file_eq]
    simp [hlength]
  obtain ⟨b, hbefore, hrest⟩ := tiles_append_iff.mp h.tiles
  rw [hfile]
  refine tiles_append_iff.mpr ⟨b, hbefore, hsame.trans hrest.1, ?_⟩
  have hafter := hrest.2
  dsimp only at hafter ⊢
  rwa [hsame, hlength]

/-- What a write of a header over the one of a record leaves: the record,
with other flags once they are reached. -/
theorem IsLog.writeHeader {file : Octets} {before after : List Record} {r : Record}
    (h : IsLog file (before ++ r :: after)) {header : ChunkHeader} {flags : UInt32}
    (hheader : header = { r.header with flags := flags }) (padding : FixedOctets 4) (n : Nat) :
    ∃ r' : Record, (∃ flags, r'.header = { r.header with flags := flags }) ∧
      (n ≤ 32 → r'.header = r.header) ∧ (sizeofChunkHeader ≤ n → r'.header = header) ∧
      IsLog (writeAt 0 file r.header.pos.toNat ((header.octets padding).take n))
        (before ++ r' :: after) := by
  have hhead : header.head = r.header.head := by rw [hheader]; rfl
  have hpos : header.pos = r.header.pos := by rw [hheader]
  have hsize : header.size = r.header.size := by rw [hheader]
  have hnew := length_octets header padding
  have hold := length_octets r.header r.padding
  have hfile : writeAt 0 file r.header.pos.toNat ((header.octets padding).take n) =
      before.flatMap Record.octets ++ (((header.octets padding).take n ++
        (r.header.octets r.padding).drop n) ++ (r.data ++ after.flatMap Record.octets)) := by
    rw [← h.length_before, h.file_eq]
    simp only [flatMap_append, flatMap_cons, Record.octets, append_assoc]
    rw [writeAt_take 0 _ _ (hnew.trans hold.symm) n, append_assoc]
  -- the octets of the header after the write, and the record they begin
  have hrecord : ∀ (r' : Record), (header.octets padding).take n ++
      (r.header.octets r.padding).drop n = r'.header.octets r'.padding → r'.data = r.data →
      r'.header.pos = r.header.pos → r'.header.size = r.header.size →
      IsLog (writeAt 0 file r.header.pos.toNat ((header.octets padding).take n))
        (before ++ r' :: after) := by
    intro r' hoctets hdata hpos hsize
    have hreplaced := h.replace hpos hsize
    rw [Record.octets, ← hoctets, hdata, append_assoc] at hreplaced
    rwa [hfile]
  have hfront : ∀ m ≤ 32, (header.octets padding).take m = (r.header.octets r.padding).take m := by
    intro m hm
    have hlength := length_head r.header
    rw [ChunkHeader.octets, ChunkHeader.octets, hhead,
      take_append_of_le_length (by omega), take_append_of_le_length (by omega)]
  by_cases hshort : n ≤ 32
  · refine ⟨r, ⟨_, rfl⟩, fun _ => rfl, fun hlong => ?_, hrecord r ?_ rfl rfl rfl⟩
    · exact absurd (hlong.trans hshort) (by decide)
    · rw [hfront n hshort, take_append_drop]
  · by_cases hlong : sizeofChunkHeader ≤ n
    · refine ⟨⟨header, padding, r.data, hsize ▸ r.size_eq⟩, ⟨_, hheader⟩, fun h => absurd h hshort,
        fun _ => rfl, hrecord _ ?_ rfl hpos hsize⟩
      rw [take_of_length_le (by omega), drop_eq_nil_of_le (by omega), append_nil]
    · obtain ⟨flags, padding', hoctets⟩ := @exists_flags r.header
        ((header.octets padding).take n ++ (r.header.octets r.padding).drop n)
        (by simp only [length_append, length_take, length_drop]; omega)
        (by
          have hlength := length_head r.header
          rw [take_append_of_le_length (by simp only [length_take]; omega),
            take_take, Nat.min_eq_left (by omega), hfront 32 (Nat.le_refl _),
            ChunkHeader.octets, ← hlength, take_left])
      exact ⟨⟨{ r.header with flags := flags }, padding', r.data, r.size_eq⟩, ⟨flags, rfl⟩,
        fun h => absurd h hshort, fun h => absurd h hlong, hrecord _ hoctets rfl rfl rfl⟩

namespace Logged

variable {doubtful : Uuid → Prop} {records : List Record}

theorem mono (h : Logged doubtful s records) {doubtful' : Uuid → Prop}
    (hmono : ∀ id, doubtful id → doubtful' id) : Logged doubtful' s records where
  log := h.log
  indexed id header hlookup := by
    obtain ⟨r, hr, hid, hpos, hsize, hlive⟩ := h.indexed id header hlookup
    exact ⟨r, hr, hid, hpos, hsize, fun hnot => hlive (mt (hmono id) hnot)⟩
  live := h.live

/-- A new store finds the index again. -/
theorem create (h : Logged doubtful s records) :
    ∃ s', Store.create s.file = some s' ∧ s'.file = s.file ∧ s'.isDisposed = false ∧
      (∀ id, ¬ doubtful id → s'.content id = s.content id) ∧
      Logged (fun _ => False) s' records := by
  refine ⟨_, create_log h.log, rfl, rfl, fun id hnot => ?_, h.log, fun id header hlookup => ?_,
    fun r hr hlive => ?_⟩
  · unfold Store.content
    rw [lookup_scanned, AList.lookup_empty, Option.none_or]
    cases hold : s.activeChunks.lookup id with
    | none =>
      have hnone : records.find? (isLive id) = none := by
        by_contra hne
        obtain ⟨r, hfind⟩ := Option.ne_none_iff_exists'.mp hne
        obtain ⟨hr, hlive, rfl⟩ := mem_of_find?_isLive hfind
        obtain ⟨header, hheader, -⟩ := h.live r hr hlive
        cases hold.symm.trans hheader
      rw [hnone]
      rfl
    | some header =>
      obtain ⟨r, hr, hid, hpos, hsize, hlive⟩ := h.indexed id header hold
      have hsome : (records.find? (isLive id)).isSome = true := by
        rw [find?_isSome]
        exact ⟨r, hr, by simp [isLive, hlive hnot, hid]⟩
      obtain ⟨r', hfind⟩ := Option.isSome_iff_exists.mp hsome
      obtain ⟨hr', hlive', hid'⟩ := mem_of_find?_isLive hfind
      obtain ⟨header', hheader', hpos'⟩ := h.live r' hr' hlive'
      rw [hid'] at hheader'
      obtain rfl := Option.some.inj (hold.symm.trans hheader')
      obtain rfl := h.log.eq_of_pos hr hr' (hpos.trans hpos')
      rw [hfind]
      simp only [Option.map_some, ChunkHeader.dataIn, hpos, hsize]
  · rw [lookup_scanned, AList.lookup_empty, Option.none_or] at hlookup
    obtain ⟨r, hfind, rfl⟩ := Option.map_eq_some_iff.mp hlookup
    obtain ⟨hr, hlive, hid⟩ := mem_of_find?_isLive hfind
    exact ⟨r, hr, hid, rfl, rfl, fun _ => hlive⟩
  · have hsome : (records.find? (isLive r.header.chunkId)).isSome = true := by
      rw [find?_isSome]
      exact ⟨r, hr, by simp [isLive, hlive]⟩
    obtain ⟨r', hfind⟩ := Option.isSome_iff_exists.mp hsome
    obtain ⟨hr', hlive', hid'⟩ := mem_of_find?_isLive hfind
    obtain ⟨header, hheader, hpos⟩ := h.live r hr hlive
    obtain ⟨header', hheader', hpos'⟩ := h.live r' hr' hlive'
    rw [hid', hheader] at hheader'
    cases hheader'
    refine ⟨r'.header, ?_, hpos'.symm.trans hpos⟩
    rw [lookup_scanned, AList.lookup_empty, Option.none_or, hfind]
    rfl

/-- A record beside the one at its position. -/
theorem pos_ne {before after : List Record} {r : Record}
    (h : IsLog s.file (before ++ r :: after)) {y : Record} (hy : y ∈ before ∨ y ∈ after) :
    y.header.pos ≠ r.header.pos := by
  have hsorted := h.tiles.pairwise_lt fun r _ => r.length_octets_pos
  rw [pairwise_append, pairwise_cons] at hsorted
  obtain ⟨-, ⟨hafter, -⟩, hbefore⟩ := hsorted
  intro hpos
  have hsame : y.pos = r.pos := congrArg UInt64.toNat hpos
  obtain hy | hy := hy
  · exact Nat.ne_of_lt (hbefore y hy r mem_cons_self) hsame
  · exact Nat.ne_of_gt (hafter y hy) hsame

/-- The record of an entry which is about to be marked. -/
theorem exists_split (h : Logged doubtful s records)
    (hlookup : s.activeChunks.lookup chunkId = some header) :
    ∃ before r after, records = before ++ r :: after ∧ r.header.chunkId = chunkId ∧
      r.header.pos = header.pos ∧ r.header.size = header.size ∧
      (¬ doubtful chunkId → r.header.isDeleted = false) := by
  obtain ⟨r, hr, hid, hpos, hsize, hlive⟩ := h.indexed chunkId header hlookup
  obtain ⟨before, after, rfl⟩ := append_of_mem hr
  exact ⟨before, r, after, rfl, hid, hpos, hsize, hlive⟩

theorem mark (h : Logged doubtful s records) (hindexed : s.Indexed)
    (hlookup : s.activeChunks.lookup chunkId = some header) (padding : FixedOctets 4) :
    ∃ records', Logged doubtful
      { s with
        file := writeAt 0 s.file header.pos.toNat
          (header.marked.octets padding)
        activeChunks := s.activeChunks.erase chunkId } records' := by
  obtain ⟨before, r, after, rfl, hid, hpos, hsize, -⟩ := h.exists_split hlookup
  have hchunkId := hindexed.chunkId chunkId header hlookup
  obtain ⟨r', -, -, hfull, hlog⟩ := @IsLog.writeHeader s.file before after r h.log
    header.marked (header.flags ||| chunkFlagDeleted)
    (by simp [ChunkHeader.marked, hchunkId, hpos, hsize, hid]) padding sizeofChunkHeader
  rw [take_of_length_le (Nat.le_of_eq (length_octets _ _)), hpos] at hlog
  have hdeleted : r'.header.isDeleted = true := by
    rw [hfull (Nat.le_refl _)]
    exact isDeleted_marked header
  refine ⟨before ++ r' :: after, hlog, fun id header' hnew => ?_, fun y hy hlive => ?_⟩
  · obtain rfl | hne := eq_or_ne id chunkId
    · simp [AList.lookup_erase] at hnew
    · rw [AList.lookup_erase_ne hne] at hnew
      obtain ⟨y, hy, hyid, hrest⟩ := h.indexed id header' hnew
      obtain hy | rfl | hy := by simpa using hy
      · exact ⟨y, by simp [hy], hyid, hrest⟩
      · exact absurd (hyid.symm.trans hid) hne
      · exact ⟨y, by simp [hy], hyid, hrest⟩
  · have hother : y ∈ before ∨ y ∈ after := by
      obtain hy | rfl | hy := by simpa using hy
      · exact .inl hy
      · cases hdeleted.symm.trans hlive
      · exact .inr hy
    obtain ⟨header', hheader', hpos'⟩ := h.live y (by simp; tauto) hlive
    have hne : y.header.chunkId ≠ chunkId := by
      intro heq
      rw [heq, hlookup] at hheader'
      cases hheader'
      exact pos_ne h.log hother (hpos'.symm.trans hpos.symm)
    exact ⟨header', (AList.lookup_erase_ne hne).trans hheader', hpos'⟩

/-- A mark which fails leaves its chunk in doubt once it has reached the
flags. -/
theorem mark_failed (h : Logged doubtful s records) (hindexed : s.Indexed)
    (hlookup : s.activeChunks.lookup chunkId = some header) (padding : FixedOctets 4) (n : Nat) :
    ∃ records', Logged (fun id => doubtful id ∨ id = chunkId ∧ 32 < n)
      { s with
        file := writeAt 0 s.file header.pos.toNat
          ((header.marked.octets
            padding).take n)
        activeChunks := s.activeChunks.insert chunkId
          header.marked } records' := by
  obtain ⟨before, r, after, rfl, hid, hpos, hsize, hrlive⟩ := h.exists_split hlookup
  have hchunkId := hindexed.chunkId chunkId header hlookup
  obtain ⟨r', ⟨flags, hflags⟩, hshort, -, hlog⟩ := @IsLog.writeHeader s.file before after r h.log
    header.marked (header.flags ||| chunkFlagDeleted)
    (by simp [ChunkHeader.marked, hchunkId, hpos, hsize, hid]) padding n
  rw [hpos] at hlog
  refine ⟨before ++ r' :: after, hlog, fun id header' hnew => ?_, fun y hy hlive => ?_⟩
  · obtain rfl | hne := eq_or_ne id chunkId
    · rw [AList.lookup_insert, Option.some.injEq] at hnew
      subst hnew
      refine ⟨r', by simp, ?_, ?_, ?_, fun hnot => ?_⟩
      · rwa [hflags]
      · rwa [hflags]
      · rwa [hflags]
      · rw [hshort (Nat.not_lt.mp fun hlong => hnot (.inr ⟨rfl, hlong⟩))]
        exact hrlive fun hdoubt => hnot (.inl hdoubt)
    · rw [AList.lookup_insert_ne hne] at hnew
      obtain ⟨y, hy, hyid, hypos, hysize, hylive⟩ := h.indexed id header' hnew
      have hy' : y ∈ before ++ r' :: after := by
        obtain hy | rfl | hy := by simpa using hy
        · simp [hy]
        · exact absurd (hyid.symm.trans hid) hne
        · simp [hy]
      exact ⟨y, hy', hyid, hypos, hysize, fun hnot => hylive fun hdoubt => hnot (.inl hdoubt)⟩
  · have hold : y ∈ before ∨ y ∈ after → ∃ header', (s.activeChunks.insert chunkId
        header.marked).lookup y.header.chunkId =
          some header' ∧ header'.pos = y.header.pos := by
      intro hother
      obtain ⟨header', hheader', hpos'⟩ := h.live y (by simp; tauto) hlive
      by_cases hne : y.header.chunkId = chunkId
      · rw [hne, hlookup] at hheader'
        cases hheader'
        refine ⟨header.marked, ?_, hpos'⟩
        rw [hne, AList.lookup_insert]
      · exact ⟨header', (AList.lookup_insert_ne hne).trans hheader', hpos'⟩
    obtain hy | rfl | hy := by simpa using hy
    · exact hold (.inl hy)
    · refine ⟨header.marked, ?_, ?_⟩
      · have hchunk : y.header.chunkId = chunkId := by
          rwa [hflags]
        rw [hchunk, AList.lookup_insert]
      · rw [hflags]
        exact hpos.symm
    · exact hold (.inr hy)

/-- A chunk which is appended. -/
theorem append (h : Logged doubtful s records) (hnone : s.activeChunks.lookup chunkId = none)
    {padding : FixedOctets 4}
    (hfit : (s.file ++ ((newHeader chunkId data s).octets padding ++ data)).length ≤ maxOffset) :
    ∃ records', Logged doubtful
      { s with
        file := s.file ++ ((newHeader chunkId data s).octets padding ++ data)
        activeChunks := s.activeChunks.insert chunkId (newHeader chunkId data s) } records' := by
  obtain ⟨hpos, hsize⟩ := newHeader_toNat chunkId hfit
  let r : Record := ⟨newHeader chunkId data s, padding, data, hsize⟩
  refine ⟨records ++ [r], ⟨?_, ?_⟩, fun id header' hnew => ?_, fun y hy hlive => ?_⟩
  · rw [flatMap_append, flatMap_singleton, ← h.log.file_eq]
    rfl
  · refine tiles_append_iff.mpr ⟨s.file.length, h.log.tiles, hpos, ?_⟩
    change r.header.pos.toNat + r.octets.length = _
    rw [hpos, length_append]
    rfl
  · obtain rfl | hne := eq_or_ne id chunkId
    · rw [AList.lookup_insert, Option.some.injEq] at hnew
      subst hnew
      have hlive : r.header.isDeleted = false := by
        change decide ((0 : UInt32) &&& chunkFlagDeleted ≠ 0) = false
        decide
      exact ⟨r, by simp, rfl, rfl, rfl, fun _ => hlive⟩
    · rw [AList.lookup_insert_ne hne] at hnew
      obtain ⟨y, hy, hrest⟩ := h.indexed id header' hnew
      exact ⟨y, mem_append_left _ hy, hrest⟩
  · obtain hy | hy := mem_append.mp hy
    · obtain ⟨header', hheader', hpos'⟩ := h.live y hy hlive
      have hne : y.header.chunkId ≠ chunkId := by
        intro heq
        rw [heq, hnone] at hheader'
        cases hheader'
      exact ⟨header', (AList.lookup_insert_ne hne).trans hheader', hpos'⟩
    · obtain rfl := mem_singleton.mp hy
      exact ⟨newHeader chunkId data s, AList.lookup_insert _, rfl⟩

end Logged

/-! ## Calls -/

/-- Where the flags stand in a header. -/
def flagsOffset : Nat := 32

/-- A write which fails in the call has left the records of the file as they
were: none has failed, a mark has not reached the flags, or nothing of a
header has come to the file. -/
def LeavesNothing (s : Store) : Label → Prop
  | .save chunkId data writes =>
    s.isDisposed = false →
      if markFails chunkId writes s then ∀ n ∈ writes.mark, n ≤ flagsOffset
      else (∀ n ∈ writes.header, n = 0) ∧
        (writes.header = none → data = [] ∨ writes.data = none)
  | .remove chunkId writes =>
    s.isDisposed = false → markFails chunkId writes s → ∀ n ∈ writes.mark, n ≤ flagsOffset
  | _ => True

instance (s : Store) : ∀ l : Label, Decidable (LeavesNothing s l)
  | .save _ data _ =>
    have : Decidable (data = []) := inferInstance
    inferInstanceAs (Decidable (_ → ite _ _ _))
  | .remove _ _ => inferInstanceAs (Decidable (_ → _ → _))
  | .dispose => isTrue trivial
  | .create => isTrue trivial

/-- Every write of the call completes. -/
def Label.Succeeds : Label → Prop
  | .save _ _ writes => writes.mark = none ∧ writes.header = none ∧ writes.data = none
  | .remove _ writes => writes.mark = none
  | _ => True

instance : ∀ l : Label, Decidable l.Succeeds
  | .save _ _ _ => inferInstanceAs (Decidable (_ ∧ _))
  | .remove _ _ => inferInstanceAs (Decidable (_ = _))
  | .dispose => isTrue trivial
  | .create => isTrue trivial

theorem Label.Succeeds.leavesNothing {l : Label} (h : l.Succeeds) (s : Store) :
    LeavesNothing s l := by
  cases l with
  | save chunkId data writes =>
    obtain ⟨hmark, hheader, hdata⟩ := h
    simp [LeavesNothing, markFails, hmark, hheader, hdata]
  | remove chunkId writes =>
    have hmark : writes.mark = none := h
    simp [LeavesNothing, hmark]
  | dispose => trivial
  | create => trivial

/-- `removeChunk` on a log. -/
theorem Logged.removeChunk {doubtful : Uuid → Prop}
    (h : Logged doubtful s records) (hindexed : s.Indexed) (chunkId : Uuid) (throws : Bool)
    (writes : Writes) :
    ∃ records', Logged
      (fun id => doubtful id ∨ id = chunkId ∧ markFails chunkId writes s = true ∧
        ∃ n ∈ writes.mark, flagsOffset < n)
      (removeChunk chunkId throws writes s).1 records' := by
  obtain ⟨hnone, heq⟩ | ⟨header, octets, hlookup, rfl, ⟨hmark, heq⟩ | ⟨n, hmark, heq⟩⟩ :=
    removeChunk_cases chunkId throws writes s
  · rw [heq]
    exact ⟨records, h.mono fun _ => .inl⟩
  · rw [heq]
    obtain ⟨records', hlogged⟩ := h.mark hindexed hlookup writes.markPadding
    exact ⟨records', hlogged.mono fun _ => .inl⟩
  · rw [heq]
    obtain ⟨records', hlogged⟩ := h.mark_failed hindexed hlookup writes.markPadding n
    refine ⟨records', hlogged.mono fun id hdoubt => hdoubt.imp_right fun ⟨hid, hlong⟩ => ?_⟩
    exact ⟨hid, by simp [markFails, hlookup, hmark], n, by simp [hmark], hlong⟩

/-- The write that fails is the one of a mark. -/
def FailsMark (s : Store) : Label → Prop
  | .save chunkId _ writes | .remove chunkId writes => markFails chunkId writes s = true
  | _ => False

instance (s : Store) : ∀ l : Label, Decidable (FailsMark s l)
  | .save _ _ _ => inferInstanceAs (Decidable (_ = _))
  | .remove _ _ => inferInstanceAs (Decidable (_ = _))
  | .dispose => isFalse not_false
  | .create => isFalse not_false

/-- A store on a log stays on one, if the call leaves nothing behind or its
mark is what fails; then its chunk comes in doubt. -/
theorem step_logged {l : Label} {doubtful : Uuid → Prop}
    (h : Logged doubtful s records) (hindexed : s.Indexed)
    (hl : LeavesNothing s l ∨ FailsMark s l) (hstep : step s l = some s') :
    ∃ records', Logged (fun id => doubtful id ∨ l.chunkId = some id ∧ ¬ LeavesNothing s l) s'
      records' := by
  obtain ⟨failure, hcall, hfit⟩ := step_eq_some hstep
  cases l with
  | save chunkId data writes =>
    have heq : (save chunkId data writes s).1 = s' := congrArg Prod.fst (Option.some.inj hcall)
    rw [← heq] at hfit ⊢
    by_cases hdisposed : s.isDisposed = true
    · rw [save, if_pos hdisposed]
      exact ⟨records, h.mono fun _ => .inl⟩
    · have hopen := Bool.not_eq_true _ ▸ hdisposed
      have hremoved := h.removeChunk hindexed chunkId false writes
      obtain ⟨hmark, hsave⟩ | ⟨hmark, hsave⟩ := save_cases hopen chunkId data writes
      · rw [hsave]
        obtain ⟨records', hlogged⟩ := hremoved
        refine ⟨records', hlogged.mono fun id hdoubt => hdoubt.imp_right ?_⟩
        rintro ⟨rfl, -, n, hn, hlong⟩
        refine ⟨rfl, fun hleaves => ?_⟩
        have hshort := hleaves hopen
        rw [if_pos hmark] at hshort
        exact Nat.not_lt.mpr (hshort n hn) hlong
      · obtain ⟨records', hlogged⟩ := hremoved
        have hlogged : Logged doubtful (removeChunk chunkId false writes s).1 records' :=
          hlogged.mono fun id hdoubt => hdoubt.resolve_right fun h => by
            cases hmark.symm.trans h.2.1
        have hleaves : LeavesNothing s (.save chunkId data writes) :=
          hl.resolve_right fun h => by cases hmark.symm.trans h
        have hclean := hleaves hopen
        rw [hmark, if_neg Bool.false_ne_true] at hclean
        have hgone : (removeChunk chunkId false writes s).1.activeChunks.lookup chunkId = none := by
          have hcontent := removeChunk_content hindexed chunkId false writes chunkId
          rw [if_pos ⟨rfl, hmark⟩] at hcontent
          exact Option.map_eq_none_iff.mp hcontent
        rw [hsave] at hfit ⊢
        obtain ⟨octets, rfl, ⟨n, hn, happend⟩ | ⟨n, hheader, hdata, hn, -⟩ | ⟨-, -, happend⟩⟩ :=
          append_cases chunkId data writes (removeChunk chunkId false writes s).1
        · rw [happend, hclean.1 n hn, take_zero, append_nil]
          exact ⟨records', hlogged.mono fun _ => .inl⟩
        · obtain hempty | hnone := hclean.2 hheader
          · exact absurd hempty hdata
          · cases hn.symm.trans hnone
        · rw [happend] at hfit ⊢
          obtain ⟨records'', hlogged⟩ := hlogged.append hgone hfit
          exact ⟨records'', hlogged.mono fun _ => .inl⟩
  | remove chunkId writes =>
    have heq : (remove chunkId writes s).1 = s' := congrArg Prod.fst (Option.some.inj hcall)
    rw [← heq]
    by_cases hdisposed : s.isDisposed = true
    · rw [remove, if_pos hdisposed]
      exact ⟨records, h.mono fun _ => .inl⟩
    · have hopen := Bool.not_eq_true _ ▸ hdisposed
      rw [remove_eq hopen]
      obtain ⟨records', hlogged⟩ := h.removeChunk hindexed chunkId true writes
      refine ⟨records', hlogged.mono fun id hdoubt => hdoubt.imp_right ?_⟩
      rintro ⟨rfl, hmark, n, hn, hlong⟩
      exact ⟨rfl, fun hleaves => Nat.not_lt.mpr (hleaves hopen hmark n hn) hlong⟩
  | dispose =>
    have heq : dispose s = s' := congrArg Prod.fst (Option.some.inj hcall)
    rw [← heq]
    have hmono := h.mono fun id (hdoubt : doubtful id) =>
      (.inl hdoubt : doubtful id ∨ Label.dispose.chunkId = some id ∧ ¬ LeavesNothing s .dispose)
    exact ⟨records, hmono.log, hmono.indexed, hmono.live⟩
  | create =>
    simp only [Label.call] at hcall
    split at hcall
    · obtain ⟨s'', hcreate, hresult⟩ := Option.map_eq_some_iff.mp hcall
      have heq : s'' = s' := congrArg Prod.fst hresult
      obtain ⟨t, ht, -, -, -, hlogged⟩ := h.create
      rw [← heq, ← Option.some.inj (ht.symm.trans hcreate)]
      exact ⟨records, hlogged.mono fun _ => False.elim⟩
    · cases hcall

/-- A run whose calls leave nothing behind keeps the log, and no chunk comes
in doubt. -/
theorem run_logged {labels : List Label} {doubtful : Uuid → Prop}
    (h : Logged doubtful s records) (hindexed : s.Indexed)
    (hleaves : Transition.Along step LeavesNothing s labels)
    (hrun : Transition.run step s labels = some s') : ∃ records', Logged doubtful s' records' := by
  have hall : s'.Indexed ∧ ∃ records', Logged doubtful s' records' := by
    refine Transition.run_invariant (P := fun s => s.Indexed ∧ ∃ records, Logged doubtful s records)
      ?_ ⟨hindexed, records, h⟩ hleaves hrun
    rintro s l s' ⟨hindexed, records, h⟩ hl hstep
    obtain ⟨records', hlogged⟩ := step_logged h hindexed (.inl hl) hstep
    exact ⟨step_indexed hindexed hstep, records', hlogged.mono fun id hdoubt =>
      hdoubt.resolve_right fun hnot => hnot.2 hl⟩
  exact hall.2

theorem along_of_succeeds {labels : List Label} (hsucceed : ∀ l ∈ labels, l.Succeeds) :
    ∀ {s : Store}, Transition.Along step LeavesNothing s labels := by
  induction labels with
  | nil => intros; trivial
  | cons l labels ih =>
    intro s
    exact ⟨(hsucceed l mem_cons_self).leavesNothing s,
      fun _ _ => ih fun l' hl' => hsucceed l' (mem_cons_of_mem _ hl')⟩

theorem empty_logged : Logged (fun _ => False) Store.empty [] where
  log := ⟨rfl, rfl⟩
  indexed _ _ hlookup := by cases hlookup
  live _ hr := by cases hr

end Baselib.Messaging.DataChunkStorageSingleFile
