/-
Baselib.Messaging.DataChunkStorageSingleFileTheorems — the index of the
single-file chunk store.

Every entry of the index has its record, the header and the data after it,
inside the file, and the records of two entries do not overlap. Opening any
file whatsoever establishes this, and every call keeps it however its writes
end. So a mark never reaches data, and what is appended is behind every
record.
-/
import Baselib.Lib.Transition
import Baselib.Messaging.DataChunkStorageSingleFile

namespace Baselib.Messaging.DataChunkStorageSingleFile

open Lib List

variable {s s' : Store} {id chunkId : Uuid} {header : ChunkHeader} {data : Octets}
  {writes : Writes} {bound : Nat} {active : ActiveChunks}
variable {file : Octets}

/-! ## The index -/

/-- Where the record of the header ends. -/
def ChunkHeader.stop (header : ChunkHeader) : Nat :=
  header.pos.toNat + sizeofChunkHeader + header.size.toNat

/-- The records of the entries are apart from each other and end below the
bound. -/
structure Indexed (bound : Nat) (active : ActiveChunks) : Prop where
  chunkId : ∀ id header, active.lookup id = some header → header.chunkId = id
  bounds : ∀ id header, active.lookup id = some header → header.stop ≤ bound
  disjoint : ∀ id id' header header', id ≠ id' → active.lookup id = some header →
    active.lookup id' = some header' → header.stop ≤ header'.pos.toNat ∨
      header'.stop ≤ header.pos.toNat

theorem indexed_empty : Indexed bound ∅ := by
  constructor <;> intros <;> simp_all

namespace Indexed

theorem mono (h : Indexed bound active) {bound' : Nat} (hle : bound ≤ bound') :
    Indexed bound' active :=
  { h with bounds := fun id header hlookup => (h.bounds id header hlookup).trans hle }

/-- A record is marked where it is. -/
theorem mark (h : Indexed bound active) (hlookup : active.lookup id = some header)
    (flags : UInt32) : Indexed bound (active.insert id { header with flags := flags }) := by
  have hold : ∀ id' header', (active.insert id { header with flags := flags }).lookup id' =
      some header' → ∃ old, active.lookup id' = some old ∧ header' = { old with flags := header'.flags } := by
    intro id' header' hnew
    obtain rfl | hid := eq_or_ne id' id
    · rw [AList.lookup_insert, Option.some.injEq] at hnew
      exact ⟨header, hlookup, hnew ▸ rfl⟩
    · rw [AList.lookup_insert_ne hid] at hnew
      exact ⟨header', hnew, rfl⟩
  refine ⟨fun id' header' hnew => ?_, fun id' header' hnew => ?_,
    fun id₁ id₂ header₁ header₂ hne hnew₁ hnew₂ => ?_⟩
  · obtain ⟨old, hold, heq⟩ := hold id' header' hnew
    rw [heq]
    exact h.chunkId id' old hold
  · obtain ⟨old, hold, heq⟩ := hold id' header' hnew
    rw [heq]
    exact h.bounds id' old hold
  · obtain ⟨old₁, hold₁, heq₁⟩ := hold id₁ header₁ hnew₁
    obtain ⟨old₂, hold₂, heq₂⟩ := hold id₂ header₂ hnew₂
    rw [heq₁, heq₂]
    exact h.disjoint id₁ id₂ old₁ old₂ hne hold₁ hold₂

theorem erase (h : Indexed bound active) (id : Uuid) : Indexed bound (active.erase id) := by
  have hold : ∀ id' header', (active.erase id).lookup id' = some header' →
      active.lookup id' = some header' := by
    intro id' header' hnew
    obtain rfl | hid := eq_or_ne id' id
    · simp [AList.lookup_erase] at hnew
    · rwa [AList.lookup_erase_ne hid] at hnew
  exact ⟨fun id' header' hnew => h.chunkId id' header' (hold id' header' hnew),
    fun id' header' hnew => h.bounds id' header' (hold id' header' hnew),
    fun id₁ id₂ header₁ header₂ hne hnew₁ hnew₂ =>
      h.disjoint id₁ id₂ header₁ header₂ hne (hold id₁ header₁ hnew₁) (hold id₂ header₂ hnew₂)⟩

/-- A record behind all the others. -/
theorem insert (h : Indexed bound active) (hpos : bound ≤ header.pos.toNat) :
    Indexed header.stop (active.insert header.chunkId header) := by
  have hcases : ∀ id header', (active.insert header.chunkId header).lookup id = some header' →
      id = header.chunkId ∧ header' = header ∨
        id ≠ header.chunkId ∧ active.lookup id = some header' := by
    intro id header' hnew
    obtain rfl | hid := eq_or_ne id header.chunkId
    · rw [AList.lookup_insert, Option.some.injEq] at hnew
      exact .inl ⟨rfl, hnew.symm⟩
    · rw [AList.lookup_insert_ne hid] at hnew
      exact .inr ⟨hid, hnew⟩
  have hstop : bound ≤ header.stop := by
    unfold ChunkHeader.stop
    omega
  refine ⟨fun id header' hnew => ?_, fun id header' hnew => ?_,
    fun id₁ id₂ header₁ header₂ hne hnew₁ hnew₂ => ?_⟩
  · obtain ⟨rfl, rfl⟩ | ⟨-, hold⟩ := hcases id header' hnew
    · rfl
    · exact h.chunkId id header' hold
  · obtain ⟨rfl, rfl⟩ | ⟨-, hold⟩ := hcases id header' hnew
    · exact Nat.le_refl _
    · exact (h.bounds id header' hold).trans hstop
  · obtain ⟨rfl, rfl⟩ | ⟨-, hold₁⟩ := hcases id₁ header₁ hnew₁
    · obtain ⟨rfl, rfl⟩ | ⟨-, hold₂⟩ := hcases id₂ header₂ hnew₂
      · exact absurd rfl hne
      · exact .inr ((h.bounds id₂ header₂ hold₂).trans hpos)
    · obtain ⟨rfl, rfl⟩ | ⟨-, hold₂⟩ := hcases id₂ header₂ hnew₂
      · exact .inl ((h.bounds id₁ header₁ hold₁).trans hpos)
      · exact h.disjoint id₁ id₂ header₁ header₂ hne hold₁ hold₂

theorem emplace (h : Indexed bound active) (hpos : bound ≤ header.pos.toNat) :
    Indexed header.stop (emplace header active) := by
  unfold DataChunkStorageSingleFile.emplace
  split
  · refine h.mono ?_
    unfold ChunkHeader.stop
    omega
  · exact h.insert hpos

end Indexed

/-! ## Opening -/

/-- A round which goes on has read a record which lies inside the file. -/
theorem loadChunk_inl {scan scan' : Nat × ActiveChunks} (h : loadChunk file scan = .inl scan') :
    ∃ header : ChunkHeader, header.pos.toNat = scan.1 ∧ header.stop = scan'.1 ∧
      scan'.1 ≤ file.length ∧
      scan'.2 = if header.isDeleted then scan.2 else emplace header scan.2 := by
  unfold loadChunk at h
  split at h
  · split at h
    · cases h
    · rename_i octets hread
      dsimp only at h
      split at h
      · rename_i hformat
        obtain rfl := Sum.inl.inj h
        have hfit : scan.1 + sizeofChunkHeader ≤ file.length := by
          unfold fread at hread
          by_contra hnot
          simp [dif_neg hnot] at hread
        refine ⟨.ofOctets octets, hformat.1, ?_, ?_, rfl⟩
        · rw [ChunkHeader.stop, hformat.1]
        · have hsize := hformat.2
          omega
      · cases h
  · cases h

theorem loadChunk_inr {scan : Nat × ActiveChunks} {active : ActiveChunks}
    (h : loadChunk file scan = .inr (some active)) : active = scan.2 := by
  unfold loadChunk at h
  split at h
  · split at h
    · cases h
    · dsimp only at h
      split at h <;> cases h
  · injection h with h
    injection h with h
    exact h.symm

/-- The loop answers, whatever is in the file: every round takes a header. -/
theorem loadChunksData_terminates (file : Octets) :
    ∃ answer, loadChunksData file (file.length + 1) = some answer := by
  refine loop_terminates (fun scan => file.length - scan.1) ?_ (by simp)
  intro scan scan' h
  obtain ⟨header, hpos, hstop, hfile, -⟩ := loadChunk_inl h
  unfold ChunkHeader.stop sizeofChunkHeader at hstop
  omega

/-- The records of what it reads are inside the file and apart. -/
theorem loadChunksData_indexed {n : Nat} {active : ActiveChunks}
    (h : loadChunksData file n = some (some active)) : Indexed file.length active := by
  refine loop_invariant (I := fun scan => scan.1 ≤ file.length ∧ Indexed scan.1 scan.2)
    (Q := fun answer => ∀ active, answer = some active → Indexed file.length active) ?_ ?_
    ⟨Nat.zero_le _, indexed_empty⟩ h active rfl
  · intro scan scan' hscan hnext
    obtain ⟨header, hpos, hstop, hfile, hactive⟩ := loadChunk_inl hnext
    refine ⟨hfile, ?_⟩
    rw [hactive, ← hstop]
    split
    · refine hscan.2.mono ?_
      unfold ChunkHeader.stop
      omega
    · exact hscan.2.emplace (Nat.le_of_eq hpos.symm)
  · rintro scan - hscan hanswer active rfl
    rw [loadChunk_inr hanswer]
    exact hscan.2.mono hscan.1

theorem create_eq_some (h : Store.create file = some s) : s.file = file ∧ s.isDisposed = false ∧
      loadChunksData file (file.length + 1) = some (some s.activeChunks) := by
  obtain ⟨answer, hanswer⟩ := loadChunksData_terminates file
  rw [Store.create, hanswer] at h
  obtain ⟨active, hactive, rfl⟩ := Option.map_eq_some_iff.mp h
  exact ⟨rfl, rfl, hanswer.trans (congrArg some hactive)⟩

/-! ## Contents -/

/-- The data of the record. -/
def ChunkHeader.dataIn (file : Octets) (header : ChunkHeader) : Octets :=
  (file.drop (header.pos.toNat + sizeofChunkHeader)).take header.size.toNat

/-- What the store holds for the chunk. -/
def Store.content (id : Uuid) (s : Store) : Option Octets :=
  (s.activeChunks.lookup id).map (·.dataIn s.file)

/-- What a map which holds `content` for a chunk answers. -/
def answer (capacity : Nat) : Option Octets → Except Failure Octets
  | none => .error .doesNotExist
  | some content => if content.length ≤ capacity then .ok content else .error .capacityTooSmall

def Store.Indexed (s : Store) : Prop :=
  DataChunkStorageSingleFile.Indexed s.file.length s.activeChunks

theorem fread_eq_some {pos n : Nat} (h : pos + n ≤ file.length) :
    ∃ octets, fread file pos n = some octets ∧ octets.1 = (file.drop pos).take n :=
  ⟨_, dif_pos h, rfl⟩

theorem load_eq (h : s.Indexed) (capacity : Nat) (id : Uuid) :
    load capacity id s =
      if s.isDisposed then .error .disposed else answer capacity (s.content id) := by
  unfold load Store.content
  split
  · rfl
  · cases hlookup : s.activeChunks.lookup id with
    | none => rfl
    | some header =>
      have hbound := h.bounds id header hlookup
      unfold ChunkHeader.stop at hbound
      have hlength : (header.dataIn s.file).length = header.size.toNat := by
        simp only [ChunkHeader.dataIn, length_take, length_drop]
        omega
      simp only [Option.map_some, answer, hlength]
      split
      · split
        · rename_i hzero
          rw [hzero] at hlength
          rw [length_eq_zero_iff.mp hlength]
        · obtain ⟨octets, hread, hoctets⟩ := fread_eq_some hbound
          rw [hread]
          simp only [hoctets, ChunkHeader.dataIn]
      · rfl

/-! ## Writes -/

theorem length_head (header : ChunkHeader) : header.head.length = 32 := by
  have hchunkId := header.chunkId.2
  simp only [ChunkHeader.head, length_append, length_toLittleEndian]
  omega

theorem length_octets (header : ChunkHeader) (padding : FixedOctets 4) :
    (header.octets padding).length = sizeofChunkHeader := by
  have hpadding := padding.2
  simp only [ChunkHeader.octets, length_append, length_head, length_toLittleEndian]
  unfold sizeofChunkHeader
  omega

/-- A write over the front of a record reads as the same data everywhere. -/
theorem dataIn_writeAt {octets : Octets} {pos : Nat} {header : ChunkHeader}
    (hbound : header.stop ≤ file.length)
    (hout : header.stop ≤ pos ∨ pos + octets.length ≤ header.pos.toNat + sizeofChunkHeader) :
    header.dataIn (writeAt 0 file pos octets) = header.dataIn file :=
  take_drop_writeAt 0 hbound hout

/-- What stands behind the end of the file does not matter. -/
theorem content_append {s' : Store} (h : s.Indexed) {octets : Octets}
    (hfile : s'.file = s.file ++ octets)
    (hlookup : s'.activeChunks.lookup id = s.activeChunks.lookup id) :
    s'.content id = s.content id := by
  unfold Store.content
  rw [hlookup, hfile, ← writeAt_length 0]
  refine Option.map_congr fun header hheader => dataIn_writeAt ?_ (.inl ?_)
  · exact h.bounds id header hheader
  · exact h.bounds id header hheader

/-- What a write over the header of an entry leaves. -/
theorem content_mark {s' : Store} (h : s.Indexed) {octets : Octets}
    (hold : s.activeChunks.lookup chunkId = some header)
    (hoctets : octets.length ≤ sizeofChunkHeader)
    (hfile : s'.file = writeAt 0 s.file header.pos.toNat octets)
    (hlookup : s'.activeChunks.lookup id = s.activeChunks.lookup id) :
    s'.content id = s.content id := by
  unfold Store.content
  rw [hlookup, hfile]
  refine Option.map_congr fun header' hheader' => dataIn_writeAt (h.bounds id header' hheader') ?_
  obtain rfl | hid := eq_or_ne id chunkId
  · obtain rfl := Option.some.inj (hold.symm.trans hheader')
    exact .inr (Nat.add_le_add_left hoctets _)
  · obtain hbefore | hafter := h.disjoint id chunkId header' header hid hheader' hold
    · exact .inl hbefore
    · right
      unfold ChunkHeader.stop at hafter
      omega

/-! ## The members -/

/-- The header as `removeChunk` writes it. -/
abbrev ChunkHeader.marked (header : ChunkHeader) : ChunkHeader :=
  { header with flags := header.flags ||| chunkFlagDeleted }

/-- What `removeChunk` does, by its cases: there is nothing to remove, the
mark is written, or the mark fails. -/
theorem removeChunk_cases (chunkId : Uuid) (throws : Bool) (writes : Writes) (s : Store) :
    (s.activeChunks.lookup chunkId = none ∧ removeChunk chunkId throws writes s =
      (s, if throws then some .doesNotExist else none)) ∨
    ∃ header octets, s.activeChunks.lookup chunkId = some header ∧
      octets = header.marked.octets
        writes.markPadding ∧
      ((writes.mark = none ∧ removeChunk chunkId throws writes s =
        ({ s with
          file := writeAt 0 s.file header.pos.toNat octets
          activeChunks := s.activeChunks.erase chunkId }, none)) ∨
      ∃ n, writes.mark = some n ∧ removeChunk chunkId throws writes s =
        ({ s with
          file := writeAt 0 s.file header.pos.toNat (octets.take n)
          activeChunks := s.activeChunks.insert chunkId
            header.marked }, some .writeFailed)) := by
  unfold removeChunk
  cases hlookup : s.activeChunks.lookup chunkId with
  | none => exact .inl ⟨rfl, rfl⟩
  | some header =>
    refine .inr ⟨header, _, rfl, rfl, ?_⟩
    cases hmark : writes.mark with
    | none => exact .inl ⟨rfl, rfl⟩
    | some n => exact .inr ⟨n, rfl, rfl⟩

theorem removeChunk_indexed (h : s.Indexed) (chunkId : Uuid) (throws : Bool) (writes : Writes) :
    (removeChunk chunkId throws writes s).1.Indexed := by
  have hpos : ∀ {header}, s.activeChunks.lookup chunkId = some header →
      header.pos.toNat ≤ s.file.length := fun hlookup =>
    (Nat.le_add_right_of_le (Nat.le_add_right _ _)).trans (h.bounds chunkId _ hlookup)
  obtain ⟨-, heq⟩ | ⟨header, octets, hlookup, -, ⟨-, heq⟩ | ⟨n, -, heq⟩⟩ :=
    removeChunk_cases chunkId throws writes s
  · rwa [heq]
  · rw [heq]
    refine (h.erase chunkId).mono ?_
    rw [length_writeAt 0 (hpos hlookup)]
    exact Nat.le_max_left _ _
  · rw [heq]
    refine (h.mark hlookup _).mono ?_
    rw [length_writeAt 0 (hpos hlookup)]
    exact Nat.le_max_left _ _

/-- The chunk is there, and the write of its mark fails. -/
def markFails (chunkId : Uuid) (writes : Writes) (s : Store) : Bool :=
  (s.activeChunks.lookup chunkId).isSome && writes.mark.isSome

theorem removeChunk_snd (chunkId : Uuid) (throws : Bool) (writes : Writes) (s : Store) :
    (removeChunk chunkId throws writes s).2 =
      if markFails chunkId writes s then some .writeFailed
      else if throws ∧ s.activeChunks.lookup chunkId = none then some .doesNotExist
      else none := by
  obtain ⟨hnone, heq⟩ | ⟨header, octets, hlookup, -, ⟨hmark, heq⟩ | ⟨n, hmark, heq⟩⟩ :=
    removeChunk_cases chunkId throws writes s
  · simp [heq, markFails, hnone]
  · simp [heq, markFails, hlookup, hmark]
  · simp [heq, markFails, hlookup, hmark]

/-- The chunk is gone, or its mark has failed. -/
theorem removeChunk_content (h : s.Indexed) (chunkId : Uuid) (throws : Bool) (writes : Writes)
    (id : Uuid) : (removeChunk chunkId throws writes s).1.content id =
      if id = chunkId ∧ markFails chunkId writes s = false then none else s.content id := by
  obtain ⟨hnone, heq⟩ | ⟨header, octets, hlookup, rfl, ⟨hmark, heq⟩ | ⟨n, hmark, heq⟩⟩ :=
    removeChunk_cases chunkId throws writes s
  · rw [heq]
    obtain rfl | hid := eq_or_ne id chunkId
    · simp [Store.content, hnone]
    · simp [hid]
  · rw [heq]
    obtain rfl | hid := eq_or_ne id chunkId
    · simp [Store.content, markFails, hmark]
    · rw [if_neg fun h => hid h.1]
      exact content_mark h hlookup (Nat.le_of_eq (length_octets _ _)) rfl
        (AList.lookup_erase_ne hid)
  · rw [heq, if_neg (by simp [markFails, hlookup, hmark])]
    obtain rfl | hid := eq_or_ne id chunkId
    · have hbound := h.bounds id header hlookup
      unfold Store.content
      rw [AList.lookup_insert, hlookup]
      refine congrArg some (dataIn_writeAt hbound (.inr ?_))
      have hlength := length_octets
        header.marked writes.markPadding
      rw [length_take, hlength]
      exact Nat.add_le_add_left (Nat.min_le_right _ _) _
    · refine content_mark h hlookup ?_ rfl (AList.lookup_insert_ne hid)
      rw [length_take, length_octets]
      exact Nat.min_le_right _ _

/-- What `append` does: the header fails, the data fails, or the chunk is
there. -/
theorem append_cases (chunkId : Uuid) (data : Octets) (writes : Writes) (s : Store) :
    (∃ octets, octets = (newHeader chunkId data s).octets writes.headerPadding ∧
      ((∃ n, writes.header = some n ∧ append chunkId data writes s =
        ({ s with file := s.file ++ octets.take n }, some .writeFailed)) ∨
      (∃ n, writes.header = none ∧ data ≠ [] ∧ writes.data = some n ∧
        append chunkId data writes s =
          ({ s with file := s.file ++ (octets ++ data.take n) }, some .writeFailed)) ∨
      (writes.header = none ∧ (data = [] ∨ writes.data = none) ∧
        append chunkId data writes s =
          ({ s with
            file := s.file ++ (octets ++ data)
            activeChunks := s.activeChunks.insert chunkId (newHeader chunkId data s) }, none)))) := by
  refine ⟨_, rfl, ?_⟩
  unfold append
  cases hheader : writes.header with
  | some n => exact .inl ⟨n, rfl, by simp [fwrite, writeAt_length]⟩
  | none =>
    refine .inr ?_
    by_cases hdata : data = []
    · exact .inr ⟨rfl, .inl hdata, by simp [fwrite, writeAt_length, hdata]⟩
    · cases hwrite : writes.data with
      | some n =>
        refine .inl ⟨n, rfl, hdata, rfl, ?_⟩
        simp only [fwrite, writeAt_length, if_neg hdata, append_assoc]
      | none =>
        refine .inr ⟨rfl, .inr rfl, ?_⟩
        simp only [fwrite, writeAt_length, if_neg hdata, append_assoc]

/-- The header of a chunk which fits in the file. -/
theorem newHeader_toNat (chunkId : Uuid) {data : Octets} {padding : FixedOctets 4}
    (hfit : (s.file ++ ((newHeader chunkId data s).octets padding ++ data)).length ≤ maxOffset) :
    (newHeader chunkId data s).pos.toNat = s.file.length ∧
      (newHeader chunkId data s).size.toNat = data.length := by
  rw [length_append, length_append, length_octets] at hfit
  unfold maxOffset at hfit
  have hword : UInt64.size = 2 ^ 64 := rfl
  unfold newHeader
  constructor
  · exact UInt64.toNat_ofNat_of_lt' (by omega)
  · exact UInt64.toNat_ofNat_of_lt' (by omega)

theorem append_indexed (h : s.Indexed) (chunkId : Uuid) (data : Octets) (writes : Writes)
    (hfit : (append chunkId data writes s).1.file.length ≤ maxOffset) :
    (append chunkId data writes s).1.Indexed := by
  obtain ⟨octets, rfl, ⟨n, -, heq⟩ | ⟨n, -, -, -, heq⟩ | ⟨-, -, heq⟩⟩ :=
    append_cases chunkId data writes s
  · rw [heq]
    exact h.mono (by simp)
  · rw [heq]
    exact h.mono (by simp)
  · rw [heq] at hfit ⊢
    obtain ⟨hpos, hsize⟩ := newHeader_toNat chunkId hfit
    have hstop := @Indexed.insert (newHeader chunkId data s) _ _ h (Nat.le_of_eq hpos.symm)
    refine hstop.mono (Nat.le_of_eq ?_)
    rw [ChunkHeader.stop, hpos, hsize]
    simp only [length_append, length_octets, Nat.add_assoc]

/-- The chunk is there, or a write has failed and it is as before. -/
theorem append_content (h : s.Indexed) (chunkId : Uuid) (data : Octets) (writes : Writes)
    (hfit : (append chunkId data writes s).1.file.length ≤ maxOffset) (id : Uuid) :
    (append chunkId data writes s).1.content id =
      if id = chunkId ∧ (append chunkId data writes s).2 = none then some data
      else s.content id := by
  obtain ⟨octets, rfl, ⟨n, -, heq⟩ | ⟨n, -, -, -, heq⟩ | ⟨-, -, heq⟩⟩ :=
    append_cases chunkId data writes s
  · rw [heq, if_neg (by simp)]
    exact content_append h rfl rfl
  · rw [heq, if_neg (by simp)]
    exact content_append h rfl rfl
  · rw [heq] at hfit ⊢
    by_cases hid : id = chunkId
    · obtain ⟨hpos, hsize⟩ := newHeader_toNat chunkId hfit
      rw [if_pos ⟨hid, rfl⟩, hid, Store.content, AList.lookup_insert, Option.map_some,
        ChunkHeader.dataIn, hpos, hsize, ← append_assoc]
      have hlength : (s.file ++ (newHeader chunkId data s).octets writes.headerPadding).length =
          s.file.length + sizeofChunkHeader := by
        rw [length_append, length_octets]
      rw [← hlength, drop_left, take_length]
    · rw [if_neg fun h => hid h.1]
      exact content_append h rfl (AList.lookup_insert_ne hid)

/-- What `save` does on an open store: its mark fails, or it appends to the
store without the chunk. -/
theorem save_cases (hopen : s.isDisposed = false) (chunkId : Uuid) (data : Octets)
    (writes : Writes) :
    (markFails chunkId writes s = true ∧ save chunkId data writes s =
      ((removeChunk chunkId false writes s).1, some .writeFailed)) ∨
    (markFails chunkId writes s = false ∧ save chunkId data writes s =
      append chunkId data writes (removeChunk chunkId false writes s).1) := by
  have hremoved := removeChunk_snd chunkId false writes s
  unfold save
  rw [hopen, if_neg Bool.false_ne_true]
  dsimp only
  rw [hremoved]
  cases hmark : markFails chunkId writes s with
  | true => exact .inl ⟨rfl, rfl⟩
  | false => exact .inr ⟨rfl, by simp⟩

theorem remove_eq (hopen : s.isDisposed = false) (chunkId : Uuid) (writes : Writes) :
    remove chunkId writes s = removeChunk chunkId true writes s := by
  rw [remove, hopen, if_neg Bool.false_ne_true]

theorem save_indexed (h : s.Indexed) (chunkId : Uuid) (data : Octets) (writes : Writes)
    (hfit : (save chunkId data writes s).1.file.length ≤ maxOffset) :
    (save chunkId data writes s).1.Indexed := by
  by_cases hdisposed : s.isDisposed = true
  · rwa [save, if_pos hdisposed]
  · have hremoved := removeChunk_indexed h chunkId false writes
    obtain ⟨-, heq⟩ | ⟨-, heq⟩ := save_cases (Bool.not_eq_true _ ▸ hdisposed) chunkId data writes
    · rwa [heq]
    · rw [heq] at hfit ⊢
      exact append_indexed hremoved chunkId data writes hfit

theorem remove_indexed (h : s.Indexed) (chunkId : Uuid) (writes : Writes) :
    (remove chunkId writes s).1.Indexed := by
  unfold remove
  split
  · exact h
  · exact removeChunk_indexed h chunkId true writes

/-- A `save` touches no other chunk; its own has the new content when it
returns, and when it throws it is gone or its mark has failed. -/
theorem save_content (h : s.Indexed) (hopen : s.isDisposed = false) (chunkId : Uuid)
    (data : Octets) (writes : Writes)
    (hfit : (save chunkId data writes s).1.file.length ≤ maxOffset) (id : Uuid) :
    (save chunkId data writes s).1.content id =
      if id = chunkId ∧ markFails chunkId writes s = false then
        if (save chunkId data writes s).2 = none then some data else none
      else s.content id := by
  have hremoved := removeChunk_content h chunkId false writes id
  obtain ⟨hmark, heq⟩ | ⟨hmark, heq⟩ := save_cases hopen chunkId data writes
  · rw [heq, hremoved]
    simp [hmark]
  · rw [heq] at hfit ⊢
    rw [append_content (removeChunk_indexed h chunkId false writes) chunkId data writes hfit,
      hremoved]
    by_cases hid : id = chunkId <;> simp [hid, hmark]

theorem remove_content (h : s.Indexed) (hopen : s.isDisposed = false) (chunkId : Uuid)
    (writes : Writes) (id : Uuid) : (remove chunkId writes s).1.content id =
      if id = chunkId ∧ markFails chunkId writes s = false then none else s.content id := by
  rw [remove_eq hopen, removeChunk_content h]

/-! ## Runs -/

theorem step_eq_some {l : Label} (h : step s l = some s') :
    ∃ failure, l.call s = some (s', failure) ∧ s'.file.length ≤ maxOffset := by
  obtain ⟨hmap, hfit⟩ := Option.filter_eq_some_iff.mp h
  obtain ⟨result, hcall, rfl⟩ := Option.map_eq_some_iff.mp hmap
  exact ⟨result.2, hcall, of_decide_eq_true hfit⟩

theorem create_indexed (h : Store.create file = some s) : s.Indexed := by
  obtain ⟨hfile, -, hactive⟩ := create_eq_some h
  unfold Store.Indexed
  rw [hfile]
  exact loadChunksData_indexed hactive

theorem step_indexed {l : Label} (h : s.Indexed) (hstep : step s l = some s') : s'.Indexed := by
  obtain ⟨failure, hcall, hfit⟩ := step_eq_some hstep
  cases l with
  | save chunkId data writes =>
    have heq : (save chunkId data writes s).1 = s' := congrArg Prod.fst (Option.some.inj hcall)
    rw [← heq] at hfit ⊢
    exact save_indexed h chunkId data writes hfit
  | remove chunkId writes =>
    have heq : (remove chunkId writes s).1 = s' := congrArg Prod.fst (Option.some.inj hcall)
    rw [← heq]
    exact remove_indexed h chunkId writes
  | dispose =>
    have heq : dispose s = s' := congrArg Prod.fst (Option.some.inj hcall)
    rwa [← heq]
  | create =>
    simp only [Label.call] at hcall
    split at hcall
    · obtain ⟨s'', hcreate, hresult⟩ := Option.map_eq_some_iff.mp hcall
      have heq : s'' = s' := congrArg Prod.fst hresult
      rw [← heq]
      exact create_indexed hcreate
    · cases hcall

theorem empty_indexed : Store.empty.Indexed := indexed_empty

theorem run_indexed {labels : List Label} (h : s.Indexed)
    (hrun : Transition.run step s labels = some s') : s'.Indexed :=
  Transition.run_invariant (fun _ _ _ h _ hstep => step_indexed h hstep) h
    Transition.along_true hrun

end Baselib.Messaging.DataChunkStorageSingleFile
