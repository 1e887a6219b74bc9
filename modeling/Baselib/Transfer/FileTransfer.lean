/-
Baselib.Transfer.FileTransfer — what the packager emits of a file, the
unpackager builds up again.

The packager records the checksum over the checksums of the chunks in
the order in which it has read them; the unpackager goes over the same
chunks in the order of their positions, whatever the order in which they
arrived. The map of the unpackager has the chunks of the packager in the
packager's order, so the two checksums are one, no check fails, and the
file has the content that was read.
-/
import Baselib.Transfer.BlockReader
import Baselib.Transfer.UnpackedFileTheorems

namespace Baselib.Transfer.FileTransfer

open Lib List
open Baselib.Core (Crc32 uint32Bytes)
open Data (EntryInfo ChunkInfo)
open Data.ChunkInfo (position extent)
open Transfer.BlockReader (SourceFile DataChunk Piece Packed fileChecksum)
open Transfer.UnpackedFile

variable {taken : List Delivery} {info : EntryInfo} {d : Delivery}

/-- The chunk which is delivered: its information and its octets. -/
def chunkOf (d : Delivery) : DataChunk := ⟨d.chunkInfo, d.octets (extent d.chunkInfo)⟩

/-- What arrives for a file: its chunks, or the one task which an entry
without chunks gets. -/
def arrivalsOf (chunksExpected : Nat) (deliveries : List Delivery) : List (Option Delivery) :=
  if chunksExpected = 0 then [none] else deliveries.map some

/-- The unpackager takes every arrival and finalizes the file with the
content. -/
def Unpacks (info : EntryInfo) (chunksExpected : Nat) (deliveries : List Delivery)
    (content : Octets) : Prop :=
  (∀ before arrival after,
    arrivalsOf chunksExpected deliveries = before ++ arrival :: after →
    (step (run (.init info chunksExpected) before) arrival).1 = .ok ()) ∧
    (run (.init info chunksExpected) (arrivalsOf chunksExpected deliveries)).finalized = true ∧
    (run (.init info chunksExpected) (arrivalsOf chunksExpected deliveries)).file = some content

/-- The entry of the file in the metadata, with the checksum when one was
associated with it. -/
def recorded (info : EntryInfo) (f : SourceFile) (checksum : Option UInt32) : EntryInfo :=
  { info with
    size := UInt64.ofNat f.fileSize
    isChecksumSet := checksum.isSome
    checksum := checksum.getD 0 }

section

variable {f : SourceFile} {capacity : Nat}

/-! ## The walk over the chunks of the packager -/

/-- Chunks which tile get through the walk of the check. -/
theorem verifyChunks_of_tiles {b : Nat} (hb : b < 2 ^ 63) (chunks : List ChunkInfo) :
    ∀ (c : ChunkInfo) (crcc : Crc32), Tiles position extent (position c) (c :: chunks) b →
      ∃ l, verifyChunks true (some c) crcc chunks = .ok (some l,
        (chunks.map (·.checksum)).foldl (fun crcc sum => crcc.processBytes (uint32Bytes sum)) crcc) ∧
        (endOf l).toNat = b := by
  induction chunks with
  | nil =>
    intro c crcc h
    have hend : position c + extent c = b := h.2
    exact ⟨c, rfl, (endOf_toNat (by omega)).trans hend⟩
  | cons d chunks ih =>
    intro c crcc h
    have hd : position d = position c + extent c := h.2.1
    have hbound := (h.bounds c mem_cons_self).2
    have hend : endOf c = d.pos :=
      UInt64.toNat_inj.mp ((endOf_toNat (by omega)).trans hd.symm)
    unfold verifyChunks
    rw [if_neg (by simp [hend])]
    exact ih d _ (hd ▸ h.2)

/-- The check accepts chunks that tile a file with its checksum. -/
theorem verify_of_tiles {entry : EntryObj} {created : List ChunkInfo} (hne : created ≠ [])
    (hvalues : entry.chunksWritten.values = created)
    (htiles : Tiles position extent 0 created f.fileSize)
    (hsize : entry.info.size = UInt64.ofNat f.fileSize)
    (hset : entry.info.isChecksumSet = true)
    (hsum : entry.info.checksum = fileChecksum (created.map (·.checksum))) :
    verifyChecksumAndAllChunksPresent entry = .ok () := by
  obtain ⟨c, chunks, rfl⟩ := exists_cons_of_ne_nil hne
  have hb : f.fileSize < 2 ^ 63 := f.size_lt
  have hc : position c = 0 := htiles.1
  obtain ⟨l, hl, hend⟩ := verifyChunks_of_tiles hb chunks c
    (Crc32.init.processBytes (uint32Bytes c.checksum)) (hc.symm ▸ htiles)
  have hsizeNat : entry.info.size.toNat = f.fileSize := by
    rw [hsize]
    refine UInt64.toNat_ofNat_of_lt' ?_
    simp only [UInt64.size]
    omega
  have hlast : endOf l = entry.info.size := UInt64.toNat_inj.mp (hend.trans hsizeNat.symm)
  unfold verifyChecksumAndAllChunksPresent
  rw [hvalues, hset]
  unfold verifyChunks
  rw [if_neg (by simp), if_pos rfl]
  simp only [hl]
  rw [if_neg, if_pos (by simp [hlast])]
  rintro ⟨-, hne'⟩
  exact hne' hsum

/-! ## The turns of the tasks -/

/-- A delivered piece of the file has passed the checks of its chunk. -/
theorem handleFileInternal_of_piece {s : State} (hn : s.entry.chunksExpected ≠ 0)
    (hpiece : Piece f capacity (chunkOf d)) (hpos : position d.chunkInfo < 2 ^ 63) :
    handleFileInternal s d = (s.fwrite d).chunkWritten d.chunkInfo := by
  have hsum : chkChunkChecksum s.entry.info d = .ok () := by
    unfold chkChunkChecksum
    exact if_neg fun h => h.2 hpiece.checksum_eq
  have hoff : stdioChkOffset d.chunkInfo.pos = .ok () := if_pos hpos
  unfold handleFileInternal
  rw [if_neg hn, hsum, hoff]

/-- The file after some of the deliveries. -/
structure Waiting (info : EntryInfo) (n : Nat) (taken : List Delivery) (s : State) : Prop where
  active : Active info n (taken.map (·.chunkInfo)) s
  file_eq : s.fopen.file = some (writeAll 0 (fun d => position d.chunkInfo)
    (fun d => d.octets (extent d.chunkInfo)) [] taken)

theorem fwrite_file {n : Nat} {s : State} (h : Waiting info n taken s) (d : Delivery) :
    (s.fopen.fwrite d).file = some (writeAll 0 (fun d => position d.chunkInfo)
      (fun d => d.octets (extent d.chunkInfo)) [] (taken ++ [d])) := by
  unfold State.fwrite
  rw [h.file_eq, writeAll_append]
  rfl

/-- The file with the chunk written and booked. -/
def State.booked (s : State) (taken : List Delivery) (d : Delivery) : State :=
  { s.fopen.fwrite d with
    entry := { s.entry with
      filePtr := true
      chunksWritten := .assignAll position .empty ((taken ++ [d]).map (·.chunkInfo)) } }

/-- A piece of a file of several chunks is written and booked; what
happens then depends on the number of chunks in the map. -/
theorem runTask_several {n : Nat} {s : State}
    (h : Waiting info n taken s) (hpiece : Piece f capacity (chunkOf d))
    (hpos : position d.chunkInfo < 2 ^ 63) (hn : 1 < n) {s' : State}
    (hbooked : (if (State.booked s taken d).entry.chunksWritten.size
        = (State.booked s taken d).entry.chunksExpected then
        match verifyChecksumAndAllChunksPresent (State.booked s taken d).entry with
        | .error e => .error e
        | .ok () => .ok (State.booked s taken d).finalizeFile
      else .ok (State.booked s taken d)) = Except.ok (ε := Failure) s') :
    runTask s d = (.ok (), s') := by
  have hexp : s.fopen.entry.chunksExpected ≠ 0 := by
    have hn' : s.fopen.entry.chunksExpected = n := by
      rw [fopen_entry]
      exact h.active.expected_eq
    omega
  have hmap : s.entry.chunksWritten.assign (position d.chunkInfo) d.chunkInfo
      = .assignAll position .empty ((taken ++ [d]).map (·.chunkInfo)) := by
    rw [h.active.written_eq, map_append, SortedMap.assignAll_append]
    rfl
  have hwritten : (s.fopen.fwrite d).chunkWritten d.chunkInfo = .ok s' := by
    have hentry : (s.fopen.fwrite d).entry = { s.entry with filePtr := true } := fopen_entry
    unfold State.chunkWritten
    rw [hentry]
    simp only [hmap]
    rwa [if_neg (by rw [h.active.expected_eq]; omega)]
  unfold runTask
  rw [h.active.chkFile_ok]
  simp only [handleFileInternal_of_piece hexp hpiece hpos, hwritten]

theorem runTask_waiting {n : Nat} {s : State}
    (h : Waiting info n taken s) (hpiece : Piece f capacity (chunkOf d))
    (hpos : position d.chunkInfo < 2 ^ 63)
    (hnodup : ((taken ++ [d]).map fun d => position d.chunkInfo).Nodup)
    (hless : taken.length + 1 < n) :
    (runTask s d).1 = .ok () ∧ Waiting info n (taken ++ [d]) (runTask s d).2 := by
  have hsize : (State.booked s taken d).entry.chunksWritten.size = taken.length + 1 := by
    have hkept := (SortedMap.assignAll_perm position (.refl ((taken ++ [d]).map (·.chunkInfo)))
      (by rwa [List.map_map])).2
    exact (SortedMap.size_eq_length _).trans (hkept.length_eq.trans (by simp))
  have hexp : (State.booked s taken d).entry.chunksExpected = n := h.active.expected_eq
  have hrun := runTask_several h hpiece hpos (by omega) (if_neg (by omega))
  rw [hrun]
  have hpositions : ∀ c ∈ (taken ++ [d]).map (·.chunkInfo), position c < 2 ^ 63 := by
    intro c hc
    rw [map_append] at hc
    rcases mem_append.mp hc with hc | hc
    · exact h.active.position_lt c hc
    · rwa [mem_singleton.mp hc]
  refine ⟨rfl, ?_, ?_⟩
  · exact {
      info_eq := h.active.info_eq
      expected_eq := h.active.expected_eq
      canceled_eq := h.active.canceled_eq
      finalized_eq := fopen_finalized.trans h.active.finalized_eq
      written_eq := rfl
      position_lt := hpositions
      file_open := congrArg Option.isSome (fwrite_file h d)
      file_new := fun hnil => absurd hnil (by simp)
      several := fun _ => by omega }
  · exact fwrite_file h d

theorem runTask_last {n : Nat} {s : State}
    (h : Waiting info n taken s) (hpiece : Piece f capacity (chunkOf d))
    (hpos : position d.chunkInfo < 2 ^ 63) {created : List ChunkInfo}
    (hperm : ((taken ++ [d]).map (·.chunkInfo)).Perm created) (hn : n = created.length)
    (hlen : ∀ c ∈ created, 0 < extent c) (htiles : Tiles position extent 0 created f.fileSize)
    (hsize : info.size = UInt64.ofNat f.fileSize) (hset : info.isChecksumSet = true)
    (hsum : info.checksum = fileChecksum (created.map (·.checksum))) :
    (runTask s d).1 = .ok () ∧ (runTask s d).2.finalized = true ∧
      (runTask s d).2.file = some (writeAll 0 (fun d => position d.chunkInfo)
        (fun d => d.octets (extent d.chunkInfo)) [] (taken ++ [d])) := by
  have hcount : n = taken.length + 1 := by
    rw [hn, ← hperm.length_eq]
    simp
  by_cases h1 : n = 1
  · -- the only chunk is compared with the size of the entry, and not booked
    have hnil : taken = [] := eq_nil_of_length_eq_zero (by omega)
    subst hnil
    have hcreated : created = [d.chunkInfo] := (singleton_perm.mp hperm).symm
    rw [hcreated] at htiles
    have hend : endOf d.chunkInfo = info.size := by
      rw [hsize]
      refine UInt64.toNat_inj.mp ?_
      rw [endOf_toNat hpos, UInt64.toNat_ofNat_of_lt' (by
        have := f.size_lt
        simp only [UInt64.size, SourceFile.fileSize]
        omega)]
      exact htiles.2
    have hwritten : (s.fopen.fwrite d).chunkWritten d.chunkInfo
        = .ok (s.fopen.fwrite d).finalizeFile := by
      have hentry : (s.fopen.fwrite d).entry = { s.entry with filePtr := true } := fopen_entry
      unfold State.chunkWritten
      rw [hentry]
      simp only [h.active.expected_eq, h.active.info_eq]
      rw [if_pos h1, if_pos hend]
    have hexp : s.fopen.entry.chunksExpected ≠ 0 := by
      rw [fopen_entry]
      exact fun he => by
        have := h.active.expected_eq.symm.trans he
        omega
    have hrun : runTask s d = (.ok (), (s.fopen.fwrite d).finalizeFile) := by
      unfold runTask
      rw [h.active.chkFile_ok]
      simp only [handleFileInternal_of_piece hexp hpiece hpos, hwritten]
    rw [hrun]
    exact ⟨rfl, rfl, fwrite_file h d⟩
  · have hsorted : created.Pairwise fun a b => position a < position b := htiles.pairwise_lt hlen
    have hnodup : (((taken ++ [d]).map (·.chunkInfo)).map position).Nodup :=
      (hperm.map position).nodup_iff.mpr (pairwise_map.mpr (hsorted.imp ne_of_lt))
    have hvalues : (State.booked s taken d).entry.chunksWritten.values = created := by
      show (SortedMap.assignAll position .empty ((taken ++ [d]).map (·.chunkInfo))).values = _
      rw [(SortedMap.assignAll_perm position hperm hnodup).1,
        SortedMap.values_assignAll_sorted position hsorted]
    have hfull : (State.booked s taken d).entry.chunksWritten.size
        = (State.booked s taken d).entry.chunksExpected := by
      rw [SortedMap.size_eq_length, hvalues, ← hn]
      exact h.active.expected_eq.symm
    have hne : created ≠ [] := fun hnil => by
      simp [hn, hnil] at hcount
    have hverify : verifyChecksumAndAllChunksPresent (State.booked s taken d).entry = .ok () :=
      verify_of_tiles hne hvalues htiles
        ((congrArg _ h.active.info_eq).trans hsize) ((congrArg _ h.active.info_eq).trans hset)
        ((congrArg _ h.active.info_eq).trans hsum)
    have hrun := runTask_several h hpiece hpos (by omega)
      ((if_pos hfull).trans (by rw [hverify]))
    rw [hrun]
    exact ⟨rfl, rfl, fwrite_file h d⟩

/-! ## Whole transfers -/

theorem step_eq_runTask {n : Nat} {s : State}
    (h : Waiting info n taken s) (hn : n ≠ 0) (hone : n = 1 → s = .init info n) (d : Delivery) :
    step s (some d) = runTask s d := by
  have hexp := h.active.expected_eq
  rw [step, if_neg (by omega)]
  by_cases h1 : n = 1
  · rw [if_pos (by omega), hone h1]
    rfl
  · rw [if_neg (by omega)]

theorem Waiting.init (info : EntryInfo) (n : Nat) : Waiting info n [] (.init info n) :=
  ⟨Active.init info n, rfl⟩

theorem run_waiting {n : Nat} {rest : List Delivery} (hrest : rest ≠ [])
    (taken : List Delivery) (hn : n = taken.length + rest.length)
    (hpiece : ∀ d ∈ taken, Piece f capacity (chunkOf d))
    (hpos : ∀ d ∈ taken, position d.chunkInfo < 2 ^ 63)
    (hnodup : (taken.map fun d => position d.chunkInfo).Nodup) :
    Waiting info n taken (run (.init info n) (taken.map some)) := by
  have hlen := length_pos_of_ne_nil hrest
  induction taken using reverseRecOn generalizing rest with
  | nil => exact Waiting.init info n
  | append_singleton taken d ih =>
    rw [length_append, length_singleton] at hn
    have hw := @ih (d :: rest) (by simp) (by simp; omega)
      (fun x hx => hpiece x (mem_append_left _ hx))
      (fun x hx => hpos x (mem_append_left _ hx))
      (by
        rw [map_append] at hnodup
        exact hnodup.of_append_left) (by simp)
    have hd : d ∈ taken ++ [d] := mem_append_right _ mem_cons_self
    rw [map_append, run, foldl_append]
    show Waiting info n _ (step _ (some d)).2
    rw [step_eq_runTask (by exact hw) (by omega) (by omega) d]
    exact (runTask_waiting hw (hpiece d hd) (hpos d hd) hnodup (by omega)).2

/-- The chunks of a file the packager is done with have been delivered,
in some order. -/
structure Delivered (f : SourceFile) (capacity : Nat) (ps : BlockReader.State)
    (deliveries : List Delivery) : Prop where
  packed : Packed f capacity ps
  perm : (deliveries.map chunkOf).Perm ps.emitted

section

variable {ps : BlockReader.State} {deliveries : List Delivery}

theorem Delivered.infos (h : Delivered f capacity ps deliveries) :
    (deliveries.map (·.chunkInfo)).Perm ps.created := by
  have hp := h.perm.map (·.chunkInfo)
  rwa [List.map_map, ← h.packed.created_eq] at hp

theorem Delivered.length_eq (h : Delivered f capacity ps deliveries) :
    ps.created.length = deliveries.length := by
  rw [← h.infos.length_eq, length_map]

theorem Delivered.piece (h : Delivered f capacity ps deliveries) :
    ∀ d ∈ deliveries, Piece f capacity (chunkOf d) :=
  fun _ hd => h.packed.piece _ (h.perm.mem_iff.mp (mem_map_of_mem hd))

theorem Delivered.position_lt (h : Delivered f capacity ps deliveries) :
    ∀ d ∈ deliveries, position d.chunkInfo < 2 ^ 63 := by
  intro d hd
  have hmem := h.infos.mem_iff.mp (mem_map_of_mem hd)
  have hb := (h.packed.tiles.bounds _ hmem).2
  have hfile : f.fileSize < 2 ^ 63 := f.size_lt
  omega

theorem Delivered.nodup (h : Delivered f capacity ps deliveries) :
    (deliveries.map fun d => position d.chunkInfo).Nodup := by
  have hp := (h.infos.map position).nodup_iff.mpr
    (pairwise_map.mpr (h.packed.sorted.imp ne_of_lt))
  rwa [List.map_map] at hp

/-- The map of the unpackager has the chunks in the order of the
packager. -/
theorem Delivered.values_eq (h : Delivered f capacity ps deliveries) :
    (SortedMap.assignAll position .empty (deliveries.map (·.chunkInfo))).values = ps.created := by
  have hnodup : ((deliveries.map (·.chunkInfo)).map position).Nodup := by
    rw [List.map_map]
    exact h.nodup
  rw [(SortedMap.assignAll_perm position h.infos hnodup).1,
    SortedMap.values_assignAll_sorted position h.packed.sorted]

/-- The content that the packager has read is built from the pieces, in
the order in which they arrive. -/
theorem Delivered.writeAll_eq (h : Delivered f capacity ps deliveries) :
    writeAll 0 (fun d : Delivery => position d.chunkInfo)
      (fun d => d.octets (extent d.chunkInfo)) [] deliveries = f.octets := by
  refine Lib.writeAll_eq 0 _ _ f.octets deliveries (fun d hd => (h.piece d hd).data_eq)
    fun i hi => ?_
  obtain ⟨c, hc, hcov⟩ := h.packed.tiles.exists_covers (Nat.zero_le i) hi
  obtain ⟨d, hd, rfl⟩ := mem_map.mp (h.infos.mem_iff.mpr hc)
  exact ⟨d, hd, by rwa [length_octets]⟩

/-- The file at the turn of each chunk. -/
theorem Delivered.waiting (h : Delivered f capacity ps deliveries) (info : EntryInfo) {rest : List Delivery}
    (hsplit : deliveries = taken ++ d :: rest) :
    Waiting info ps.created.length taken
      (run (.init info ps.created.length) (taken.map some)) ∧
    step (run (.init info ps.created.length) (taken.map some)) (some d)
      = runTask (run (.init info ps.created.length) (taken.map some)) d := by
  have hlength : ps.created.length = taken.length + (d :: rest).length := by
    rw [h.length_eq, hsplit, length_append]
  have hmem : ∀ x ∈ taken, x ∈ deliveries := fun x hx => hsplit ▸ mem_append_left _ hx
  have hnodup := h.nodup
  rw [hsplit, map_append] at hnodup
  have hw : Waiting info ps.created.length taken
      (run (.init info ps.created.length) (taken.map some)) :=
    run_waiting (cons_ne_nil d rest) taken hlength (fun x hx => h.piece x (hmem x hx))
      (fun x hx => h.position_lt x (hmem x hx)) hnodup.of_append_left
  rw [length_cons] at hlength
  refine ⟨hw, step_eq_runTask hw (by omega) (fun h1 => ?_) d⟩
  have hnone : taken = [] := eq_nil_of_length_eq_zero (by omega)
  rw [hnone]
  rfl

theorem Delivered.step_ok (h : Delivered f capacity ps deliveries) (info : EntryInfo) {rest : List Delivery}
    (hsplit : deliveries = taken ++ d :: rest) (hrest : rest ≠ []) :
    (step (run (.init info ps.created.length) (taken.map some)) (some d)).1 = .ok () := by
  obtain ⟨hw, hstep⟩ := h.waiting info hsplit
  have hd : d ∈ deliveries := hsplit ▸ mem_append_right _ mem_cons_self
  have hnodup := h.nodup
  rw [hsplit, ← singleton_append, ← append_assoc, map_append] at hnodup
  have hlength := h.length_eq
  rw [hsplit, length_append, length_cons] at hlength
  have := length_pos_of_ne_nil hrest
  rw [hstep]
  exact (runTask_waiting hw (h.piece d hd) (h.position_lt d hd) hnodup.of_append_left
    (by omega)).1

/-- The last chunk is taken, and the file finalized with the content. -/
theorem Delivered.step_last (h : Delivered f capacity ps deliveries) (info : EntryInfo) (hsplit : deliveries = taken ++ [d]) :
    (step (run (.init (recorded info f ps.checksum) ps.created.length) (taken.map some))
      (some d)).1 = .ok () ∧
    (step (run (.init (recorded info f ps.checksum) ps.created.length) (taken.map some))
      (some d)).2.finalized = true ∧
    (step (run (.init (recorded info f ps.checksum) ps.created.length) (taken.map some))
      (some d)).2.file = some f.octets := by
  obtain ⟨hw, hstep⟩ := h.waiting (recorded info f ps.checksum) hsplit
  have hd : d ∈ deliveries := hsplit ▸ mem_append_right _ mem_cons_self
  have hlength := h.length_eq
  rw [hsplit, length_append, length_singleton] at hlength
  have hne : ps.created ≠ [] := fun hnil => by
    simp [hnil] at hlength
  have hsum := h.packed.checksum_eq hne
  have hset : (recorded info f ps.checksum).isChecksumSet = true := by
    rw [hsum]
    rfl
  have hrecorded : (recorded info f ps.checksum).checksum
      = fileChecksum (ps.created.map (·.checksum)) := by
    rw [hsum]
    rfl
  rw [hstep, ← h.writeAll_eq, hsplit]
  exact runTask_last hw (h.piece d hd) (h.position_lt d hd) (hsplit ▸ h.infos) rfl
    h.packed.extent_pos h.packed.tiles rfl hset hrecorded

/-- What the packager has emitted is taken in any order, and builds the
file up again. -/
theorem Delivered.unpacks (h : Delivered f capacity ps deliveries) (info : EntryInfo) :
    Unpacks (recorded info f ps.checksum) ps.created.length deliveries f.octets := by
  by_cases hnil : deliveries = []
  · -- an empty file gets the one task without a chunk
    have hbuilt := h.writeAll_eq
    have hlength := h.length_eq
    subst hnil
    rw [hlength]
    refine ⟨fun before arrival after hsplit => ?_, rfl, congrArg some hbuilt⟩
    obtain ⟨rfl, harrival⟩ | ⟨before', rfl, hrest⟩ := append_eq_cons_iff.mp hsplit.symm
    · cases harrival
      rfl
    · cases before' <;> cases hrest
  · have hn : ps.created.length ≠ 0 := by
      rw [h.length_eq]
      exact fun h0 => hnil (eq_nil_of_length_eq_zero h0)
    unfold Unpacks arrivalsOf
    rw [if_neg hn]
    refine ⟨fun before arrival after hsplit => ?_, ?_⟩
    · obtain ⟨taken, tail, hdeliveries, rfl, htail⟩ := map_eq_append_iff.mp hsplit
      obtain ⟨d, rest, rfl, rfl, rfl⟩ := map_eq_cons_iff.mp htail
      by_cases hrest : rest = []
      · subst hrest
        exact (h.step_last info hdeliveries).1
      · exact h.step_ok _ hdeliveries hrest
    · obtain ⟨taken, d, hdeliveries⟩ : ∃ taken d, deliveries = taken ++ [d] :=
        ⟨_, _, (dropLast_append_getLast hnil).symm⟩
      have hlast := (h.step_last info hdeliveries).2
      rwa [hdeliveries, map_append, run, foldl_append]

/-- The checksum that the unpackager computes over the chunks it has got
is the one that the packager has recorded. -/
theorem Delivered.verifyChunks_eq (h : Delivered f capacity ps deliveries)
    (hne : ps.emitted ≠ []) :
    ∃ last crcc, verifyChunks true none .init
        (SortedMap.assignAll position .empty (deliveries.map (·.chunkInfo))).values
          = .ok (last, crcc) ∧
      ps.checksum = some crcc.checksum := by
  have hcreated : ps.created ≠ [] := by
    rw [h.packed.created_eq]
    exact fun hnil => hne (map_eq_nil_iff.mp hnil)
  have htiles := h.packed.tiles
  rw [h.values_eq, h.packed.checksum_eq hcreated]
  obtain ⟨c, chunks, hcons⟩ := exists_cons_of_ne_nil hcreated
  rw [hcons] at htiles ⊢
  have hc : position c = 0 := htiles.1
  obtain ⟨l, hl, -⟩ := verifyChunks_of_tiles f.size_lt chunks c
    (Crc32.init.processBytes (uint32Bytes c.checksum)) (hc.symm ▸ htiles)
  refine ⟨some l, _, ?_, rfl⟩
  unfold verifyChunks
  rwa [if_neg (by simp), if_pos rfl]

end

/-! ## The packager and the unpackager agree -/

/-- A file is packed and unpacked: the packager gets to its end, however
often blocks are refused; its chunks tile the file in order, none is
empty or larger than a block; its checksum is the one that the
unpackager computes from the same chunks in any order; and these are
taken without a failure and build the content up again. -/
theorem transfer_agrees (f : SourceFile) (capacity : Nat) (hcap : 0 < capacity)
    (hsize : min capacity f.fileSize < 2 ^ 32) :
    (∃ ls ps, Transition.run (BlockReader.step f capacity) (.init f) ls = some ps ∧
      ps.Finished f) ∧
    ∀ ls ps, Transition.run (BlockReader.step f capacity) (.init f) ls = some ps →
      ps.Finished f →
      Tiles position extent 0 (ps.emitted.map (·.chunkInfo)) f.fileSize ∧
      (∀ c ∈ ps.emitted, 0 < extent c.chunkInfo ∧ extent c.chunkInfo ≤ capacity) ∧
      ∀ deliveries : List Delivery, (deliveries.map chunkOf).Perm ps.emitted →
        (ps.emitted ≠ [] → ∃ last crcc, verifyChunks true none .init
            (SortedMap.assignAll position .empty (deliveries.map (·.chunkInfo))).values
              = .ok (last, crcc) ∧
          ps.checksum = some crcc.checksum) ∧
        ∀ info, Unpacks (recorded info f ps.checksum) ps.emitted.length deliveries f.octets := by
  refine ⟨BlockReader.exists_finished f hcap, fun ls ps hrun hfin => ?_⟩
  have h := BlockReader.run_packed hcap hsize hrun hfin
  have hlength : ps.created.length = ps.emitted.length := by
    rw [h.created_eq, List.length_map]
  refine ⟨h.created_eq ▸ h.tiles, fun c hc => ⟨(h.piece c hc).pos, (h.piece c hc).le⟩,
    fun deliveries hperm => ⟨fun hne => Delivered.verifyChunks_eq ⟨h, hperm⟩ hne, fun info => ?_⟩⟩
  rw [← hlength]
  exact Delivered.unpacks ⟨h, hperm⟩ info

/-- A file of four octets. -/
def fourOctets : SourceFile := ⟨[1, 2, 3, 4], by decide⟩

/-- The file is read in blocks of three; the first one is refused once. -/
def refusedOnce : List BlockReader.Label :=
  [.execute false false, .process false true, .process true true, .execute false false,
    .process true true]

theorem transfer_agrees_refusedOnce :
    ∃ ps, Transition.run (BlockReader.step fourOctets 3) (.init fourOctets) refusedOnce = some ps ∧
      ps.emitted.length = 2 ∧ Tiles position extent 0 (ps.emitted.map (·.chunkInfo)) 4 := by
  obtain ⟨ps, hps⟩ := Option.isSome_iff_exists.mp (show (Transition.run
    (BlockReader.step fourOctets 3) (.init fourOctets) refusedOnce).isSome = true by decide)
  have hchecksum : ((Transition.run (BlockReader.step fourOctets 3) (.init fourOctets)
      refusedOnce).bind (·.checksum)).isSome = true := by decide
  have hemitted : (Transition.run (BlockReader.step fourOctets 3) (.init fourOctets)
      refusedOnce).map (·.emitted.length) = some 2 := by decide
  rw [hps] at hchecksum hemitted
  exact ⟨ps, hps, Option.some.inj hemitted, ((transfer_agrees fourOctets 3 (by decide)
    (by decide)).2 refusedOnce ps hps (.inr hchecksum)).1⟩

/-- A file that fits in one block is one chunk, with its size cut to 32
bits. -/
theorem emitted_of_oneBlock (f : SourceFile) (hne : f.fileSize ≠ 0) :
    ∃ ps, Transition.run (BlockReader.step f f.fileSize) (.init f)
        [.execute false false, .process true true] = some ps ∧ ps.Finished f ∧
      ps.emitted.map (·.chunkInfo.size) = [UInt32.ofNat f.fileSize] := by
  obtain ⟨ps, hrun, hemitted, hpos, hcases⟩ := BlockReader.readBlock (f := f) (s := .init f)
    (Nat.pos_of_ne_zero hne) (by simp [BlockReader.State.init, hne]) rfl
  have hread : (if f.fileSize - 0 ≤ f.fileSize then f.fileSize - 0 else f.fileSize)
      = f.fileSize := by
    split <;> rfl
  have hend : ps.filePos = f.fileSize :=
    hpos.trans ((Nat.zero_add _).trans hread)
  refine ⟨ps, hrun, hcases.resolve_right fun hmore => ?_, ?_⟩
  · have := hmore.2.2.2
    omega
  · have hsizes := congrArg (List.map (·.size)) hemitted
    rw [List.map_map] at hsizes
    exact hsizes.trans (congrArg (fun n => [UInt32.ofNat n]) hread)

/-- A file of 2^32 octets. -/
def hugeFile : SourceFile := ⟨List.replicate (2 ^ 32) 0, by rw [length_replicate]; decide⟩

/-- In blocks of 2^32 octets the file is emitted as one chunk whose size
is zero. -/
theorem transfer_hugeFile :
    ∃ ps, Transition.run (BlockReader.step hugeFile (2 ^ 32)) (.init hugeFile)
        [.execute false false, .process true true] = some ps ∧ ps.Finished hugeFile ∧
      ∃ c ∈ ps.emitted, extent c.chunkInfo = 0 := by
  have hsize : hugeFile.fileSize = 2 ^ 32 := List.length_replicate
  obtain ⟨ps, hrun, hfin, hemitted⟩ := emitted_of_oneBlock hugeFile (by rw [hsize]; decide)
  rw [hsize] at hrun hemitted
  obtain ⟨c, hc, hextent⟩ : ∃ c ∈ ps.emitted, c.chunkInfo.size = UInt32.ofNat (2 ^ 32) :=
    List.mem_map.mp (hemitted ▸ List.mem_cons_self)
  refine ⟨ps, hrun, hfin, c, hc, ?_⟩
  show c.chunkInfo.size.toNat = 0
  rw [hextent]
  rfl

end

end Baselib.Transfer.FileTransfer
