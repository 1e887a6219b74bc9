/-
Baselib.Transfer.UnpackedFileTheorems — whether the chunks of a file
which the unpackager has finalized tile the file.

The check adds up from one chunk in the map to the next, and compares
the last end with the size of the entry. It does not look where the
first chunk begins, the map keeps one chunk for a position whatever was
written there before, and a file without chunks is not compared with the
size of its entry at all. Apart from these three the chunks tile the
file: `finalized_complete_iff`.
-/
import Baselib.Transfer.UnpackedFile

namespace Baselib.Transfer.UnpackedFile

open Lib List
open Baselib.Core (Crc32 uint32Bytes)
open Data (EntryInfo ChunkInfo)
open Data.ChunkInfo (position extent)

variable {chunks : List ChunkInfo} {s : State} {info : EntryInfo}

/-! ## The walk over the chunks -/

theorem extent_lt (chunk : ChunkInfo) : extent chunk < 2 ^ 32 := chunk.size.toNat_lt

/-- Below 2^63 the end of a chunk does not wrap. -/
theorem endOf_toNat {chunk : ChunkInfo} (h : position chunk < 2 ^ 63) :
    (endOf chunk).toNat = position chunk + extent chunk := by
  have hlt := extent_lt chunk
  unfold endOf
  rw [UInt64.toNat_add, UInt32.toNat_toUInt64]
  exact Nat.mod_eq_of_lt (by unfold position extent at *; omega)

/-- A walk which gets through finds each chunk where the one before it
ends. -/
theorem verifyChunks_ok (isChecksumSet : Bool) (chunks : List ChunkInfo) :
    ∀ (c : ChunkInfo) (crcc : Crc32) (last : Option ChunkInfo) (crcc' : Crc32),
      (∀ x ∈ c :: chunks, position x < 2 ^ 63) →
      verifyChunks isChecksumSet (some c) crcc chunks = .ok (last, crcc') →
      ∃ l, last = some l ∧ position l < 2 ^ 63 ∧
        Tiles position extent (position c) (c :: chunks) (position l + extent l) := by
  induction chunks with
  | nil =>
    intro c crcc last crcc' hpos h
    cases h
    exact ⟨c, rfl, hpos c mem_cons_self, rfl, rfl⟩
  | cons d chunks ih =>
    intro c crcc last crcc' hpos h
    unfold verifyChunks at h
    by_cases hend : endOf c = d.pos
    · have hc := endOf_toNat (hpos c mem_cons_self)
      rw [if_neg (by simp [hend])] at h
      obtain ⟨l, hl, hlpos, htiles⟩ := ih d _ last crcc'
        (fun x hx => hpos x (mem_cons_of_mem _ hx)) h
      refine ⟨l, hl, hlpos, rfl, ?_⟩
      rwa [← hc, hend]
    · rw [if_pos (by simp [hend])] at h
      cases h

/-- Chunks which the check accepts tile the file from the first one on. -/
theorem verify_ok {entry : EntryObj} (hpos : ∀ x ∈ entry.chunksWritten.values, position x < 2 ^ 63)
    (h : verifyChecksumAndAllChunksPresent entry = .ok ()) :
    ∃ c chunks, entry.chunksWritten.values = c :: chunks ∧
      Tiles position extent (position c) (c :: chunks) entry.info.size.toNat := by
  unfold verifyChecksumAndAllChunksPresent at h
  cases hvalues : entry.chunksWritten.values with
  | nil =>
    rw [hvalues] at h
    simp only [verifyChunks] at h
    split at h
    · cases h
    · simp at h
  | cons c chunks =>
    rw [hvalues] at h hpos
    unfold verifyChunks at h
    rw [if_neg (by simp)] at h
    split at h
    · cases h
    · rename_i last crcc' hwalk
      obtain ⟨l, rfl, hl, htiles⟩ := verifyChunks_ok _ chunks c _ _ _ hpos hwalk
      split at h
      · cases h
      · split at h
        · rename_i hsize
          have heq : endOf l = entry.info.size := by simpa using hsize
          refine ⟨c, chunks, rfl, ?_⟩
          rwa [← heq, endOf_toNat hl]
        · cases h

/-! ## Complete files -/

/-- The chunks, sorted by position, tile the file, and no position is
written twice. -/
def Complete (chunks : List ChunkInfo) (size : UInt64) : Prop :=
  (∃ sorted, sorted.Perm chunks ∧ sorted.Pairwise (fun a b => position a ≤ position b) ∧
    Tiles position extent 0 sorted size.toNat) ∧
    ∀ i, chunks.countP (covers position extent i) ≤ 1

/-- An entry without chunks is empty; else a chunk begins at 0, and no
chunk with octets is followed by another one at its position. -/
def WellSent (chunks : List ChunkInfo) (size : UInt64) : Prop :=
  if chunks = [] then size = 0
  else (∃ c ∈ chunks, position c = 0) ∧
    chunks.Pairwise fun a b => position b = position a → extent a = 0

theorem complete_nil_iff (size : UInt64) : Complete [] size ↔ WellSent [] size := by
  unfold Complete WellSent
  rw [if_pos rfl]
  constructor
  · intro h
    obtain ⟨⟨sorted, hperm, -, htiles⟩, -⟩ := h
    rw [List.Perm.eq_nil hperm] at htiles
    exact UInt64.toNat_inj.mp htiles.symm
  · intro h
    subst h
    exact ⟨⟨[], .refl _, List.Pairwise.nil, rfl⟩, fun i => Nat.zero_le _⟩

/-- The map of the chunks, where what is in it tiles the file from the
first chunk on. -/
theorem complete_iff_of_map {size : UInt64} {c : ChunkInfo} {rest : List ChunkInfo}
    (hvalues : (SortedMap.assignAll position .empty chunks).values = c :: rest)
    (htiles : Tiles position extent (position c) (c :: rest) size.toNat) :
    Complete chunks size ↔ WellSent chunks size := by
  have hne : chunks ≠ [] := by
    intro h
    rw [h] at hvalues
    cases hvalues
  have hkeyed := SortedMap.Keyed.assignAll position chunks (SortedMap.keyed_empty position)
  have hperm : (SortedMap.displaced position .empty chunks ++ (c :: rest)).Perm chunks := by
    have h := SortedMap.values_assignAll_perm position chunks .empty
    rw [hvalues] at h
    exact h.trans (.of_eq (append_nil chunks))
  have hsorted : (c :: rest).Pairwise fun a b => position a < position b :=
    hvalues ▸ hkeyed.values_sorted position
  -- the position of a chunk that was sent is one of the map
  have hfound : ∀ z ∈ chunks, ∃ x ∈ c :: rest, position z = position x := by
    intro z hz
    have hkey : position z ∈ (SortedMap.assignAll position .empty chunks).keys :=
      (SortedMap.mem_keys_assignAll position chunks _ .empty).mpr (.inr ⟨z, hz, rfl⟩)
    obtain ⟨e, he, heq⟩ := mem_map.mp hkey
    have hmem : e.2 ∈ c :: rest := hvalues ▸ mem_map_of_mem he
    exact ⟨e.2, hmem, heq.symm.trans (hkeyed e he)⟩
  have hdisplaced := SortedMap.forall_displaced position (P := fun a => extent a = 0) chunks
    (SortedMap.keyed_empty position)
  unfold Complete WellSent
  rw [if_neg hne]
  constructor
  · intro h
    obtain ⟨⟨sorted, hsperm, -, hstiles⟩, -⟩ := h
    have hcount : ∀ i, chunks.countP (covers position extent i)
        = if 0 ≤ i ∧ i < size.toNat then 1 else 0 :=
      fun i => (hsperm.countP_eq _).symm.trans (hstiles.countP i)
    refine ⟨?_, (hdisplaced.mp fun v hv => ?_).2⟩
    · cases sorted with
      | nil => exact absurd hsperm.symm.eq_nil hne
      | cons x sorted => exact ⟨x, hsperm.mem_iff.mp mem_cons_self, hstiles.1⟩
    · by_contra hlen
      obtain ⟨x, hx, hxv⟩ := hfound v (hperm.mem_iff.mp (mem_append_left _ hv))
      have hsplit := hperm.countP_eq (covers position extent (position v))
      have hv1 : 0 < (SortedMap.displaced position .empty chunks).countP
          (covers position extent (position v)) :=
        countP_pos_iff.mpr ⟨v, hv, by simp [covers]; omega⟩
      rw [countP_append, hcount] at hsplit
      by_cases hempty : extent x = 0
      · -- an empty chunk of the map is at the end of the file
        have hend := htiles.pos_of_empty hsorted x hx hempty
        rw [if_neg (by omega)] at hsplit
        omega
      · have hx1 : 0 < (c :: rest).countP (covers position extent (position v)) :=
          countP_pos_iff.mpr ⟨x, hx, by simp [covers]; omega⟩
        split at hsplit <;> omega
  · intro h
    obtain ⟨⟨z, hz, hz0⟩, hpair⟩ := h
    have hzero : position c = 0 := by
      obtain ⟨x, hx, hzx⟩ := hfound z hz
      have := (htiles.bounds x hx).1
      omega
    rw [hzero] at htiles
    obtain ⟨sorted, hsperm, hstiles⟩ := htiles.insert_empties
      (SortedMap.displaced position .empty chunks) fun v hv =>
        ⟨hdisplaced.mpr ⟨forall_mem_nil _, hpair⟩ v hv,
          hfound v (hperm.mem_iff.mp (mem_append_left _ hv))⟩
    refine ⟨⟨sorted, hsperm.trans hperm, hstiles.pairwise_le, hstiles⟩, fun i => ?_⟩
    rw [← (hsperm.trans hperm).countP_eq, hstiles.countP]
    split <;> omega

/-! ## The turns of the tasks -/

/-- The file is there and closed: no task gets any further. -/
def Stuck (s : State) : Prop := s.entry.filePtr = false ∧ s.file.isSome

theorem runTask_of_stuck (h : Stuck s) (d : Delivery) :
    Stuck (runTask s d).2 ∧ (runTask s d).2.finalized = s.finalized := by
  have herr : ∃ e, chkFile s = .error e := by
    unfold chkFile
    by_cases hc : s.entry.canceled = true
    · exact ⟨_, if_pos hc⟩
    · rw [if_neg hc, if_pos ⟨h.1, h.2⟩]
      exact ⟨_, rfl⟩
  obtain ⟨e, he⟩ := herr
  unfold runTask
  rw [he]
  exact ⟨⟨rfl, h.2⟩, rfl⟩

/-- Once the file is closed nothing is finalized any more. -/
theorem step_of_stuck (h : Stuck s) (a : Option Delivery) :
    Stuck (step s a).2 ∧ (step s a).2.finalized = s.finalized := by
  by_cases h0 : s.entry.chunksExpected = 0
  · cases a with
    | none =>
      rw [step, if_pos h0]
      exact runTask_of_stuck h .empty
    | some d =>
      rw [step, if_pos h0]
      exact ⟨h, rfl⟩
  · cases a with
    | none =>
      rw [step, if_neg h0]
      exact ⟨h, rfl⟩
    | some d =>
      rw [step, if_neg h0]
      by_cases h1 : s.entry.chunksExpected = 1
      · rw [if_pos h1]
        exact runTask_of_stuck (s := { s with entry := .create _ _ }) ⟨rfl, h.2⟩ d
      · rw [if_neg h1]
        exact runTask_of_stuck h d

/-- The chunks which are handed to a task: none for an entry of which
none are expected. -/
def handed (chunksExpected : Nat) (arrivals : List (Option Delivery)) : List ChunkInfo :=
  if chunksExpected = 0 then [] else (arrivals.filterMap id).map (·.chunkInfo)

/-- The chunks so far have been written, and the file waits for more. -/
structure Active (info : EntryInfo) (chunksExpected : Nat) (chunks : List ChunkInfo) (s : State) :
    Prop where
  info_eq : s.entry.info = info
  expected_eq : s.entry.chunksExpected = chunksExpected
  canceled_eq : s.entry.canceled = false
  finalized_eq : s.finalized = false
  written_eq : s.entry.chunksWritten = .assignAll position .empty chunks
  position_lt : ∀ c ∈ chunks, position c < 2 ^ 63
  file_open : s.file.isSome = s.entry.filePtr
  file_new : chunks = [] → s.entry.filePtr = false
  several : chunks ≠ [] → 1 < chunksExpected

theorem Active.init (info : EntryInfo) (chunksExpected : Nat) :
    Active info chunksExpected [] (.init info chunksExpected) where
  info_eq := rfl
  expected_eq := rfl
  canceled_eq := rfl
  finalized_eq := rfl
  written_eq := rfl
  position_lt := fun _ h => nomatch h
  file_open := rfl
  file_new := fun _ => rfl
  several := fun h => absurd rfl h

/-- What the checks have found of the chunks of a finalized file. -/
inductive Checked (info : EntryInfo) (chunksExpected : Nat) : List ChunkInfo → Prop where
  | none : chunksExpected = 0 → Checked info chunksExpected []
  | one (c : ChunkInfo) : position c < 2 ^ 63 → endOf c = info.size → Checked info chunksExpected [c]
  | several (entry : EntryObj) (chunks : List ChunkInfo) : (∀ c ∈ chunks, position c < 2 ^ 63) →
      entry.info = info → entry.chunksWritten = .assignAll position .empty chunks →
      verifyChecksumAndAllChunksPresent entry = .ok () → Checked info chunksExpected chunks

theorem fopen_entry : s.fopen.entry = { s.entry with filePtr := true } := by
  unfold State.fopen
  by_cases h : s.entry.filePtr = true
  · rw [if_pos h, ← h]
  · rw [if_neg h]

theorem fopen_finalized : s.fopen.finalized = s.finalized := by
  unfold State.fopen
  split <;> rfl

theorem Active.fopen_file {n : Nat} (h : Active info n chunks s) : s.fopen.file.isSome = true := by
  unfold State.fopen
  by_cases hp : s.entry.filePtr = true
  · rw [if_pos hp, h.file_open, hp]
  · rw [if_neg hp]
    rfl

theorem Active.chkFile_ok {n : Nat} (h : Active info n chunks s) : chkFile s = .ok () := by
  unfold chkFile
  rw [h.canceled_eq, if_neg Bool.false_ne_true, if_neg]
  rw [h.file_open]
  exact fun hf => Bool.false_ne_true (hf.1.symm.trans hf.2)

theorem handleFileInternal_ok {s' : State} {d : Delivery} (hn : s.entry.chunksExpected ≠ 0)
    (h : handleFileInternal s d = .ok s') :
    position d.chunkInfo < 2 ^ 63 ∧ (s.fwrite d).chunkWritten d.chunkInfo = .ok s' := by
  unfold handleFileInternal at h
  rw [if_neg hn] at h
  cases hsum : chkChunkChecksum s.entry.info d with
  | error e =>
    rw [hsum] at h
    cases h
  | ok u =>
    rw [hsum] at h
    unfold stdioChkOffset at h
    by_cases hpos : d.chunkInfo.pos.toNat < 2 ^ 63
    · simp only [if_pos hpos] at h
      exact ⟨hpos, h⟩
    · simp only [if_neg hpos] at h
      cases h

/-- What the turn of a task with a chunk comes to. -/
theorem runTask_spec {n : Nat}
    (h : Active info n chunks s) (hn : n ≠ 0) (hone : n = 1 → chunks = []) (d : Delivery) :
    (Stuck (runTask s d).2 ∧ (runTask s d).2.finalized = false) ∨
      (Stuck (runTask s d).2 ∧ Checked info n (chunks ++ [d.chunkInfo])) ∨
      Active info n (chunks ++ [d.chunkInfo]) (runTask s d).2 := by
  unfold runTask
  rw [h.chkFile_ok]
  cases hout : handleFileInternal s.fopen d with
  | error e => exact .inl ⟨⟨rfl, h.fopen_file⟩, fopen_finalized.trans h.finalized_eq⟩
  | ok s' =>
    right
    have hexp : s.fopen.entry.chunksExpected = n := by
      rw [fopen_entry]
      exact h.expected_eq
    obtain ⟨hpos, hwritten⟩ := handleFileInternal_ok (by rwa [hexp]) hout
    have hentry : (s.fopen.fwrite d).entry = { s.entry with filePtr := true } := fopen_entry
    have hfile : (s.fopen.fwrite d).file.isSome = true := by
      unfold State.fwrite
      rw [Option.isSome_map]
      exact h.fopen_file
    have hfin : (s.fopen.fwrite d).finalized = false := fopen_finalized.trans h.finalized_eq
    have hpositions : ∀ c ∈ chunks ++ [d.chunkInfo], position c < 2 ^ 63 := by
      intro c hc
      rcases mem_append.mp hc with hc | hc
      · exact h.position_lt c hc
      · rwa [mem_singleton.mp hc]
    unfold State.chunkWritten at hwritten
    rw [hentry] at hwritten
    simp only [h.expected_eq] at hwritten
    by_cases h1 : n = 1
    · rw [if_pos h1] at hwritten
      split at hwritten
      · rename_i hend
        cases hwritten
        left
        rw [hone h1]
        refine ⟨⟨rfl, hfile⟩, .one _ hpos ?_⟩
        rwa [h.info_eq] at hend
      · cases hwritten
    · rw [if_neg h1, h.written_eq] at hwritten
      have hmap : (SortedMap.assignAll position .empty chunks).assign (position d.chunkInfo)
          d.chunkInfo = .assignAll position .empty (chunks ++ [d.chunkInfo]) := by
        rw [SortedMap.assignAll_append]
        rfl
      rw [hmap] at hwritten
      split at hwritten
      · split at hwritten
        · cases hwritten
        · rename_i hverify
          cases hwritten
          exact .inl ⟨⟨rfl, hfile⟩, .several _ _ hpositions (by exact h.info_eq) rfl hverify⟩
      · cases hwritten
        right
        exact {
          info_eq := h.info_eq
          expected_eq := rfl
          canceled_eq := h.canceled_eq
          finalized_eq := hfin
          written_eq := rfl
          position_lt := hpositions
          file_open := hfile
          file_new := fun hnil => absurd hnil (by simp)
          several := fun _ => by omega }

/-! ## Runs -/

theorem handed_append (n : Nat) (arrivals : List (Option Delivery)) (a : Option Delivery) :
    handed n (arrivals ++ [a]) = handed n arrivals ++ handed n [a] := by
  unfold handed
  by_cases hn : n = 0
  · rw [if_pos hn, if_pos hn, if_pos hn]
    rfl
  · rw [if_neg hn, if_neg hn, if_neg hn, filterMap_append, map_append]

theorem Active.eq_nil {n : Nat} (h : Active info n chunks s) (hn : n ≤ 1) : chunks = [] := by
  by_contra hne
  have := h.several hne
  omega

/-- What the scheduling of a task comes to while the file is active. -/
theorem step_spec {n : Nat} (h : Active info n chunks s) (a : Option Delivery) :
    (Stuck (step s a).2 ∧ (step s a).2.finalized = false) ∨
      (Stuck (step s a).2 ∧ Checked info n (chunks ++ handed n [a])) ∨
      Active info n (chunks ++ handed n [a]) (step s a).2 := by
  by_cases h0 : n = 0
  · have hnone : chunks ++ handed n [a] = [] := by
      rw [h.eq_nil (by omega), handed, if_pos h0]
      rfl
    rw [hnone]
    have h' : Active info n [] s := h.eq_nil (by omega) ▸ h
    have hexp : s.entry.chunksExpected = 0 := h.expected_eq.trans h0
    cases a with
    | none =>
      right
      left
      have hint : handleFileInternal s.fopen .empty = .ok s.fopen.finalizeFile := by
        unfold handleFileInternal
        rw [fopen_entry, if_pos hexp]
      rw [step, if_pos hexp, runTask, h.chkFile_ok]
      simp only [hint]
      exact ⟨⟨rfl, h.fopen_file⟩, .none h0⟩
    | some d =>
      rw [step, if_pos hexp]
      exact .inr (.inr h')
  · have hexp : s.entry.chunksExpected ≠ 0 := fun e => h0 (h.expected_eq.symm.trans e)
    cases a with
    | none =>
      have hnone : handed n [none] = [] := by
        rw [handed, if_neg h0]
        rfl
      rw [hnone, append_nil, step, if_neg hexp]
      exact .inr (.inr h)
    | some d =>
      have hsome : handed n [some d] = [d.chunkInfo] := by
        rw [handed, if_neg h0]
        rfl
      rw [hsome, step, if_neg hexp]
      by_cases h1 : s.entry.chunksExpected = 1
      · have hn1 : n = 1 := h.expected_eq.symm.trans h1
        have hnil := h.eq_nil (by omega)
        rw [if_pos h1]
        refine runTask_spec ?_ h0 (fun _ => hnil) d
        exact {
          info_eq := h.info_eq
          expected_eq := h.expected_eq
          canceled_eq := rfl
          finalized_eq := h.finalized_eq
          written_eq := by
            rw [hnil]
            rfl
          position_lt := h.position_lt
          file_open := h.file_open.trans (h.file_new hnil)
          file_new := fun _ => rfl
          several := h.several }
      · rw [if_neg h1]
        exact runTask_spec h h0 (fun e => absurd (h.expected_eq.trans e) h1) d

theorem run_cases (info : EntryInfo) (n : Nat) (arrivals : List (Option Delivery)) :
    Stuck (run (.init info n) arrivals) ∨
      Active info n (handed n arrivals) (run (.init info n) arrivals) := by
  induction arrivals using reverseRecOn with
  | nil =>
    right
    have hnone : handed n [] = [] := by
      unfold handed
      split <;> rfl
    rw [hnone]
    exact Active.init info n
  | append_singleton arrivals a ih =>
    rw [run, foldl_append]
    rcases ih with h | h
    · exact .inl (step_of_stuck h a).1
    · rw [handed_append]
      rcases step_spec h a with h' | h' | h'
      · exact .inl h'.1
      · exact .inl h'.1
      · exact .inr h'

/-- Checked chunks tile the file exactly when they were sent well. -/
theorem Checked.complete_iff {n : Nat}
    (h : Checked info n chunks) : Complete chunks info.size ↔ WellSent chunks info.size := by
  cases h with
  | none => exact complete_nil_iff info.size
  | one c hpos hend =>
    refine complete_iff_of_map (show _ = [c] from rfl) ⟨rfl, ?_⟩
    rw [← hend, endOf_toNat hpos]
    rfl
  | several entry chunks hpos hinfo hmap hverify =>
    have hvalues : ∀ x ∈ entry.chunksWritten.values, position x < 2 ^ 63 := by
      intro x hx
      have hperm := SortedMap.values_assignAll_perm position chunks .empty
      rw [← hmap] at hperm
      have hmem := hperm.mem_iff.mp (mem_append_right _ hx)
      exact hpos x ((mem_append.mp hmem).resolve_right fun h => nomatch h)
    obtain ⟨c, rest, hcr, htiles⟩ := verify_ok hvalues hverify
    rw [hmap] at hcr
    rw [hinfo] at htiles
    exact complete_iff_of_map hcr htiles

theorem length_octets (d : Delivery) (count : Nat) : (d.octets count).length = count := by
  rw [Delivery.octets, length_map, length_range]

/-- Where an arrival makes the unpackager finalize the file, the chunks
handed to it tile the file exactly when a file without chunks is empty,
some chunk begins at 0, and no chunk with octets is followed by another
at its position; each chunk's declared size is what was written. -/
theorem finalized_complete_iff (info : EntryInfo) (chunksExpected : Nat)
    (arrivals : List (Option Delivery)) (arrival : Option Delivery)
    (hbefore : (run (.init info chunksExpected) arrivals).finalized = false)
    (hafter : (run (.init info chunksExpected) (arrivals ++ [arrival])).finalized = true) :
    (Complete (handed chunksExpected (arrivals ++ [arrival])) info.size ↔
      WellSent (handed chunksExpected (arrivals ++ [arrival])) info.size) ∧
      ∀ d : Delivery, (d.octets (extent d.chunkInfo)).length = extent d.chunkInfo := by
  refine ⟨?_, fun d => length_octets d _⟩
  rw [run, List.foldl_append] at hafter
  rw [handed_append]
  rcases run_cases info chunksExpected arrivals with h | h
  · have hsame := (step_of_stuck h arrival).2
    rw [hbefore] at hsame
    exact absurd (hsame.symm.trans hafter) Bool.false_ne_true
  · rcases step_spec h arrival with h' | h' | h'
    · exact absurd (h'.2.symm.trans hafter) Bool.false_ne_true
    · exact h'.2.complete_iff
    · exact absurd (h'.finalized_eq.symm.trans hafter) Bool.false_ne_true

/-- A file of three octets, without a checksum. -/
def threeOctets : EntryInfo := { EntryInfo.default with size := 3 }

/-- A chunk whose octets are all zero. -/
def zeros (pos : UInt64) (size : UInt32) : Option Delivery := some ⟨⟨pos, size, 0⟩, fun _ => 0⟩

theorem finalized_complete_iff_twoChunks :
    (run (.init threeOctets 2) [zeros 2 1]).finalized = false ∧
      (run (.init threeOctets 2) [zeros 2 1, zeros 0 2]).finalized = true ∧
      Complete (handed 2 [zeros 2 1, zeros 0 2]) 3 := by
  have h := finalized_complete_iff threeOctets 2 [zeros 2 1] (zeros 0 2) (by decide) (by decide)
  refine ⟨by decide, by decide, h.1.mpr ?_⟩
  show WellSent [⟨2, 1, 0⟩, ⟨0, 2, 0⟩] 3
  simp [WellSent, position, extent]

/-- The only chunk of the file begins at 1: the file is finalized, and
nothing was written at 0. -/
theorem finalized_offset : (run (.init threeOctets 1) []).finalized = false ∧
    (run (.init threeOctets 1) [zeros 1 2]).finalized = true ∧
    ¬ Complete (handed 1 [zeros 1 2]) 3 := by
  refine ⟨by decide, by decide, fun h => ?_⟩
  have hchecked : Checked threeOctets 1 [⟨1, 2, 0⟩] := .one _ (by decide) (by decide)
  have hsent := hchecked.complete_iff.mp h
  simp [WellSent, position] at hsent

end Baselib.Transfer.UnpackedFile
