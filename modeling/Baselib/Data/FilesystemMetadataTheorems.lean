/-
Baselib.Data.FilesystemMetadataTheorems — the containers of the files
metadata store agree in every state it can reach, a call which throws
changes nothing, and neither does any call after `finalize`.

Each member which changes the store is one of four updates, or it
changes nothing (`after_cases`); the invariant is kept by each of the
updates. The ids which `uuids::create` gives are assumed to be fresh: no
two calls of a run draw the same.
-/
import Baselib.Data.FilesystemMetadata

namespace Baselib.Data.FilesystemMetadataInMemory

open Lib List
open Core.FsPath (Path isAbsolute elements dotDot)

section

variable {ι : Type} [DecidableEq ι] {s : Store ι}

/-! ## Maps -/

section

variable {α β : Type} [DecidableEq α] (m : AList fun _ : α => β) (a x : α) (b : β)

theorem lookup_insert_cases : (m.insert a b).lookup x = if x = a then some b else m.lookup x := by
  by_cases h : x = a
  · rw [if_pos h, h, AList.lookup_insert]
  · rw [if_neg h, AList.lookup_insert_ne h]

theorem erase_insert (h : a ∉ m) : (m.insert a b).erase a = m := by
  apply AList.ext
  show (m.insert a b).entries.kerase a = m.entries
  rw [AList.entries_insert_of_notMem h]
  exact kerase_cons_eq (β := fun _ => β) (s := ⟨a, b⟩) rfl

end

/-! ## What the checks accept -/

omit [DecidableEq ι] in
theorem chkEntryInfo_ok {info : EntryInfo} (h : chkEntryInfo (ι := ι) info = .ok ()) :
    info.path ≠ [] ∧ isAbsolute info.path = false ∧ dotDot ∉ elements info.path := by
  unfold chkEntryInfo at h
  by_cases h₁ : info.path = []
  · simp [h₁] at h
  · by_cases h₂ : isAbsolute info.path = true
    · simp [h₁, h₂] at h
    · by_cases h₃ : dotDot ∈ elements info.path
      · simp [h₁, h₂, h₃] at h
      · exact ⟨h₁, by simpa using h₂, h₃⟩

/-! ## The updates -/

/-- The store with one entry more. -/
def Store.withEntry (s : Store ι) (entryId : ι) (info : EntryInfo) : Store ι :=
  { s with
    fileIds := s.fileIds ++ [entryId]
    files := s.files.insert entryId ⟨entryId, info, [], ∅⟩
    relPaths := insert info.path s.relPaths }

/-- The store with other information about an entry. -/
def Store.withInfo (s : Store ι) (entryId : ι) (entry : EntryObj ι) (info : EntryInfo) : Store ι :=
  { s with files := s.files.insert entryId { entry with info := info } }

/-- The store with one chunk more of an entry. -/
def Store.withChunk (s : Store ι) (chunkId entryId : ι) (entry : EntryObj ι) (info : ChunkInfo) :
    Store ι :=
  { s with
    chunkIds := s.chunkIds ++ [chunkId]
    files := s.files.insert entryId
      { entry with
        chunkIds := entry.chunkIds ++ [chunkId]
        chunksInfo := entry.chunksInfo.insert chunkId ⟨chunkId, info⟩ }
    chunk2files := s.chunk2files.insert chunkId entryId }

variable {entryId : ι}

theorem undoEntry_eq (h : entryId ∉ s.files) (entry : EntryObj ι) : Store.undoEntry { s with
      fileIds := s.fileIds ++ [entryId], files := s.files.insert entryId entry } entryId = s := by
  unfold Store.undoEntry
  rw [erase_insert _ _ _ h, dropLast_concat]

theorem createEntry_spec (info : EntryInfo) (h : entryId ∉ s.files) :
    (∃ e, createEntry entryId info s = (.error e, s)) ∨
      (s.locked = false ∧ chkEntryInfo (ι := ι) info = .ok () ∧ info.path ∉ s.relPaths ∧
        createEntry entryId info s = (.ok entryId, s.withEntry entryId info)) := by
  have hnew : s.files.lookup entryId = none := AList.lookup_eq_none.mpr h
  unfold createEntry chkUnlocked
  by_cases hl : s.locked = true
  · rw [if_pos hl]
    exact .inl ⟨_, rfl⟩
  · rw [if_neg hl]
    simp only [hnew, Option.getD_none]
    cases hchk : chkEntryInfo (ι := ι) info with
    | error e => exact .inl ⟨e, by simp only [undoEntry_eq h]⟩
    | ok u =>
      by_cases hp : info.path ∈ s.relPaths
      · simp only [if_pos hp, undoEntry_eq h]
        exact .inl ⟨_, rfl⟩
      · simp only [if_neg hp]
        exact .inr ⟨by simpa using hl, trivial, hp, rfl⟩

theorem updateInfo_spec (s : Store ι) (entryId : ι) (change : EntryInfo → EntryInfo) :
    (∃ e, updateInfo entryId change s = (.error e, s)) ∨
      ∃ entry, s.locked = false ∧ s.files.lookup entryId = some entry ∧
        updateInfo entryId change s = (.ok (), s.withInfo entryId entry (change entry.info)) := by
  unfold updateInfo chkUnlocked getEntry
  by_cases hl : s.locked = true
  · rw [if_pos hl]
    exact .inl ⟨_, rfl⟩
  · rw [if_neg hl]
    cases hentry : s.files.lookup entryId with
    | none => exact .inl ⟨_, rfl⟩
    | some entry => exact .inr ⟨entry, by simpa using hl, rfl, rfl⟩

theorem createChunk_spec (s : Store ι) (chunkId entryId : ι) (chunk : ChunkInfo) :
    (∃ e, createChunk chunkId entryId chunk s = (.error e, s)) ∨
      ∃ entry, s.locked = false ∧ s.files.lookup entryId = some entry ∧
        createChunk chunkId entryId chunk s
          = (.ok chunkId, s.withChunk chunkId entryId entry chunk) := by
  unfold createChunk chkUnlocked getEntry
  by_cases hl : s.locked = true
  · rw [if_pos hl]
    exact .inl ⟨_, rfl⟩
  · rw [if_neg hl]
    cases hentry : s.files.lookup entryId with
    | none =>
      simp only [hentry, dropLast_concat]
      exact .inl ⟨_, rfl⟩
    | some entry =>
      simp only [hentry]
      exact .inr ⟨entry, by simpa using hl, rfl, rfl⟩

/-! ## Fresh ids -/

/-- The id a call draws. -/
def Call.drawn : Call ι → List ι
  | .createEntry drawn _ => [drawn]
  | .createChunk drawn _ _ => [drawn]
  | _ => []

/-- No two calls draw the same id. -/
def FreshIds (calls : List (Call ι)) : Prop := (calls.flatMap Call.drawn).Nodup

/-- The id a call draws is new to the store. -/
def Call.New (call : Call ι) (s : Store ι) : Prop :=
  ∀ d ∈ call.drawn, d ∉ s.files ∧ d ∉ s.chunk2files

/-! ## What a call can do -/

/-- The entry a call creates. -/
def Call.created (call : Call ι) (s : Store ι) : List ι :=
  match call, (call.outcome s).1 with
  | .createEntry _ _, .ok (.id entryId) => [entryId]
  | _, _ => []

/-- The entries which the calls create, in the order they do. -/
def created : Store ι → List (Call ι) → List ι
  | _, [] => []
  | s, call :: calls => call.created s ++ created (s.after call) calls

/-- The changes of the information about an entry leave what was checked
as it is. -/
def SameEntry (info info' : EntryInfo) : Prop :=
  info'.type = info.type ∧ info'.relPath = info.relPath ∧ info'.targetPath = info.targetPath

/-- A change of the store: the ids drawn for it, the store after it, the
entries it creates. -/
inductive Update (s : Store ι) : List ι → Store ι → List ι → Prop where
  | entry (entryId : ι) (info : EntryInfo) : s.locked = false → entryId ∉ s.files →
      entryId ∉ s.chunk2files → chkEntryInfo (ι := ι) info = .ok () → info.path ∉ s.relPaths →
      Update s [entryId] (s.withEntry entryId info) [entryId]
  | info (entryId : ι) (entry : EntryObj ι) (info : EntryInfo) : s.locked = false →
      s.files.lookup entryId = some entry → SameEntry entry.info info →
      Update s [] (s.withInfo entryId entry info) []
  | chunk (chunkId entryId : ι) (entry : EntryObj ι) (info : ChunkInfo) : s.locked = false →
      s.files.lookup entryId = some entry → chunkId ∉ s.files → chunkId ∉ s.chunk2files →
      Update s [chunkId] (s.withChunk chunkId entryId entry info) []
  | locked : s.locked = false → Update s [] { s with locked := true } []

/-- A call which throws changes nothing; one which does not changes
nothing or makes one of the updates. -/
theorem after_cases (call : Call ι) (hnew : call.New s) :
    (s.after call = s ∧ call.created s = []) ∨
      ((∀ e, (call.outcome s).1 ≠ .error e) ∧ Update s call.drawn (s.after call) (call.created s)) := by
  cases call with
  | createEntry drawn info =>
    obtain ⟨hfile, hchunk⟩ := hnew drawn (by simp [Call.drawn])
    obtain ⟨e, he⟩ | ⟨hl, hchk, hp, he⟩ := createEntry_spec info hfile
    · simp [Store.after, Call.created, Call.outcome, he, Except.map]
    · refine .inr ⟨by simp [Call.outcome, he, Except.map], ?_⟩
      simp only [Store.after, Call.created, Call.outcome, he, Prod.map, Except.map, id]
      exact .entry drawn info hl hfile hchunk hchk hp
  | associateChecksum entryId checksum =>
    obtain ⟨e, he⟩ | ⟨entry, hl, hentry, he⟩ := updateInfo_spec s entryId
      fun info => { info with checksum := checksum, isChecksumSet := true }
    · simp [Store.after, Call.created, Call.outcome, associateChecksum, he, Except.map]
    · refine .inr ⟨by simp [Call.outcome, associateChecksum, he, Except.map], ?_⟩
      simp only [Store.after, Call.created, Call.outcome, associateChecksum, he, Prod.map, id]
      exact .info entryId entry _ hl hentry ⟨rfl, rfl, rfl⟩
  | associateHash entryId hash =>
    obtain ⟨e, he⟩ | ⟨entry, hl, hentry, he⟩ := updateInfo_spec s entryId
      fun info => { info with hash := some hash }
    · simp [Store.after, Call.created, Call.outcome, associateHash, he, Except.map]
    · refine .inr ⟨by simp [Call.outcome, associateHash, he, Except.map], ?_⟩
      simp only [Store.after, Call.created, Call.outcome, associateHash, he, Prod.map, id]
      exact .info entryId entry _ hl hentry ⟨rfl, rfl, rfl⟩
  | createChunk drawn entryId chunk =>
    obtain ⟨hfile, hchunk⟩ := hnew drawn (by simp [Call.drawn])
    obtain ⟨e, he⟩ | ⟨entry, hl, hentry, he⟩ := createChunk_spec s drawn entryId chunk
    · simp [Store.after, Call.created, Call.outcome, he, Except.map]
    · refine .inr ⟨by simp [Call.outcome, he, Except.map], ?_⟩
      simp only [Store.after, Call.created, Call.outcome, he, Prod.map, id]
      exact .chunk drawn entryId entry chunk hl hentry hfile hchunk
  | finalize =>
    by_cases hl : s.locked = true
    · simp [Store.after, Call.created, Call.outcome, finalize, chkUnlocked, hl]
    · refine .inr ⟨by simp [Call.outcome, finalize, chkUnlocked, hl, Except.map], ?_⟩
      simp only [Store.after, Call.created, Call.outcome, finalize, chkUnlocked, hl, Prod.map, id]
      exact .locked (by simpa using hl)
  | _ => exact .inl ⟨rfl, by simp [Call.created]⟩

/-! ## The invariant -/

/-- What holds of each entry by itself. -/
structure EntryObj.Ok (entryId : ι) (entry : EntryObj ι) : Prop where
  entryId_eq : entry.entryId = entryId
  chunkIds_nodup : entry.chunkIds.Nodup
  mem_chunkIds : ∀ c, c ∈ entry.chunkIds ↔ c ∈ entry.chunksInfo
  chunkId_eq : ∀ c chunk, entry.chunksInfo.lookup c = some chunk → chunk.chunkId = c
  info_ok : chkEntryInfo (ι := ι) entry.info = .ok ()

/-- The path of an entry. -/
def Store.pathOf (s : Store ι) (entryId : ι) : Option Path :=
  (s.files.lookup entryId).map (·.info.path)

/-- The chunks of an entry. -/
def Store.chunksOf (s : Store ι) (entryId : ι) : List ι :=
  ((s.files.lookup entryId).map (·.chunkIds)).getD []

/-- The containers of the store agree. -/
structure Store.Consistent (s : Store ι) : Prop where
  fileIds_nodup : s.fileIds.Nodup
  mem_fileIds : ∀ e, e ∈ s.fileIds ↔ e ∈ s.files
  entry_ok : ∀ e entry, s.files.lookup e = some entry → entry.Ok e
  chunkIds_nodup : s.chunkIds.Nodup
  mem_chunkIds : ∀ c, c ∈ s.chunkIds ↔ c ∈ s.chunk2files
  chunk_entry : ∀ c e, s.chunk2files.lookup c = some e ↔ c ∈ s.chunksOf e
  mem_relPaths : ∀ p, p ∈ s.relPaths ↔ ∃ e, s.pathOf e = some p
  path_unique : ∀ e e' p, s.pathOf e = some p → s.pathOf e' = some p → e = e'

omit [DecidableEq ι] in
/-- The checks read only what no change of the information touches. -/
theorem SameEntry.chkEntryInfo_eq {info info' : EntryInfo} (h : SameEntry info info') :
    chkEntryInfo (ι := ι) info' = chkEntryInfo info := by
  unfold chkEntryInfo EntryInfo.path
  rw [h.1, h.2.1, h.2.2]

theorem SameEntry.path_eq {info info' : EntryInfo} (h : SameEntry info info') :
    info'.path = info.path := by
  unfold EntryInfo.path
  rw [h.2.1]

/-- What holds of every value of a map and of a new one holds of every
value after the insertion. -/
theorem forall_insert {β : Type} {m : AList fun _ : ι => β} {P : ι → β → Prop} {a : ι} {b : β}
    (hm : ∀ x y, m.lookup x = some y → P x y) (hb : P a b) :
    ∀ x y, (m.insert a b).lookup x = some y → P x y := by
  intro x y h
  rw [lookup_insert_cases] at h
  obtain rfl | hx := eq_or_ne x a
  · rw [if_pos rfl] at h
    exact Option.some.inj h ▸ hb
  · rw [if_neg hx] at h
    exact hm x y h

omit [DecidableEq ι] in
theorem nodup_concat {l : List ι} {a : ι} (h : l.Nodup) (ha : a ∉ l) : (l ++ [a]).Nodup :=
  nodup_append.mpr ⟨h, nodup_singleton a, fun _ hx _ hy e =>
    ha (mem_singleton.mp hy ▸ e ▸ hx)⟩

theorem Store.Consistent.empty : (Store.empty : Store ι).Consistent where
  fileIds_nodup := nodup_nil
  mem_fileIds := fun _ => by simp [Store.empty]
  entry_ok := fun _ _ h => by simp [Store.empty] at h
  chunkIds_nodup := nodup_nil
  mem_chunkIds := fun _ => by simp [Store.empty]
  chunk_entry := fun _ _ => by simp [Store.empty, Store.chunksOf]
  mem_relPaths := fun _ => by simp [Store.empty, Store.pathOf]
  path_unique := fun _ _ _ h => by simp [Store.empty, Store.pathOf] at h

/-! ## A new entry -/

theorem pathOf_withEntry (entryId e : ι) (info : EntryInfo) :
    (s.withEntry entryId info).pathOf e = if e = entryId then some info.path else s.pathOf e := by
  unfold Store.pathOf Store.withEntry
  rw [lookup_insert_cases]
  split <;> rfl

theorem chunksOf_withEntry (hnew : entryId ∉ s.files) (e : ι) (info : EntryInfo) :
    (s.withEntry entryId info).chunksOf e = s.chunksOf e := by
  unfold Store.chunksOf Store.withEntry
  rw [lookup_insert_cases]
  obtain rfl | he := eq_or_ne e entryId
  · rw [if_pos rfl, AList.lookup_eq_none.mpr hnew]
    rfl
  · rw [if_neg he]

theorem Store.Consistent.withEntry {info : EntryInfo} (h : s.Consistent)
    (hnew : entryId ∉ s.files) (hchk : chkEntryInfo (ι := ι) info = .ok ())
    (hpath : info.path ∉ s.relPaths) : (s.withEntry entryId info).Consistent where
  fileIds_nodup :=
    nodup_concat h.fileIds_nodup fun hmem => hnew ((h.mem_fileIds _).mp hmem)
  mem_fileIds := fun e => by
    simp [Store.withEntry, AList.mem_insert, h.mem_fileIds, or_comm]
  entry_ok := forall_insert h.entry_ok
    ⟨rfl, nodup_nil, fun c => by simp, fun c chunk hc => by simp at hc, hchk⟩
  chunkIds_nodup := h.chunkIds_nodup
  mem_chunkIds := h.mem_chunkIds
  chunk_entry := fun c e => by
    rw [chunksOf_withEntry hnew]
    exact h.chunk_entry c e
  mem_relPaths := fun p => by
    have hnone : s.pathOf entryId = none := by
      rw [Store.pathOf, AList.lookup_eq_none.mpr hnew]
      rfl
    show p ∈ insert info.path s.relPaths ↔ _
    simp only [pathOf_withEntry, Finset.mem_insert, h.mem_relPaths]
    constructor
    · intro hp
      rcases hp with rfl | ⟨e, he⟩
      · exact ⟨entryId, if_pos rfl⟩
      · refine ⟨e, ?_⟩
        rwa [if_neg]
        intro heq
        simp [heq, hnone] at he
    · intro hp
      obtain ⟨e, he⟩ := hp
      by_cases heq : e = entryId
      · rw [if_pos heq] at he
        exact .inl (Option.some.inj he).symm
      · rw [if_neg heq] at he
        exact .inr ⟨e, he⟩
  path_unique := fun e e' p he he' => by
    rw [pathOf_withEntry] at he he'
    have hold : ∀ x, s.pathOf x ≠ some info.path :=
      fun x hx => hpath ((h.mem_relPaths _).mpr ⟨x, hx⟩)
    by_cases heq : e = entryId <;> by_cases heq' : e' = entryId
    · rw [heq, heq']
    · rw [if_pos heq] at he
      rw [if_neg heq', ← he] at he'
      exact absurd he' (hold e')
    · rw [if_pos heq'] at he'
      rw [if_neg heq, ← he'] at he
      exact absurd he (hold e)
    · rw [if_neg heq] at he
      rw [if_neg heq'] at he'
      exact h.path_unique e e' p he he'

/-! ## A changed entry -/

/-- Another object in the place of an entry. -/
def Store.replaceEntry (s : Store ι) (entryId : ι) (entry : EntryObj ι) : Store ι :=
  { s with files := s.files.insert entryId entry }

theorem pathOf_replaceEntry {entry entry' : EntryObj ι}
    (hentry : s.files.lookup entryId = some entry) (hp : entry'.info.path = entry.info.path) (e : ι) :
    (s.replaceEntry entryId entry').pathOf e = s.pathOf e := by
  unfold Store.pathOf Store.replaceEntry
  rw [lookup_insert_cases]
  obtain rfl | he := eq_or_ne e entryId
  · rw [if_pos rfl, hentry, Option.map_some, Option.map_some, hp]
  · rw [if_neg he]

theorem chunksOf_replaceEntry (entryId e : ι) (entry : EntryObj ι) :
    (s.replaceEntry entryId entry).chunksOf e
      = if e = entryId then entry.chunkIds else s.chunksOf e := by
  unfold Store.chunksOf Store.replaceEntry
  rw [lookup_insert_cases]
  split <;> rfl

theorem mem_replaceEntry {entry : EntryObj ι}
    (hentry : s.files.lookup entryId = some entry) (e : ι) (entry' : EntryObj ι) :
    e ∈ (s.replaceEntry entryId entry').files ↔ e ∈ s.files := by
  have hmem : entryId ∈ s.files := by
    rw [← AList.lookup_isSome, hentry]
    rfl
  unfold Store.replaceEntry
  rw [AList.mem_insert]
  exact ⟨fun he => he.elim (fun heq => heq ▸ hmem) id, .inr⟩

theorem Store.Consistent.withInfo {entry : EntryObj ι} {info : EntryInfo}
    (h : s.Consistent) (hentry : s.files.lookup entryId = some entry)
    (hsame : SameEntry entry.info info) : (s.withInfo entryId entry info).Consistent := by
  have hok := h.entry_ok entryId entry hentry
  have hpath : ∀ e, (s.withInfo entryId entry info).pathOf e = s.pathOf e :=
    pathOf_replaceEntry hentry hsame.path_eq
  have hchunks : ∀ e, (s.withInfo entryId entry info).chunksOf e = s.chunksOf e := by
    intro e
    refine (chunksOf_replaceEntry entryId e _).trans ?_
    obtain rfl | he := eq_or_ne e entryId
    · rw [if_pos rfl, Store.chunksOf, hentry]
      rfl
    · rw [if_neg he]
  exact {
    fileIds_nodup := h.fileIds_nodup
    mem_fileIds := fun e => (h.mem_fileIds e).trans (mem_replaceEntry hentry e _).symm
    entry_ok := forall_insert h.entry_ok
      { hok with info_ok := hsame.chkEntryInfo_eq.trans hok.info_ok }
    chunkIds_nodup := h.chunkIds_nodup
    mem_chunkIds := h.mem_chunkIds
    chunk_entry := fun c e => by
      rw [hchunks]
      exact h.chunk_entry c e
    mem_relPaths := fun p => by
      simp only [hpath]
      exact h.mem_relPaths p
    path_unique := fun e e' p => by
      rw [hpath, hpath]
      exact h.path_unique e e' p }

theorem Store.Consistent.withChunk {chunkId : ι} {entry : EntryObj ι} {info : ChunkInfo}
    (h : s.Consistent) (hentry : s.files.lookup entryId = some entry)
    (hnew : chunkId ∉ s.chunk2files) : (s.withChunk chunkId entryId entry info).Consistent := by
  have hok := h.entry_ok entryId entry hentry
  have hnone : s.chunk2files.lookup chunkId = none := AList.lookup_eq_none.mpr hnew
  have hnowhere : ∀ e, chunkId ∉ s.chunksOf e := fun e he => by
    simp [(h.chunk_entry chunkId e).mpr he] at hnone
  have hlist : s.chunksOf entryId = entry.chunkIds := by
    rw [Store.chunksOf, hentry]
    rfl
  have hpath : ∀ e, (s.withChunk chunkId entryId entry info).pathOf e = s.pathOf e :=
    pathOf_replaceEntry hentry rfl
  have hchunks : ∀ e, (s.withChunk chunkId entryId entry info).chunksOf e
      = if e = entryId then entry.chunkIds ++ [chunkId] else s.chunksOf e :=
    fun e => chunksOf_replaceEntry entryId e _
  exact {
    fileIds_nodup := h.fileIds_nodup
    mem_fileIds := fun e => (h.mem_fileIds e).trans (mem_replaceEntry hentry e _).symm
    entry_ok := forall_insert h.entry_ok
      { entryId_eq := hok.entryId_eq
        chunkIds_nodup := nodup_concat hok.chunkIds_nodup (hlist ▸ hnowhere entryId)
        mem_chunkIds := fun c => by
          simp [AList.mem_insert, hok.mem_chunkIds, or_comm]
        chunkId_eq := forall_insert hok.chunkId_eq rfl
        info_ok := hok.info_ok }
    chunkIds_nodup :=
      nodup_concat h.chunkIds_nodup fun hmem => hnew ((h.mem_chunkIds _).mp hmem)
    mem_chunkIds := fun c => by
      simp [Store.withChunk, AList.mem_insert, h.mem_chunkIds, or_comm]
    chunk_entry := fun c e => by
      rw [hchunks]
      show (s.chunk2files.insert chunkId entryId).lookup c = some e ↔ _
      rw [lookup_insert_cases]
      have hold := h.chunk_entry c e
      by_cases hc : c = chunkId <;> by_cases he : e = entryId
      · simp [hc, he]
      · rw [if_pos hc, if_neg he, hc]
        simpa [hnowhere e] using Ne.symm he
      · subst he
        rw [if_neg hc, if_pos rfl, hold, hlist]
        simp [hc]
      · rwa [if_neg hc, if_neg he]
    mem_relPaths := fun p => by
      simp only [hpath]
      exact h.mem_relPaths p
    path_unique := fun e e' p => by
      rw [hpath, hpath]
      exact h.path_unique e e' p }

/-! ## Runs -/

theorem Update.consistent {s s' : Store ι} {drawn created : List ι}
    (hu : Update s drawn s' created) (h : s.Consistent) : s'.Consistent := by
  cases hu with
  | entry entryId info _ hfile _ hchk hp => exact h.withEntry hfile hchk hp
  | info entryId entry info _ hentry hsame => exact h.withInfo hentry hsame
  | chunk chunkId entryId entry info _ hentry _ hnew => exact h.withChunk hentry hnew
  | locked _ => exact { h with }

theorem Update.fileIds_eq {s s' : Store ι} {drawn created : List ι}
    (hu : Update s drawn s' created) : s'.fileIds = s.fileIds ++ created := by
  cases hu with
  | entry => rfl
  | info | chunk | locked => exact (append_nil _).symm

/-- The ids of a store. -/
def Store.Has (s : Store ι) (id : ι) : Prop := id ∈ s.files ∨ id ∈ s.chunk2files

theorem Update.has {s s' : Store ι} {drawn created : List ι} (hu : Update s drawn s' created)
    {x : ι} (hx : s'.Has x) : s.Has x ∨ x ∈ drawn := by
  cases hu with
  | entry entryId info =>
    rcases hx with hx | hx
    · rcases (AList.mem_insert _).mp hx with rfl | hx
      · exact .inr (mem_singleton_self x)
      · exact .inl (.inl hx)
    · exact .inl (.inr hx)
  | info entryId entry info _ hentry _ =>
    exact .inl (hx.imp (mem_replaceEntry hentry x _).mp id)
  | chunk chunkId entryId entry info _ hentry _ _ =>
    rcases hx with hx | hx
    · exact .inl (.inl ((mem_replaceEntry hentry x _).mp hx))
    · rcases (AList.mem_insert _).mp hx with rfl | hx
      · exact .inr (mem_singleton_self x)
      · exact .inl (.inr hx)
  | locked _ => exact .inl hx

/-- A call that draws a new id: the invariant is kept, the entries it
creates come last, and no id appears which was not drawn. -/
theorem after_spec (call : Call ι) (hnew : call.New s) (h : s.Consistent) :
    (s.after call).Consistent ∧ (s.after call).fileIds = s.fileIds ++ call.created s ∧
      ∀ x, (s.after call).Has x → s.Has x ∨ x ∈ call.drawn := by
  obtain ⟨he, hc⟩ | ⟨-, hu⟩ := after_cases call hnew
  · rw [he, hc, append_nil]
    exact ⟨h, rfl, fun x => .inl⟩
  · exact ⟨hu.consistent h, hu.fileIds_eq, fun x => hu.has⟩

theorem run_spec (calls : List (Call ι)) : ∀ s : Store ι, s.Consistent → FreshIds calls →
    (∀ d ∈ calls.flatMap Call.drawn, ¬ s.Has d) →
    (s.run calls).Consistent ∧ (s.run calls).fileIds = s.fileIds ++ created s calls ∧
      ∀ x, (s.run calls).Has x → s.Has x ∨ x ∈ calls.flatMap Call.drawn := by
  induction calls with
  | nil =>
    intro s h _ _
    exact ⟨h, (append_nil _).symm, fun x => .inl⟩
  | cons call calls ih =>
    intro s h hfresh hnew
    rw [FreshIds, flatMap_cons, nodup_append] at hfresh
    obtain ⟨-, hrest, hdisj⟩ := hfresh
    rw [flatMap_cons] at hnew ⊢
    have hcall : call.New s := fun d hd =>
      not_or.mp (hnew d (mem_append_left _ hd))
    obtain ⟨hs, hfile, hhas⟩ := after_spec call hcall h
    have hlater : ∀ d ∈ calls.flatMap Call.drawn, ¬ (s.after call).Has d := by
      intro d hd hx
      rcases hhas d hx with hx | hx
      · exact hnew d (mem_append_right _ hd) hx
      · exact hdisj d hx d hd rfl
    obtain ⟨hs', hfile', hhas'⟩ := ih (s.after call) hs hrest hlater
    refine ⟨hs', ?_, fun x hx => ?_⟩
    · show (Store.run (s.after call) calls).fileIds = _
      rw [hfile', hfile, append_assoc, created]
    · rcases hhas' x hx with hx | hx
      · exact (hhas x hx).imp_right (mem_append_left _)
      · exact .inr (mem_append_right _ hx)

theorem after_of_locked (hl : s.locked = true) (call : Call ι) : s.after call = s := by
  cases call with
  | createEntry drawn info => simp [Store.after, Call.outcome, createEntry, chkUnlocked, hl]
  | associateChecksum entryId checksum =>
    simp [Store.after, Call.outcome, associateChecksum, updateInfo, chkUnlocked, hl]
  | associateHash entryId hash =>
    simp [Store.after, Call.outcome, associateHash, updateInfo, chkUnlocked, hl]
  | createChunk drawn entryId chunk => simp [Store.after, Call.outcome, createChunk, chkUnlocked, hl]
  | finalize => simp [Store.after, Call.outcome, finalize, chkUnlocked, hl]
  | _ => rfl

theorem run_of_locked (hl : s.locked = true) (calls : List (Call ι)) : s.run calls = s := by
  induction calls with
  | nil => rfl
  | cons call calls ih =>
    show Store.run (s.after call) calls = s
    rw [after_of_locked hl, ih]

theorem locked_after_finalize (s : Store ι) : (s.after .finalize).locked = true := by
  by_cases hl : s.locked = true <;>
    simp [Store.after, Call.outcome, finalize, chkUnlocked, hl]

/-- Each chunk belongs to exactly one entry. -/
theorem Store.Consistent.existsUnique_entry (h : s.Consistent) {c : ι} (hc : c ∈ s.chunkIds) :
    ∃! e, c ∈ s.chunksOf e := by
  obtain ⟨e, he⟩ := Option.isSome_iff_exists.mp
    (AList.lookup_isSome.mpr ((h.mem_chunkIds c).mp hc))
  refine ⟨e, (h.chunk_entry c e).mp he, fun e' he' => ?_⟩
  have hlookup := (h.chunk_entry c e').mpr he'
  rw [he] at hlookup
  exact (Option.some.inj hlookup).symm

/-- After any calls with fresh ids: the file ids are the entries in the
order they were created, the containers agree, each chunk belongs to
exactly one entry, a call which throws changes nothing, and after
`finalize` no calls change anything. -/
theorem run_consistent (calls : List (Call ι)) (hfresh : FreshIds calls) :
    (Store.empty.run calls).fileIds = created Store.empty calls ∧
      (Store.empty.run calls).Consistent ∧
      (∀ c ∈ (Store.empty.run calls).chunkIds, ∃! e, c ∈ (Store.empty.run calls).chunksOf e) ∧
      (∀ call e, FreshIds (calls ++ [call]) →
        (call.outcome (Store.empty.run calls)).1 = .error e →
        (Store.empty.run calls).after call = Store.empty.run calls) ∧
      ∀ more, ((Store.empty.run calls).after .finalize).run more
        = (Store.empty.run calls).after .finalize := by
  have hnone : ∀ d ∈ calls.flatMap Call.drawn, ¬ (Store.empty : Store ι).Has d := by
    intro d _ h
    simp [Store.Has, Store.empty] at h
  obtain ⟨hs, hfile, hhas⟩ := run_spec calls Store.empty .empty hfresh hnone
  refine ⟨hfile.trans (List.nil_append _), hs, fun c => hs.existsUnique_entry,
    fun call e hnext he => ?_, fun more => ?_⟩
  · have hnew : call.New (Store.empty.run calls) := by
      rw [FreshIds, List.flatMap_append, List.nodup_append] at hnext
      intro d hd
      refine not_or.mp fun hx => ?_
      rcases hhas d hx with hx | hx
      · simp [Store.Has, Store.empty] at hx
      · exact hnext.2.2 d hx d (by simpa using hd) rfl
    obtain ⟨h, -⟩ | ⟨hno, -⟩ := after_cases call hnew
    · exact h
    · exact absurd he (hno e)
  · exact run_of_locked (locked_after_finalize _) more

/-- A directory, a file in it with one chunk, and the file again, which
is refused. -/
def sampleCalls : List (Call Nat) :=
  [.createEntry 0 { EntryInfo.default with type := .directory, relPath := some (octets "d") },
    .createEntry 1 { EntryInfo.default with size := 2, relPath := some (octets "d/f") },
    .createChunk 2 1 ⟨0, 2, 7⟩,
    .createEntry 3 { EntryInfo.default with size := 2, relPath := some (octets "d/f") }]

theorem run_consistent_sample : FreshIds sampleCalls ∧
    (Store.empty.run sampleCalls).fileIds = [0, 1] ∧ (Store.empty.run sampleCalls).Consistent := by
  have h := run_consistent sampleCalls (by unfold FreshIds; decide)
  exact ⟨by unfold FreshIds; decide, h.1.trans (by decide), h.2.1⟩

end

end Baselib.Data.FilesystemMetadataInMemory
