/-
Baselib.Messaging.DataChunkStorageSingleFileMap — the single-file chunk store
as a map which survives restarts, and what a write that fails does to it.

A store whose writes complete is the map of the last contents saved, and so
is every new store on its file. A write that fails leaves every other chunk
alone. Its own chunk is kept when the mark is what fails; when the new
header or the new data fails, the old record is marked already and the chunk
is gone.
-/
import Baselib.Messaging.DataChunkStorageSingleFileRestart

namespace Baselib.Messaging.DataChunkStorageSingleFile

open Lib

variable {s s' : Store} {id chunkId : Uuid} {data : Octets} {writes : Writes}

/-! ## The map -/

/-- What a store is for. -/
structure ChunkMap where
  chunks : Uuid → Option Octets
  isDisposed : Bool

namespace ChunkMap

def empty : ChunkMap := ⟨fun _ => none, false⟩

def load (capacity : Nat) (id : Uuid) (m : ChunkMap) : Except Failure Octets :=
  if m.isDisposed then .error .disposed else answer capacity (m.chunks id)

/-- A disposed store ignores its calls until a new one is created. -/
def call (m : ChunkMap) : Label → ChunkMap
  | .save chunkId data _ =>
    if m.isDisposed then m else { m with chunks := Function.update m.chunks chunkId (some data) }
  | .remove chunkId _ =>
    if m.isDisposed then m else { m with chunks := Function.update m.chunks chunkId none }
  | .dispose => { m with isDisposed := true }
  | .create => { m with isDisposed := false }

end ChunkMap

/-- The store holds what the map does. -/
structure Represents (s : Store) (m : ChunkMap) : Prop where
  content : ∀ id, s.content id = m.chunks id
  isDisposed : s.isDisposed = m.isDisposed

theorem Represents.load_eq {m : ChunkMap} (h : Represents s m) (hindexed : s.Indexed)
    (capacity : Nat) (id : Uuid) : load capacity id s = m.load capacity id := by
  rw [DataChunkStorageSingleFile.load_eq hindexed, h.content, h.isDisposed, ChunkMap.load]

theorem removeChunk_isDisposed (chunkId : Uuid) (throws : Bool) (writes : Writes) (s : Store) :
    (removeChunk chunkId throws writes s).1.isDisposed = s.isDisposed := by
  obtain ⟨-, heq⟩ | ⟨header, octets, -, -, ⟨-, heq⟩ | ⟨n, -, heq⟩⟩ :=
    removeChunk_cases chunkId throws writes s <;> rw [heq]

theorem append_isDisposed (chunkId : Uuid) (data : Octets) (writes : Writes) (s : Store) :
    (append chunkId data writes s).1.isDisposed = s.isDisposed := by
  obtain ⟨octets, -, ⟨n, -, heq⟩ | ⟨n, -, -, -, heq⟩ | ⟨-, -, heq⟩⟩ :=
    append_cases chunkId data writes s <;> rw [heq]

theorem save_isDisposed (hopen : s.isDisposed = false) (chunkId : Uuid) (data : Octets)
    (writes : Writes) : (save chunkId data writes s).1.isDisposed = false := by
  have hremoved := removeChunk_isDisposed chunkId false writes s
  obtain ⟨-, heq⟩ | ⟨-, heq⟩ := save_cases hopen chunkId data writes
  · rw [heq, hremoved, hopen]
  · rw [heq, append_isDisposed, hremoved, hopen]

theorem remove_isDisposed (hopen : s.isDisposed = false) (chunkId : Uuid) (writes : Writes) :
    (remove chunkId writes s).1.isDisposed = false := by
  rw [remove_eq hopen, removeChunk_isDisposed, hopen]

theorem save_snd (hopen : s.isDisposed = false)
    (hsucceeds : (Label.save chunkId data writes).Succeeds) :
    (save chunkId data writes s).2 = none := by
  obtain ⟨hmark, hheader, hdata⟩ := hsucceeds
  obtain ⟨hfails, -⟩ | ⟨-, heq⟩ := save_cases hopen chunkId data writes
  · simp [markFails, hmark] at hfails
  · rw [heq]
    obtain ⟨octets, -, ⟨n, hn, -⟩ | ⟨n, -, -, hn, -⟩ | ⟨-, -, heq⟩⟩ :=
      append_cases chunkId data writes (removeChunk chunkId false writes s).1
    · cases hheader.symm.trans hn
    · cases hdata.symm.trans hn
    · rw [heq]

/-- A call whose writes complete does to the store what it does to the map. -/
theorem step_represents {l : Label} {m : ChunkMap} {records : List Record} (h : Represents s m)
    (hindexed : s.Indexed) (hlogged : Logged (fun _ => False) s records) (hl : l.Succeeds)
    (hstep : step s l = some s') : Represents s' (m.call l) := by
  obtain ⟨failure, hcall, hfit⟩ := step_eq_some hstep
  cases l with
  | save chunkId data writes =>
    have heq : (save chunkId data writes s).1 = s' := congrArg Prod.fst (Option.some.inj hcall)
    rw [← heq] at hfit ⊢
    cases hdisposed : s.isDisposed with
    | true =>
      rwa [ChunkMap.call, if_pos (h.isDisposed.symm.trans hdisposed), save, if_pos hdisposed]
    | false =>
      have hopen : m.isDisposed = false := h.isDisposed.symm.trans hdisposed
      rw [ChunkMap.call, hopen, if_neg Bool.false_ne_true]
      have hmark : markFails chunkId writes s = false := by simp [markFails, hl.1]
      refine ⟨fun id => ?_, save_isDisposed hdisposed chunkId data writes⟩
      rw [save_content hindexed hdisposed chunkId data writes hfit, save_snd hdisposed hl, h.content]
      by_cases hid : id = chunkId
      · simp [hid, hmark]
      · simp [hid]
  | remove chunkId writes =>
    have heq : (remove chunkId writes s).1 = s' := congrArg Prod.fst (Option.some.inj hcall)
    rw [← heq]
    cases hdisposed : s.isDisposed with
    | true =>
      rwa [ChunkMap.call, if_pos (h.isDisposed.symm.trans hdisposed), remove, if_pos hdisposed]
    | false =>
      have hopen : m.isDisposed = false := h.isDisposed.symm.trans hdisposed
      rw [ChunkMap.call, hopen, if_neg Bool.false_ne_true]
      have hwrites : writes.mark = none := hl
      have hmark : markFails chunkId writes s = false := by simp [markFails, hwrites]
      refine ⟨fun id => ?_, remove_isDisposed hdisposed chunkId writes⟩
      rw [remove_content hindexed hdisposed, h.content]
      by_cases hid : id = chunkId
      · simp [hid, hmark]
      · simp [hid]
  | dispose =>
    have heq : dispose s = s' := congrArg Prod.fst (Option.some.inj hcall)
    rw [← heq]
    exact ⟨h.content, rfl⟩
  | create =>
    simp only [Label.call] at hcall
    split at hcall
    · obtain ⟨s'', hcreate, hresult⟩ := Option.map_eq_some_iff.mp hcall
      have heq : s'' = s' := congrArg Prod.fst hresult
      obtain ⟨t, ht, -, hopen, hcontent, -⟩ := hlogged.create
      rw [← heq, ← Option.some.inj (ht.symm.trans hcreate)]
      exact ⟨fun id => (hcontent id not_false).trans (h.content id), hopen⟩
    · cases hcall

/-- A run whose writes complete does to the store what it does to the map. -/
theorem run_represents {labels : List Label} (hsucceed : ∀ l ∈ labels, l.Succeeds) :
    ∀ {s : Store}, Transition.run step Store.empty labels = some s →
      Represents s (labels.foldl ChunkMap.call ChunkMap.empty) := by
  induction labels using List.reverseRecOn with
  | nil =>
    intro s hrun
    cases hrun
    exact ⟨fun _ => rfl, rfl⟩
  | append_singleton labels l ih =>
    intro s hrun
    obtain ⟨before, hbefore, hlast⟩ := Transition.run_append_eq_some.mp hrun
    have hprefix : ∀ l ∈ labels, l.Succeeds := fun l hl => hsucceed l (List.mem_append_left _ hl)
    obtain ⟨records, hlogged⟩ :=
      run_logged empty_logged empty_indexed (along_of_succeeds hprefix) hbefore
    rw [Transition.run_singleton] at hlast
    rw [List.foldl_append]
    exact step_represents (ih hprefix hbefore) (run_indexed empty_indexed hbefore) hlogged
      (hsucceed l (by simp)) hlast

/-- The store is a map across restarts: as long as its writes complete, its
loads answer as those of the map do, and so do the loads of a new store on
its file; and opening any octets whatsoever terminates, with records which
lie inside the file and apart from each other, or it throws. -/
theorem run_load_eq :
    (∀ labels s, (∀ l ∈ labels, Label.Succeeds l) → Transition.run step Store.empty labels = some s →
      (∀ capacity id, load capacity id s =
        (labels.foldl ChunkMap.call ChunkMap.empty).load capacity id) ∧
      ∃ s', Store.create (dispose s).file = some s' ∧ ∀ capacity id, load capacity id s' =
        ((labels.foldl ChunkMap.call ChunkMap.empty).call .create).load capacity id) ∧
    ∀ file, ∃ answer, loadChunksData file (file.length + 1) = some answer ∧
      ∀ active, answer = some active → Indexed file.length active := by
  refine ⟨fun labels s hsucceed hrun => ?_, fun file => ?_⟩
  · have hrepresents := run_represents hsucceed hrun
    have hindexed := run_indexed empty_indexed hrun
    obtain ⟨records, hlogged⟩ :=
      run_logged empty_logged empty_indexed (along_of_succeeds hsucceed) hrun
    obtain ⟨s', hcreate, -, hopen, hcontent, -⟩ := hlogged.create
    have hcreated : Represents s' ((labels.foldl ChunkMap.call ChunkMap.empty).call .create) :=
      ⟨fun id => (hcontent id not_false).trans (hrepresents.content id), hopen⟩
    exact ⟨hrepresents.load_eq hindexed, s', hcreate, hcreated.load_eq (create_indexed hcreate)⟩
  · obtain ⟨answer, hanswer⟩ := loadChunksData_terminates file
    refine ⟨answer, hanswer, ?_⟩
    rintro active rfl
    exact loadChunksData_indexed hanswer

def someChunk : Uuid := ⟨List.replicate 16 1, rfl⟩

def otherChunk : Uuid := ⟨List.replicate 16 2, rfl⟩

/-- How the writes of a call end. -/
def writesOf (mark header data : Option Nat) : Writes :=
  ⟨⟨[0, 0, 0, 0], rfl⟩, ⟨[0, 0, 0, 0], rfl⟩, mark, header, data⟩

/-- A chunk is saved twice, an empty one is saved and removed, and the store
is opened again. -/
def savedChunks : List Label :=
  [.save someChunk [5] (writesOf none none none), .save otherChunk [] (writesOf none none none),
    .save someChunk [6, 7] (writesOf none none none), .remove otherChunk (writesOf none none none),
    .dispose, .create]

theorem run_load_eq_savedChunks :
    ∃ s, Transition.run step Store.empty savedChunks = some s ∧
      load 2 someChunk s = .ok [6, 7] ∧ load 2 otherChunk s = .error .doesNotExist := by
  obtain ⟨s, hs⟩ := Option.isSome_iff_exists.mp
    (show (Transition.run step Store.empty savedChunks).isSome = true by decide +kernel)
  have hload := (run_load_eq.1 savedChunks s (by decide) hs).1
  exact ⟨s, hs, hload 2 someChunk, hload 2 otherChunk⟩

/-! ## Writes that fail -/

/-- What a call whose write fails does to the contents: its own chunk is
gone, unless its mark is what has failed. -/
theorem failed_content {l : Label} (hindexed : s.Indexed)
    (hfailed : (l.call s).map Prod.snd = some (some .writeFailed)) (hstep : step s l = some s') :
    s.isDisposed = false ∧ s'.isDisposed = false ∧
      (∀ id, l.chunkId ≠ some id ∨ FailsMark s l → s'.content id = s.content id) ∧
      ∀ id, l.chunkId = some id → ¬ FailsMark s l → s'.content id = none := by
  obtain ⟨failure, hcall, hfit⟩ := step_eq_some hstep
  obtain rfl : failure = some .writeFailed := by simpa [hcall] using hfailed
  cases l with
  | save chunkId data writes =>
    have heq := Option.some.inj hcall
    have hfirst : (save chunkId data writes s).1 = s' := congrArg Prod.fst heq
    have hfailure : (save chunkId data writes s).2 = some .writeFailed := congrArg Prod.snd heq
    by_cases hdisposed : s.isDisposed = true
    · simp [save, if_pos hdisposed] at hfailure
    · have hopen := Bool.not_eq_true _ ▸ hdisposed
      rw [← hfirst] at hfit ⊢
      have hcontent := save_content hindexed hopen chunkId data writes hfit
      rw [hfailure] at hcontent
      refine ⟨hopen, save_isDisposed hopen chunkId data writes, fun id hkept => ?_,
        fun id hid hnot => ?_⟩
      · rw [hcontent, if_neg]
        rintro ⟨rfl, hmark⟩
        exact hkept.elim (fun hne => hne rfl) fun hfails => by cases hmark.symm.trans hfails
      · rw [hcontent, if_pos ⟨(Option.some.inj hid).symm, Bool.eq_false_iff.mpr hnot⟩]
        rfl
  | remove chunkId writes =>
    have heq := Option.some.inj hcall
    have hfirst : (remove chunkId writes s).1 = s' := congrArg Prod.fst heq
    have hfailure : (remove chunkId writes s).2 = some .writeFailed := congrArg Prod.snd heq
    by_cases hdisposed : s.isDisposed = true
    · simp [remove, if_pos hdisposed] at hfailure
    · have hopen := Bool.not_eq_true _ ▸ hdisposed
      rw [← hfirst]
      have hcontent := remove_content hindexed hopen chunkId writes
      refine ⟨hopen, remove_isDisposed hopen chunkId writes, fun id hkept => ?_,
        fun id hid hnot => ?_⟩
      · rw [hcontent, if_neg]
        rintro ⟨rfl, hmark⟩
        exact hkept.elim (fun hne => hne rfl) fun hfails => by cases hmark.symm.trans hfails
      · rw [hcontent, if_pos ⟨(Option.some.inj hid).symm, Bool.eq_false_iff.mpr hnot⟩]
  | dispose => cases congrArg Prod.snd (Option.some.inj hcall)
  | create =>
    simp only [Label.call] at hcall
    split at hcall
    · obtain ⟨s'', -, hresult⟩ := Option.map_eq_some_iff.mp hcall
      cases congrArg Prod.snd hresult
    · cases hcall

/-- A call whose write fails leaves every other chunk as it was, and its own
when the mark is what has failed; otherwise its chunk is gone. Where it has
left nothing behind, or its mark has failed, a new store on the file of any
later one opens and has the same contents, its own chunk apart when the mark
has reached the flags. -/
theorem run_failedWrite (labels : List Label) (s : Store) (l : Label) (s' : Store)
    (hrun : Transition.run step Store.empty labels = some s)
    (hfailed : (l.call s).map Prod.snd = some (some .writeFailed)) (hstep : step s l = some s') :
    (∀ capacity id, l.chunkId ≠ some id ∨ FailsMark s l →
      load capacity id s' = load capacity id s) ∧
    (¬ FailsMark s l → ∀ capacity, ∀ id ∈ l.chunkId,
      load capacity id s' = .error .doesNotExist) ∧
    (Transition.Along step LeavesNothing Store.empty labels → LeavesNothing s l ∨ FailsMark s l →
      ∀ more s'', (∀ l ∈ more, Label.Succeeds l) → Transition.run step s' more = some s'' →
        ∃ t, Store.create (dispose s'').file = some t ∧
          ∀ id, l.chunkId ≠ some id ∨ LeavesNothing s l → ∀ capacity,
            load capacity id t = load capacity id { s'' with isDisposed := false }) := by
  have hindexed := run_indexed empty_indexed hrun
  have hindexed' := step_indexed hindexed hstep
  obtain ⟨hopen, hopen', hkeeps, hgone⟩ := failed_content hindexed hfailed hstep
  refine ⟨fun capacity id hkept => ?_, fun hnot capacity id hid => ?_,
    fun hlabels hleaves more s'' hsucceed hmore => ?_⟩
  · rw [load_eq hindexed', load_eq hindexed, hopen, hopen', hkeeps id hkept]
  · rw [load_eq hindexed', hopen', hgone id hid hnot]
    rfl
  · obtain ⟨records, hlogged⟩ := run_logged empty_logged empty_indexed hlabels hrun
    obtain ⟨records', hlogged'⟩ := step_logged hlogged hindexed hleaves hstep
    obtain ⟨records'', hlogged''⟩ :=
      run_logged hlogged' hindexed' (along_of_succeeds hsucceed) hmore
    have hlater := run_indexed hindexed' hmore
    have hindexed'' : ({ s'' with isDisposed := false } : Store).Indexed := hlater
    obtain ⟨t, hcreate, -, hopent, hsame, -⟩ := hlogged''.create
    refine ⟨t, hcreate, fun id hkept capacity => ?_⟩
    rw [load_eq (create_indexed hcreate), load_eq hindexed'', hopent, hsame id]
    · rfl
    · rintro (hfalse | ⟨hid, hnot⟩)
      · exact hfalse
      · exact hkept.elim (fun hne => hne hid) hnot

/-- A store with one chunk. -/
def savedStore : Store :=
  (Transition.run step Store.empty [.save someChunk [5] (writesOf none none none)]).getD .empty

/-- What a call leaves of it. -/
def savedStoreAfter (l : Label) : Store := (step savedStore l).getD .empty

theorem eq_some_getD {o : Option Store} (h : o.isSome = true) : o = some (o.getD .empty) := by
  obtain ⟨s, rfl⟩ := Option.isSome_iff_exists.mp h
  rfl

theorem run_savedStore : Transition.run step Store.empty
    [.save someChunk [5] (writesOf none none none)] = some savedStore :=
  eq_some_getD (by decide +kernel)

/-- The mark of the chunk fails. -/
def failedRemove : Label := .remove someChunk (writesOf (some 3) none none)

theorem run_failedWrite_failedRemove :
    step savedStore failedRemove = some (savedStoreAfter failedRemove) ∧
      load 1 someChunk (savedStoreAfter failedRemove) = .ok [5] ∧
      ∃ t, Store.create (dispose (savedStoreAfter failedRemove)).file = some t ∧
        load 1 someChunk t = .ok [5] := by
  have hstep : step savedStore failedRemove = some (savedStoreAfter failedRemove) :=
    eq_some_getD (by decide +kernel)
  obtain ⟨hload, -, hcreate⟩ := run_failedWrite _ savedStore failedRemove
    (savedStoreAfter failedRemove) run_savedStore (by decide +kernel)
    hstep
  have hmark : FailsMark savedStore failedRemove := by decide +kernel
  obtain ⟨t, ht, hsame⟩ := hcreate (by decide +kernel) (.inr hmark) [] _ (by simp) rfl
  refine ⟨hstep, (hload 1 someChunk (.inr hmark)).trans (by decide +kernel), t, ht, ?_⟩
  exact (hsame someChunk (.inr (by decide +kernel)) 1).trans (by decide +kernel)

/-- The new header of the chunk fails after so many octets. -/
def failedSave (n : Nat) : Label := .save someChunk [6] (writesOf none (some n) none)

theorem run_failedWrite_failedSave :
    load 1 someChunk savedStore = .ok [5] ∧
      step savedStore (failedSave 0) = some (savedStoreAfter (failedSave 0)) ∧
      load 1 someChunk (savedStoreAfter (failedSave 0)) = .error .doesNotExist ∧
      step savedStore (failedSave 7) = some (savedStoreAfter (failedSave 7)) ∧
      (Store.create (dispose (savedStoreAfter (failedSave 7))).file).isNone = true ∧
      step savedStore (.remove someChunk (writesOf (some 40) none none)) =
        some (savedStoreAfter (.remove someChunk (writesOf (some 40) none none))) ∧
      (Store.create (dispose
        (savedStoreAfter (.remove someChunk (writesOf (some 40) none none)))).file).map
          (load 1 someChunk) = some (.error .doesNotExist) ∧
      load 1 someChunk (savedStoreAfter (.remove someChunk (writesOf (some 40) none none))) =
        .ok [5] :=
  ⟨by decide +kernel, eq_some_getD (by decide +kernel), by decide +kernel,
    eq_some_getD (by decide +kernel), by decide +kernel, eq_some_getD (by decide +kernel),
    by decide +kernel, by decide +kernel⟩

end Baselib.Messaging.DataChunkStorageSingleFile
