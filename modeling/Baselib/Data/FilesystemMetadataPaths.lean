/-
Baselib.Data.FilesystemMetadataPaths — which file an entry of the
metadata store denotes.

Every consumer joins the relative path of an entry to one root. The
checks of `chkEntryInfo` keep each joined path inside the root. The set
of relative paths keeps apart the spellings of paths, not the paths:
"a" and "./a" are two entries of one file, so the entries denote
different files exactly when the callers have spelled no path in two
ways.
-/
import Baselib.Data.FilesystemMetadataTheorems

namespace Baselib.Data.FilesystemMetadataInMemory

open Lib Core.FsPath

section

variable {ι : Type} [DecidableEq ι] {info : EntryInfo}

/-! ## The calls -/

/-- Entries are created one after the other, and the store is finalized. -/
def createCalls (entries : List (ι × EntryInfo)) : List (Call ι) :=
  entries.map (fun entry => .createEntry entry.1 entry.2) ++ [.finalize]

/-- The paths after an entry was created or refused. -/
theorem createEntry_relPaths {s : Store ι} (hl : s.locked = false) (entryId : ι) (p : Path) :
    (s.after (.createEntry entryId info)).locked = false ∧
      (p ∈ (s.after (.createEntry entryId info)).relPaths ↔
        p ∈ s.relPaths ∨ chkEntryInfo (ι := ι) info = .ok () ∧ info.path = p) := by
  unfold Store.after Call.outcome createEntry chkUnlocked
  simp only [hl, Bool.false_eq_true, if_false]
  cases hchk : chkEntryInfo (ι := ι) info with
  | error e => simp [Store.undoEntry]
  | ok u =>
    by_cases hp : info.path ∈ s.relPaths
    · simp only [if_pos hp, Prod.map_snd, Store.undoEntry, id]
      exact ⟨trivial, .inl, fun h => h.elim id fun h => h.2 ▸ hp⟩
    · simp only [if_neg hp, Prod.map_snd, Finset.mem_insert, id]
      exact ⟨trivial, by simp [or_comm, eq_comm]⟩

theorem run_relPaths (entries : List (ι × EntryInfo)) (p : Path) : ∀ s : Store ι,
    s.locked = false → (p ∈ (s.run (createCalls entries)).relPaths ↔
      p ∈ s.relPaths ∨ ∃ entry ∈ entries, chkEntryInfo (ι := ι) entry.2 = .ok () ∧
        entry.2.path = p) := by
  induction entries with
  | nil =>
    intro s hl
    have hfin : (s.after .finalize).relPaths = s.relPaths := by
      simp [Store.after, Call.outcome, finalize, chkUnlocked, hl]
    show p ∈ (s.after .finalize).relPaths ↔ _
    rw [hfin]
    simp
  | cons entry entries ih =>
    intro s hl
    obtain ⟨hl', hp⟩ := @createEntry_relPaths _ _ entry.2 _ hl entry.1 p
    show p ∈ ((s.after (.createEntry entry.1 entry.2)).run (createCalls entries)).relPaths ↔ _
    rw [ih _ hl', hp, or_assoc]
    simp only [List.mem_cons, exists_eq_or_imp]

omit [DecidableEq ι] in
theorem freshIds_createCalls {entries : List (ι × EntryInfo)}
    (hfresh : (entries.map Prod.fst).Nodup) : FreshIds (createCalls entries) := by
  have heq : (createCalls entries).flatMap Call.drawn = entries.map Prod.fst := by
    induction entries with
    | nil => rfl
    | cons entry entries ih =>
      rw [List.map_cons, List.nodup_cons] at hfresh
      rw [List.map_cons, ← ih hfresh.2]
      rfl
  rwa [FreshIds, heq]

/-! ## Files -/

/-- The entries of the store denote different files below the root. -/
def DifferentFiles (root : Path) (s : Store ι) : Prop :=
  ∀ e e' p p', e ≠ e' → s.pathOf e = some p → s.pathOf e' = some p' →
    normalize (append root p) ≠ normalize (append root p')

/-- A path of an entry leads to a file below the root and leaves the root
nowhere. -/
def InsideRoot (s : Store ι) : Prop :=
  ∀ e p, s.pathOf e = some p → isAbsolute p = false ∧ (follow componentKind [] (segments p)).isSome

/-- No two of the entries which the checks accept spell one path in two
ways. -/
def OneSpelling (entries : List (ι × EntryInfo)) : Prop :=
  ∀ a ∈ entries, ∀ b ∈ entries, chkEntryInfo (ι := ι) a.2 = .ok () →
    chkEntryInfo (ι := ι) b.2 = .ok () →
    normalize a.2.path = normalize b.2.path → a.2.path = b.2.path

theorem Store.Consistent.pathOf_ok {s : Store ι} (h : s.Consistent) {e : ι} {p : Path}
    (hp : s.pathOf e = some p) : isAbsolute p = false ∧ dotDot ∉ elements p := by
  obtain ⟨entry, hentry, rfl⟩ := Option.map_eq_some_iff.mp hp
  exact (chkEntryInfo_ok (h.entry_ok e entry hentry).info_ok).2

/-- However the entries are created, every path stays inside the root,
and the entries denote different files exactly when no path was spelled
in two ways. -/
theorem differentFiles_iff (root : Path) (hroot : IsDir root) (entries : List (ι × EntryInfo))
    (hfresh : (entries.map Prod.fst).Nodup) :
    InsideRoot (Store.empty.run (createCalls entries)) ∧
      (DifferentFiles root (Store.empty.run (createCalls entries)) ↔ OneSpelling entries) := by
  obtain ⟨-, hs, -⟩ := run_consistent _ (freshIds_createCalls hfresh)
  have hpaths : ∀ p, (∃ e, (Store.empty.run (createCalls entries)).pathOf e = some p) ↔
      ∃ entry ∈ entries, chkEntryInfo (ι := ι) entry.2 = .ok () ∧ entry.2.path = p := by
    intro p
    rw [← hs.mem_relPaths, run_relPaths entries p Store.empty rfl]
    simp [Store.empty]
  refine ⟨fun e p hp => ?_, fun h a ha b hb hoka hokb heq => ?_, fun h e e' p p' hne hp hp' => ?_⟩
  · obtain ⟨hrel, hup⟩ := hs.pathOf_ok hp
    rw [follow_segments hup]
    exact ⟨hrel, rfl⟩
  · obtain ⟨e, he⟩ := (hpaths a.2.path).mpr ⟨a, ha, hoka, rfl⟩
    obtain ⟨e', he'⟩ := (hpaths b.2.path).mpr ⟨b, hb, hokb, rfl⟩
    by_contra hspell
    have hne : e ≠ e' := fun hee => by
      subst hee
      exact hspell (Option.some.inj (he.symm.trans he'))
    refine h e e' _ _ hne he he' ?_
    rw [normalize_append hroot (hs.pathOf_ok he).1, normalize_append hroot (hs.pathOf_ok he').1,
      heq]
  · intro heq
    rw [normalize_append hroot (hs.pathOf_ok hp).1, normalize_append hroot (hs.pathOf_ok hp').1]
      at heq
    obtain ⟨a, ha, hoka, rfl⟩ := (hpaths p).mp ⟨e, hp⟩
    obtain ⟨b, hb, hokb, rfl⟩ := (hpaths p').mp ⟨e', hp'⟩
    have hspell := h a ha b hb hoka hokb (List.append_cancel_left heq)
    exact hne (hs.path_unique e e' _ hp (hspell ▸ hp'))

/-- Two files of the names "a" and "b". -/
def twoFiles : List (Nat × EntryInfo) :=
  [(0, { EntryInfo.default with relPath := some (octets "a") }),
    (1, { EntryInfo.default with relPath := some (octets "b") })]

theorem differentFiles_iff_two : IsDir (octets "/r") ∧ (twoFiles.map Prod.fst).Nodup ∧
    DifferentFiles (octets "/r") (Store.empty.run (createCalls twoFiles)) := by
  have hroot : IsDir (octets "/r") := ⟨by decide, by decide⟩
  have hspell : OneSpelling twoFiles := by unfold OneSpelling; decide
  exact ⟨hroot, by decide, (differentFiles_iff _ hroot twoFiles (by decide)).2.mpr hspell⟩

/-- The file "a" under two spellings. -/
def twoSpellings : List (Nat × EntryInfo) :=
  [(0, { EntryInfo.default with relPath := some (octets "a") }),
    (1, { EntryInfo.default with relPath := some (octets "./a") })]

/-- The finalized store has two entries, which denote one file. -/
theorem differentFiles_spellings :
    (Store.empty.run (createCalls twoSpellings)).fileIds = [0, 1] ∧
      (Store.empty.run (createCalls twoSpellings)).locked = true ∧
      ¬ DifferentFiles (octets "/r") (Store.empty.run (createCalls twoSpellings)) := by
  refine ⟨by decide, by decide, fun h => ?_⟩
  exact h 0 1 (octets "a") (octets "./a") (by decide) (by decide) (by decide) (by decide)

end

end Baselib.Data.FilesystemMetadataInMemory
