/-
Baselib.Transfer.DirsTimestamps — the last phase of the unpackager, which
sets the times of the directories: `updateDirsTimestamps` of
`transfer/FilesUnpackagerUnit.h`.

One map is filled with the directories of all entries, of a directory
entry the directory itself and of any other the parent, under the text
of the path. The first entry with a text stays in the map, and the
directory gets the time of that entry, whatever kind of entry it is. So
the outcome depends on the enumeration.

What the system finds under a path is a parameter: two texts can lead to
one directory, and a path can lead nowhere. `std::string` compares its
octets as unsigned numbers.
-/
import Baselib.Lib.SortedMap
import Baselib.Data.FilesystemMetadataTheorems

namespace Baselib.Transfer.DirsTimestamps

open List
open Lib (Octets octets SortedMap)
open Core.FsPath
open Data (EntryType)
open Data.FilesystemMetadataInMemory (chkEntryInfo chkEntryInfo_ok)

variable {info : EntryInfo}

/-! ## Entries -/

/-- `EntryInfo` with its times. -/
structure EntryInfo extends Data.EntryInfo where
  timeCreated : Int
  lastModified : Int
  deriving DecidableEq

/-- What the store enumerates, in that order; `createEntry` has checked
each of the entries. -/
structure Metadata where
  entries : List EntryInfo
  entries_ok : ∀ info ∈ entries, chkEntryInfo (ι := Nat) info.toEntryInfo = .ok ()

/-- `m_targetTmpDir`. -/
structure TargetTmpDir where
  path : Path
  isDir : IsDir path

/-- The directory as the constructor of the unit makes it, which hides it
with a dot before its name. -/
def TargetTmpDir.create (targetDir uuid : Path) (h : slash ∉ uuid) : TargetTmpDir where
  path := append (parentPath (append (parentPath targetDir) uuid)) (dot ++ uuid)
  isDir := IsDir.append _ ⟨by simp [dot], fun hlast => by
    have hmem := mem_of_getLast? hlast
    rw [mem_append] at hmem
    exact hmem.elim (by decide) h⟩

inductive Failure where
  | incorrectEntryType (type : EntryType)
  | notFound (path : Path)
  deriving DecidableEq

/-- The message of the exception of the unit. -/
def Failure.message (typeText : EntryType → Octets) : Failure → Option Octets
  | .incorrectEntryType type =>
    some (octets "Incorrect entry type '" ++ typeText type ++ octets "' encountered")
  | .notFound _ => none

/-! ## The file system -/

/-- The times of the files, and which file a path leads to. -/
structure FileSystem (D : Type) where
  locate : Path → Option D
  lastWriteTime : D → Int
  createTime : D → Int

section

variable {D : Type} [DecidableEq D]

/-- `fs::last_write_time`. -/
def FileSystem.setLastWriteTime (fs : FileSystem D) (path : Path) (newTime : Int) :
    Except Failure (FileSystem D) :=
  match fs.locate path with
  | none => .error (.notFound path)
  | some d => .ok { fs with lastWriteTime := Function.update fs.lastWriteTime d newTime }

/-- `fs::safeSetFileCreateTime`. -/
def FileSystem.safeSetFileCreateTime (fs : FileSystem D) (path : Path) (newTime : Int) :
    Except Failure (FileSystem D) :=
  match fs.locate path with
  | none => .error (.notFound path)
  | some d => .ok { fs with createTime := Function.update fs.createTime d newTime }

def updateTimestamps (onWindows : Bool) (path : Path) (info : EntryInfo) (fs : FileSystem D) :
    Except Failure (FileSystem D) := do
  let newTime := if info.timeCreated ≠ 0 then info.timeCreated else info.lastModified
  let fs ← if onWindows then fs.safeSetFileCreateTime path newTime else .ok fs
  fs.setLastWriteTime path info.lastModified

/-! ## `updateDirsTimestamps` -/

/-- The directory an entry is filed under. -/
def dirOf (info : EntryInfo) : Path :=
  if info.type = .directory then info.path else parentPath info.path

/-- The order of `std::string`. -/
def pathKey (p : Path) : List ℕ := p.map UInt8.toNat

def isKnown (info : EntryInfo) : Bool :=
  info.type = .file || info.type = .symlink || info.type = .directory

/-- The turn of the first loop at one entry. -/
def addDir (dirsSorted : SortedMap (List ℕ) EntryInfo) (info : EntryInfo) :
    Except Failure (SortedMap (List ℕ) EntryInfo) :=
  if isKnown info then .ok (dirsSorted.emplace (pathKey (dirOf info)) info)
  else .error (.incorrectEntryType info.type)

/-- The turn of the second loop at one entry of the map. -/
def updateDir (onWindows : Bool) (targetTmpDir : TargetTmpDir) (fs : FileSystem D)
    (info : EntryInfo) : Except Failure (FileSystem D) :=
  let fullPath := append targetTmpDir.path info.path
  updateTimestamps onWindows (if info.type = .directory then fullPath else parentPath fullPath)
    info fs

def updateDirsTimestamps (onWindows : Bool) (targetTmpDir : TargetTmpDir) (m : Metadata)
    (fs : FileSystem D) : Except Failure (FileSystem D) := do
  let dirsSorted ← m.entries.foldlM addDir SortedMap.empty
  dirsSorted.values.reverse.foldlM (updateDir onWindows targetTmpDir) fs

/-! ## The map of the directories -/

theorem foldlM_addDir {entries : List EntryInfo} (h : ∀ info ∈ entries, isKnown info = true) :
    ∀ m : SortedMap (List ℕ) EntryInfo, entries.foldlM addDir m =
      .ok (entries.foldl (fun m info => m.emplace (pathKey (dirOf info)) info) m) := by
  induction entries with
  | nil =>
    intro m
    rfl
  | cons info entries ih =>
    intro m
    rw [foldlM_cons, addDir, if_pos (h info mem_cons_self)]
    exact ih (fun e he => h e (mem_cons_of_mem info he)) _

theorem isKnown_of_foldlM_addDir {entries : List EntryInfo} :
    ∀ {m dirs : SortedMap (List ℕ) EntryInfo}, entries.foldlM addDir m = .ok dirs →
      ∀ info ∈ entries, isKnown info = true := by
  induction entries with
  | nil =>
    intro m dirs _ info hmem
    cases hmem
  | cons info entries ih =>
    intro m dirs hdirs
    rw [foldlM_cons, addDir] at hdirs
    by_cases hknown : isKnown info = true
    · rw [if_pos hknown] at hdirs
      intro e he
      rcases mem_cons.mp he with rfl | he
      · exact hknown
      · exact ih hdirs e he
    · rw [if_neg hknown] at hdirs
      cases hdirs

/-- The entry which stays in the map. -/
def firstOf (entries : List EntryInfo) (dir : Path) : Option EntryInfo :=
  entries.find? fun info => dirOf info = dir

theorem pathKey_injective : Function.Injective pathKey :=
  map_injective_iff.mpr fun _ _ h => UInt8.toNat_inj.mp h

/-- The directories, the first entry of each. -/
def dirsSorted (entries : List EntryInfo) : SortedMap (List ℕ) EntryInfo :=
  entries.foldl (fun m info => m.emplace (pathKey (dirOf info)) info) SortedMap.empty

theorem keyed_dirsSorted (entries : List EntryInfo) :
    (dirsSorted entries).Keyed (fun info => pathKey (dirOf info)) :=
  SortedMap.Keyed.foldl_emplace (SortedMap.keyed_empty _)

theorem mem_values_dirsSorted (entries : List EntryInfo) (info : EntryInfo) :
    info ∈ (dirsSorted entries).values ↔ firstOf entries (dirOf info) = some info := by
  have hlookup := (keyed_dirsSorted entries).lookup_eq (k := pathKey (dirOf info)) (v := info)
  rw [dirsSorted, SortedMap.lookup_foldl_emplace_key (fun info => pathKey (dirOf info))] at hlookup
  simp only [pathKey_injective.eq_iff, and_true] at hlookup
  exact hlookup.symm

theorem firstOf_eq_some {entries : List EntryInfo} {dir : Path}
    (h : firstOf entries dir = some info) : info ∈ entries ∧ dirOf info = dir :=
  ⟨mem_of_find?_eq_some h, by simpa using find?_some h⟩

theorem firstOf_isSome {entries : List EntryInfo} (h : info ∈ entries) :
    (firstOf entries (dirOf info)).isSome := by
  rw [firstOf, find?_isSome]
  exact ⟨info, h, by simp⟩

/-! ## The times -/

section

variable {onWindows : Bool} {targetTmpDir : TargetTmpDir} {fs : FileSystem D}

theorem updateTimestamps_none {path : Path} (info : EntryInfo) (h : fs.locate path = none) :
    updateTimestamps onWindows path info fs = .error (.notFound path) := by
  cases onWindows <;>
    simp [updateTimestamps, FileSystem.safeSetFileCreateTime, FileSystem.setLastWriteTime, h, bind,
      Except.bind]

variable (onWindows) in
theorem updateTimestamps_some {path : Path} {d : D} (info : EntryInfo)
    (h : fs.locate path = some d) :
    ∃ fs', updateTimestamps onWindows path info fs = .ok fs' ∧ fs'.locate = fs.locate ∧
      fs'.lastWriteTime = Function.update fs.lastWriteTime d info.lastModified := by
  cases onWindows <;>
    simp [updateTimestamps, FileSystem.safeSetFileCreateTime, FileSystem.setLastWriteTime, h, bind,
      Except.bind]

theorem updateTimestamps_other {path : Path} {fs' : FileSystem D}
    (h : updateTimestamps onWindows path info fs = .ok fs') {d : D} (hd : fs.locate path ≠ some d) :
    fs'.lastWriteTime d = fs.lastWriteTime d := by
  cases hpath : fs.locate path with
  | none =>
    rw [updateTimestamps_none info hpath] at h
    cases h
  | some d' =>
    obtain ⟨fs'', hok, -, htime⟩ := updateTimestamps_some onWindows info hpath
    rw [h] at hok
    cases hok
    have hne : d ≠ d' := fun heq => hd (heq ▸ hpath)
    rw [htime, Function.update_of_ne hne]

/-- The path of the directory of an entry. -/
def dirPath (targetTmpDir : TargetTmpDir) (info : EntryInfo) : Path :=
  append targetTmpDir.path (dirOf info)

theorem updateDir_eq (hok : chkEntryInfo (ι := Nat) info.toEntryInfo = .ok ()) (fs : FileSystem D) :
    updateDir onWindows targetTmpDir fs info =
      updateTimestamps onWindows (dirPath targetTmpDir info) info fs := by
  obtain ⟨hne, hrel, -⟩ := chkEntryInfo_ok hok
  unfold updateDir dirPath dirOf
  by_cases hdir : info.type = .directory
  · simp only [if_pos hdir]
  · simp only [if_neg hdir, parentPath_append_relative targetTmpDir.isDir hne hrel]

variable (onWindows targetTmpDir) in
/-- The entries of a list, one after the other: the last of those which lead
to a directory gives it its time. -/
theorem foldlM_updateDir (infos : List EntryInfo) :
    ∀ fs : FileSystem D, (∀ info ∈ infos, chkEntryInfo (ι := Nat) info.toEntryInfo = .ok ()) →
      (∀ info ∈ infos, (fs.locate (dirPath targetTmpDir info)).isSome) →
      ∃ fs', infos.foldlM (updateDir onWindows targetTmpDir) fs = .ok fs' ∧
        ∀ d, fs'.lastWriteTime d =
          ((infos.reverse.find? fun info => fs.locate (dirPath targetTmpDir info) = some d).map
            EntryInfo.lastModified).getD (fs.lastWriteTime d) := by
  induction infos with
  | nil => exact fun fs _ _ => ⟨fs, rfl, fun _ => rfl⟩
  | cons info infos ih =>
    intro fs hok hfound
    obtain ⟨d, hd⟩ := Option.isSome_iff_exists.mp (hfound info mem_cons_self)
    obtain ⟨fs₁, hfs₁, hlocate, htime⟩ :=
      updateTimestamps_some onWindows info hd
    obtain ⟨fs', hfs', hlast⟩ := ih fs₁ (fun e he => hok e (mem_cons_of_mem info he))
      fun e he => by rw [hlocate]; exact hfound e (mem_cons_of_mem info he)
    refine ⟨fs', ?_, fun d' => ?_⟩
    · rwa [foldlM_cons, updateDir_eq (hok info mem_cons_self), hfs₁]
    · rw [hlast d', hlocate, htime, reverse_cons, find?_append, find?_cons, hd]
      cases infos.reverse.find? fun info => fs.locate (dirPath targetTmpDir info) = some d' with
      | some e => rfl
      | none =>
        by_cases heq : d = d'
        · simp [heq]
        · simp [heq, Function.update_of_ne (Ne.symm heq)]

/-- A directory which is not there ends the loop. -/
theorem isSome_of_foldlM_updateDir {infos : List EntryInfo} :
    ∀ {fs fs' : FileSystem D},
      (∀ info ∈ infos, chkEntryInfo (ι := Nat) info.toEntryInfo = .ok ()) →
      infos.foldlM (updateDir onWindows targetTmpDir) fs = .ok fs' →
      ∀ info ∈ infos, (fs.locate (dirPath targetTmpDir info)).isSome := by
  induction infos with
  | nil =>
    intro fs fs' _ _ info hmem
    cases hmem
  | cons info infos ih =>
    intro fs fs' hok hfold
    rw [foldlM_cons, updateDir_eq (hok info mem_cons_self)] at hfold
    cases hd : fs.locate (dirPath targetTmpDir info) with
    | none =>
      rw [updateTimestamps_none info hd] at hfold
      cases hfold
    | some d =>
      obtain ⟨fs₁, hfs₁, hlocate, -⟩ := updateTimestamps_some onWindows info hd
      rw [hfs₁] at hfold
      intro e he
      rcases mem_cons.mp he with rfl | he
      · rw [hd]
        rfl
      · rw [← hlocate]
        exact ih (fun e he => hok e (mem_cons_of_mem info he)) hfold e he

/-! ## The entry a directory gets its time from -/

variable (targetTmpDir fs) in
/-- Of the texts which lead to a directory the least one counts, and of the
entries filed under it the first. -/
structure Stamps (m : Metadata) (info : EntryInfo) (d : D) : Prop where
  found : fs.locate (dirPath targetTmpDir info) = some d
  first : firstOf m.entries (dirOf info) = some info
  least : ∀ other ∈ m.entries, fs.locate (dirPath targetTmpDir other) = some d →
    pathKey (dirOf info) ≤ pathKey (dirOf other)

omit [DecidableEq D] in
theorem Stamps.unique {m : Metadata} {other : EntryInfo} {d : D}
    (h : Stamps targetTmpDir fs m info d) (h' : Stamps targetTmpDir fs m other d) :
    info = other := by
  have hle := h.least other (firstOf_eq_some h'.first).1 h'.found
  have hge := h'.least info (firstOf_eq_some h.first).1 h.found
  have hdir : dirOf info = dirOf other := pathKey_injective (le_antisymm hle hge)
  have hfirst := h.first
  rw [hdir, h'.first] at hfirst
  exact (Option.some.inj hfirst).symm

theorem dirPath_congr {other : EntryInfo} (h : dirOf info = dirOf other) :
    dirPath targetTmpDir info = dirPath targetTmpDir other := by
  rw [dirPath, h, dirPath]

/-- The first entry in the map which leads to the directory. -/
theorem stamps_of_find? {m : Metadata} {d : D} (h : (dirsSorted m.entries).values.find? (fun info =>
      fs.locate (dirPath targetTmpDir info) = some d) = some info) :
    Stamps targetTmpDir fs m info d := by
  obtain ⟨hfound, before, after, hvalues, hbefore⟩ := find?_eq_some_iff_append.mp h
  have hmem : info ∈ (dirsSorted m.entries).values := mem_of_find?_eq_some h
  refine ⟨by simpa using hfound, (mem_values_dirsSorted m.entries info).mp hmem, ?_⟩
  intro other hother hlocate
  obtain ⟨kept, hkept⟩ := Option.isSome_iff_exists.mp (firstOf_isSome hother)
  have hdir := (firstOf_eq_some hkept).2
  rw [← dirPath_congr hdir] at hlocate
  rw [← hdir] at hkept ⊢
  have hvalue := (mem_values_dirsSorted m.entries kept).mpr hkept
  have hsorted := (keyed_dirsSorted m.entries).values_sorted
  rw [hvalues] at hvalue hsorted
  rcases mem_append.mp hvalue with hin | hin
  · exact absurd hlocate (by simpa using hbefore kept hin)
  · rcases mem_cons.mp hin with rfl | hin
    · exact le_rfl
    · have hlast := (pairwise_append.mp hsorted).2.1
      exact (rel_of_pairwise_cons hlast hin).le

theorem find?_of_stamps {m : Metadata} {d : D} (h : Stamps targetTmpDir fs m info d) :
    (dirsSorted m.entries).values.find? (fun info =>
      fs.locate (dirPath targetTmpDir info) = some d) = some info := by
  have hmem := (mem_values_dirsSorted m.entries info).mpr h.first
  cases hfind : (dirsSorted m.entries).values.find? fun info =>
      fs.locate (dirPath targetTmpDir info) = some d with
  | none =>
    rw [find?_eq_none] at hfind
    exact absurd h.found (by simpa using hfind info hmem)
  | some other => rw [(stamps_of_find? hfind).unique h]

variable (targetTmpDir fs) in
/-- The directories of all entries are there, and their types are known. -/
def Unpacked (m : Metadata) : Prop :=
  ∀ info ∈ m.entries, isKnown info = true ∧ (fs.locate (dirPath targetTmpDir info)).isSome

variable (onWindows) in
theorem updateDirsTimestamps_ok {m : Metadata} (h : Unpacked targetTmpDir fs m) :
    ∃ fs', updateDirsTimestamps onWindows targetTmpDir m fs = .ok fs' ∧
      ∀ info d, Stamps targetTmpDir fs m info d → fs'.lastWriteTime d = info.lastModified := by
  obtain ⟨fs', hfs', htime⟩ := foldlM_updateDir onWindows targetTmpDir
    (dirsSorted m.entries).values.reverse fs
    (fun info hinfo => by
      have hfirst := (mem_values_dirsSorted m.entries info).mp (mem_reverse.mp hinfo)
      exact m.entries_ok info (firstOf_eq_some hfirst).1)
    (fun info hinfo => by
      have hfirst := (mem_values_dirsSorted m.entries info).mp (mem_reverse.mp hinfo)
      exact (h info (firstOf_eq_some hfirst).1).2)
  refine ⟨fs', ?_, fun info d hstamps => ?_⟩
  · rwa [updateDirsTimestamps, foldlM_addDir fun info hinfo => (h info hinfo).1]
  · rw [htime d, reverse_reverse, find?_of_stamps hstamps]
    rfl

theorem unpacked_of_ok {m : Metadata} {fs' : FileSystem D}
    (h : updateDirsTimestamps onWindows targetTmpDir m fs = .ok fs') :
    Unpacked targetTmpDir fs m := by
  unfold updateDirsTimestamps at h
  cases hmap : m.entries.foldlM addDir SortedMap.empty with
  | error e =>
    rw [hmap] at h
    cases h
  | ok dirs =>
    have hknown := isKnown_of_foldlM_addDir hmap
    rw [foldlM_addDir hknown] at h
    have hfound := isSome_of_foldlM_updateDir (fun info hinfo => by
      have hfirst := (mem_values_dirsSorted m.entries info).mp (mem_reverse.mp hinfo)
      exact m.entries_ok info (firstOf_eq_some hfirst).1) h
    intro info hinfo
    obtain ⟨kept, hkept⟩ := Option.isSome_iff_exists.mp (firstOf_isSome hinfo)
    have hdir := (firstOf_eq_some hkept).2
    rw [← hdir] at hkept
    refine ⟨hknown info hinfo, ?_⟩
    rw [← dirPath_congr hdir]
    exact hfound kept (mem_reverse.mpr ((mem_values_dirsSorted m.entries kept).mpr hkept))

theorem exists_stamps {m : Metadata} {d : D} (hinfo : info ∈ m.entries)
    (hd : fs.locate (dirPath targetTmpDir info) = some d) :
    ∃ other, Stamps targetTmpDir fs m other d := by
  obtain ⟨kept, hkept⟩ := Option.isSome_iff_exists.mp (firstOf_isSome hinfo)
  have hdir := (firstOf_eq_some hkept).2
  rw [← dirPath_congr hdir] at hd
  rw [← hdir] at hkept
  cases hfind : (dirsSorted m.entries).values.find? fun info =>
      fs.locate (dirPath targetTmpDir info) = some d with
  | none =>
    rw [find?_eq_none] at hfind
    have hnot := hfind kept ((mem_values_dirsSorted m.entries kept).mpr hkept)
    exact absurd hd (by simpa using hnot)
  | some other => exact ⟨other, stamps_of_find? hfind⟩

/-! ## The stamps -/

variable (targetTmpDir fs) in
/-- Every directory with an entry of its own has the time of that entry. -/
def DirsStamped (m : Metadata) (fs' : FileSystem D) : Prop :=
  ∀ info ∈ m.entries, info.type = .directory →
    ∀ d, fs.locate (append targetTmpDir.path info.path) = some d →
      fs'.lastWriteTime d = info.lastModified

/-- Setting the times of a directory changes no other one, and every
directory gets the time in its entry exactly when that is the time in the
entry from which the directory is stamped. -/
theorem dirsStamped_iff (onWindows : Bool) (targetTmpDir : TargetTmpDir) (m : Metadata)
    (fs : FileSystem D) :
    (∀ path info fs₁ (fs₂ : FileSystem D), updateTimestamps onWindows path info fs₁ = .ok fs₂ →
      ∀ d, fs₁.locate path ≠ some d → fs₂.lastWriteTime d = fs₁.lastWriteTime d) ∧
    ((∃ fs', updateDirsTimestamps onWindows targetTmpDir m fs = .ok fs' ∧
        DirsStamped targetTmpDir fs m fs') ↔
      Unpacked targetTmpDir fs m ∧
        ∀ info ∈ m.entries, info.type = .directory →
          ∀ d, fs.locate (append targetTmpDir.path info.path) = some d →
            ∀ other, Stamps targetTmpDir fs m other d →
              other.lastModified = info.lastModified) := by
  refine ⟨fun path info fs₁ fs₂ h d hd => updateTimestamps_other h hd, ?_⟩
  constructor
  · rintro ⟨fs', hok, hstamped⟩
    have hunpacked := unpacked_of_ok hok
    obtain ⟨fs'', hok', htime⟩ := updateDirsTimestamps_ok onWindows hunpacked
    rw [hok] at hok'
    cases hok'
    refine ⟨hunpacked, fun info hinfo htype d hd other hother => ?_⟩
    rw [← htime other d hother, hstamped info hinfo htype d hd]
  · rintro ⟨hunpacked, hsame⟩
    obtain ⟨fs', hok, htime⟩ := updateDirsTimestamps_ok onWindows hunpacked
    refine ⟨fs', hok, fun info hinfo htype d hd => ?_⟩
    have hdir : dirPath targetTmpDir info = append targetTmpDir.path info.path := by
      rw [dirPath, dirOf, if_pos htype]
    obtain ⟨other, hother⟩ := exists_stamps hinfo (hdir ▸ hd)
    rw [htime other d hother, hsame info hinfo htype d hd other hother]

end

end

/-! A package whose file is recorded before its directory. -/

def entryAt (type : EntryType) (relPath : String) (lastModified : Int) : EntryInfo :=
  { Data.EntryInfo.default with
    type := type
    relPath := some (octets relPath)
    timeCreated := 0
    lastModified := lastModified }

def fileFirst : Metadata where
  entries := [entryAt .directory "a" 10, entryAt .file "a/b/f.txt" 40, entryAt .directory "a/b" 20,
    entryAt .directory "a/b/c" 30]
  entries_ok := by decide

def outDir : TargetTmpDir := ⟨octets "/t", by decide, by decide⟩

/-- Every path leads to the file of its names. -/
def plainTree : FileSystem (List Octets) := ⟨fun p => some (normalize p), fun _ => 0, fun _ => 0⟩

/-- The directory "a/b" gets the time of the file, as in
`BlobTransfer_UnpackagerDirectoryTimestampsTests`. -/
theorem fileFirst_not_stamped :
    Unpacked outDir plainTree fileFirst ∧
      ∃ fs', updateDirsTimestamps false outDir fileFirst plainTree = .ok fs' ∧
        fs'.lastWriteTime (normalize (octets "/t/a/b")) = 40 ∧
        ¬ DirsStamped outDir plainTree fileFirst fs' := by
  have hunpacked : Unpacked outDir plainTree fileFirst := fun info hinfo =>
    ⟨by revert info; decide, rfl⟩
  obtain ⟨fs', hok, htime⟩ := updateDirsTimestamps_ok false hunpacked
  have hfile : fs'.lastWriteTime (normalize (octets "/t/a/b")) = 40 :=
    htime (entryAt .file "a/b/f.txt" 40) _ ⟨by decide, by decide, by decide⟩
  refine ⟨hunpacked, fs', hok, hfile, fun h => ?_⟩
  have hdir := h (entryAt .directory "a/b" 20) (by decide) rfl _ rfl
  have hpath : normalize (append outDir.path (entryAt .directory "a/b" 20).path) =
      normalize (octets "/t/a/b") := by decide
  rw [hpath, hfile] at hdir
  exact absurd hdir (by decide)

end Baselib.Transfer.DirsTimestamps
