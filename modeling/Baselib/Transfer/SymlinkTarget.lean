/-
Baselib.Transfer.SymlinkTarget — which symlink targets the unpackager
creates: `chkSymlinkTargetAllowed` of `transfer/FilesUnpackagerUnit.h`.

The check walks over the elements of the target and keeps the text of
the path it is at. It starts at `parent_path` of the full path of the
link, which is a cut of the text: a "." in the entry's path, or a
separator at its end, is a level of the text and none of the tree. So
the check grants a target as many ".." as the entry's path has elements
but the last, while the link is only as deep as the path has names but
the last. `chkSymlink_iff` says for which entries and targets that makes
a difference.
-/
import Baselib.Data.FilesystemMetadataTheorems

namespace Baselib.Transfer

open Lib Core.FsPath
open Data (EntryInfo EntryType)
open Data.FilesystemMetadataInMemory (chkEntryInfo)

/-! ## The target directory -/

/-- The text of a uuid: not empty, without a separator. -/
def UuidText := { text : Octets // text ≠ [] ∧ slash ∉ text }

/-- `m_targetTmpDir`: it ends with the name of a directory. -/
structure TargetTmpDir where
  path : Path
  isDir : IsDir path

/-- The path which `fs::makeHidden` gives the directory on UNIX. -/
def makeHidden (path : Path) : Path :=
  if (filename path).head? = dot.head? then path
  else append (parentPath path) (dot ++ filename path)

/-- The staging directory next to the target directory, as the
constructor names it. -/
def TargetTmpDir.create (targetDir : Path) (uuid : UuidText) : TargetTmpDir where
  path := makeHidden (append (parentPath targetDir) uuid.1)
  isDir := by
    have hname : IsDir uuid.1 := ⟨uuid.2.1, fun e => uuid.2.2 (List.mem_of_getLast? e)⟩
    unfold makeHidden
    split
    · exact hname.append _
    · have hnot : slash ∉ dot ++ filename (append (parentPath targetDir) uuid.1) := by
        rw [List.mem_append]
        rintro (h | h)
        · simp [slash, dot] at h
        · simpa using List.mem_rtakeWhile_imp h
      refine IsDir.append _ ⟨by simp [dot], fun e => hnot (List.mem_of_getLast? e)⟩

/-- `getFullPath`. -/
def getFullPath (targetTmpDir : Path) (info : EntryInfo) : Path := append targetTmpDir info.path

/-! ## The check -/

inductive SymlinkTargetPolicy where
  | stpAllow
  | stpRelativeOnly
  | stpContained
  deriving DecidableEq, Repr

/-- One element of the target; `none` when it leaves the directory. -/
def resolveElement (targetTmpDir resolved : Path) (name : Octets) : Option Path :=
  if name = dot then some resolved
  else if name = dotDot then
    -- paths are compared element by element
    if elements resolved = elements targetTmpDir ∨ parentPath resolved = [] then none
    else some (parentPath resolved)
  else some (append resolved name)

/-- The loop over the elements of the target. -/
def resolveTarget (targetTmpDir : Path) : Path → List Octets → Option Path
  | resolved, [] => some resolved
  | resolved, name :: rest =>
    match resolveElement targetTmpDir resolved name with
    | none => none
    | some resolved => resolveTarget targetTmpDir resolved rest

/-- The reason for which the link is skipped. -/
def symlinkRejection (policy : SymlinkTargetPolicy) (targetTmpDir targetPath symlinkPath : Path) :
    Option Octets :=
  if policy = .stpAllow then none
  else if isAbsolute targetPath then some (octets "the target is an absolute path")
  else if policy = .stpRelativeOnly then none
  else
    match resolveTarget targetTmpDir (parentPath symlinkPath) (elements targetPath) with
    | none => some (octets "the target escapes the directory being unpacked")
    | some resolved =>
      if resolved.length < targetTmpDir.length
          ∨ resolved.take targetTmpDir.length ≠ targetTmpDir then
        some (octets "the target escapes the directory being unpacked")
      else none

/-- `chkSymlinkTargetAllowed`, and `m_symlinksIgnored` afterwards. -/
def chkSymlinkTargetAllowed (policy : SymlinkTargetPolicy) (targetTmpDir targetPath symlinkPath : Path)
    (symlinksIgnored : UInt64) : Bool × UInt64 :=
  match symlinkRejection policy targetTmpDir targetPath symlinkPath with
  | none => (true, symlinksIgnored)
  | some _ => (false, symlinksIgnored + 1)

/-! ## What the target denotes -/

/-- The directory of the link, from the root, innermost first: the names
of the entry's path but the last. -/
def linkDirectory (relPath : Path) : List Octets := (normalize relPath).dropLast.reverse

/-- The target is relative, and following its components from the
directory of the link never leaves the root. -/
def Contained (relPath targetPath : Path) : Prop :=
  isAbsolute targetPath = false ∧
    (follow componentKind (linkDirectory relPath) (segments targetPath)).isSome

/-- How far the target climbs above the directory of the link. -/
def climbOf (targetPath : Path) : Nat := climb componentKind (segments targetPath)

theorem contained_iff {relPath targetPath : Path} : Contained relPath targetPath ↔
    isAbsolute targetPath = false ∧ climbOf targetPath ≤ (normalize relPath).length - 1 := by
  unfold Contained climbOf linkDirectory
  rw [follow_isSome_iff, List.length_reverse, List.length_dropLast]

/-! ## The elements of a target -/

theorem mem_elements {p : Path} {name : Octets} (hrel : isAbsolute p = false)
    (h : name ∈ elements p) : name ≠ [] ∧ slash ∉ name := by
  simp only [elements, hrel, Bool.false_eq_true, if_false, List.nil_append, List.mem_append] at h
  rcases h with h | h
  · obtain ⟨hseg, hne⟩ := List.mem_filter.mp h
    exact ⟨by simpa using hne, not_mem_of_mem_segments hseg⟩
  · split at h
    · rw [List.mem_singleton.mp h]
      exact ⟨by simp [dot], by simp [dot, slash]⟩
    · cases h

/-- The elements climb as far as the components between the separators. -/
theorem climb_elements {p : Path} (hrel : isAbsolute p = false) :
    climb componentKind (elements p) = climbOf p := by
  have hnames : climb componentKind (names p) = climbOf p :=
    climb_filter componentKind _ (segments p) fun c _ hc =>
      stays_of_empty (by simpa using hc)
  unfold elements
  rw [hrel, if_neg Bool.false_ne_true, List.nil_append, ← hnames]
  refine climb_append componentKind (names p) _ fun d hd => ?_
  split at hd
  · rw [List.mem_singleton.mp hd]
    rfl
  · cases hd

/-! ## The walk of the check -/

section

variable {targetTmpDir : Path} (hroot : IsDir targetTmpDir)

include hroot

/-- One element, from a path below the target directory. -/
theorem resolveElement_spec {y : Path} {name : Octets} (hrel : isAbsolute y = false)
    (hlast : y.getLast? ≠ some slash) (hne : name ≠ []) (hname : slash ∉ name) :
    match componentKind name with
    | .parent =>
      if names y = [] then resolveElement targetTmpDir (append targetTmpDir y) name = none
      else resolveElement targetTmpDir (append targetTmpDir y) name
        = some (append targetTmpDir (parentPath y))
    | .name => resolveElement targetTmpDir (append targetTmpDir y) name
        = some (append targetTmpDir (append y name))
    | _ => resolveElement targetTmpDir (append targetTmpDir y) name
        = some (append targetTmpDir y) := by
  unfold componentKind resolveElement
  rw [if_neg hne]
  by_cases hdot : name = dot
  · rw [if_pos hdot, if_pos hdot]
  · rw [if_neg hdot, if_neg hdot]
    by_cases hdotDot : name = dotDot
    · rw [if_pos hdotDot, if_pos hdotDot, elements_append hroot hrel hlast]
      by_cases hy : y = []
      · subst hy
        simp [names_nil]
      · have hparent := parentPath_append_relative hroot hy hrel
        have hne' := append_ne_nil targetTmpDir (parentPath y) (.inl hroot.1)
        have hnames := names_ne_nil hrel hy
        simp [hparent, hne', hnames]
    · rw [if_neg hdotDot, if_neg hdotDot]
      exact congrArg some ((append_name hrel hlast hname hne).2.2.2 targetTmpDir hroot)

/-- The check gets through the elements when they climb no further than
the path has names below the target directory, and is below it then. -/
theorem resolveTarget_spec (els : List Octets) : ∀ y : Path, isAbsolute y = false →
    y.getLast? ≠ some slash → (∀ e ∈ els, e ≠ [] ∧ slash ∉ e) →
    if climb componentKind els ≤ (names y).length then
      ∃ y', resolveTarget targetTmpDir (append targetTmpDir y) els = some (append targetTmpDir y')
        ∧ isAbsolute y' = false
    else resolveTarget targetTmpDir (append targetTmpDir y) els = none := by
  induction els with
  | nil =>
    intro y hrel _ _
    rw [if_pos (by simp [climb])]
    exact ⟨y, rfl, hrel⟩
  | cons e els ih =>
    intro y hrel hlast hels
    obtain ⟨hne, hslash⟩ := hels e (by simp)
    have hels' : ∀ x ∈ els, x ≠ [] ∧ slash ∉ x := fun x hx => hels x (by simp [hx])
    have hstep := resolveElement_spec hroot hrel hlast hne hslash
    unfold climb resolveTarget
    cases hk : componentKind e with
    | current =>
      simp only [hk] at hstep
      simp only [hstep]
      exact ih y hrel hlast hels'
    | empty =>
      simp only [hk] at hstep
      simp only [hstep]
      exact ih y hrel hlast hels'
    | name =>
      obtain ⟨hrel', hlast', hnames, -⟩ := append_name hrel hlast hslash hne
      have h := ih (append y e) hrel' hlast' hels'
      simp only [hk] at hstep
      simp only [hstep]
      rw [hnames, List.length_append, List.length_singleton] at h
      simpa only [Nat.sub_le_iff_le_add] using h
    | parent =>
      simp only [hk] at hstep
      by_cases hy : names y = []
      · rw [if_pos hy] at hstep
        simp [hstep, hy]
      · rw [if_neg hy] at hstep
        have hrel' := isAbsolute_parentPath hrel
        have hlast' := getLast?_parentPath hrel
        have hparent := elements_parentPath hrel
        rw [elements_eq_names hrel hlast, elements_eq_names hrel' hlast'] at hparent
        have hpos : 0 < (names y).length := List.length_pos_of_ne_nil hy
        have h := ih (parentPath y) hrel' hlast' hels'
        simp only [hstep]
        rw [hparent, List.length_dropLast] at h
        have hiff : climb componentKind els ≤ (names y).length - 1 ↔
            climb componentKind els + 1 ≤ (names y).length := by omega
        simpa only [hiff] using h

/-- The check accepts a relative target exactly when it climbs no further
than the entry's path has elements but the last. -/
theorem chkSymlinkTargetAllowed_iff {relPath targetPath : Path} (hrel : isAbsolute relPath = false)
    (hne : relPath ≠ []) (htarget : isAbsolute targetPath = false) (symlinksIgnored : UInt64) :
    (chkSymlinkTargetAllowed .stpContained targetTmpDir targetPath (append targetTmpDir relPath)
        symlinksIgnored).1 = true ↔ climbOf targetPath ≤ (elements relPath).length - 1 := by
  have hstart := parentPath_append_relative hroot hne hrel
  have hrel' := isAbsolute_parentPath hrel
  have hlast' := getLast?_parentPath hrel
  have hwalk := resolveTarget_spec hroot (elements targetPath) (parentPath relPath) hrel' hlast'
    fun e he => mem_elements htarget he
  have hdepth : (names (parentPath relPath)).length = (elements relPath).length - 1 := by
    rw [← elements_eq_names hrel' hlast', elements_parentPath hrel, List.length_dropLast]
  rw [climb_elements htarget, hdepth] at hwalk
  unfold chkSymlinkTargetAllowed symlinkRejection
  simp only [htarget, hstart, reduceCtorEq, if_false, Bool.false_eq_true]
  by_cases hclimb : climbOf targetPath ≤ (elements relPath).length - 1
  · rw [if_pos hclimb] at hwalk
    obtain ⟨y', hy', hyrel⟩ := hwalk
    have hprefix : targetTmpDir <+: append targetTmpDir y' := by
      by_cases hy : y' = []
      · rw [hy, append_nil]
      · rw [append_eq hroot hy hyrel]
        exact List.prefix_append _ _
    have htake := List.prefix_iff_eq_take.mp hprefix
    have hlen : ¬ (append targetTmpDir y').length < targetTmpDir.length :=
      Nat.not_lt.mpr hprefix.length_le
    simp [hy', hclimb, hlen, ← htake]
  · rw [if_neg hclimb] at hwalk
    simp [hwalk, hclimb]

end

/-! ## The check against what the target denotes -/

theorem normalize_length_le (p : Path) : (normalize p).length ≤ (elements p).length := by
  have hsub : (normalize p).Sublist (names p) := by
    refine List.monotone_filter_right _ fun name h => ?_
    by_contra hne
    have he : name = [] := by simpa using hne
    simp [stays_of_empty he] at h
  refine hsub.length_le.trans ?_
  simp only [elements, List.length_append]
  omega

/-- For an accepted entry the check and the containment of the target
agree exactly unless the target is relative and climbs above the link's
directory by more levels than the entry's path has names but the last,
and by no more than it has elements but the last. -/
theorem chkSymlink_iff (root : TargetTmpDir) (ι : Type) (info : EntryInfo)
    (hok : chkEntryInfo (ι := ι) info = .ok ()) (targetPath : Path) (symlinksIgnored : UInt64) :
    ((chkSymlinkTargetAllowed .stpContained root.path targetPath (getFullPath root.path info)
        symlinksIgnored).1 = true ↔ Contained info.path targetPath) ↔
      (isAbsolute targetPath = true ∨
        ¬ ((normalize info.path).length - 1 < climbOf targetPath ∧
          climbOf targetPath ≤ (elements info.path).length - 1)) := by
  obtain ⟨hne, hrel, -⟩ := Data.FilesystemMetadataInMemory.chkEntryInfo_ok hok
  by_cases habs : isAbsolute targetPath = true
  · have hcode : (chkSymlinkTargetAllowed .stpContained root.path targetPath
        (getFullPath root.path info) symlinksIgnored).1 = false := by
      simp [chkSymlinkTargetAllowed, symlinkRejection, habs]
    simp [hcode, contained_iff, habs]
  · have hrelt : isAbsolute targetPath = false := by simpa using habs
    have hcode := chkSymlinkTargetAllowed_iff root.isDir hrel hne hrelt symlinksIgnored
    have hle := normalize_length_le info.path
    unfold getFullPath
    rw [hcode, contained_iff]
    simp only [hrelt, true_and, Bool.false_eq_true, false_or]
    omega

/-- The staging directory "/t/.u" of the target directory "/t/x". -/
def sampleRoot : TargetTmpDir :=
  .create (octets "/t/x") ⟨octets "u", by decide, by decide⟩

def linkEntry (relPath targetPath : Path) : EntryInfo :=
  { EntryInfo.default with
    type := .symlink, relPath := some relPath, targetPath := some targetPath }

theorem chkSymlink_iff_sibling : sampleRoot.path = octets "/t/.u" ∧
    ((chkSymlinkTargetAllowed .stpContained sampleRoot.path (octets "../b/c")
      (getFullPath sampleRoot.path (linkEntry (octets "a/link") (octets "../b/c"))) 0).1 = true ↔
      Contained (octets "a/link") (octets "../b/c")) :=
  ⟨by decide, (chkSymlink_iff sampleRoot Nat (linkEntry (octets "a/link") (octets "../b/c"))
    (by decide) (octets "../b/c") 0).mpr (.inr (by decide))⟩

/-- The link "./link" is in the root itself; its target ".." is accepted. -/
theorem chkSymlink_dotEntry :
    chkEntryInfo (ι := Nat) (linkEntry (octets "./link") (octets "..")) = .ok () ∧
      (chkSymlinkTargetAllowed .stpContained sampleRoot.path (octets "..")
        (getFullPath sampleRoot.path (linkEntry (octets "./link") (octets ".."))) 0).1 = true ∧
      ¬ Contained (octets "./link") (octets "..") := by
  refine ⟨by decide, by decide, fun h => ?_⟩
  exact absurd (contained_iff.mp h).2 (by decide)

end Baselib.Transfer
