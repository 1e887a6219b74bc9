/-
Baselib.Core.FsPath — `fs::path`, which is the path of Boost.Filesystem,
version 3, on a POSIX system.

A path is its text; '/' is the only separator. Only paths without a
network name (`//host`) are meant. The iteration gives the root
directory, then the names between the separators, and "." for separators
at the end (see the comment in `getRelativePath` of `PathUtils.h`).
`operator/=` joins texts, so it keeps whatever spelling its operands
have; `parent_path` cuts the text.
-/
import Mathlib.Data.List.DropRight
import Baselib.Lib.Octets
import Baselib.Lib.DirectoryWalk

namespace Baselib.Core.FsPath

open Lib List

abbrev Path := Octets

def slash : UInt8 := 0x2f

def dot : Octets := [0x2e]

def dotDot : Octets := [0x2e, 0x2e]

/-! ## The members of the path -/

/-- `is_absolute`, and `root_path` is not empty. -/
def isAbsolute (p : Path) : Bool := p.head? = some slash

/-- What stands between the separators. -/
def segments (p : Path) : List Octets := p.splitOn slash

/-- The segments which are not empty. -/
def names (p : Path) : List Octets := (segments p).filter (· ≠ [])

/-- What `begin` to `end` iterates over. -/
def elements (p : Path) : List Octets :=
  (if isAbsolute p then [[slash]] else []) ++ names p ++
    if p.getLast? = some slash ∧ names p ≠ [] then [dot] else []

/-- `operator/=`, and `operator/`. -/
def append (p q : Path) : Path :=
  if q = [] then p
  else if p = [] ∨ p.getLast? = some slash ∨ q.head? = some slash then p ++ q
  else p ++ slash :: q

/-- The text after the last separator: `filename`, when there is one. -/
def filename (p : Path) : Octets := p.rtakeWhile (· ≠ slash)

/-- `parent_path`. -/
def parentPath (p : Path) : Path :=
  let stem := p.rdropWhile (· ≠ slash)
  let dir := stem.rdropWhile (· = slash)
  -- the root directory is the parent of a file in it, and has itself none
  if dir = [] ∧ stem ≠ [] ∧ stem ≠ p then [slash] else dir

/-- What a component of a path does to a walk. -/
def componentKind (name : Octets) : SegmentKind :=
  if name = [] then .empty
  else if name = dot then .current
  else if name = dotDot then .parent
  else .name

/-- The lexical normal form: empty and "." components are dropped. -/
def normalize (p : Path) : List Octets :=
  (segments p).filter fun name => !(componentKind name).stays

example : elements (octets "a//./b/") = [octets "a", octets ".", octets "b", octets "."] := by
  decide

example : parentPath (octets "/a//b/") = octets "/a//b" := by decide

/-! ## Segments and names -/

variable {p : Path}

theorem segments_of_not_mem (h : slash ∉ p) : segments p = [p] :=
  splitOn_eq_singleton h

theorem segments_append_slash (p q : Path) :
    segments (p ++ slash :: q) = segments p ++ segments q :=
  splitOn_append_cons_self p q

theorem not_mem_of_mem_segments {name : Octets} (h : name ∈ segments p) : slash ∉ name :=
  not_mem_of_mem_splitOn h

theorem names_of_not_mem (h : slash ∉ p) (hp : p ≠ []) : names p = [p] := by
  rw [names, segments_of_not_mem h]
  simp [hp]

theorem names_append_slash (p q : Path) : names (p ++ slash :: q) = names p ++ names q := by
  rw [names, segments_append_slash, filter_append]
  rfl

theorem names_nil : names [] = [] := rfl

theorem names_append_slashes (d q : Path) (k : Nat) :
    names (d ++ List.replicate (k + 1) slash ++ q) = names d ++ names q := by
  induction k generalizing d with
  | zero => simpa using names_append_slash d q
  | succ k ih =>
    have h := ih (d ++ [slash])
    have hd : names (d ++ [slash]) = names d := by
      simpa [names_nil] using names_append_slash d []
    rw [hd] at h
    rw [← h, replicate_succ]
    simp

/-- A path in front of the root directory's: relative and not empty. -/
theorem names_ne_nil (hrel : isAbsolute p = false) (hp : p ≠ []) : names p ≠ [] := by
  obtain ⟨a, ha, rfl | ⟨b, rfl⟩⟩ := exists_cut slash p
  · rw [names_of_not_mem ha hp]
    exact cons_ne_nil _ _
  · cases a with
    | nil => simp [isAbsolute] at hrel
    | cons c a =>
      rw [names_append_slash, names_of_not_mem ha (cons_ne_nil _ _)]
      simp

/-! ## The parent of a relative path -/

/-- A path which the rest of another one goes on from: not empty, without
a separator at its end. -/
def IsDir (d : Path) : Prop := d ≠ [] ∧ d.getLast? ≠ some slash

theorem rdropWhile_append {α : Type} {p : α → Bool} (l : List α) {m : List α}
    (h : ∀ x ∈ m, p x = true) : (l ++ m).rdropWhile p = l.rdropWhile p := by
  have hm : ∀ x ∈ m.reverse, p x = true := by simpa using h
  rw [List.rdropWhile, reverse_append, dropWhile_append_of_pos hm, List.rdropWhile]

theorem IsDir.rdropWhile {d : Path} (h : IsDir d) : d.rdropWhile (· = slash) = d := by
  rw [rdropWhile_eq_self_iff]
  intro hd
  have hlast := h.2
  rw [getLast?_eq_some_getLast hd] at hlast
  simpa using hlast

theorem parentPath_of_not_mem (h : slash ∉ p) : parentPath p = [] := by
  have hstem : p.rdropWhile (· ≠ slash) = [] := by
    rw [rdropWhile_eq_nil_iff]
    intro x hx
    simpa using fun e : x = slash => h (e ▸ hx)
  simp only [parentPath, hstem]
  rfl

theorem parentPath_append {d name : Path} (hd : IsDir d) (k : Nat) (hname : slash ∉ name) :
    parentPath (d ++ List.replicate (k + 1) slash ++ name) = d := by
  have hstem : (d ++ List.replicate (k + 1) slash ++ name).rdropWhile (· ≠ slash)
      = d ++ List.replicate (k + 1) slash := by
    rw [rdropWhile_append _ fun x hx => by simpa using fun e : x = slash => hname (e ▸ hx)]
    rw [replicate_succ', ← append_assoc]
    exact rdropWhile_concat_neg _ _ _ (by simp)
  have hdir : (d ++ List.replicate (k + 1) slash).rdropWhile (· = slash) = d := by
    rw [rdropWhile_append _ fun x hx => by simpa using (mem_replicate.mp hx).2]
    exact hd.rdropWhile
  simp only [parentPath, hstem, hdir]
  exact if_neg fun h => hd.1 h.1

/-- A relative path is one name, or a directory, separators and what
follows them. -/
theorem exists_dir (hrel : isAbsolute p = false) :
    slash ∉ p ∨ ∃ d k name, p = d ++ List.replicate (k + 1) slash ++ name ∧ IsDir d ∧
      isAbsolute d = false ∧ slash ∉ name := by
  by_cases hp : slash ∈ p
  · right
    obtain ⟨a, name, hsplit, hname⟩ : ∃ a name, p = a ++ slash :: name ∧ slash ∉ name := by
      obtain ⟨a, b, hab, hb⟩ := eq_append_cons_of_mem (mem_reverse.mpr hp)
      refine ⟨b.reverse, a.reverse, ?_, by simpa using hb⟩
      rw [← reverse_reverse p, hab]
      simp
    have hslashes : a.rdropWhile (· = slash) ++ a.rtakeWhile (· = slash) = a :=
      rdropWhile_append_rtakeWhile
    have hrep : a.rtakeWhile (· = slash)
        = List.replicate (a.rtakeWhile (· = slash)).length slash :=
      eq_replicate_iff.mpr ⟨rfl, fun x hx => by simpa using mem_rtakeWhile_imp hx⟩
    have heq : p = a.rdropWhile (· = slash)
        ++ List.replicate ((a.rtakeWhile (· = slash)).length + 1) slash ++ name := by
      rw [replicate_succ', ← hrep, ← append_assoc, hslashes, hsplit]
      simp
    have hne : a.rdropWhile (· = slash) ≠ [] := by
      intro h
      rw [heq, h] at hrel
      simp [isAbsolute, replicate_succ] at hrel
    have hlast : (a.rdropWhile (· = slash)).getLast? ≠ some slash := by
      rw [getLast?_eq_some_getLast hne]
      simpa using rdropWhile_last_not (· = slash) a hne
    refine ⟨_, _, name, heq, ⟨hne, hlast⟩, ?_, hname⟩
    rw [heq] at hrel
    obtain ⟨c, cs, hc⟩ := exists_cons_of_ne_nil hne
    simpa [isAbsolute, hc] using hrel
  · exact .inl hp

theorem isAbsolute_parentPath (hrel : isAbsolute p = false) :
    isAbsolute (parentPath p) = false := by
  obtain h | ⟨d, k, name, rfl, hd, hdrel, hname⟩ := exists_dir hrel
  · rw [parentPath_of_not_mem h]
    rfl
  · rwa [parentPath_append hd k hname]

theorem getLast?_parentPath (hrel : isAbsolute p = false) :
    (parentPath p).getLast? ≠ some slash := by
  obtain h | ⟨d, k, name, rfl, hd, -, hname⟩ := exists_dir hrel
  · rw [parentPath_of_not_mem h]
    simp
  · rw [parentPath_append hd k hname]
    exact hd.2

/-! ## Elements -/

theorem elements_relative (hrel : isAbsolute p = false) (hp : p ≠ []) :
    elements p = names p ++ if p.getLast? = some slash then [dot] else [] := by
  simp [elements, hrel, names_ne_nil hrel hp]

theorem elements_eq_names (hrel : isAbsolute p = false)
    (hlast : p.getLast? ≠ some slash) : elements p = names p := by
  by_cases hp : p = []
  · subst hp
    rfl
  · rw [elements_relative hrel hp, if_neg hlast, List.append_nil]

theorem elements_parentPath (hrel : isAbsolute p = false) :
    elements (parentPath p) = (elements p).dropLast := by
  by_cases hp : p = []
  · subst hp
    rfl
  · rw [elements_relative hrel hp]
    obtain h | ⟨d, k, name, rfl, hd, hdrel, hname⟩ := exists_dir hrel
    · have hlast : p.getLast? ≠ some slash := fun e => h (mem_of_getLast? e)
      rw [parentPath_of_not_mem h, names_of_not_mem h hp, if_neg hlast]
      rfl
    · rw [parentPath_append hd k hname, elements_eq_names hdrel hd.2, names_append_slashes]
      by_cases hn : name = []
      · subst hn
        have hlast : (d ++ List.replicate (k + 1) slash ++ []).getLast? = some slash := by
          simp [replicate_succ', ← append_assoc]
        rw [if_pos hlast, names_nil, List.append_nil, dropLast_concat]
      · have hlast : (d ++ List.replicate (k + 1) slash ++ name).getLast? ≠ some slash := by
          rw [getLast?_append_of_ne_nil _ hn]
          exact fun e => hname (mem_of_getLast? e)
        rw [if_neg hlast, names_of_not_mem hname hn, List.append_nil, dropLast_concat]

/-! ## A relative path joined to a directory -/

theorem append_nil (d : Path) : append d [] = d := if_pos rfl

theorem append_eq {d q : Path} (hd : IsDir d) (hq : q ≠ []) (hrel : isAbsolute q = false) :
    append d q = d ++ slash :: q := by
  have hhead : q.head? ≠ some slash := by simpa [isAbsolute] using hrel
  rw [append, if_neg hq, if_neg]
  exact fun h => h.elim hd.1 fun h => h.elim hd.2 hhead

theorem getLast?_append (d : Path) {q : Path} (hq : q ≠ []) :
    (append d q).getLast? = q.getLast? := by
  unfold append
  rw [if_neg hq]
  split
  · exact getLast?_append_of_ne_nil _ hq
  · rw [getLast?_append_of_ne_nil _ (cons_ne_nil _ _), getLast?_cons,
      getLast?_eq_some_getLast hq]
    rfl

theorem append_ne_nil (d q : Path) (h : d ≠ [] ∨ q ≠ []) : append d q ≠ [] := by
  unfold append
  by_cases hq : q = []
  · rw [if_pos hq]
    exact h.resolve_right (not_not_intro hq)
  · rw [if_neg hq]
    split <;> simp [hq]

theorem IsDir.append (d : Path) {q : Path} (hq : IsDir q) : IsDir (append d q) :=
  ⟨append_ne_nil d q (.inr hq.1), by rw [getLast?_append d hq.1]; exact hq.2⟩

theorem parentPath_append_relative {d q : Path} (hd : IsDir d) (hq : q ≠ [])
    (hrel : isAbsolute q = false) : parentPath (append d q) = append d (parentPath q) := by
  rw [append_eq hd hq hrel]
  obtain h | ⟨e, k, name, rfl, he, herel, hname⟩ := exists_dir hrel
  · rw [parentPath_of_not_mem h, append_nil]
    simpa using parentPath_append hd 0 h
  · rw [parentPath_append he k hname, append_eq hd he.1 herel]
    have hdir : IsDir (d ++ slash :: e) := append_eq hd he.1 herel ▸ he.append d
    simpa using parentPath_append hdir k hname

theorem isAbsolute_append {d q : Path} (hd : d ≠ []) : isAbsolute (append d q) = isAbsolute d := by
  obtain ⟨c, d, rfl⟩ := exists_cons_of_ne_nil hd
  unfold append
  split
  · rfl
  · split <;> rfl

/-- One name more at the end of a relative path. -/
theorem append_name {q name : Path} (hrel : isAbsolute q = false)
    (hlast : q.getLast? ≠ some slash) (hname : slash ∉ name) (hne : name ≠ []) :
    isAbsolute (append q name) = false ∧ (append q name).getLast? ≠ some slash ∧
      names (append q name) = names q ++ [name] ∧
      (∀ d, IsDir d → append (append d q) name = append d (append q name)) := by
  have hnamerel : isAbsolute name = false := by
    simpa [isAbsolute] using fun e : name.head? = some slash => hname (mem_of_head? e)
  have hnamelast : name.getLast? ≠ some slash := fun e => hname (mem_of_getLast? e)
  by_cases hq : q = []
  · subst hq
    have happ : append [] name = name := by simp [append]
    rw [happ]
    refine ⟨hnamerel, hnamelast, names_of_not_mem hname hne, fun d _ => ?_⟩
    rw [append_nil]
  · have hdir : IsDir q := ⟨hq, hlast⟩
    have happ := append_eq hdir hne hnamerel
    refine ⟨?_, ?_, ?_, fun d hd => ?_⟩
    · rw [isAbsolute_append hq, hrel]
    · rwa [getLast?_append q hne]
    · rw [happ, names_append_slash, names_of_not_mem hname hne]
    · have hdq : IsDir (append d q) := hdir.append d
      have hrel' : isAbsolute (q ++ slash :: name) = false := by
        rw [← happ, isAbsolute_append hq, hrel]
      rw [append_eq hdq hne hnamerel, append_eq hd hq hrel, happ,
        append_eq hd (by simp) hrel']
      simp

/-- Two joined paths of one directory have the elements of the directory
in common. -/
theorem elements_append {d q : Path} (hd : IsDir d) (hrel : isAbsolute q = false)
    (hlast : q.getLast? ≠ some slash) : elements (append d q) = elements d ++ names q := by
  by_cases hq : q = []
  · subst hq
    rw [append_nil, names_nil, List.append_nil]
  · have hl : (append d q).getLast? ≠ some slash := by
      rwa [getLast?_append d hq]
    have habs := isAbsolute_append (q := q) hd.1
    have hnames : names (append d q) = names d ++ names q := by
      rw [append_eq hd hq hrel, names_append_slash]
    simp only [elements, habs, hnames, hl, hd.2, false_and, if_false, List.append_nil,
      append_assoc]

/-! ## Normal forms -/

/-- The normal form of a joined path is the joined normal form. -/
theorem normalize_append {d q : Path} (hd : IsDir d) (hrel : isAbsolute q = false) :
    normalize (append d q) = normalize d ++ normalize q := by
  by_cases hq : q = []
  · subst hq
    rw [append_nil]
    exact (List.append_nil _).symm
  · rw [append_eq hd hq hrel, normalize, segments_append_slash, filter_append]
    rfl

/-- A component the iteration leaves out stays where it is. -/
theorem stays_of_empty {name : Octets} (h : name = []) : (componentKind name).stays = true := by
  subst h
  rfl

theorem mem_elements_of_mem_segments {name : Octets} (h : name ∈ segments p)
    (hne : name ≠ []) : name ∈ elements p := by
  have hname : name ∈ names p := mem_filter.mpr ⟨h, by simpa using hne⟩
  exact mem_append_left _ (mem_append_right _ hname)

theorem componentKind_eq_parent {name : Octets} : componentKind name = .parent ↔ name = dotDot := by
  unfold componentKind
  by_cases h₁ : name = [] <;> by_cases h₂ : name = dot <;> by_cases h₃ : name = dotDot <;>
    simp_all [dot, dotDot]

/-- A path without ".." stays below where it starts, at its normal form. -/
theorem follow_segments (h : dotDot ∉ elements p) (dir : List Octets) :
    follow componentKind dir (segments p) = some ((normalize p).reverse ++ dir) := by
  refine follow_of_no_parent componentKind (segments p) dir fun name hname hkind => ?_
  rw [componentKind_eq_parent] at hkind
  subst hkind
  exact h (mem_elements_of_mem_segments hname (by simp [dotDot]))

end Baselib.Core.FsPath
