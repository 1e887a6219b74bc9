/-
Baselib.Core.PathUtils — `getRelativePath` of `baselib/core/PathUtils.h`.

Both iterators run over the elements the paths have in common. What is
left of the root is climbed out of with one ".." for each element, and what
is left of the path is appended. A separator at the end of a path is an
element "." of its own: it is skipped where it is all that is left of the
root, and not where names are left in front of it.

Two paths either have all the names of the root in common, or part at a
name of the root (`exists_parting`); with different root names they part
at the first element.
-/
import Baselib.Core.FsNormalize

namespace Baselib.Core.NetworkPath

open Lib List
open Core.FsPath (Path slash dot dotDot names append componentKind)

def ensureAbsolute (p : Path) : Except ArgumentException Unit :=
  if IsAbsolute p then .ok ()
  else .error ⟨octets "Path " ++ quoted p ++ octets " must be absolute"⟩

def ensureNotEmpty (p : Path) : Except ArgumentException Unit :=
  if p = [] then .error ⟨octets "Path " ++ quoted p ++ octets " cannot be empty"⟩
  else .ok ()

/-- The loop over both iterators: what is left of the path and of the
root. -/
def skipCommon : List Octets → List Octets → List Octets × List Octets
  | i :: ip, r :: ir => if i = r then skipCommon ip ir else (i :: ip, r :: ir)
  | ip, ir => (ip, ir)

/-- `getRelativePath`; the path returned is the `relPath` of the caller
after the call. -/
def getRelativePath (path root relPath : Path) (allowNonStrictRoot : Bool := false) :
    Except ArgumentException (Bool × Path) := do
  ensureAbsolute path
  ensureAbsolute root
  ensureNotEmpty root
  let left := skipCommon (elements path) (elements root)
  let ir := left.2.dropWhile (· = dot)
  if ir ≠ [] ∧ allowNonStrictRoot = false then
    return (false, relPath)
  else
    let climbed := ir.foldl (fun rp _ => append rp dotDot) []
    return (decide (ir = []), left.1.foldl append climbed)

example : getRelativePath (octets "/c/x") (octets "/c/a/b") [] true
    = .ok (false, octets "../../x") := by decide

/-! ## The loops over elements -/

theorem skipCommon_append (c ip ir : List Octets) :
    skipCommon (c ++ ip) (c ++ ir) = skipCommon ip ir := by
  induction c with
  | nil => rfl
  | cons e c ih =>
    rw [cons_append, cons_append, skipCommon, if_pos rfl, ih]

theorem skipCommon_of_head_ne {ip ir : List Octets} {r : Octets} (h : ip.head? ≠ some r) :
    skipCommon ip (r :: ir) = (ip, r :: ir) := by
  cases ip with
  | nil => rfl
  | cons i ip => exact if_neg (by simpa using h)

theorem append_relativeText {ns : List Octets} {n : Octets} (h : ∀ m ∈ ns, IsName m)
    (hn : IsName n) : append (relativeText ns) n = relativeText (ns ++ [n]) := by
  by_cases hns : ns = []
  · subst hns
    simp [relativeText_nil, relativeText_singleton, append, hn.1]
  · have htext : relativeText ns ≠ [] := by
      intro hnil
      have hnames := names_relativeText h
      rw [hnil] at hnames
      exact hns hnames.symm
    have hhead : n.head? ≠ some slash := fun e => hn.2 (mem_of_head? e)
    rw [relativeText_concat hns, append, if_neg hn.1, if_neg]
    exact fun hor => hor.elim htext fun hor => hor.elim (ends_relativeText h).2 hhead

theorem joinElements_names {ns : List Octets} (h : ∀ n ∈ ns, IsName n) :
    joinElements ns = relativeText ns := by
  induction ns using reverseRecOn with
  | nil => rfl
  | append_singleton ns n ih =>
    have hns : ∀ m ∈ ns, IsName m := fun m hm => h m (by simp [hm])
    rw [joinElements, foldl_append, ← joinElements, ih hns]
    exact append_relativeText hns (h n (by simp))

/-- Climbing and appending join one list of elements. -/
theorem climbed_eq (ir ip : List Octets) :
    ip.foldl append (ir.foldl (fun rp _ => append rp dotDot) []) =
      joinElements (List.replicate ir.length dotDot ++ ip) := by
  rw [joinElements, foldl_append]
  have hups : List.replicate ir.length dotDot = ir.map fun _ => dotDot := map_const'.symm
  rw [hups, foldl_map]

theorem head?_foldl_append (es : List Octets) {p : Path} (h : p ≠ []) :
    (es.foldl append p).head? = p.head? := by
  induction es generalizing p with
  | nil => rfl
  | cons e es ih =>
    rw [foldl_cons, ih (FsPath.append_ne_nil p e (.inl h))]
    obtain ⟨c, p, rfl⟩ := exists_cons_of_ne_nil h
    unfold append
    split
    · rfl
    · split <;> rfl

/-! ## Where two paths part -/

theorem exists_parting {α : Type} [DecidableEq α] : ∀ {l m : List α}, ¬l <+: m →
    ∃ c x rest behind, l = c ++ x :: rest ∧ m = c ++ behind ∧ behind.head? ≠ some x
  | [], m, h => absurd nil_prefix h
  | x :: l, [], _ => ⟨[], x, l, [], rfl, rfl, by simp⟩
  | x :: l, y :: m, h => by
      obtain rfl | heq := eq_or_ne x y
      · have hrest : ¬l <+: m := fun hlm => h (cons_prefix_cons.mpr ⟨rfl, hlm⟩)
        obtain ⟨c, z, rest, behind, rfl, rfl, hne⟩ := exists_parting hrest
        exact ⟨x :: c, z, rest, behind, rfl, rfl, hne⟩
      · exact ⟨[], x, l, y :: m, rfl, rfl, by simpa using fun h : y = x => heq h.symm⟩

/-! ## The joined path -/

/-- The lexical normal form of an absolute path. -/
def lexicalForm (p : Path) : Path :=
  render (rootName p) (reduce (names (relativePath p)))

/-- No component of the path is "." or "..", other than for a separator at
its end. -/
def NoDots (p : Path) : Prop := ∀ n ∈ names (relativePath p), n ≠ dot ∧ n ≠ dotDot

theorem NoDots.kept {p : Path} (h : NoDots p) :
    ∀ n ∈ names (relativePath p), (componentKind n).kept = true :=
  fun n hn => (kept_componentKind (isName_of_mem_names hn).1).mpr (h n hn)

/-- The normal form is what `normalize` returns. -/
theorem normalize_eq_lexicalForm {p base : Path} (hp : IsAbsolute p) (hbase : IsAbsolute base)
    (hroot : rootName p ≠ [] ∨ rootName base = [])
    (hfind : findText [backslash, backslash] p = none) :
    normalize p base = .ok (lexicalForm p) := by
  have hname : absoluteRootName p base = rootName p := by
    unfold absoluteRootName
    split
    · next hnil => rw [hroot.resolve_left (not_not_intro hnil), hnil]
    · rw [if_neg]
      rintro rfl
      exact hp rfl
  have hdirectory : rootDirectory p ≠ [] := hp
  rw [normalize_eq hbase hfind, hname, absoluteNames, if_neg hdirectory, nil_append]
  rfl

theorem isName_trailingDot {relative : Path} : ∀ n ∈ trailingDot relative, IsName n := by
  intro n hn
  unfold trailingDot at hn
  split at hn
  · rw [mem_singleton.mp hn]
    exact ⟨by decide, by decide⟩
  · cases hn

theorem dropWhile_trailingDot (relative : Path) :
    (trailingDot relative).dropWhile (· = dot) = [] := by
  unfold trailingDot
  split <;> simp

theorem reduce_append_trailingDot (ns : List Octets) (relative : Path) :
    reduce (ns ++ trailingDot relative) = reduce ns := by
  have hkind : componentKind dot = .current := by decide
  rw [reduce, foldl_append, reduce]
  unfold trailingDot
  split <;> simp [pushSegment, hkind]

theorem foldl_replicate_dotDot (n : Nat) (stack : List Octets) :
    (List.replicate n dotDot).foldl (pushSegment componentKind) stack = stack.drop n := by
  have hkind : componentKind dotDot = .parent := by decide
  induction n generalizing stack with
  | zero => rfl
  | succ n ih =>
    rw [replicate_succ, foldl_cons, ih]
    simp only [pushSegment, hkind]
    cases stack with
    | nil => simp
    | cons c stack => rfl

theorem reduce_climb {ns behind : List Octets} (n : Nat)
    (hns : ∀ e ∈ ns, (componentKind e).kept = true)
    (hbehind : ∀ e ∈ behind, (componentKind e).kept = true) :
    reduce (ns ++ (List.replicate n dotDot ++ behind)) = ns.take (ns.length - n) ++ behind := by
  rw [reduce, foldl_append, foldl_append, foldl_pushSegment_of_kept ns [] hns,
    foldl_replicate_dotDot, foldl_pushSegment_of_kept behind _ hbehind, append_nil,
    reverse_append, reverse_reverse, drop_reverse, reverse_reverse]

theorem lexicalForm_append {p q : Path} (hp : IsAbsolute p) (hq : q.head? ≠ some slash) :
    lexicalForm (append p q) =
      render (rootName p) (reduce (names (relativePath p) ++ names q)) := by
  obtain ⟨k, hrooted⟩ := exists_rooted hp
  obtain ⟨relative, hjoined, hnames⟩ := hrooted.append hq
  rw [lexicalForm, hjoined.rootName_eq, hjoined.relativePath_eq, hnames]

theorem lexicalForm_append_names {p : Path} (hp : IsAbsolute p) {ns : List Octets}
    (hns : ∀ n ∈ ns, IsName n) :
    lexicalForm (append p (joinElements ns)) =
      render (rootName p) (reduce (names (relativePath p) ++ ns)) := by
  rw [joinElements_names hns, lexicalForm_append hp (ends_relativeText hns).1,
    names_relativeText hns]

/-! ## What is left of the two paths -/

/-- The names of the root are the first of the path's, name by name. -/
def IsRootOf (root path : Path) : Prop :=
  rootName root = rootName path ∧ names (relativePath root) <+: names (relativePath path)

variable {path root relPath : Path} {allow : Bool} {ip ir : List Octets}

theorem elements_eq_of_isAbsolute {p : Path} (h : IsAbsolute p) :
    elements p = rootElements (rootName p) ++
      (names (relativePath p) ++ trailingDot (relativePath p)) :=
  let ⟨_, hrooted⟩ := exists_rooted h
  hrooted.elements_eq

/-- The result, from where the iterators stop. -/
theorem getRelativePath_eq (hpath : IsAbsolute path) (hroot : IsAbsolute root)
    (hskip : skipCommon (elements path) (elements root) = (ip, ir)) :
    getRelativePath path root relPath allow =
      if ir.dropWhile (· = dot) ≠ [] ∧ allow = false then .ok (false, relPath)
      else .ok (decide (ir.dropWhile (· = dot) = []),
        joinElements (List.replicate (ir.dropWhile (· = dot)).length dotDot ++ ip)) := by
  have hne : root ≠ [] := by
    rintro rfl
    exact hroot rfl
  unfold getRelativePath ensureAbsolute ensureNotEmpty
  rw [if_pos hpath, if_pos hroot, if_neg hne, hskip, ← climbed_eq]
  simp only [bind, Except.bind, pure, Except.pure]

/-- The names behind the root are left of the path. -/
theorem skipCommon_of_isRootOf (hpath : IsAbsolute path) (hroot : IsAbsolute root)
    (hnodots : NoDots path) (h : IsRootOf root path) :
    ∃ behind ip ir, names (relativePath path) = names (relativePath root) ++ behind ∧
      skipCommon (elements path) (elements root) = (ip, ir) ∧ ir.dropWhile (· = dot) = [] ∧
      (ip = behind ++ trailingDot (relativePath path) ∨ behind = [] ∧ ip = []) := by
  obtain ⟨hname, behind, hbehind⟩ := h
  have hskip : skipCommon (elements path) (elements root) =
      skipCommon (behind ++ trailingDot (relativePath path))
        (trailingDot (relativePath root)) := by
    rw [elements_eq_of_isAbsolute hpath, elements_eq_of_isAbsolute hroot, hname, ← hbehind,
      skipCommon_append, append_assoc, skipCommon_append]
  have hdrop := dropWhile_trailingDot (relativePath root)
  refine ⟨behind, ?_⟩
  rw [hskip]
  unfold trailingDot at hdrop ⊢
  by_cases hlast : (relativePath root).getLast? = some slash
  · rw [if_pos hlast] at hdrop ⊢
    cases behind with
    | cons e behind =>
      have he : e ≠ dot := (hnodots e (by simp [← hbehind])).1
      exact ⟨_, _, hbehind.symm, skipCommon_of_head_ne (by simpa using he), hdrop, .inl rfl⟩
    | nil =>
      split
      · exact ⟨[], [], hbehind.symm, by simp [skipCommon], rfl, .inr ⟨rfl, rfl⟩⟩
      · exact ⟨[], [dot], hbehind.symm, rfl, hdrop, .inl rfl⟩
  · rw [if_neg hlast]
    have hnil : ∀ es, skipCommon es [] = (es, []) := by
      intro es
      cases es <;> rfl
    exact ⟨_, _, hbehind.symm, hnil _, rfl, .inl rfl⟩

/-- The paths part at a name of the root. -/
theorem skipCommon_of_parting (hpath : IsAbsolute path) (hroot : IsAbsolute root)
    (hnodots : NoDots root) (hname : rootName root = rootName path) {c rest behind : List Octets}
    {x : Octets} (hr : names (relativePath root) = c ++ x :: rest)
    (hp : names (relativePath path) = c ++ behind) (hhead : behind.head? ≠ some x) :
    skipCommon (elements path) (elements root) =
      (behind ++ trailingDot (relativePath path),
        x :: (rest ++ trailingDot (relativePath root))) ∧ x ≠ dot := by
  have hx : x ≠ dot := (hnodots x (by simp [hr])).1
  refine ⟨?_, hx⟩
  rw [elements_eq_of_isAbsolute hpath, elements_eq_of_isAbsolute hroot, hname, hr, hp,
    skipCommon_append, append_assoc, append_assoc, skipCommon_append]
  refine skipCommon_of_head_ne ?_
  cases behind with
  | cons e behind => exact hhead
  | nil =>
    unfold trailingDot
    split
    · simpa using fun h : dot = x => hx h.symm
    · simp

/-- The first element: the root name, or the root directory. -/
theorem rootElements_eq (root : Path) :
    ∃ rest, rootElements root = (if root = [] then [slash] else root) :: rest := by
  unfold rootElements
  by_cases h : root = []
  · exact ⟨[], by simp [h]⟩
  · exact ⟨[[slash]], by simp [h]⟩

/-- With different root names the first elements differ. -/
theorem skipCommon_of_rootName_ne (hpath : IsAbsolute path) (hroot : IsAbsolute root)
    (hname : rootName root ≠ rootName path) :
    ∃ first rest, first ≠ dot ∧
      skipCommon (elements path) (elements root) = (elements path, first :: rest) := by
  obtain ⟨_, hrootedPath⟩ := exists_rooted hpath
  obtain ⟨_, hrootedRoot⟩ := exists_rooted hroot
  obtain ⟨restPath, hrestPath⟩ := rootElements_eq (rootName path)
  obtain ⟨restRoot, hrestRoot⟩ := rootElements_eq (rootName root)
  have hslash : ∀ {r : Path}, IsRootName r → r ≠ [slash] ∧ r ≠ dot := by
    rintro r (rfl | ⟨host, -, -, rfl⟩) <;> simp [dot, slash]
  have hr := hslash hrootedRoot.isRootName
  have hp := hslash hrootedPath.isRootName
  have hfirst : (if rootName path = [] then [slash] else rootName path) ≠
      if rootName root = [] then [slash] else rootName root := by
    split
    · next hnilPath =>
        split
        · next hnilRoot => exact absurd (hnilRoot.trans hnilPath.symm) hname
        · exact fun h => hr.1 h.symm
    · split
      · exact hp.1
      · exact fun h => hname h.symm
  refine ⟨if rootName root = [] then [slash] else rootName root, restRoot ++
    (names (relativePath root) ++ trailingDot (relativePath root)), ?_, ?_⟩
  · split
    · decide
    · exact hr.2
  · rw [elements_eq_of_isAbsolute hroot, hrestRoot, cons_append]
    refine skipCommon_of_head_ne ?_
    rw [elements_eq_of_isAbsolute hpath, hrestPath]
    simpa using hfirst

/-! ## The relative path -/

/-- The root joined with the relative path is the path again, but for the
separators at its end. -/
def Leads (root rp path : Path) : Prop :=
  lexicalForm (append root rp) = render (rootName path) (names (relativePath path))

theorem getRelativePath_of_isRootOf (hpath : IsAbsolute path) (hroot : IsAbsolute root)
    (hp : NoDots path) (h : IsRootOf root path) :
    ∃ rp, getRelativePath path root relPath allow = .ok (true, rp) ∧ Leads root rp path := by
  obtain ⟨behind, ip, ir, hnames, hskip, hdrop, hip⟩ := skipCommon_of_isRootOf hpath hroot hp h
  refine ⟨joinElements ip, ?_, ?_⟩
  · rw [getRelativePath_eq hpath hroot hskip, hdrop]
    simp
  · have hisName : ∀ n ∈ ip, IsName n := by
      rcases hip with rfl | ⟨-, rfl⟩
      · intro n hn
        rcases mem_append.mp hn with hn | hn
        · exact isName_of_mem_names (p := relativePath path) (by simp [hnames, hn])
        · exact isName_trailingDot n hn
      · simp
    have hreduce : reduce (names (relativePath root) ++ ip) = names (relativePath path) := by
      have hall := reduce_of_kept hp.kept
      rcases hip with rfl | ⟨rfl, rfl⟩
      · rw [← append_assoc, reduce_append_trailingDot, ← hnames, hall]
      · rw [← hnames, hall]
    rw [Leads, lexicalForm_append_names hroot hisName, hreduce, h.1]

/-- Climbing takes one name more than it should when the root ends in a
separator, which shows where there is a name to take. -/
theorem getRelativePath_of_parting (hpath : IsAbsolute path) (hroot : IsAbsolute root)
    (hp : NoDots path) (hr : NoDots root) (hname : rootName root = rootName path)
    (h : ¬names (relativePath root) <+: names (relativePath path)) :
    ∃ rp, getRelativePath path root relPath true = .ok (false, rp) ∧
      (Leads root rp path ↔ (relativePath root).getLast? ≠ some slash ∨
        (names (relativePath root)).head? ≠ (names (relativePath path)).head?) := by
  obtain ⟨c, x, rest, behind, hnr, hnp, hhead⟩ := exists_parting h
  obtain ⟨hskip, hx⟩ := skipCommon_of_parting hpath hroot hr hname hnr hnp hhead
  have hdrop : (x :: (rest ++ trailingDot (relativePath root))).dropWhile (· = dot) =
      x :: (rest ++ trailingDot (relativePath root)) := dropWhile_cons_of_neg (by simpa using hx)
  have hkeptBehind : ∀ e ∈ behind, (componentKind e).kept = true := fun e he =>
    hp.kept e (by simp [hnp, he])
  obtain ⟨n, hn⟩ : ∃ n, n = (x :: (rest ++ trailingDot (relativePath root))).length := ⟨_, rfl⟩
  have hisName : ∀ m ∈ List.replicate n dotDot ++ (behind ++ trailingDot (relativePath path)),
      IsName m := by
    intro m hm
    rcases mem_append.mp hm with hm | hm
    · rw [eq_of_mem_replicate hm]
      exact ⟨by decide, by decide⟩
    · rcases mem_append.mp hm with hm | hm
      · exact isName_of_mem_names (p := relativePath path) (by simp [hnp, hm])
      · exact isName_trailingDot m hm
  refine ⟨joinElements (List.replicate n dotDot ++ (behind ++ trailingDot (relativePath path))),
    ?_, ?_⟩
  · rw [getRelativePath_eq hpath hroot hskip, hdrop, ← hn]
    simp
  · -- what the climb leaves of the names in common
    have hreduce : reduce (names (relativePath root) ++
        (List.replicate n dotDot ++ (behind ++ trailingDot (relativePath path)))) =
          c.take (c.length - (trailingDot (relativePath root)).length) ++ behind := by
      have hlength : (c ++ x :: rest).length - n =
          c.length - (trailingDot (relativePath root)).length := by
        simp only [hn, length_append, length_cons]
        omega
      have hcut := reduce_climb n hr.kept hkeptBehind
      rw [← append_assoc, ← append_assoc, reduce_append_trailingDot, append_assoc,
        hcut, hnr, hlength, take_append_of_le_length (Nat.sub_le _ _)]
    have hnamesPath : ∀ m ∈ c ++ behind, IsName m := fun m hm =>
      isName_of_mem_names (hnp ▸ hm)
    have hnamesLeft : ∀ m ∈ c.take (c.length - (trailingDot (relativePath root)).length) ++ behind,
        IsName m := by
      intro m hm
      refine hnamesPath m ?_
      rcases mem_append.mp hm with hm | hm
      · exact mem_append_left _ (mem_of_mem_take hm)
      · exact mem_append_right _ hm
    have hrootName : IsRootName (rootName path) :=
      let ⟨_, hrooted⟩ := exists_rooted hpath
      hrooted.isRootName
    rw [Leads, lexicalForm_append_names hroot hisName, hreduce, hname, hnp,
      render_injective hrootName hrootName hnamesLeft hnamesPath, append_left_inj, hnr]
    have hheads : (c ++ x :: rest).head? ≠ (c ++ behind).head? ↔ c = [] := by
      cases c with
      | nil => simpa [eq_comm] using hhead
      | cons e c => simp
    have htake : ∀ k, c.take (c.length - k) = c ↔ k = 0 ∨ c = [] := by
      intro k
      rw [take_eq_self_iff]
      cases c with
      | nil => simp
      | cons e c =>
        simp only [length_cons, reduceCtorEq, or_false]
        omega
    rw [hheads, htake, trailingDot]
    by_cases hlast : (relativePath root).getLast? = some slash <;> simp [hlast]

/-- There is no relative path between paths of different hosts. -/
theorem getRelativePath_of_rootName_ne (hpath : IsAbsolute path) (hroot : IsAbsolute root)
    (hname : rootName root ≠ rootName path) :
    ∃ rp, getRelativePath path root relPath true = .ok (false, rp) ∧ ¬Leads root rp path := by
  obtain ⟨first, rest, hfirst, hskip⟩ := skipCommon_of_rootName_ne hpath hroot hname
  have hdrop : (first :: rest).dropWhile (· = dot) = first :: rest :=
    dropWhile_cons_of_neg (by simpa using hfirst)
  refine ⟨joinElements (List.replicate (rest.length + 1) dotDot ++ elements path), ?_, ?_⟩
  · rw [getRelativePath_eq hpath hroot hskip, hdrop]
    simp
  · have hhead : (joinElements (List.replicate (rest.length + 1) dotDot ++ elements path)).head? =
        dotDot.head? := by
      rw [joinElements, replicate_succ, cons_append, foldl_cons]
      exact head?_foldl_append _ (by decide)
    rw [Leads, lexicalForm_append hroot (by rw [hhead]; decide)]
    obtain ⟨_, hrootedPath⟩ := exists_rooted hpath
    obtain ⟨_, hrootedRoot⟩ := exists_rooted hroot
    rw [render_injective hrootedRoot.isRootName hrootedPath.isRootName]
    · exact fun h => hname h.1
    · intro n hn
      rcases mem_append.mp (mem_reduce hn).1 with hn | hn <;> exact isName_of_mem_names hn
    · exact fun n hn => isName_of_mem_names hn

theorem getRelativePath_refused (hpath : IsAbsolute path) (hroot : IsAbsolute root)
    (hr : NoDots root) (h : ¬IsRootOf root path) :
    getRelativePath path root relPath false = .ok (false, relPath) := by
  by_cases hname : rootName root = rootName path
  · obtain ⟨c, x, rest, behind, hnr, hnp, hhead⟩ := exists_parting fun hstarts => h ⟨hname, hstarts⟩
    obtain ⟨hskip, hx⟩ := skipCommon_of_parting hpath hroot hr hname hnr hnp hhead
    rw [getRelativePath_eq hpath hroot hskip, if_pos ⟨by simp [hx], rfl⟩]
  · obtain ⟨first, rest, hfirst, hskip⟩ := skipCommon_of_rootName_ne hpath hroot hname
    rw [getRelativePath_eq hpath hroot hskip, if_pos ⟨by simp [hfirst], rfl⟩]

/-- What a caller relies on: the answer, the result, and that a refusal
leaves what it passed. -/
structure IsAnswer (path root relPath : Path) (allow strict : Bool) (rp : Path) : Prop where
  strict_iff : strict = true ↔ IsRootOf root path
  leads : strict = true ∨ allow = true → Leads root rp path
  untouched : strict = false → allow = false → rp = relPath

/-- The answer and a refusal are always right; the result is, unless the
climb starts from a root on another host, or from a root with a separator
at its end that has its first name in common with the path. -/
theorem getRelativePath_iff (hpath : IsAbsolute path) (hroot : IsAbsolute root)
    (hp : NoDots path) (hr : NoDots root) (relPath : Path) (allow : Bool) :
    (∃ strict rp, getRelativePath path root relPath allow = .ok (strict, rp) ∧
        IsAnswer path root relPath allow strict rp) ↔
      allow = false ∨ IsRootOf root path ∨ (rootName root = rootName path ∧
        ((relativePath root).getLast? ≠ some slash ∨
          (names (relativePath root)).head? ≠ (names (relativePath path)).head?)) := by
  by_cases hstarts : IsRootOf root path
  · obtain ⟨rp, hok, hleads⟩ := @getRelativePath_of_isRootOf path root relPath allow
      hpath hroot hp hstarts
    refine iff_of_true ⟨true, rp, hok, ?_⟩ (.inr (.inl hstarts))
    exact ⟨iff_of_true rfl hstarts, fun _ => hleads, nofun⟩
  · cases allow with
    | false =>
      refine iff_of_true ⟨false, relPath, getRelativePath_refused hpath hroot hr hstarts, ?_⟩
        (.inl rfl)
      exact ⟨iff_of_false (by decide) hstarts, fun h => by simp at h, fun _ _ => rfl⟩
    | true =>
      -- a climb: its one result either leads to the path or not
      have hcore : ∀ {rp : Path},
          getRelativePath path root relPath true = .ok (false, rp) →
            ((∃ strict rp, getRelativePath path root relPath true = .ok (strict, rp) ∧
              IsAnswer path root relPath true strict rp) ↔ Leads root rp path) := by
        intro rp hok
        constructor
        · rintro ⟨strict, rp', hok', hanswer⟩
          obtain ⟨-, rfl⟩ := Prod.mk.inj (Except.ok.inj (hok.symm.trans hok'))
          exact hanswer.leads (.inr rfl)
        · intro hleads
          refine ⟨false, rp, hok, ⟨iff_of_false (by decide) hstarts, fun _ => hleads, ?_⟩⟩
          exact nofun
      by_cases hname : rootName root = rootName path
      · obtain ⟨rp, hok, hleads⟩ := @getRelativePath_of_parting path root relPath hpath hroot
          hp hr hname fun h => hstarts ⟨hname, h⟩
        rw [hcore hok, hleads]
        simp [hstarts, hname]
      · obtain ⟨rp, hok, hleads⟩ := @getRelativePath_of_rootName_ne path root relPath hpath
          hroot hname
        rw [hcore hok]
        simp [hleads, hstarts, hname]

theorem getRelativePath_iff_climb :
    ∃ strict rp, getRelativePath (octets "/c/x/") (octets "/c/a") [] true = .ok (strict, rp) ∧
      IsAnswer (octets "/c/x/") (octets "/c/a") [] true strict rp :=
  (getRelativePath_iff (by decide) (by decide) (by unfold NoDots; decide)
    (by unfold NoDots; decide) [] true).mpr (.inr (.inr (by decide)))

/-- The separator at the end of the root is climbed out of as well. -/
theorem getRelativePath_trailing_separator :
    IsAbsolute (octets "/c/x") ∧ IsAbsolute (octets "/c/a/") ∧
      NoDots (octets "/c/x") ∧ NoDots (octets "/c/a/") ∧
      getRelativePath (octets "/c/x") (octets "/c/a/") [] true = .ok (false, octets "../../x") ∧
      lexicalForm (append (octets "/c/a/") (octets "../../x")) = octets "/x" ∧
      ¬Leads (octets "/c/a/") (octets "../../x") (octets "/c/x") := by
  unfold NoDots Leads
  decide

end Baselib.Core.NetworkPath
