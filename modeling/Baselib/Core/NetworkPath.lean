/-
Baselib.Core.NetworkPath — `fs::path` with the root names `//host` of
network paths, on a POSIX system.

A path is its text, as in `FsPath`. It starts with a root name, if it starts
with exactly two separators, then comes the root directory, and behind it
the relative path. The members are those of the reference of
Boost.Filesystem: `parent_path` joins the elements but the last, and two
paths are equal when their elements are.

Every absolute path is a root name, some separators and a relative path
(`Rooted`), and the members are read off these three. `render` writes a root
name and names with one separator each, which is what joining elements
gives.
-/
import Baselib.Core.FsPath

namespace Baselib.Core.NetworkPath

open Lib List
open Core.FsPath (Path slash dot dotDot names append)

structure ArgumentException where
  message : Octets
  deriving DecidableEq, Repr

/-- What `operator<<` writes of a path: in quotes, '&' is the escape. -/
def quoted (p : Path) : Octets :=
  0x22 :: p.flatMap (fun c => if c = 0x22 ∨ c = 0x26 then [0x26, c] else [c]) ++ [0x22]

/-! ## The members of the path -/

def rootName : Path → Octets
  | a :: b :: rest =>
    if a = slash ∧ b = slash ∧ rest.head? ≠ some slash then
      a :: b :: rest.takeWhile (· ≠ slash)
    else []
  | _ => []

def afterRootName (p : Path) : Path := p.drop (rootName p).length

def rootDirectory (p : Path) : Octets :=
  if (afterRootName p).head? = some slash then [slash] else []

def rootPath (p : Path) : Path := rootName p ++ rootDirectory p

def relativePath (p : Path) : Path := (afterRootName p).dropWhile (· = slash)

/-- `is_absolute` -/
def IsAbsolute (p : Path) : Prop := rootDirectory p ≠ []

instance (p : Path) : Decidable (IsAbsolute p) := inferInstanceAs (Decidable (_ ≠ _))

/-- The "." for separators at the end, unless they are the root directory. -/
def trailingDot (relative : Path) : List Octets :=
  if relative.getLast? = some slash then [dot] else []

/-- What `begin` to `end` iterates over. -/
def elements (p : Path) : List Octets :=
  (if rootName p ≠ [] then [rootName p] else []) ++
    (if rootDirectory p ≠ [] then [rootDirectory p] else []) ++
      (names (relativePath p) ++ trailingDot (relativePath p))

/-- `operator/=` with each element, starting with an empty path. -/
def joinElements (es : List Octets) : Path := es.foldl append []

def parentPath (p : Path) : Path := joinElements (elements p).dropLast

example : elements (octets "//host//a/b/") =
    [octets "//host", octets "/", octets "a", octets "b", octets "."] := by decide

example : elements (octets "///a") = [octets "/", octets "a"] := by decide

example : parentPath (octets "//host/a") = octets "//host/" := by decide

/-! ## Absolute paths -/

/-- A root name, separators, and what is behind them. Two separators alone
would start a root name. -/
structure Rooted (p root : Path) (k : Nat) (relative : Path) : Prop where
  eq : p = root ++ (List.replicate (k + 1) slash ++ relative)
  head : relative.head? ≠ some slash
  root : root = [] ∧ k ≠ 1 ∨ ∃ host, host ≠ [] ∧ slash ∉ host ∧ root = slash :: slash :: host

theorem takeWhile_ne_slash {u v : Octets} (h : slash ∉ u) :
    (u ++ slash :: v).takeWhile (· ≠ slash) = u := by
  rw [takeWhile_append_of_pos]
  · simp
  · intro c hc
    simpa using fun e : c = slash => h (e ▸ hc)

namespace Rooted

variable {p root relative : Path} {k : Nat}

theorem rootName_eq (h : Rooted p root k relative) : rootName p = root := by
  obtain ⟨rfl, hhead, ⟨rfl, hk⟩ | ⟨host, hne, hhost, rfl⟩⟩ := h
  · match k with
    | 0 =>
      cases relative with
      | nil => rfl
      | cons c relative =>
        have hc : c ≠ slash := by simpa using hhead
        simp [rootName, hc]
    | 1 => exact absurd rfl hk
    | k + 2 => simp [rootName, replicate_succ]
  · obtain ⟨c, host, rfl⟩ := exists_cons_of_ne_nil hne
    have hc : c ≠ slash := fun e => hhost (by simp [e])
    have htake : (c :: host ++ (List.replicate (k + 1) slash ++ relative)).takeWhile (· ≠ slash) =
        c :: host := by
      rw [replicate_succ, cons_append]
      exact takeWhile_ne_slash hhost
    have hname : rootName (slash :: slash :: (c :: host ++
        (List.replicate (k + 1) slash ++ relative))) =
        slash :: slash ::
          (c :: host ++ (List.replicate (k + 1) slash ++ relative)).takeWhile (· ≠ slash) :=
      if_pos ⟨rfl, rfl, by simpa using hc⟩
    rwa [htake] at hname

theorem afterRootName_eq (h : Rooted p root k relative) :
    afterRootName p = List.replicate (k + 1) slash ++ relative := by
  rw [afterRootName, h.rootName_eq]
  conv_lhs => rw [h.eq]
  exact drop_left

theorem rootDirectory_eq (h : Rooted p root k relative) : rootDirectory p = [slash] := by
  rw [rootDirectory, h.afterRootName_eq, replicate_succ]
  rfl

theorem rootPath_eq (h : Rooted p root k relative) : rootPath p = root ++ [slash] := by
  rw [rootPath, h.rootName_eq, h.rootDirectory_eq]

theorem relativePath_eq (h : Rooted p root k relative) : relativePath p = relative := by
  rw [relativePath, h.afterRootName_eq, dropWhile_append_of_pos (by simp)]
  cases hrel : relative with
  | nil => rfl
  | cons c rest =>
    have hhead := h.head
    rw [hrel] at hhead
    have hc : c ≠ slash := by simpa using hhead
    simp [hc]

theorem isAbsolute (h : Rooted p root k relative) : IsAbsolute p := by
  rw [IsAbsolute, h.rootDirectory_eq]
  exact cons_ne_nil _ _

end Rooted

theorem rootName_append_after (p : Path) : rootName p ++ afterRootName p = p := by
  have hprefix : rootName p <+: p := by
    unfold rootName
    split
    · split
      · next a b rest _ =>
          exact (cons_prefix_cons.mpr ⟨rfl, cons_prefix_cons.mpr
            ⟨rfl, takeWhile_prefix _⟩⟩)
      · exact nil_prefix
    · exact nil_prefix
  obtain ⟨rest, hrest⟩ := hprefix
  have hafter : afterRootName p = rest :=
    (congrArg (List.drop _) hrest.symm).trans drop_left
  rw [hafter, hrest]

theorem exists_rooted {p : Path} (h : IsAbsolute p) :
    ∃ k, Rooted p (rootName p) k (relativePath p) := by
  have hdirectory : (afterRootName p).head? = some slash := by
    by_contra hnot
    exact h (if_neg hnot)
  have hsplit := takeWhile_append_dropWhile (p := fun c => decide (c = slash))
    (l := afterRootName p)
  have hrun : ∀ c ∈ (afterRootName p).takeWhile (· = slash), c = slash := by
    intro c hc
    simpa using mem_takeWhile_imp hc
  have hpos : (afterRootName p).takeWhile (· = slash) ≠ [] := by
    cases hafter : afterRootName p with
    | nil => simp [hafter] at hdirectory
    | cons c rest =>
      have hc : c = slash := by simpa [hafter] using hdirectory
      simp [hc]
  obtain ⟨k, hk⟩ : ∃ k, ((afterRootName p).takeWhile (· = slash)).length = k + 1 :=
    Nat.exists_eq_succ_of_ne_zero fun h => hpos (eq_nil_of_length_eq_zero h)
  have hreplicate : (afterRootName p).takeWhile (· = slash) = List.replicate (k + 1) slash :=
    eq_replicate_iff.mpr ⟨hk, hrun⟩
  have heq : p = rootName p ++ (List.replicate (k + 1) slash ++ relativePath p) := by
    rw [← hreplicate, relativePath, hsplit, rootName_append_after]
  have hhead : (relativePath p).head? ≠ some slash := by
    intro hslash
    have hnot := head?_dropWhile_not (fun c => decide (c = slash)) (afterRootName p)
    rw [relativePath] at hslash
    simp [hslash] at hnot
  refine ⟨k, heq, hhead, ?_⟩
  by_cases hroot : rootName p = []
  · refine .inl ⟨hroot, ?_⟩
    rintro rfl
    rw [hroot] at heq
    rw [heq] at hroot
    have hname : rootName (slash :: slash :: relativePath p) =
        slash :: slash :: (relativePath p).takeWhile (· ≠ slash) := if_pos ⟨rfl, rfl, hhead⟩
    have : rootName (slash :: slash :: relativePath p) = [] := hroot
    rw [hname] at this
    cases this
  · right
    unfold rootName at hroot
    split at hroot
    · next a b rest =>
        split at hroot
        · next hguard =>
            obtain ⟨rfl, rfl, hrest⟩ := hguard
            have hname : rootName (slash :: slash :: rest) =
                slash :: slash :: rest.takeWhile (· ≠ slash) := if_pos ⟨rfl, rfl, hrest⟩
            refine ⟨rest.takeWhile (· ≠ slash), ?_, ?_, hname⟩
            · intro hnil
              cases rest with
              | nil => simp [afterRootName, hname] at hdirectory
              | cons c rest =>
                have hc : c ≠ slash := by simpa using hrest
                simp [hc] at hnil
            · intro hmem
              simpa using mem_takeWhile_imp hmem
        · exact absurd rfl hroot
    · exact absurd rfl hroot

/-! ## Paths written with one separator each -/

/-- What stands between separators. -/
def IsName (name : Octets) : Prop := name ≠ [] ∧ slash ∉ name

/-- A root name of a path, or none. -/
def IsRootName (root : Path) : Prop :=
  root = [] ∨ ∃ host, host ≠ [] ∧ slash ∉ host ∧ root = slash :: slash :: host

variable {ns : List Octets} {root : Path}

theorem Rooted.isRootName {p relative : Path} {k : Nat} (h : Rooted p root k relative) :
    IsRootName root := h.root.imp And.left id

/-- The names behind the root, each with a separator in front of it but the
first. -/
def relativeText (ns : List Octets) : Path := [slash].intercalate ns

def render (root : Path) (ns : List Octets) : Path := root ++ slash :: relativeText ns

theorem relativeText_nil : relativeText [] = [] := rfl

theorem relativeText_singleton (n : Octets) : relativeText [n] = n := intercalate_singleton

theorem relativeText_cons {n : Octets} (hne : ns ≠ []) :
    relativeText (n :: ns) = n ++ slash :: relativeText ns := by
  rw [relativeText, intercalate_cons_of_ne_nil hne]
  simp [relativeText]

theorem relativeText_concat (hne : ns ≠ []) (n : Octets) :
    relativeText (ns ++ [n]) = relativeText ns ++ slash :: n := by
  induction ns with
  | nil => exact absurd rfl hne
  | cons m ns ih =>
    by_cases hns : ns = []
    · subst hns
      rw [singleton_append, relativeText_cons (cons_ne_nil _ _),
        relativeText_singleton, relativeText_singleton]
    · rw [cons_append, relativeText_cons (by simp), ih hns, relativeText_cons hns,
        append_assoc]
      rfl

theorem names_relativeText (h : ∀ n ∈ ns, IsName n) : names (relativeText ns) = ns := by
  induction ns with
  | nil => rfl
  | cons n ns ih =>
    obtain ⟨hn, hns⟩ := forall_mem_cons.mp h
    by_cases hne : ns = []
    · subst hne
      rw [relativeText_singleton, FsPath.names_of_not_mem hn.2 hn.1]
    · rw [relativeText_cons hne, FsPath.names_append_slash, FsPath.names_of_not_mem hn.2 hn.1,
        ih hns]
      rfl

/-- The text of names starts and ends with a name. -/
theorem ends_relativeText (h : ∀ n ∈ ns, IsName n) :
    (relativeText ns).head? ≠ some slash ∧ (relativeText ns).getLast? ≠ some slash := by
  have hname : ∀ {n : Octets}, IsName n → n.head? ≠ some slash ∧ n.getLast? ≠ some slash :=
    fun hn => ⟨fun e => hn.2 (mem_of_head? e), fun e => hn.2 (mem_of_getLast? e)⟩
  induction ns with
  | nil => simp [relativeText_nil]
  | cons n ns ih =>
    obtain ⟨hn, hns⟩ := forall_mem_cons.mp h
    by_cases hne : ns = []
    · subst hne
      rw [relativeText_singleton]
      exact hname hn
    · rw [relativeText_cons hne]
      have htext : relativeText ns ≠ [] := by
        intro hnil
        have hnames := names_relativeText hns
        rw [hnil] at hnames
        exact hne hnames.symm
      constructor
      · rw [head?_append_of_ne_nil _ hn.1]
        exact (hname hn).1
      · rw [getLast?_append_of_ne_nil _ (cons_ne_nil _ _), getLast?_cons,
          getLast?_eq_some_getLast htext]
        have hlast := (ih hns).2
        rwa [getLast?_eq_some_getLast htext] at hlast

theorem rooted_render (hroot : IsRootName root)
    (h : ∀ n ∈ ns, IsName n) : Rooted (render root ns) root 0 (relativeText ns) where
  eq := rfl
  head := (ends_relativeText h).1
  root := hroot.imp (fun hnil => ⟨hnil, by decide⟩) id

/-- The elements of the root. -/
def rootElements (root : Path) : List Octets := (if root ≠ [] then [root] else []) ++ [[slash]]

theorem Rooted.elements_eq {p relative : Path} {k : Nat} (h : Rooted p root k relative) :
    elements p = rootElements root ++ (names relative ++ trailingDot relative) := by
  rw [elements, h.rootName_eq, h.rootDirectory_eq, h.relativePath_eq, rootElements]
  rfl

theorem elements_render (hroot : IsRootName root)
    (h : ∀ n ∈ ns, IsName n) : elements (render root ns) = rootElements root ++ ns := by
  rw [(rooted_render hroot h).elements_eq, names_relativeText h, trailingDot,
    if_neg (ends_relativeText h).2, append_nil]

theorem append_render {n : Octets} (h : ∀ m ∈ ns, IsName m) (hn : IsName n) :
    append (render root ns) n = render root (ns ++ [n]) := by
  have hhead : n.head? ≠ some slash := fun e => hn.2 (mem_of_head? e)
  unfold append
  rw [if_neg hn.1]
  by_cases hns : ns = []
  · subst hns
    have hlast : (render root []).getLast? = some slash := by
      simp [render, relativeText_nil]
    rw [if_pos (.inr (.inl hlast)), render, render, nil_append, relativeText_nil,
      relativeText_singleton]
    simp
  · have htext : relativeText ns ≠ [] := by
      intro hnil
      have hnames := names_relativeText h
      rw [hnil] at hnames
      exact hns hnames.symm
    have hlast : (render root ns).getLast? ≠ some slash := by
      rw [render, getLast?_append_of_ne_nil _ (cons_ne_nil _ _), getLast?_cons,
        getLast?_eq_some_getLast htext]
      have hends := (ends_relativeText h).2
      rwa [getLast?_eq_some_getLast htext] at hends
    have hne : render root ns ≠ [] := by simp [render]
    rw [if_neg (by simp [hne, hlast, hhead]), render, render, relativeText_concat hns]
    simp

theorem joinElements_root (hroot : IsRootName root) :
    joinElements (rootElements root) = render root [] := by
  rcases hroot with rfl | ⟨host, -, -, rfl⟩
  · rfl
  · simp [joinElements, rootElements, append, render, relativeText_nil]

theorem joinElements_render (hroot : IsRootName root)
    (h : ∀ n ∈ ns, IsName n) : joinElements (rootElements root ++ ns) = render root ns := by
  induction ns using reverseRecOn with
  | nil => rw [append_nil, joinElements_root hroot]
  | append_singleton ns n ih =>
    have hns : ∀ m ∈ ns, IsName m := fun m hm => h m (by simp [hm])
    rw [← append_assoc, joinElements, foldl_append, ← joinElements, ih hns]
    exact append_render hns (h n (by simp))

theorem parentPath_render (hroot : IsRootName root) {n : Octets} (h : ∀ m ∈ ns ++ [n], IsName m) :
    parentPath (render root (ns ++ [n])) = render root ns := by
  rw [parentPath, elements_render hroot h, ← append_assoc, dropLast_concat,
    joinElements_render hroot fun m hm => h m (by simp [hm])]

end Baselib.Core.NetworkPath
