/-
Baselib.Core.FsNormalize — `normalize` and `normalizePathCliParameter` of
`baselib/core/FsUtils.h`, on UNIX.

`absolute` joins the path to the base, and the loop walks over the
elements of what comes out. Its result is at every step the root, followed
by the names on the stack of `DotSegments` (`foldl_normalizeStep`), so
".." at the root finds nothing to pop. The names that are left say
which place the joined path names, up to its spelling (`SameLocation`).
-/
import Baselib.Core.NetworkPath
import Baselib.Lib.Respelling

namespace Baselib.Core.NetworkPath

open Lib List
open Core.FsPath (Path slash dot dotDot names append componentKind)

def backslash : UInt8 := 0x5c

/-- `boost::filesystem::absolute`, for a base which is absolute. -/
def absolute (p base : Path) : Path :=
  if rootName p ≠ [] then
    if rootDirectory p ≠ [] then p
    else append (append (append (rootName p) (rootDirectory base)) (relativePath base))
      (relativePath p)
  else if rootDirectory p ≠ [] then append (rootName base) p
  else append base p

/-- One turn of the loop of `normalize`. -/
def normalizeStep (rootPath result element : Path) : Path :=
  if element = dotDot then
    if elements result ≠ elements rootPath then parentPath result else result
  else if element ≠ dot then append result element
  else result

/-- `normalize`; an absolute path has a first element. -/
def normalize (p base : Path) : Except ArgumentException Path :=
  if findText [backslash, backslash] p ≠ none then
    .error ⟨octets "Path " ++ quoted p ++
      octets " contains an unsupported character sequence on Unix"⟩
  else
    let absPath := absolute p base
    match elements absPath with
    | [] => .ok []
    | first :: rest => .ok (rest.foldl (normalizeStep (rootPath absPath)) first)

def lfnPrefix : Octets := [backslash, backslash, 0x3f, backslash]

def lfnUncPrefix : Octets := lfnPrefix ++ octets "UNC" ++ [backslash]

def chk2RemovePrefix (p : Path) : Path :=
  if lfnPrefix <+: p then
    if lfnUncPrefix <+: p then backslash :: backslash :: p.drop lfnUncPrefix.length
    else p.drop lfnPrefix.length
  else p

def normalizePathCliParameter (p currentPath : Path) : Except ArgumentException Path :=
  if p = [] then .ok [] else (normalize p currentPath).map chk2RemovePrefix

/-! ## The joined path -/

/-- The root name of the joined path. Of "//" the root directory of the
base makes three separators. -/
def absoluteRootName (p base : Path) : Path :=
  if rootName p = [] then rootName base else if p = [slash, slash] then [] else rootName p

/-- The names of the joined path. -/
def absoluteNames (p base : Path) : List Octets :=
  (if rootDirectory p = [] then names (relativePath base) else []) ++ names (relativePath p)

theorem names_append_singleton_slash (d : Path) : names (d ++ [slash]) = names d := by
  simpa [FsPath.names_nil] using FsPath.names_append_slash d []

theorem Rooted.append {b root relative p : Path} {k : Nat} (h : Rooted b root k relative)
    (hp : p.head? ≠ some slash) :
    ∃ relative', Rooted (append b p) root k relative' ∧
      names relative' = names relative ++ names p := by
  obtain ⟨hb, hhead, hroot⟩ := h
  unfold FsPath.append
  by_cases hnil : p = []
  · subst hnil
    exact ⟨relative, by rw [if_pos rfl]; exact ⟨hb, hhead, hroot⟩, by simp [FsPath.names_nil]⟩
  · have hne : b ≠ [] := by simp [hb, replicate_succ]
    rw [if_neg hnil]
    by_cases hlast : b.getLast? = some slash
    · rw [if_pos (.inr (.inl hlast))]
      refine ⟨relative ++ p, ⟨by simp [hb], ?_, hroot⟩, ?_⟩
      · cases relative with
        | nil => exact hp
        | cons c relative => simpa using hhead
      · by_cases hrel : relative = []
        · subst hrel
          rfl
        · rw [hb, ← append_assoc, getLast?_append_of_ne_nil _ hrel] at hlast
          obtain ⟨init, rfl⟩ := getLast?_eq_some_iff.mp hlast
          rw [names_append_singleton_slash, append_assoc, singleton_append,
            FsPath.names_append_slash]
    · rw [if_neg (by simp [hne, hlast, hp])]
      have hrel : relative ≠ [] := by
        rintro rfl
        refine hlast ?_
        rw [hb, append_nil, replicate_succ', ← append_assoc]
        exact getLast?_concat
      refine ⟨relative ++ slash :: p, ⟨by simp [hb], ?_, hroot⟩, ?_⟩
      · rwa [head?_append_of_ne_nil _ hrel]
      · exact FsPath.names_append_slash _ _

/-- Without a root directory a path is its root name, or relative. -/
theorem of_not_isAbsolute {p : Path} (h : rootDirectory p = []) :
    (rootName p = [] ∧ relativePath p = p ∧ p.head? ≠ some slash) ∨
      ∃ host, slash ∉ host ∧ p = slash :: slash :: host ∧ rootName p = p ∧
        relativePath p = [] := by
  have hafter : (afterRootName p).head? ≠ some slash := by
    intro hhead
    simp [rootDirectory, if_pos hhead] at h
  have hrelative : relativePath p = afterRootName p := by
    rw [relativePath]
    cases hp : afterRootName p with
    | nil => rfl
    | cons c rest =>
      rw [hp] at hafter
      have hc : c ≠ slash := by simpa using hafter
      simp [hc]
  by_cases hroot : rootName p = []
  · left
    have heq : afterRootName p = p := by simp [afterRootName, hroot]
    exact ⟨hroot, hrelative.trans heq, heq ▸ hafter⟩
  · right
    have hname := hroot
    unfold rootName at hname
    split at hname
    · next a b rest =>
        split at hname
        · next hguard =>
            obtain ⟨rfl, rfl, hrest⟩ := hguard
            have hname : rootName (slash :: slash :: rest) =
                slash :: slash :: rest.takeWhile (· ≠ slash) := if_pos ⟨rfl, rfl, hrest⟩
            have hsplit := takeWhile_append_dropWhile (p := fun c => decide (c ≠ slash))
              (l := rest)
            have hdrop : afterRootName (slash :: slash :: rest) = rest.dropWhile (· ≠ slash) := by
              have hparts := rootName_append_after (slash :: slash :: rest)
              rw [hname, cons_append, cons_append, List.cons.injEq,
                List.cons.injEq] at hparts
              exact append_cancel_left (hparts.2.2.trans hsplit.symm)
            have hnil : rest.dropWhile (· ≠ slash) = [] := by
              cases hcase : rest.dropWhile (· ≠ slash) with
              | nil => rfl
              | cons c cs =>
                have hhead := head?_dropWhile_not (fun c => decide (c ≠ slash)) rest
                rw [hcase] at hhead
                refine absurd ?_ hafter
                rw [hdrop, hcase]
                simpa using hhead
            have htake : rest.takeWhile (· ≠ slash) = rest := by
              rwa [hnil, append_nil] at hsplit
            rw [hdrop, hnil] at hrelative
            rw [htake] at hname
            refine ⟨rest, ?_, rfl, hname, hrelative⟩
            intro hmem
            rw [← htake] at hmem
            simpa using mem_takeWhile_imp hmem
        · exact absurd rfl hname
    · exact absurd rfl hname

/-- The joined path is absolute, and what it is made of. -/
theorem absolute_rooted (p : Path) {base : Path} (hbase : IsAbsolute base) :
    ∃ k relative, Rooted (absolute p base) (absoluteRootName p base) k relative ∧
      names relative = absoluteNames p base := by
  obtain ⟨kbase, hrooted⟩ := exists_rooted hbase
  by_cases hdirectory : rootDirectory p = []
  · rcases of_not_isAbsolute hdirectory with ⟨hroot, hrelative, hhead⟩ |
      ⟨host, hhost, hp, hroot, hrelative⟩
    · obtain ⟨relative, habs, hnames⟩ := hrooted.append hhead
      refine ⟨kbase, relative, ?_, ?_⟩
      · rwa [absolute, if_neg (not_not_intro hroot), if_neg (not_not_intro hdirectory),
          absoluteRootName, if_pos hroot]
      · rw [hnames, absoluteNames, if_pos hdirectory, hrelative]
    · have hne : rootName p ≠ [] := by
        rw [hroot, hp]
        exact cons_ne_nil _ _
      -- the root directory of the base, behind the root name
      have hjoined : ∃ k, Rooted (append (rootName p) (rootDirectory base))
          (absoluteRootName p base) k [] := by
        have htext : append (rootName p) (rootDirectory base) = p ++ [slash] := by
          rw [hrooted.rootDirectory_eq, hroot]
          simp [FsPath.append]
        rw [htext, absoluteRootName, if_neg hne, hroot]
        by_cases hnil : host = []
        · subst hnil
          refine ⟨2, ?_, by simp, .inl ⟨if_pos hp, by decide⟩⟩
          rw [if_pos hp, hp]
          rfl
        · have hlong : p ≠ [slash, slash] := by simp [hp, hnil]
          refine ⟨0, ?_, by simp, .inr ⟨host, hnil, hhost, ?_⟩⟩
          · rw [if_neg hlong]
            rfl
          · rw [if_neg hlong, hp]
      obtain ⟨k, hjoined⟩ := hjoined
      obtain ⟨relative, habs, hnames⟩ := hjoined.append hrooted.head
      refine ⟨k, relative, ?_, ?_⟩
      · rwa [absolute, if_pos hne, if_neg (not_not_intro hdirectory), hrelative, FsPath.append_nil]
      · rw [hnames, absoluteNames, if_pos hdirectory, hrelative]
        simp [FsPath.names_nil]
  · obtain ⟨k, hp⟩ := exists_rooted hdirectory
    have hnames : absoluteNames p base = names (relativePath p) := by
      simp [absoluteNames, hdirectory]
    by_cases hroot : rootName p = []
    · rw [hroot] at hp
      refine ⟨k, relativePath p, ?_, hnames.symm⟩
      rw [absolute, if_neg (not_not_intro hroot), if_pos hdirectory, absoluteRootName, if_pos hroot]
      have htext : append (rootName base) p = rootName base ++ p := by
        have hhead : p.head? = some slash := by rw [hp.eq]; rfl
        have hne : p ≠ [] := by rw [hp.eq]; simp [replicate_succ]
        rw [FsPath.append, if_neg hne, if_pos (.inr (.inr hhead))]
      have hsplit : p = List.replicate (k + 1) slash ++ relativePath p := hp.eq
      refine ⟨by rw [htext, ← hsplit], hp.head, ?_⟩
      obtain ⟨hnil, -⟩ | hhost := hrooted.root
      · refine .inl ⟨hnil, ?_⟩
        obtain ⟨-, hk⟩ | ⟨host, -, -, hhost⟩ := hp.root
        · exact hk
        · cases hhost
      · exact .inr hhost
    · refine ⟨k, relativePath p, ?_, hnames.symm⟩
      rw [absolute, if_pos hroot, if_pos hdirectory, absoluteRootName, if_neg hroot, if_neg]
      · exact hp
      · rintro rfl
        exact hdirectory rfl

/-! ## The loop -/

/-- The stack rule. -/
def reduce (es : List Octets) : List Octets := (es.foldl (pushSegment componentKind) []).reverse

theorem isName_of_mem_names {p : Path} {n : Octets} (h : n ∈ names p) : IsName n := by
  obtain ⟨hmem, hne⟩ := mem_filter.mp h
  exact ⟨by simpa using hne, FsPath.not_mem_of_mem_segments hmem⟩

theorem kept_componentKind {n : Octets} (hn : n ≠ []) :
    (componentKind n).kept = true ↔ n ≠ dot ∧ n ≠ dotDot := by
  unfold componentKind
  by_cases h₁ : n = dot <;> by_cases h₂ : n = dotDot <;> simp_all [SegmentKind.kept]

theorem mem_reduce {es : List Octets} {n : Octets} (h : n ∈ reduce es) :
    n ∈ es ∧ (componentKind n).kept = true := by
  have hkept := @foldl_pushSegment_kept _ componentKind es [] (by simp) n
    (by simpa [reduce] using h)
  exact ⟨by simpa using hkept.2, hkept.1⟩

variable {root : Path} {rootPath : Path}

/-- One turn does to the names what it does to the stack. -/
theorem normalizeStep_render (hroot : IsRootName root)
    (hrootPath : elements rootPath = rootElements root) {stack : List Octets}
    (hstack : ∀ n ∈ stack, IsName n) {e : Octets} (he : IsName e) :
    normalizeStep rootPath (render root stack.reverse) e =
      render root (pushSegment componentKind stack e).reverse := by
  have hreverse : ∀ n ∈ stack.reverse, IsName n := by simpa using hstack
  unfold normalizeStep
  by_cases hparent : e = dotDot
  · have hkind : componentKind e = .parent := FsPath.componentKind_eq_parent.mpr hparent
    rw [if_pos hparent, elements_render hroot hreverse, hrootPath]
    simp only [pushSegment, hkind]
    cases stack with
    | nil => simp
    | cons n stack =>
      rw [reverse_cons] at hreverse ⊢
      rw [if_pos (by simp), parentPath_render hroot hreverse, tail_cons]
  · rw [if_neg hparent]
    by_cases hcurrent : e = dot
    · have hkind : componentKind e = .current := by
        subst hcurrent
        rfl
      rw [if_neg (not_not_intro hcurrent)]
      simp only [pushSegment, hkind]
    · have hkept := (kept_componentKind he.1).mpr ⟨hcurrent, hparent⟩
      rw [if_pos hcurrent, append_render hreverse he, pushSegment_of_kept hkept,
        reverse_cons]

theorem foldl_normalizeStep (hroot : IsRootName root)
    (hrootPath : elements rootPath = rootElements root) (es : List Octets) :
    ∀ {stack : List Octets}, (∀ n ∈ stack, IsName n) → (∀ e ∈ es, IsName e) →
      es.foldl (normalizeStep rootPath) (render root stack.reverse) =
        render root (es.foldl (pushSegment componentKind) stack).reverse := by
  induction es with
  | nil => exact fun _ _ => rfl
  | cons e es ih =>
    intro stack hstack hes
    obtain ⟨he, hes⟩ := forall_mem_cons.mp hes
    rw [foldl_cons, foldl_cons, normalizeStep_render hroot hrootPath hstack he]
    refine ih (fun n hn => ?_) hes
    cases hk : componentKind e with
    | current =>
      simp only [pushSegment, hk] at hn
      exact hstack n hn
    | parent =>
      simp only [pushSegment, hk] at hn
      exact hstack n (mem_of_mem_tail hn)
    | empty | name =>
      simp only [pushSegment, hk, mem_cons] at hn
      exact hn.elim (fun heq => heq ▸ he) (hstack n)

/-- The loop gets past the root before it meets a name. -/
theorem foldl_rootElements (hroot : IsRootName root) (es : List Octets) :
    ∃ first rest, rootElements root ++ es = first :: rest ∧
      rest.foldl (normalizeStep rootPath) first =
        es.foldl (normalizeStep rootPath) (render root []) := by
  rcases hroot with rfl | ⟨host, hne, hhost, rfl⟩
  · exact ⟨[slash], es, rfl, rfl⟩
  · refine ⟨slash :: slash :: host, [slash] :: es, rfl, ?_⟩
    have hstep : normalizeStep rootPath (slash :: slash :: host) [slash] =
        render (slash :: slash :: host) [] := by
      simp [normalizeStep, dot, dotDot, append, slash, render, relativeText_nil]
    rw [foldl_cons, hstep]

theorem foldl_trailingDot (relative result : Path) :
    (trailingDot relative).foldl (normalizeStep rootPath) result = result := by
  unfold trailingDot
  split <;> simp [normalizeStep, dot, dotDot]

theorem normalize_eq {p base : Path} (hbase : IsAbsolute base)
    (hp : findText [backslash, backslash] p = none) :
    normalize p base = .ok (render (absoluteRootName p base) (reduce (absoluteNames p base))) := by
  obtain ⟨k, relative, habs, hnames⟩ := absolute_rooted p hbase
  have hroot := habs.isRootName
  have hrootPath : elements (rootPath (absolute p base)) =
      rootElements (absoluteRootName p base) := by
    have hrender : rootPath (absolute p base) = render (absoluteRootName p base) [] := by
      rw [habs.rootPath_eq, render, relativeText_nil]
    rw [hrender, elements_render hroot (by simp), append_nil]
  have hes : ∀ e ∈ names relative, IsName e := fun e he => isName_of_mem_names he
  obtain ⟨first, rest, helements, hloop⟩ := @foldl_rootElements
    _ (rootPath (absolute p base)) hroot (names relative ++ trailingDot relative)
  have hfold := @foldl_normalizeStep _ _ hroot hrootPath (names relative) [] (by simp) hes
  rw [← habs.elements_eq] at helements
  unfold normalize
  rw [if_neg (not_not_intro hp)]
  dsimp only
  rw [helements]
  dsimp only
  rw [hloop, foldl_append, foldl_trailingDot, ← hnames]
  exact congrArg Except.ok hfold

theorem normalize_eq_ok {p base : Path} (hbase : IsAbsolute base) {result : Path} :
    normalize p base = .ok result ↔ findText [backslash, backslash] p = none ∧
      result = render (absoluteRootName p base) (reduce (absoluteNames p base)) := by
  by_cases hp : findText [backslash, backslash] p = none
  · rw [normalize_eq hbase hp]
    simp [hp, eq_comm]
  · unfold normalize
    simp [hp]

/-! ## What the result is -/

theorem reduce_of_kept {es : List Octets} (h : ∀ e ∈ es, (componentKind e).kept = true) :
    reduce es = es := by
  simp [reduce, foldl_pushSegment_of_kept es [] h]

theorem render_injective {root root' : Path} {ns ms : List Octets} (hroot : IsRootName root)
    (hroot' : IsRootName root') (hns : ∀ n ∈ ns, IsName n) (hms : ∀ m ∈ ms, IsName m) :
    render root ns = render root' ms ↔ root = root' ∧ ns = ms := by
  constructor
  · intro h
    have hleft := rooted_render hroot hns
    have hright := rooted_render hroot' hms
    constructor
    · rw [← hleft.rootName_eq, h, hright.rootName_eq]
    · rw [← names_relativeText hns, ← hleft.relativePath_eq, h, hright.relativePath_eq,
        names_relativeText hms]
  · rintro ⟨rfl, rfl⟩
    rfl

/-- Two absolute paths name one place, as far as their texts say. -/
def SameLocation (p q : Path) : Prop :=
  rootName p = rootName q ∧
    Respelled componentKind (names (relativePath p)) (names (relativePath q))

theorem isName_reduce {p base : Path} : ∀ n ∈ reduce (absoluteNames p base), IsName n := by
  intro n hn
  obtain ⟨hmem, -⟩ := mem_reduce hn
  rcases mem_append.mp hmem with hmem | hmem
  · split at hmem
    · exact isName_of_mem_names hmem
    · cases hmem
  · exact isName_of_mem_names hmem

/-- Another run on a path which is a root and kept names. -/
theorem normalize_render_eq_ok {root base : Path} {ns : List Octets} (hroot : IsRootName root)
    (hns : ∀ n ∈ ns, IsName n) (hkept : ∀ n ∈ ns, (componentKind n).kept = true)
    (hbase : IsAbsolute base) :
    normalize (render root ns) base = .ok (render root ns) ↔
      findText [backslash, backslash] (render root ns) = none ∧
        (root ≠ [] ∨ rootName base = []) := by
  have hrooted := rooted_render hroot hns
  obtain ⟨kbase, hbaseRooted⟩ := exists_rooted hbase
  have hdirectory : rootDirectory (render root ns) ≠ [] := hrooted.isAbsolute
  have hnames : absoluteNames (render root ns) base = ns := by
    rw [absoluteNames, if_neg hdirectory, hrooted.relativePath_eq, names_relativeText hns,
      nil_append]
  have hrootName : absoluteRootName (render root ns) base =
      if root = [] then rootName base else root := by
    have hne : render root ns ≠ [slash, slash] := by
      intro h
      rw [h] at hdirectory
      exact hdirectory rfl
    rw [absoluteRootName, hrooted.rootName_eq, if_neg hne]
  rw [normalize_eq_ok hbase, hnames, reduce_of_kept hkept, hrootName]
  refine and_congr_right fun _ => ?_
  by_cases hnil : root = []
  · rw [if_pos hnil, render_injective hroot hbaseRooted.isRootName hns hns]
    constructor
    · exact fun h => .inr (h.1.symm.trans hnil)
    · exact fun h => ⟨hnil.trans (h.resolve_left (not_not_intro hnil)).symm, rfl⟩
  · simp [hnil]

theorem absoluteRootName_ne_nil_iff (p base : Path) :
    (absoluteRootName p base ≠ [] ∨ rootName base = []) ↔
      (p ≠ [slash, slash] ∨ rootName base = []) := by
  refine or_congr_left' fun hbase => ?_
  unfold absoluteRootName
  by_cases hp : p = [slash, slash]
  · subst hp
    simp [show rootName [slash, slash] ≠ [] by decide]
  · by_cases hroot : rootName p = []
    · simpa [hroot, hp] using hbase
    · simp [hroot, hp]

theorem chk2RemovePrefix_of_isAbsolute {p : Path} (h : p.head? = some slash) :
    chk2RemovePrefix p = p := by
  refine if_neg fun hlfn => ?_
  obtain ⟨rest, hrest⟩ := hlfn
  rw [← hrest] at h
  revert h
  simp [lfnPrefix, backslash, slash]

/-- The result is the root of the joined path and the names the stack rule
leaves of its components, however the joined path is spelled. A second run
refuses the result when two backslashes came in with the base, and takes
it for a path on the base's host when the path was "//". -/
theorem normalize_spec {p base result : Path} (hbase : IsAbsolute base)
    (h : normalize p base = .ok result) :
    IsAbsolute result ∧
      (∀ e ∈ elements result, e ≠ dot ∧ e ≠ dotDot) ∧
      result = render (rootName (absolute p base))
        (reduce (names (relativePath (absolute p base)))) ∧
      elements result = rootElements (rootName (absolute p base)) ++
        reduce (names (relativePath (absolute p base))) ∧
      rootName (absolute p base) = absoluteRootName p base ∧
      names (relativePath (absolute p base)) = absoluteNames p base ∧
      (normalize result base = .ok result ↔
        findText [backslash, backslash] result = none ∧
          (p ≠ [slash, slash] ∨ rootName base = [])) ∧
      (∀ base', IsAbsolute base' → (normalize result base' = .ok result ↔
        findText [backslash, backslash] result = none ∧
          (rootName result ≠ [] ∨ rootName base' = []))) ∧
      (∀ q r, normalize q base = .ok r →
        (r = result ↔ SameLocation (absolute q base) (absolute p base))) ∧
      (p ≠ [] → normalizePathCliParameter p base = .ok result) := by
  obtain ⟨-, rfl⟩ := (normalize_eq_ok hbase).mp h
  obtain ⟨k, relative, habs, hnames⟩ := absolute_rooted p hbase
  have hroot := habs.isRootName
  have hns : ∀ n ∈ reduce (absoluteNames p base), IsName n := isName_reduce
  have hkept : ∀ n ∈ reduce (absoluteNames p base), (componentKind n).kept = true :=
    fun n hn => (mem_reduce hn).2
  have hrooted := rooted_render hroot hns
  have hrelative : names (relativePath (absolute p base)) = absoluteNames p base := by
    rw [habs.relativePath_eq, hnames]
  rw [habs.rootName_eq, hrelative, hrooted.rootName_eq]
  refine ⟨hrooted.isAbsolute, ?_, rfl, elements_render hroot hns, rfl, rfl, ?_, ?_, ?_, ?_⟩
  · rw [elements_render hroot hns]
    intro e he
    rcases List.mem_append.mp he with he | he
    · rcases List.mem_append.mp he with he | he
      · have hslash : e.head? = some slash := by
          obtain hnil | ⟨host, -, -, hhost⟩ := hroot
          · simp [hnil] at he
          · rw [hhost] at he
            simp at he
            simp [he]
        constructor <;> rintro rfl <;> simp [dot, dotDot, slash] at hslash
      · rw [List.mem_singleton.mp he]
        decide
    · exact (kept_componentKind (hns e he).1).mp (hkept e he)
  · rw [normalize_render_eq_ok hroot hns hkept hbase, absoluteRootName_ne_nil_iff]
  · exact fun base' hbase' => normalize_render_eq_ok hroot hns hkept hbase'
  · intro q r hq
    obtain ⟨-, rfl⟩ := (normalize_eq_ok hbase).mp hq
    obtain ⟨_, relative', habs', hnames'⟩ := absolute_rooted q hbase
    rw [SameLocation, habs'.rootName_eq, habs.rootName_eq, hrelative, habs'.relativePath_eq,
      hnames', respelled_iff, render_injective habs'.isRootName hroot isName_reduce hns]
    simp [reduce]
  · intro hne
    rw [normalizePathCliParameter, if_neg hne, h]
    refine congrArg Except.ok (chk2RemovePrefix_of_isAbsolute ?_)
    obtain hnil | ⟨host, -, -, hhost⟩ := hroot
    · rw [hnil]
      rfl
    · rw [hhost]
      rfl

theorem normalize_spec_climb :
    normalize (octets "../.././b/") (octets "/a") = .ok (octets "/b") ∧
      (∀ e ∈ elements (octets "/b"), e ≠ dot ∧ e ≠ dotDot) :=
  have h : normalize (octets "../.././b/") (octets "/a") = .ok (octets "/b") := by decide
  ⟨h, (normalize_spec (by decide) h).2.1⟩

/-- Only the path is searched for two backslashes, and "//" is a host
without a name. -/
theorem normalize_again_differs :
    (IsAbsolute (octets "/a\\\\b") ∧
      normalize (octets "x") (octets "/a\\\\b") = .ok (octets "/a\\\\b/x") ∧
      normalize (octets "/a\\\\b/x") (octets "/a\\\\b") ≠ .ok (octets "/a\\\\b/x")) ∧
    IsAbsolute (octets "//host/b") ∧
      normalize (octets "//") (octets "//host/b") = .ok (octets "/b") ∧
      normalize (octets "/b") (octets "//host/b") = .ok (octets "//host/b") := by
  decide

end Baselib.Core.NetworkPath
