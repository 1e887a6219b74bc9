/-
Baselib.Core.UriResolveTheorems — equal origins are equal schemes, hosts
and ports, and what a reference is resolved to is again what `parse`
returns.

An origin is read back: the scheme ends at the first colon, and the rest
is a host and a port as `parseHost` reads them. A resolved reference is
`Normal`, so it is built again from its text; each member is one of the
base or one of the reference, but for the path.
-/
import Baselib.Core.UriResolve
import Baselib.Core.UriRoundTrip

namespace Baselib.Core.Uri

open Lib
open UriGrammar

theorem normal_of_parse {s : Octets} {u : Uri} (h : parse s = .ok u) : Normal u :=
  (build_normal (Components.components_separated s).1 (build_of_parse h)).1

/-! ## Origins -/

theorem toDecimal_inj {a b : UInt16} (h : toDecimal a.toNat = toDecimal b.toNat) : a = b := by
  have hparse := parsePort_toDecimal a
  rw [h, parsePort_toDecimal b] at hparse
  simpa using hparse.symm

/-- The host and the effective port, as `parseHost` reads them. -/
theorem parseHost_origin {u : Uri} (h : NormalHost u.host u.isIpLiteral) :
    parseHost (u.hostForAuthority ++
        if 0 ≠ u.effectivePort then ':'.toUInt8 :: toDecimal u.effectivePort.toNat else [])
      = .ok (u.host, u.isIpLiteral,
          if 0 ≠ u.effectivePort then some (toDecimal u.effectivePort.toNat) else none) := by
  have hhost := parseHost_recomposed h
    (if 0 ≠ u.effectivePort then some (toDecimal u.effectivePort.toNat) else none)
  rw [← hhost, hostForAuthority]
  by_cases hport : 0 ≠ u.effectivePort <;> simp [hport]

theorem origin_eq_ok {u : Uri} {a : Octets} (h : u.origin = .ok a) :
    u.scheme ≠ [] ∧ u.host ≠ [] ∧ a = u.scheme ++ ':'.toUInt8 :: (octets "//" ++
      (u.hostForAuthority ++
        if 0 ≠ u.effectivePort then ':'.toUInt8 :: toDecimal u.effectivePort.toNat else [])) := by
  rw [origin] at h
  split at h
  · cases h
  · split at h
    · cases h
    · rename_i hscheme hhost
      cases h
      refine ⟨by simpa using hscheme, by simpa using hhost, ?_⟩
      simp [octets]

theorem Normal.colon_not_mem_scheme {u : Uri} (h : Normal u) : ':'.toUInt8 ∉ u.scheme := by
  by_cases hs : u.scheme = []
  · simp [hs]
  · exact scheme_not_mem _ (by decide) _ ((isValidScheme_iff _).mp (h.scheme hs).1)

theorem Normal.normalHost {u : Uri} (h : Normal u) (hhost : u.host ≠ []) :
    NormalHost u.host u.isIpLiteral := by
  cases ha : u.hasAuthority with
  | true => exact (h.authority ha).host
  | false =>
    have hempty := congrArg Uri.host (h.noAuthority ha)
    exact absurd hempty hhost

/-- Two references have the same origin exactly when they have the same
scheme, host and port. -/
theorem origin_eq_iff {s t a b : Octets} {u v : Uri} (hu : parse s = .ok u) (hv : parse t = .ok v)
    (ha : u.origin = .ok a) (hb : v.origin = .ok b) :
    a = b ↔ u.scheme = v.scheme ∧ u.host = v.host ∧ u.isIpLiteral = v.isIpLiteral ∧
      u.effectivePort = v.effectivePort := by
  have hnu := normal_of_parse hu
  have hnv := normal_of_parse hv
  obtain ⟨-, huhost, rfl⟩ := origin_eq_ok ha
  obtain ⟨-, hvhost, rfl⟩ := origin_eq_ok hb
  constructor
  · intro h
    obtain ⟨hscheme, hrest⟩ :=
      (append_cons_inj hnu.colon_not_mem_scheme hnv.colon_not_mem_scheme).mp h
    have hread := parseHost_origin (hnu.normalHost huhost)
    rw [List.append_cancel_left hrest, parseHost_origin (hnv.normalHost hvhost)] at hread
    simp only [Except.ok.injEq, Prod.mk.injEq] at hread
    obtain ⟨hhost, hliteral, hport⟩ := hread
    refine ⟨hscheme, hhost.symm, hliteral.symm, ?_⟩
    by_cases hup : 0 ≠ u.effectivePort
    · by_cases hvp : 0 ≠ v.effectivePort
      · rw [if_pos hup, if_pos hvp] at hport
        exact (toDecimal_inj (Option.some.inj hport)).symm
      · simp [hup, hvp] at hport
    · by_cases hvp : 0 ≠ v.effectivePort
      · simp [hup, hvp] at hport
      · rw [← not_ne_iff.mp hup, ← not_ne_iff.mp hvp]
  · rintro ⟨hscheme, hhost, hliteral, hport⟩
    rw [hscheme, hostForAuthority, hostForAuthority, hhost, hliteral, hport]

/-- A default port, and scheme and host in another case. -/
theorem origin_eq_iff_default : ∃ u v,
    parse (octets "HTTP://Example.com:80/a") = .ok u ∧
    parse (octets "http://example.com?b") = .ok v ∧
    (octets "http://example.com:80" = octets "http://example.com:80" ↔
      u.scheme = v.scheme ∧ u.host = v.host ∧ u.isIpLiteral = v.isIpLiteral ∧
        u.effectivePort = v.effectivePort) := by
  have hu : parse (octets "HTTP://Example.com:80/a") = .ok {
      scheme := octets "http", host := octets "example.com", path := octets "/a", port := 80,
      hasAuthority := true, hasPort := true } := by
    decide +kernel
  have hv : parse (octets "http://example.com?b") = .ok {
      scheme := octets "http", host := octets "example.com", query := octets "b",
      hasAuthority := true, hasQuery := true } := by
    decide +kernel
  exact ⟨_, _, hu, hv, origin_eq_iff hu hv (by decide +kernel) (by decide +kernel)⟩

/-! ## Resolved references -/

/-- The scheme, authority, query and fragment of normal references. -/
def combine (base authority : Uri) (path : Octets) (query fragment : Uri) : Uri :=
  { authorityPart authority with
    scheme := base.scheme
    path := path
    query := query.query
    fragment := fragment.fragment
    hasQuery := query.hasQuery
    hasFragment := fragment.hasFragment }

/-- A path which is normal, without dot segments, and fits behind an authority. -/
structure ClosedPath (path : Octets) : Prop where
  normal : NormalSegment path path
  noDots : removeDotSegments path = path
  abempty : path = [] ∨ ∃ q, path = '/'.toUInt8 :: q

theorem ClosedPath.removeDotSegments {path : Octets} (hnormal : NormalSegment path path)
    (habempty : path = [] ∨ ∃ q, path = '/'.toUInt8 :: q) :
    ClosedPath (Uri.removeDotSegments path) where
  normal := normalSegment_removeDotSegments hnormal
  noDots := removeDotSegments_idem path
  abempty := removeDotSegments_abempty habempty

theorem Normal.closedPath {u : Uri} (h : Normal u) (ha : u.hasAuthority = true) :
    ClosedPath u.path where
  normal := h.path
  noDots := h.noDots (.inr ha)
  abempty := h.abempty ha

theorem normal_combine {base authority query fragment : Uri} {path : Octets} (hbase : Normal base)
    (hauthority : Normal authority) (ha : authority.hasAuthority = true) (hpath : ClosedPath path)
    (hquery : Normal query) (hfragment : Normal fragment) :
    Normal (combine base authority path query fragment) where
  scheme := hbase.scheme
  authority := fun _ =>
    have h := hauthority.authority ha
    ⟨h.userInfo, h.noUserInfo, h.host, h.noPort⟩
  noAuthority := fun hnone => by
    have hnone : authority.hasAuthority = false := hnone
    simp [ha] at hnone
  path := hpath.normal
  noDots := fun _ => hpath.noDots
  abempty := fun _ => hpath.abempty
  relative := fun _ hnone => by
    have hnone : authority.hasAuthority = false := hnone
    simp [ha] at hnone
  query := hquery.query
  noQuery := hquery.noQuery
  fragment := hfragment.fragment
  noFragment := hfragment.noFragment

theorem Normal.parse_toString {u : Uri} (h : Normal u) (ha : u.hasAuthority = true) :
    parse u.toString = .ok u := by
  rw [toString_eq]
  refine parse_text (h.recomposed_separated fun hnone => ?_) h.build_recomposed
  rw [ha] at hnone
  cases hnone

/-- Decoding an octet makes a component shorter. -/
theorem Normalizes.length_le {isAllowed : UInt8 → Bool} {toLowerCase : Bool} {s r : Octets}
    (h : Normalizes isAllowed toLowerCase s r) : r.length ≤ s.length := by
  induction h with
  | nil => simp
  | plain hne hch h ih => simpa using ih
  | @encoded h1 h2 rest result hh1 hh2 h ih =>
    rw [normalizeOctet_eq hh1 hh2]
    split <;> simp <;> omega

theorem normalSegment_before_slash {a b : Octets}
    (h : NormalSegment (a ++ '/'.toUInt8 :: b) (a ++ '/'.toUInt8 :: b)) : NormalSegment a a := by
  obtain ⟨a', b', ha', hb', heq⟩ := Normalizes.split (by decide) (by decide) (by decide) h rfl
  have hlen := congrArg List.length heq
  have hla := ha'.length_le
  have hlb := hb'.length_le
  simp only [List.length_append, List.length_cons] at hlen
  obtain ⟨rfl, -⟩ := List.append_inj heq (by omega)
  exact ha'

theorem exists_last_slash {p : Octets} (h : '/'.toUInt8 ∈ p) :
    ∃ a b, p = a ++ '/'.toUInt8 :: b ∧ '/'.toUInt8 ∉ b := by
  obtain ⟨b, hb, hp | ⟨a, hp⟩⟩ := exists_cut '/'.toUInt8 p.reverse
  · exact absurd (List.mem_reverse.mpr h) (hp ▸ hb)
  · refine ⟨a.reverse, b.reverse, ?_, by simpa using hb⟩
    rw [← List.reverse_reverse p, hp]
    simp

theorem mergePaths_eq {base : Uri} (hbase : Normal base) (ha : base.hasAuthority = true)
    (path : Octets) : ∃ a, mergePaths base path = a ++ '/'.toUInt8 :: path ∧ NormalSegment a a ∧
      (a = [] ∨ ∃ q, a = '/'.toUInt8 :: q) := by
  rcases hbase.abempty ha with hnil | ⟨q, hq⟩
  · refine ⟨[], ?_, .nil, .inl rfl⟩
    simp [mergePaths, ha, hnil, octets]
  · obtain ⟨a, b, hab, hb⟩ := exists_last_slash (p := base.path) (by simp [hq])
    refine ⟨a, ?_, normalSegment_before_slash (hab ▸ hbase.path), ?_⟩
    · have htake : (a ++ '/'.toUInt8 :: b).take (a.length + 1) = a ++ ['/'.toUInt8] := by
        rw [List.take_length_add_append]
        rfl
      simp only [mergePaths, ha, hab, rfind_append_cons a hb, htake]
      simp
    · cases a with
      | nil => exact .inl rfl
      | cons c a =>
        rw [hq] at hab
        exact .inr ⟨a, by rw [(List.cons.inj hab).1]⟩

theorem closedPath_mergePaths {base : Uri} (hbase : Normal base) (ha : base.hasAuthority = true)
    {path : Octets} (hpath : NormalSegment path path) :
    ClosedPath (Uri.removeDotSegments (mergePaths base path)) := by
  obtain ⟨a, hmerge, hnormal, hstart⟩ := mergePaths_eq hbase ha path
  rw [hmerge]
  refine .removeDotSegments (hnormal.slash hpath) ?_
  rcases hstart with rfl | ⟨q, rfl⟩
  · exact .inr ⟨path, rfl⟩
  · exact .inr ⟨q ++ '/'.toUInt8 :: path, rfl⟩

/-- The authority, and with it the path, is the one of the reference or the one of the base. -/
theorem resolve_eq {base reference : Uri} (hbase : Normal base) (hscheme : base.scheme ≠ [])
    (ha : base.hasAuthority = true) (href : Normal reference) (hrelative : reference.scheme = []) :
    ∃ authority path query, resolve base reference
        = .ok (combine base authority path query reference) ∧
      Normal authority ∧ authority.hasAuthority = true ∧ ClosedPath path ∧ Normal query := by
  have hs : base.scheme.isEmpty = false := by simpa using hscheme
  cases hra : reference.hasAuthority with
  | true =>
    refine ⟨reference, reference.path, reference, ?_, href, hra, href.closedPath hra, href⟩
    simp [resolve, hs, hrelative, hra, href.noDots (.inr hra), copyAuthorityFrom, copyQueryFrom,
      combine, authorityPart]
  | false =>
    by_cases hpath : reference.path = []
    · refine ⟨base, base.path, if reference.hasQuery then reference else base, ?_, hbase, ha,
        hbase.closedPath ha, ?_⟩
      · simp [resolve, hs, hrelative, hra, hpath, copyAuthorityFrom, copyQueryFrom, combine,
          authorityPart]
      · split
        · exact href
        · exact hbase
    · by_cases hslash : reference.path.head? = some '/'.toUInt8
      · refine ⟨base, Uri.removeDotSegments reference.path, reference, ?_, hbase, ha,
          .removeDotSegments href.path (.inr ?_), href⟩
        · simp [resolve, hs, hrelative, hra, hpath, hslash, copyAuthorityFrom, copyQueryFrom,
            combine, authorityPart]
        · cases hp : reference.path with
          | nil => exact absurd hp hpath
          | cons c q =>
            rw [hp] at hslash
            exact ⟨q, by rw [Option.some.inj hslash]⟩
      · refine ⟨base, Uri.removeDotSegments (mergePaths base reference.path), reference, ?_,
          hbase, ha, closedPath_mergePaths hbase ha href.path, href⟩
        simp [resolve, hs, hrelative, hra, hpath, hslash, copyAuthorityFrom, copyQueryFrom,
          combine, authorityPart]

/-- What is resolved is resolved to itself. -/
theorem resolve_self {base r : Uri} (hscheme : base.scheme ≠ []) (hr : r.scheme ≠ [])
    (hdots : Uri.removeDotSegments r.path = r.path) : resolve base r = .ok r := by
  have hs : base.scheme.isEmpty = false := by simpa using hscheme
  have hrs : r.scheme.isEmpty = false := by simpa using hr
  simp [resolve, hs, hrs, hdots, copyAuthorityFrom, copyQueryFrom]

/-- A relative reference against a base with an authority. -/
theorem resolve_closed {s t : Octets} {base reference : Uri} (hs : parse s = .ok base)
    (ht : parse t = .ok reference) (hscheme : base.scheme ≠ []) (ha : base.hasAuthority = true)
    (hrelative : reference.scheme = []) : ∃ r, resolve base reference = .ok r ∧
      r.scheme ≠ [] ∧ r.hasAuthority = true ∧
      (r.path = [] ∨ ∃ q, r.path = '/'.toUInt8 :: q) ∧
      (∀ segment ∈ r.path.splitOn '/'.toUInt8, segment ≠ dot ∧ segment ≠ dotDot) ∧
      parse r.toString = .ok r ∧ resolve base r = .ok r := by
  have hbase := normal_of_parse hs
  have href := normal_of_parse ht
  obtain ⟨authority, path, query, hresolve, hauthority, hhas, hpath, hquery⟩ :=
    resolve_eq hbase hscheme ha href hrelative
  have hnormal := normal_combine hbase hauthority hhas hpath hquery href
  refine ⟨_, hresolve, hscheme, hhas, hpath.abempty, ?_, hnormal.parse_toString hhas,
    resolve_self hscheme hscheme hpath.noDots⟩
  have hdots := removeDotSegments_not_dots path
  rw [hpath.noDots] at hdots
  exact hdots

/-- "../g" against the base of section 5.4. -/
theorem resolve_closed_parent : ∃ base reference r,
    parse (octets "http://a/b/c/d;p?q") = .ok base ∧ parse (octets "../g") = .ok reference ∧
    resolve base reference = .ok r ∧ r.scheme ≠ [] ∧ r.hasAuthority = true ∧
      (r.path = [] ∨ ∃ q, r.path = '/'.toUInt8 :: q) ∧
      (∀ segment ∈ r.path.splitOn '/'.toUInt8, segment ≠ dot ∧ segment ≠ dotDot) ∧
      parse r.toString = .ok r ∧ resolve base r = .ok r := by
  have hbase : parse (octets "http://a/b/c/d;p?q") = .ok {
      scheme := octets "http", host := octets "a", path := octets "/b/c/d;p", query := octets "q",
      hasAuthority := true, hasQuery := true } := by
    decide +kernel
  have href : parse (octets "../g") = .ok { path := octets "../g" } := by decide +kernel
  obtain ⟨r, hr⟩ := resolve_closed hbase href (by decide) rfl rfl
  exact ⟨_, _, r, hbase, href, hr⟩

end Baselib.Core.Uri
