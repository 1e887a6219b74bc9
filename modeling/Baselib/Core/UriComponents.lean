/-
Baselib.Core.UriComponents — the five components of a reference as
written (RFC 3986 section 3 and appendix B), and the parser over them.

`Components` is what a reference is made of before any of its parts is
checked or normalised. `Separated` is when its text can be cut back into
the same five parts. Every text is the text of some separated components
(`exists_separated`), and on such a text the parser does nothing but
build each component on its own (`parseImpl_text`): the searches for
'#', '?', ':', '/' all find the delimiter which was put there. What is
left to say about `parse` is then said one component at a time, and no
index of the splitter appears in it.

The order in which `build` checks the components is the order of the
source: fragment, query, scheme, authority, path.
-/
import Baselib.Core.Uri

namespace Baselib.Core.Uri

open Lib List

/-- The raw components of a reference. -/
structure Components where
  scheme : Option Octets
  authority : Option Octets
  path : Octets
  query : Option Octets
  fragment : Option Octets
  deriving DecidableEq, Repr

namespace Components

def schemeText (c : Components) : Octets :=
  match c.scheme with
  | none => []
  | some s => s ++ [':'.toUInt8]

def authorityText (c : Components) : Octets :=
  match c.authority with
  | none => []
  | some a => '/'.toUInt8 :: '/'.toUInt8 :: a

def queryText (c : Components) : Octets :=
  match c.query with
  | none => []
  | some q => '?'.toUInt8 :: q

def fragmentText (c : Components) : Octets :=
  match c.fragment with
  | none => []
  | some f => '#'.toUInt8 :: f

/-- RFC 3986 section 5.3, component recomposition. -/
def text (c : Components) : Octets :=
  c.schemeText ++ c.authorityText ++ c.path ++ c.queryText ++ c.fragmentText

/-- The delimiters of the text are the ones its recomposition put there. -/
structure Separated (c : Components) : Prop where
  scheme : ∀ s ∈ c.scheme, ∀ ch ∈ s,
    ch ≠ ':'.toUInt8 ∧ ch ≠ '/'.toUInt8 ∧ ch ≠ '?'.toUInt8 ∧ ch ≠ '#'.toUInt8
  authority : ∀ a ∈ c.authority, ∀ ch ∈ a,
    ch ≠ '/'.toUInt8 ∧ ch ≠ '?'.toUInt8 ∧ ch ≠ '#'.toUInt8
  path : ∀ ch ∈ c.path, ch ≠ '?'.toUInt8 ∧ ch ≠ '#'.toUInt8
  query : ∀ q ∈ c.query, '#'.toUInt8 ∉ q
  /-- After an authority the path is empty or absolute. -/
  abempty : c.authority.isSome → c.path = [] ∨ ∃ p, c.path = '/'.toUInt8 :: p
  /-- Without one it does not look like one. -/
  noAuthority : c.authority = none → ¬ octets "//" <+: c.path
  /-- With neither, its first segment does not look like a scheme. -/
  noScheme : c.scheme = none → c.authority = none →
    ':'.toUInt8 ∉ c.path.takeWhile (· != '/'.toUInt8)

def buildScheme (scheme : Option Octets) : Except UriException Octets :=
  match scheme with
  | none => .ok []
  | some s =>
    if !isValidScheme s then
      throwInvalidUri "scheme"
        ("is not well formed, and a relative reference may not carry a ':' " ++
         "in its first path segment")
    else .ok (toLowerCopy s)

def buildAuthority (authority : Option Octets) : Except UriException Uri :=
  match authority with
  | none => .ok {}
  | some a => parseAuthority a

/-- Checks and normalises each component on its own. -/
def build (c : Components) : Except UriException Uri := do
  let fragment ←
    c.fragment.mapM (normalizeComponent isQueryOrFragmentChar "fragment" false)
  let query ← c.query.mapM (normalizeComponent isQueryOrFragmentChar "query" false)
  let scheme ← buildScheme c.scheme
  let authority ← buildAuthority c.authority
  let path ← normalizeComponent isPathChar "path" false c.path
  return { authority with
    scheme := scheme
    path := if !scheme.isEmpty || authority.hasAuthority then removeDotSegments path else path
    query := query.getD []
    fragment := fragment.getD []
    hasQuery := query.isSome
    hasFragment := fragment.isSome }

end Components

/-! ## The cuts of the splitter -/

theorem parseTail_of_not_mem {sep : UInt8} {component : String} {text : Octets}
    (h : sep ∉ text) : parseTail sep component text = .ok (none, text) := by
  simp [parseTail, find_eq_none.mpr h]

theorem parseTail_append {sep : UInt8} {component : String} {a : Octets} (b : Octets)
    (h : sep ∉ a) :
    parseTail sep component (a ++ sep :: b)
      = (normalizeComponent isQueryOrFragmentChar component false b).map (some ·, a) := by
  simp only [parseTail, find_append_cons b h, substrFrom_append_cons, eraseFrom_append,
    orOutOfRange, bind, Except.bind]
  cases normalizeComponent isQueryOrFragmentChar component false b <;> rfl

theorem find_slash_ge {s : Octets} {a b : Octets} {n : Nat} (hs : s = a ++ b)
    (ha : '/'.toUInt8 ∉ a) (hf : find s '/'.toUInt8 0 = some n) : a.length ≤ n := by
  subst hs
  rcases find_cases b '/'.toUInt8 with ⟨hb, -⟩ | ⟨x, y, rfl, hx, -⟩
  · have hnone : '/'.toUInt8 ∉ a ++ b := by simp [ha, hb]
    rw [find_eq_none.mpr hnone] at hf
    exact absurd hf (by simp)
  · rw [← append_assoc, find_append_cons y (by simp [ha, hx])] at hf
    simp only [Option.some.injEq, length_append] at hf
    omega

theorem parseScheme_append {s : Octets} (h : Octets) (hc : ':'.toUInt8 ∉ s)
    (hs : '/'.toUInt8 ∉ s) :
    parseScheme (s ++ ':'.toUInt8 :: h) = (Components.buildScheme (some s)).map (·, h) := by
  simp only [parseScheme, find_append_cons h hc, substr_append, orOutOfRange,
    eraseFront_append_cons, Components.buildScheme, bind, Except.bind]
  cases hf : find (s ++ ':'.toUInt8 :: h) '/'.toUInt8 0 with
  | none => cases isValidScheme s <;> rfl
  | some n =>
    have hlen := find_slash_ge (a := s ++ [':'.toUInt8]) (b := h) (by simp)
      (by simp only [mem_append, mem_singleton, not_or]; exact ⟨hs, by decide⟩) hf
    simp only [length_append, length_singleton] at hlen
    have hlt : decide (s.length < n) = true := decide_eq_true (by omega)
    simp only [hlt, if_true]
    cases isValidScheme s <;> rfl

/-- A ':' which is not in the first segment has a '/' before it. -/
theorem slash_before_colon {a b : Octets}
    (h : ':'.toUInt8 ∉ (a ++ ':'.toUInt8 :: b).takeWhile (· != '/'.toUInt8)) :
    '/'.toUInt8 ∈ a := by
  by_contra hno
  refine h ?_
  have hne : ∀ c ∈ a, (c != '/'.toUInt8) = true := by
    intro c hc
    simp only [bne_iff_ne, ne_eq]
    rintro rfl
    exact hno hc
  rw [takeWhile_append_of_pos hne, takeWhile_cons_of_pos (by decide)]
  simp

theorem parseScheme_none {rest : Octets}
    (h : ':'.toUInt8 ∉ rest.takeWhile (· != '/'.toUInt8)) :
    parseScheme rest = .ok ([], rest) := by
  unfold parseScheme
  rcases find_cases rest ':'.toUInt8 with ⟨-, hf⟩ | ⟨a, b, rfl, ha, hf⟩
  · simp [hf]
  · obtain ⟨x, y, rfl, hx⟩ := eq_append_cons_of_mem (slash_before_colon h)
    have hfind : find (x ++ '/'.toUInt8 :: y ++ ':'.toUInt8 :: b) '/'.toUInt8 0
        = some x.length := by
      rw [append_assoc, cons_append]
      exact find_append_cons _ hx
    simp only [hf, hfind]
    rw [if_neg (by simp)]

/-- What `parseHost` does with the text after an IP literal. -/
def literalHost (literal remainder : Octets) :
    Except UriException (Octets × Bool × Option Octets) :=
  match remainder with
  | [] => .ok (toLowerCopy literal, true, none)
  | ch :: port =>
    if ':'.toUInt8 != ch then
      throwInvalidUri "authority" "has text between the IP literal and the port"
    else .ok (toLowerCopy literal, true, some port)

theorem parseHost_literal {literal : Octets} (remainder : Octets) (h : ']'.toUInt8 ∉ literal) :
    parseHost ('['.toUInt8 :: (literal ++ ']'.toUInt8 :: remainder))
      = (do chkIpLiteral literal; literalHost literal remainder) := by
  have hnot : ']'.toUInt8 ∉ '['.toUInt8 :: literal := by
    simp only [mem_cons, not_or]
    exact ⟨by decide, h⟩
  have hfind : find ('['.toUInt8 :: (literal ++ ']'.toUInt8 :: remainder)) ']'.toUInt8 0
      = some (literal.length + 1) := find_append_cons remainder hnot
  have hliteral : substr ('['.toUInt8 :: (literal ++ ']'.toUInt8 :: remainder)) 1
      (literal.length + 1 - 1) = some literal := by
    simp [substr]
  have hremainder : substrFrom ('['.toUInt8 :: (literal ++ ']'.toUInt8 :: remainder))
      (literal.length + 1 + 1) = some remainder := by
    simp [substrFrom]
  simp only [parseHost, head?_cons, beq_self_eq_true, if_true, hfind, hliteral, hremainder,
    orOutOfRange, ok_bind]
  cases remainder <;> rfl

theorem parseHost_unclosed {rest : Octets} (h : ']'.toUInt8 ∉ rest) :
    parseHost ('['.toUInt8 :: rest)
      = throwInvalidUri "host" "starts an IP literal which is never closed" := by
  have hnot : ']'.toUInt8 ∉ '['.toUInt8 :: rest := by
    simp only [mem_cons, not_or]
    exact ⟨by decide, h⟩
  simp only [parseHost, head?_cons, beq_self_eq_true, if_true, find_eq_none.mpr hnot]

theorem parseHost_name {name : Octets} (hopen : name.head? ≠ some '['.toUInt8)
    (hcolon : ':'.toUInt8 ∉ name) :
    parseHost name
      = (normalizeComponent isRegNameChar "host" true name).map (·, false, none) := by
  have hne : (name.head? == some '['.toUInt8) = false := by simpa using hopen
  simp only [parseHost, hne, Bool.false_eq_true, if_false, find_eq_none.mpr hcolon]
  cases normalizeComponent isRegNameChar "host" true name <;> rfl

theorem parseHost_name_port {name : Octets} (port : Octets)
    (hopen : (name ++ ':'.toUInt8 :: port).head? ≠ some '['.toUInt8)
    (hcolon : ':'.toUInt8 ∉ name) :
    parseHost (name ++ ':'.toUInt8 :: port)
      = (normalizeComponent isRegNameChar "host" true name).map (·, false, some port) := by
  have hne : ((name ++ ':'.toUInt8 :: port).head? == some '['.toUInt8) = false := by
    simpa using hopen
  simp only [parseHost, hne, Bool.false_eq_true, if_false, find_append_cons port hcolon,
    substrFrom_append_cons, eraseFrom_append, orOutOfRange, ok_bind]
  cases normalizeComponent isRegNameChar "host" true name <;> rfl

theorem parseUserInfo_none {a : Octets} (h : '@'.toUInt8 ∉ a) :
    parseUserInfo a = .ok (none, a) := by
  rw [parseUserInfo, find_eq_none.mpr h]

theorem parseUserInfo_some {text : Octets} (rest : Octets) (h : '@'.toUInt8 ∉ text) :
    parseUserInfo (text ++ '@'.toUInt8 :: rest)
      = (normalizeComponent isUserInfoChar "userinfo" false text).map (some ·, rest) := by
  simp only [parseUserInfo, find_append_cons rest h, substr_append, eraseFront_append_cons,
    orOutOfRange, ok_bind]
  cases normalizeComponent isUserInfoChar "userinfo" false text <;> rfl

theorem parseHierPart_authority {a path : Octets} (ha : '/'.toUInt8 ∉ a)
    (hp : path = [] ∨ ∃ p, path = '/'.toUInt8 :: p) :
    parseHierPart ('/'.toUInt8 :: '/'.toUInt8 :: a ++ path)
      = (parseAuthority a).map (·, path) := by
  simp only [cons_append, parseHierPart, beq_self_eq_true, Bool.and_self, if_true]
  rcases hp with rfl | ⟨p, rfl⟩
  · rw [append_nil, find_eq_none.mpr ha]
    cases parseAuthority a <;> rfl
  · rw [find_append_cons p ha]
    simp only [substr_append, orOutOfRange, eraseFront_append]
    change (do let authority ← parseAuthority a; return (authority, '/'.toUInt8 :: p)) = _
    cases parseAuthority a <;> rfl

theorem parseHierPart_noAuthority {path : Octets} (h : ¬ octets "//" <+: path) :
    parseHierPart path = .ok ({}, path) := by
  match path, h with
  | [], _ => rfl
  | [_], _ => rfl
  | c1 :: c2 :: rest, h =>
    have hne : (c1 == '/'.toUInt8 && c2 == '/'.toUInt8) = false := by
      by_contra hcon
      simp only [Bool.not_eq_false, Bool.and_eq_true, beq_iff_eq] at hcon
      obtain ⟨rfl, rfl⟩ := hcon
      exact h ⟨rest, rfl⟩
    simp [parseHierPart, hne]

/-! ## The parser on separated components -/

namespace Components

variable {c : Components}

/-- What is left once the fragment and the query are cut off. -/
def hier (c : Components) : Octets := c.schemeText ++ c.authorityText ++ c.path

theorem text_eq (c : Components) : c.text = c.hier ++ c.queryText ++ c.fragmentText := by
  simp [text, hier]

theorem Separated.not_mem_hier (h : c.Separated) :
    '?'.toUInt8 ∉ c.hier ∧ '#'.toUInt8 ∉ c.hier := by
  have key : ∀ ch ∈ c.hier, ch ≠ '?'.toUInt8 ∧ ch ≠ '#'.toUInt8 := by
    intro ch hch
    simp only [hier, mem_append] at hch
    rcases hch with (hch | hch) | hch
    · cases hs : c.scheme with
      | none => simp [schemeText, hs] at hch
      | some s =>
        simp only [schemeText, hs, mem_append, mem_singleton] at hch
        rcases hch with hch | rfl
        · exact (h.scheme s (by simp [hs]) ch hch).2.2
        · decide
    · cases ha : c.authority with
      | none => simp [authorityText, ha] at hch
      | some a =>
        simp only [authorityText, ha, mem_cons] at hch
        rcases hch with rfl | rfl | hch
        · decide
        · decide
        · exact (h.authority a (by simp [ha]) ch hch).2
    · exact h.path ch hch
  exact ⟨fun hm => (key _ hm).1 rfl, fun hm => (key _ hm).2 rfl⟩

theorem Separated.not_mem_hier_query (h : c.Separated) :
    '#'.toUInt8 ∉ c.hier ++ c.queryText := by
  rw [mem_append, not_or]
  refine ⟨h.not_mem_hier.2, ?_⟩
  cases hq : c.query with
  | none => simp [queryText, hq]
  | some q =>
    simp only [queryText, hq, mem_cons, not_or]
    exact ⟨by decide, h.query q (by simp [hq])⟩

theorem Separated.parseTail_fragment (h : c.Separated) :
    parseTail '#'.toUInt8 "fragment" c.text
      = (c.fragment.mapM (normalizeComponent isQueryOrFragmentChar "fragment" false)).map
          (·, c.hier ++ c.queryText) := by
  rw [text_eq]
  cases hf : c.fragment with
  | none =>
    rw [fragmentText, hf, append_nil, parseTail_of_not_mem h.not_mem_hier_query]
    rfl
  | some f =>
    rw [fragmentText, hf, parseTail_append f h.not_mem_hier_query]
    simp only [Option.mapM_some]
    cases normalizeComponent isQueryOrFragmentChar "fragment" false f <;> rfl

theorem Separated.parseTail_query (h : c.Separated) :
    parseTail '?'.toUInt8 "query" (c.hier ++ c.queryText)
      = (c.query.mapM (normalizeComponent isQueryOrFragmentChar "query" false)).map
          (·, c.hier) := by
  cases hq : c.query with
  | none =>
    rw [queryText, hq, append_nil, parseTail_of_not_mem h.not_mem_hier.1]
    rfl
  | some q =>
    rw [queryText, hq, parseTail_append q h.not_mem_hier.1]
    simp only [Option.mapM_some]
    cases normalizeComponent isQueryOrFragmentChar "query" false q <;> rfl

theorem Separated.parseScheme_hier (h : c.Separated) :
    parseScheme c.hier
      = (buildScheme c.scheme).map (·, c.authorityText ++ c.path) := by
  cases hs : c.scheme with
  | none =>
    have hsplit : c.hier = c.authorityText ++ c.path := by simp [hier, schemeText, hs]
    rw [hsplit, parseScheme_none]
    · rfl
    · cases ha : c.authority with
      | none => simpa [authorityText, ha] using h.noScheme hs ha
      | some a => simp [authorityText, ha]
  | some s =>
    have hsplit : c.hier = s ++ ':'.toUInt8 :: (c.authorityText ++ c.path) := by
      simp [hier, schemeText, hs]
    rw [hsplit, parseScheme_append _ (fun hm => (h.scheme s (by simp [hs]) _ hm).1 rfl)
      (fun hm => (h.scheme s (by simp [hs]) _ hm).2.1 rfl)]

theorem Separated.parseHierPart_path (h : c.Separated) :
    parseHierPart (c.authorityText ++ c.path)
      = (buildAuthority c.authority).map (·, c.path) := by
  cases ha : c.authority with
  | none =>
    rw [authorityText, ha, nil_append, parseHierPart_noAuthority (h.noAuthority ha)]
    rfl
  | some a =>
    rw [authorityText, ha]
    exact parseHierPart_authority (fun hm => (h.authority a (by simp [ha]) _ hm).1 rfl)
      (h.abempty (by simp [ha]))

theorem parseImpl_text (h : c.Separated) :
    parseImpl c.text = (do chkStrictCharacters c.text; c.build) := by
  simp only [parseImpl, build, h.parseTail_fragment]
  cases chkStrictCharacters c.text with
  | error e => rfl
  | ok _ =>
  cases c.fragment.mapM (normalizeComponent isQueryOrFragmentChar "fragment" false) with
  | error e => rfl
  | ok fragment =>
  simp only [Except.map, bind, Except.bind, h.parseTail_query]
  cases c.query.mapM (normalizeComponent isQueryOrFragmentChar "query" false) with
  | error e => rfl
  | ok query =>
  simp only [Except.map, h.parseScheme_hier]
  cases buildScheme c.scheme with
  | error e => rfl
  | ok scheme =>
  simp only [Except.map, h.parseHierPart_path]
  cases buildAuthority c.authority with
  | error e => rfl
  | ok authority => rfl

/-! ## Every text has separated components -/

/-- The text after the scheme starts with an authority or has none. -/
theorem exists_authority_path {rest : Octets} (hrest : '?'.toUInt8 ∉ rest ∧ '#'.toUInt8 ∉ rest)
    (scheme query fragment : Option Octets)
    (hs : ∀ s ∈ scheme, ∀ ch ∈ s,
      ch ≠ ':'.toUInt8 ∧ ch ≠ '/'.toUInt8 ∧ ch ≠ '?'.toUInt8 ∧ ch ≠ '#'.toUInt8)
    (hq : ∀ q ∈ query, '#'.toUInt8 ∉ q)
    (hcolon : scheme = none → ':'.toUInt8 ∉ rest.takeWhile (· != '/'.toUInt8)) :
    ∃ authority path, (Components.mk scheme authority path query fragment).Separated ∧
      (Components.mk scheme authority path query fragment).authorityText ++ path = rest := by
  have hne : ∀ ch ∈ rest, ch ≠ '?'.toUInt8 ∧ ch ≠ '#'.toUInt8 := fun ch hch =>
    ⟨fun e => hrest.1 (e ▸ hch), fun e => hrest.2 (e ▸ hch)⟩
  by_cases hpre : octets "//" <+: rest
  · obtain ⟨after, rfl⟩ := hpre
    obtain ⟨a, ha, hcut⟩ := exists_cut '/'.toUInt8 after
    have hsub : ∀ ch ∈ a, ch ∈ octets "//" ++ after := by
      intro ch hch
      rcases hcut with rfl | ⟨b, rfl⟩ <;> simp [hch]
    have hauth : ∀ ch ∈ a, ch ≠ '/'.toUInt8 ∧ ch ≠ '?'.toUInt8 ∧ ch ≠ '#'.toUInt8 :=
      fun ch hch => ⟨fun e => ha (e ▸ hch), hne ch (hsub ch hch)⟩
    rcases hcut with rfl | ⟨b, rfl⟩
    · exact ⟨some after, [], {
        scheme := hs
        authority := by rintro _ ⟨⟩; exact hauth
        path := by simp
        query := hq
        abempty := fun _ => .inl rfl
        noAuthority := by simp
        noScheme := by simp }, by simp [authorityText]; rfl⟩
    · exact ⟨some a, '/'.toUInt8 :: b, {
        scheme := hs
        authority := by rintro _ ⟨⟩; exact hauth
        path := fun ch hch => hne ch (mem_append_right _ (mem_append_right _ hch))
        query := hq
        abempty := fun _ => .inr ⟨b, rfl⟩
        noAuthority := by simp
        noScheme := by simp }, by simp [authorityText]; rfl⟩
  · exact ⟨none, rest, {
      scheme := hs
      authority := by simp
      path := hne
      query := hq
      abempty := by simp
      noAuthority := fun _ => hpre
      noScheme := fun h _ => hcolon h }, by simp [authorityText]⟩

theorem exists_scheme_authority_path {rest : Octets}
    (hrest : '?'.toUInt8 ∉ rest ∧ '#'.toUInt8 ∉ rest) (query fragment : Option Octets)
    (hq : ∀ q ∈ query, '#'.toUInt8 ∉ q) :
    ∃ scheme authority path, (Components.mk scheme authority path query fragment).Separated ∧
      (Components.mk scheme authority path query fragment).hier = rest := by
  by_cases hcolon : ':'.toUInt8 ∈ rest.takeWhile (· != '/'.toUInt8)
  · obtain ⟨s, b, hsb, hs⟩ := eq_append_cons_of_mem hcolon
    have hslash : ∀ ch ∈ s, ch ≠ '/'.toUInt8 := by
      intro ch hch
      have hmem : ch ∈ rest.takeWhile (· != '/'.toUInt8) := by
        rw [hsb]; exact mem_append_left _ hch
      simpa using all_eq_true.mp all_takeWhile ch hmem
    have hsplit : rest = s ++ ':'.toUInt8 :: (b ++ rest.dropWhile (· != '/'.toUInt8)) := by
      conv_lhs => rw [← takeWhile_append_dropWhile (p := (· != '/'.toUInt8)) (l := rest), hsb]
      simp
    generalize b ++ rest.dropWhile (· != '/'.toUInt8) = h at hsplit
    subst hsplit
    simp only [mem_append, mem_cons, not_or] at hrest
    obtain ⟨authority, path, hsep, htext⟩ :=
      exists_authority_path ⟨hrest.1.2.2, hrest.2.2.2⟩ (some s) query fragment
        (by
          rintro _ ⟨⟩ ch hch
          exact ⟨fun e => hs (e ▸ hch), hslash ch hch, fun e => hrest.1.1 (e ▸ hch),
            fun e => hrest.2.1 (e ▸ hch)⟩) hq (by simp)
    refine ⟨some s, authority, path, hsep, ?_⟩
    rw [hier, append_assoc, htext]
    simp [schemeText]
  · obtain ⟨authority, path, hsep, htext⟩ :=
      exists_authority_path hrest none query fragment (by simp) hq (fun _ => hcolon)
    refine ⟨none, authority, path, hsep, ?_⟩
    rw [hier, append_assoc, htext]
    rfl

theorem exists_separated (s : Octets) : ∃ c : Components, c.Separated ∧ c.text = s := by
  obtain ⟨body, hbody, hf⟩ := exists_cut '#'.toUInt8 s
  obtain ⟨fragment, hfragment⟩ :
      ∃ f : Option Octets, s = body ++ (Components.mk none none [] none f).fragmentText := by
    rcases hf with rfl | ⟨b, rfl⟩
    · exact ⟨none, by simp [fragmentText]⟩
    · exact ⟨some b, rfl⟩
  obtain ⟨rest, hrest, hq⟩ := exists_cut '?'.toUInt8 body
  obtain ⟨query, hquery, hmem⟩ :
      ∃ q : Option Octets, body = rest ++ (Components.mk none none [] q none).queryText ∧
        ∀ t ∈ q, '#'.toUInt8 ∉ t := by
    rcases hq with rfl | ⟨b, rfl⟩
    · exact ⟨none, by simp [queryText], by simp⟩
    · refine ⟨some b, rfl, ?_⟩
      rintro _ ⟨⟩ hb
      exact hbody (by simp [hb])
  have hhash : '#'.toUInt8 ∉ rest := fun h =>
    hbody (by rw [hquery]; exact mem_append_left _ h)
  obtain ⟨scheme, authority, path, hsep, hhier⟩ :=
    exists_scheme_authority_path ⟨hrest, hhash⟩ query fragment hmem
  refine ⟨_, hsep, ?_⟩
  rw [text_eq, hhier, hfragment, hquery]
  rfl

/-! ## The components of a text -/

def cutScheme (rest : Octets) : Option Octets × Octets :=
  match cut ':'.toUInt8 rest with
  | (first, some hier) => if first.contains '/'.toUInt8 then (none, rest) else (some first, hier)
  | (_, none) => (none, rest)

def cutAuthority (hier : Octets) : Option Octets × Octets :=
  match hier with
  | c1 :: c2 :: after =>
    if c1 == '/'.toUInt8 && c2 == '/'.toUInt8 then
      match cut '/'.toUInt8 after with
      | (authority, none) => (some authority, [])
      | (authority, some path) => (some authority, '/'.toUInt8 :: path)
    else (none, hier)
  | _ => (none, hier)

/-- RFC 3986 appendix B. -/
def components (s : Octets) : Components :=
  let body := cut '#'.toUInt8 s
  let rest := cut '?'.toUInt8 body.1
  let hier := cutScheme rest.1
  let path := cutAuthority hier.2
  { scheme := hier.1, authority := path.1, path := path.2, query := rest.2, fragment := body.2 }

theorem Separated.cutScheme_hier (h : c.Separated) :
    cutScheme c.hier = (c.scheme, c.authorityText ++ c.path) := by
  cases hs : c.scheme with
  | some s =>
    have hsplit : c.hier = s ++ ':'.toUInt8 :: (c.authorityText ++ c.path) := by
      simp [hier, schemeText, hs]
    have hslash : s.contains '/'.toUInt8 = false := by
      simpa using fun hm => (h.scheme s (by simp [hs]) _ hm).2.1 rfl
    rw [hsplit, cutScheme, cut_append_cons _ fun hm => (h.scheme s (by simp [hs]) _ hm).1 rfl]
    simp only [hslash, Bool.false_eq_true, if_false]
  | none =>
    have hsplit : c.hier = c.authorityText ++ c.path := by simp [hier, schemeText, hs]
    have hcolon : ':'.toUInt8 ∉ (c.authorityText ++ c.path).takeWhile (· != '/'.toUInt8) := by
      cases ha : c.authority with
      | none => simpa [authorityText, ha] using h.noScheme hs ha
      | some a => simp [authorityText, ha]
    rw [hsplit]
    generalize c.authorityText ++ c.path = rest at hcolon
    obtain ⟨a, ha, rfl | ⟨b, rfl⟩⟩ := exists_cut ':'.toUInt8 rest
    · rw [cutScheme, cut_of_not_mem ha]
    · have hslash := slash_before_colon hcolon
      rw [cutScheme, cut_append_cons b ha]
      simp [hslash]

theorem Separated.cutAuthority_path (h : c.Separated) :
    cutAuthority (c.authorityText ++ c.path) = (c.authority, c.path) := by
  cases ha : c.authority with
  | none =>
    have hno := h.noAuthority ha
    rw [authorityText, ha, nil_append]
    match hp : c.path, hno with
    | [], _ => rfl
    | [_], _ => rfl
    | c1 :: c2 :: rest, hno =>
      have hne : (c1 == '/'.toUInt8 && c2 == '/'.toUInt8) = false := by
        by_contra hcon
        simp only [Bool.not_eq_false, Bool.and_eq_true, beq_iff_eq] at hcon
        obtain ⟨rfl, rfl⟩ := hcon
        exact hno ⟨rest, rfl⟩
      simp [cutAuthority, hne]
  | some a =>
    have hslash : '/'.toUInt8 ∉ a := fun hm => (h.authority a (by simp [ha]) _ hm).1 rfl
    rw [authorityText, ha]
    rcases h.abempty (by simp [ha]) with hp | ⟨p, hp⟩
    · simp [cutAuthority, hp, cut_of_not_mem hslash]
    · simp [cutAuthority, hp, cut_append_cons p hslash]

theorem components_text (h : c.Separated) : components c.text = c := by
  have hbody : cut '#'.toUInt8 c.text = (c.hier ++ c.queryText, c.fragment) := by
    rw [text_eq]
    cases hf : c.fragment with
    | none => rw [fragmentText, hf, append_nil, cut_of_not_mem h.not_mem_hier_query]
    | some f => rw [fragmentText, hf, cut_append_cons f h.not_mem_hier_query]
  have hrest : cut '?'.toUInt8 (c.hier ++ c.queryText) = (c.hier, c.query) := by
    cases hq : c.query with
    | none => rw [queryText, hq, append_nil, cut_of_not_mem h.not_mem_hier.1]
    | some q => rw [queryText, hq, cut_append_cons q h.not_mem_hier.1]
  simp only [components, hbody, hrest, h.cutScheme_hier, h.cutAuthority_path]

theorem components_separated (s : Octets) :
    (components s).Separated ∧ (components s).text = s := by
  obtain ⟨c, hsep, rfl⟩ := exists_separated s
  rw [components_text hsep]
  exact ⟨hsep, rfl⟩

/-- Two separators after a scheme start an authority, whatever follows. -/
theorem components_authority {scheme : Octets} (t : Octets)
    (hs : ∀ ch ∈ scheme,
      ch ≠ ':'.toUInt8 ∧ ch ≠ '/'.toUInt8 ∧ ch ≠ '?'.toUInt8 ∧ ch ≠ '#'.toUInt8) :
    (components (scheme ++ ':'.toUInt8 :: '/'.toUInt8 :: '/'.toUInt8 :: t)).authority ≠ none := by
  have hnot : ∀ c, c = '?'.toUInt8 ∨ c = '#'.toUInt8 →
      c ∉ scheme ++ [':'.toUInt8, '/'.toUInt8, '/'.toUInt8] := by
    rintro c (rfl | rfl) hm
    · rcases mem_append.mp hm with hm | hm
      · exact (hs _ hm).2.2.1 rfl
      · exact absurd hm (by decide)
    · rcases mem_append.mp hm with hm | hm
      · exact (hs _ hm).2.2.2 rfl
      · exact absurd hm (by decide)
  have hbody : ∀ c x, c = '?'.toUInt8 ∨ c = '#'.toUInt8 →
      (cut c (scheme ++ ':'.toUInt8 :: '/'.toUInt8 :: '/'.toUInt8 :: x)).1
        = scheme ++ ':'.toUInt8 :: '/'.toUInt8 :: '/'.toUInt8 :: (cut c x).1 := by
    intro c x hc
    have := cut_append_fst x (hnot c hc)
    simpa using this
  have hcolon : ':'.toUInt8 ∉ scheme := fun hm => (hs _ hm).1 rfl
  have hslash : scheme.contains '/'.toUInt8 = false := by
    simpa using fun hm => (hs _ hm).2.1 rfl
  simp only [components, hbody _ _ (.inr rfl), hbody _ _ (.inl rfl), cutScheme,
    cut_append_cons _ hcolon, hslash, Bool.false_eq_true, if_false]
  simp only [cutAuthority, beq_self_eq_true, Bool.and_self, if_true]
  split <;> simp

end Components

end Baselib.Core.Uri
