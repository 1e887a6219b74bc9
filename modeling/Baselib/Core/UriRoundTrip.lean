/-
Baselib.Core.UriRoundTrip — what `toString` writes, read back.

`Normal` is what `parse` leaves in an object: every member is its own
normal form. `toString` writes the members as the components of
`recomposed`, and a normal object is built again from them
(`Normal.build_recomposed`). So the text reads back as the same object
whenever its components are the ones which were written, and that can
only fail in one way: a path which starts with two separators where
there is no authority.
-/
import Baselib.Core.UriNormalize
import Mathlib.Data.List.TakeWhile

namespace Baselib.Core.Uri

open Lib UriGrammar List

variable {u : Uri}

/-! ## Ports -/

theorem toDecimal_eq (n : Nat) :
    toDecimal n = if n < 10 then [(Nat.digitChar n).toUInt8]
      else toDecimal (n / 10) ++ [(Nat.digitChar (n % 10)).toUInt8] := by
  rw [toDecimal, Nat.toDigits_eq_if (by decide)]
  split_ifs <;> simp [toDecimal]

theorem digitChar_spec {d : Nat} (hd : d < 10) :
    isDigit (Nat.digitChar d).toUInt8 = true ∧
      (Nat.digitChar d).toUInt8.toNat - '0'.toNat = d := by
  have key : ∀ d : Fin 10, isDigit (Nat.digitChar d.val).toUInt8 = true ∧
      (Nat.digitChar d.val).toUInt8.toNat - '0'.toNat = d.val := by
    decide
  exact key ⟨d, hd⟩

/-- The decimal text of a number spells it. -/
theorem toDecimal_spec (n : Nat) :
    toDecimal n ≠ [] ∧ (toDecimal n).all isDigit = true ∧ portValue 0 (toDecimal n) = n := by
  induction n using Nat.strongRecOn with
  | ind n ih =>
    rw [toDecimal_eq]
    split_ifs with hlt
    · obtain ⟨hdigit, hvalue⟩ := digitChar_spec hlt
      exact ⟨by simp, by simpa using hdigit, by simpa [portValue] using hvalue⟩
    · obtain ⟨-, hall, hrest⟩ := ih (n / 10) (by omega)
      obtain ⟨hdigit, hvalue⟩ := digitChar_spec (Nat.mod_lt n (by decide : 0 < 10))
      refine ⟨by simp, by simp [hall, hdigit], ?_⟩
      rw [portValue, foldl_append, foldl_cons, foldl_nil, ← portValue, hrest,
        hvalue]
      omega

theorem parsePortLoop_ok (s : Octets) : ∀ {value : Nat}, s.all isDigit = true →
    portValue value s ≤ 65535 → parsePortLoop value s = .ok (portValue value s) := by
  induction s with
  | nil => exact fun _ _ => rfl
  | cons ch s ih =>
    intro value hall hle
    simp only [all_cons, Bool.and_eq_true] at hall
    have hstep : portValue value (ch :: s) = portValue (value * 10 + (ch.toNat - '0'.toNat)) s :=
      rfl
    have hmono := le_portValue s (value * 10 + (ch.toNat - '0'.toNat))
    rw [hstep] at hle ⊢
    simp only [parsePortLoop, hall.1, Bool.not_true, Bool.false_eq_true, if_false]
    rw [if_neg (by omega)]
    exact ih hall.2 hle

theorem parsePort_toDecimal (n : UInt16) : parsePort (toDecimal n.toNat) = .ok (some n) := by
  obtain ⟨hne, hall, hvalue⟩ := toDecimal_spec n.toNat
  have hlt := n.toNat_lt
  rw [parsePort, if_neg (by simpa using hne), parsePortLoop_ok _ hall (by omega), hvalue]
  simp [bind, Except.bind, pure, Except.pure]

/-! ## Hosts -/

theorem isRegNameChar_stable : Stable isRegNameChar true where
  pct := by decide
  unreserved ch hch := by simp [isRegNameChar, hch]
  lower _ ch hch := by revert ch; decide +kernel

theorem isUserInfoChar_stable : Stable isUserInfoChar false where
  pct := by decide
  unreserved ch hch := by simp [isUserInfoChar, hch]
  lower := by simp

theorem isQueryOrFragmentChar_stable : Stable isQueryOrFragmentChar false where
  pct := by decide
  unreserved ch hch := by simp [isQueryOrFragmentChar, isPathChar, hch]
  lower := by simp

theorem toLowerCopy_idem (s : Octets) : toLowerCopy (toLowerCopy s) = toLowerCopy s := by
  simp [toLowerCopy, toLowerAscii_idem]

/-- An IP literal in lower case is one. -/
theorem literal_closed : Closed toLowerAscii (ipv6address + ipvFuture) := by
  have hclass : ∀ ch, (isHexDigit ch = true → isHexDigit (toLowerAscii ch) = true) ∧
      (isUnreserved ch = true → isUnreserved (toLowerAscii ch) = true) ∧
      (isSubDelim ch = true → isSubDelim (toLowerAscii ch) = true) ∧
      ((isDigit ch = true ∨ ch = '.'.toUInt8 ∨ ch = ':'.toUInt8) → toLowerAscii ch = ch) := by
    decide +kernel
  have hlit : ∀ ch : Char, toLowerAscii ch.toUInt8 = ch.toUInt8 → Closed toLowerAscii (lit ch) :=
    fun ch h => Closed.single fun c hc => by
      obtain rfl := eq_of_beq hc
      rw [h]
      exact beq_self_eq_true _
  have hhex : Closed toLowerAscii hexdig := by
    rw [hexdig_eq]
    exact Closed.single fun c => (hclass c).1
  have hh16 : Closed toLowerAscii h16 := hhex.mul (hhex.upTo 3)
  have hquad : Closed toLowerAscii ipv4address := Closed.of_fixed fun w hw c hc => by
    refine (hclass c).2.2.2 ?_
    by_contra hno
    rw [not_or, not_or] at hno
    exact ipv4address_not_mem c (by simpa using hno.1) hno.2.1 w hw hc
  have hcolon := hlit ':' (by decide)
  have hcol : Closed toLowerAscii h16Colon := hh16.mul hcolon
  have hls : Closed toLowerAscii ls32 := ((hh16.mul hcolon).mul hh16).add hquad
  have htail : ∀ t, Closed toLowerAscii (tailGroups t)
    | 0 => Closed.one
    | 1 => hh16
    | n + 2 => (hcol.pow n).mul hls
  have hgroups : ∀ t, Closed toLowerAscii (groups t)
    | 0 => Closed.one
    | n + 1 => (hcol.pow n).mul hh16
  have hcomp : ∀ h t, Closed toLowerAscii (compressed h t) := fun h t =>
    (show Closed toLowerAscii (upToGroups h) from fun w ⟨k, hk, hw⟩ => ⟨k, hk, hgroups k w hw⟩).mul
      ((hcolon.mul hcolon).mul (htail t))
  have h6 : Closed toLowerAscii ipv6address := by
    rw [ipv6address_eq]
    exact ((((((((htail 8).add (hcomp 0 7)).add (hcomp 1 6)).add (hcomp 2 5)).add
      (hcomp 3 4)).add (hcomp 4 3)).add (hcomp 5 2)).add (hcomp 6 1)).add (hcomp 7 0)
  have hchars : Closed toLowerAscii (unreserved + subDelims + lit ':') := by
    rw [unreserved_eq, subDelims_eq]
    exact ((Closed.single fun c => (hclass c).2.1).add
      (Closed.single fun c => (hclass c).2.2.1)).add hcolon
  have hv : Closed toLowerAscii (lit 'v' + lit 'V') := by
    rw [lit, lit, single_add]
    exact Closed.single (by decide +kernel)
  exact h6.add (((hv.mul (hhex.mul hhex.kstar)).mul (hlit '.' (by decide))).mul
    (hchars.mul hchars.kstar))

/-- A host as `parseHost` leaves it. -/
def NormalHost (host : Octets) (isIpLiteral : Bool) : Prop :=
  if isIpLiteral then host ∈ ipv6address + ipvFuture ∧ toLowerCopy host = host
  else Normalizes isRegNameChar true host host

theorem normalHost_name {name : Octets} {o : Option Octets} {r : Octets × Bool × Option Octets}
    (h : (normalizeComponent isRegNameChar "host" true name).map (·, false, o) = .ok r) :
    NormalHost r.1 r.2.1 := by
  cases hn : normalizeComponent isRegNameChar "host" true name with
  | error e => rw [hn] at h; simp [Except.map] at h
  | ok host =>
    rw [hn] at h
    cases h
    exact (normalizeComponent_ok_iff.mp hn).idem isRegNameChar_stable

theorem parseHost_normal {hp : Octets} {r : Octets × Bool × Option Octets}
    (h : parseHost hp = .ok r) : NormalHost r.1 r.2.1 := by
  by_cases hopen : hp.head? = some '['.toUInt8
  · obtain ⟨rest, rfl⟩ : ∃ rest, hp = '['.toUInt8 :: rest := by
      cases hp with
      | nil => simp at hopen
      | cons c rest => exact ⟨rest, by simpa using hopen⟩
    obtain ⟨literal, hclose, rfl | ⟨remainder, rfl⟩⟩ := exists_cut ']'.toUInt8 rest
    · rw [parseHost_unclosed hclose] at h
      simp [throwInvalidUri] at h
    · rw [parseHost_literal remainder hclose] at h
      cases hchk : chkIpLiteral literal with
      | error e => rw [hchk] at h; simp [bind, Except.bind] at h
      | ok _ =>
        rw [hchk] at h
        have hmem := (chkIpLiteral_acceptsIff literal).isOk.mp ⟨_, hchk⟩
        have hnormal : NormalHost (toLowerCopy literal) true :=
          ⟨literal_closed literal hmem, toLowerCopy_idem literal⟩
        rw [ok_bind] at h
        cases remainder with
        | nil =>
          cases h
          exact hnormal
        | cons ch p =>
          rw [literalHost] at h
          split at h
          · simp [throwInvalidUri] at h
          · cases h
            exact hnormal
  · obtain ⟨name, hcolon, rfl | ⟨p, rfl⟩⟩ := exists_cut ':'.toUInt8 hp
    · rw [parseHost_name hopen hcolon] at h
      exact normalHost_name h
    · rw [parseHost_name_port p hopen hcolon] at h
      exact normalHost_name h

/-- The text `toString` writes for a host and a port reads back as them. -/
theorem parseHost_recomposed {host : Octets} {isIpLiteral : Bool} (h : NormalHost host isIpLiteral)
    (port : Option Octets) :
    parseHost ((if isIpLiteral then octets "[" ++ host ++ octets "]" else host) ++
        (match port with
          | none => []
          | some p => ':'.toUInt8 :: p))
      = .ok (host, isIpLiteral, port) := by
  cases isIpLiteral with
  | true =>
    obtain ⟨hmem, hlower⟩ := h
    have hclose := literal_not_mem ']'.toUInt8 (by decide) (by decide) host hmem
    obtain ⟨_, hchk⟩ := (chkIpLiteral_acceptsIff host).isOk.mpr hmem
    have hopen : octets "[" = ['['.toUInt8] := rfl
    have hshut : octets "]" = [']'.toUInt8] := rfl
    simp only [if_true, hopen, hshut, append_assoc, cons_append,
      nil_append]
    rw [parseHost_literal _ hclose, hchk, ok_bind]
    cases port <;> simp [literalHost, hlower]
  | false =>
    have hnot := fun c hc => Normalizes.not_mem isRegNameChar_stable h c hc
    have hcolon := hnot ':'.toUInt8 (by decide)
    have hbracket := hnot '['.toUInt8 (by decide)
    have hok := Normalizes.ok h "host"
    cases port with
    | none =>
      have hopen : host.head? ≠ some '['.toUInt8 := fun e =>
        hbracket (mem_of_mem_head? e)
      simp only [Bool.false_eq_true, if_false, append_nil]
      rw [parseHost_name hopen hcolon, hok]
      rfl
    | some p =>
      have hopen : (host ++ ':'.toUInt8 :: p).head? ≠ some '['.toUInt8 := by
        cases host with
        | nil =>
          rw [nil_append, head?_cons]
          decide
        | cons c host =>
          simp only [mem_cons, not_or] at hbracket
          simpa using fun e => hbracket.1 e.symm
      simp only [Bool.false_eq_true, if_false]
      rw [parseHost_name_port p hopen hcolon, hok]
      rfl

/-! ## Authorities -/

/-- The members an authority sets. -/
def authorityPart (u : Uri) : Uri where
  userInfo := u.userInfo
  host := u.host
  port := u.port
  hasAuthority := u.hasAuthority
  hasUserInfo := u.hasUserInfo
  hasPort := u.hasPort
  isIpLiteral := u.isIpLiteral

/-- The text `toString` writes for them, after the "//". -/
def authorityText (u : Uri) : Octets :=
  (if u.hasUserInfo then u.userInfo ++ octets "@" else []) ++ u.authority

/-- An authority as `parseAuthority` leaves it. -/
structure NormalAuthority (u : Uri) : Prop where
  userInfo : u.hasUserInfo = true → Normalizes isUserInfoChar false u.userInfo u.userInfo
  noUserInfo : u.hasUserInfo = false → u.userInfo = []
  host : NormalHost u.host u.isIpLiteral
  noPort : u.hasPort = false → u.port = 0

theorem parseUserInfo_normal {a : Octets} {r : Option Octets × Octets}
    (h : parseUserInfo a = .ok r) : ∀ text ∈ r.1, Normalizes isUserInfoChar false text text := by
  obtain ⟨text, hat, rfl | ⟨rest, rfl⟩⟩ := exists_cut '@'.toUInt8 a
  · rw [parseUserInfo_none hat] at h
    cases h
    simp
  · rw [parseUserInfo_some rest hat] at h
    cases hu : normalizeComponent isUserInfoChar "userinfo" false text with
    | error e => rw [hu] at h; simp [Except.map] at h
    | ok userInfo =>
      rw [hu] at h
      cases h
      rintro _ ⟨⟩
      exact (normalizeComponent_ok_iff.mp hu).idem isUserInfoChar_stable

theorem parseAuthority_normal {a : Octets} (h : parseAuthority a = .ok u) :
    NormalAuthority u ∧ u.hasAuthority = true ∧ authorityPart u = u := by
  rw [parseAuthority] at h
  obtain ⟨user, huser, h⟩ := bind_eq_ok.mp h
  obtain ⟨host, hhost, h⟩ := bind_eq_ok.mp h
  obtain ⟨port, -, h⟩ := bind_eq_ok.mp h
  cases h
  refine ⟨⟨?_, ?_, parseHost_normal hhost, ?_⟩, rfl, rfl⟩
  · intro hsome
    obtain ⟨text, htext⟩ := Option.isSome_iff_exists.mp hsome
    have := parseUserInfo_normal huser text htext
    simpa [htext] using this
  · intro hnone
    have : user.1 = none := by simpa using hnone
    simp [this]
  · intro hnone
    have : port = none := by simpa using hnone
    simp [this]

theorem parseHost_authority (h : NormalAuthority u) : parseHost u.authority
      = .ok (u.host, u.isIpLiteral, if u.hasPort then some (toDecimal u.port.toNat) else none) := by
  have hhost := parseHost_recomposed h.host
    (if u.hasPort then some (toDecimal u.port.toNat) else none)
  rw [← hhost, authority, hostForAuthority]
  cases u.hasPort <;> rfl

theorem parsePortText_authority :
    parsePortText (if u.hasPort then some (toDecimal u.port.toNat) else none)
      = .ok (if u.hasPort then some u.port else none) := by
  cases u.hasPort with
  | false => rfl
  | true => exact parsePort_toDecimal u.port

theorem at_not_mem_authority (h : NormalAuthority u) : '@'.toUInt8 ∉ u.authority := by
  have hmem : u.authority ∈ hostPort := by
    have hk := parseHost_bind_acceptsIff (k := fun r => parsePortText r.2.2)
      (fun _ _ => trivial) (fun _ _ p => parsePort_acceptsIff p) u.authority
    rwa [parseHost_authority h, ok_bind, parsePortText_authority, acceptsIff_ok] at hk
  exact hostPort_not_mem _ (by decide) _ hmem

theorem NormalAuthority.parse (h : NormalAuthority u) (ha : u.hasAuthority = true) :
    parseAuthority (authorityText u) = .ok (authorityPart u) := by
  have hport : (if u.hasPort then some u.port else none).getD 0 = u.port ∧
      (if u.hasPort then some u.port else none).isSome = u.hasPort := by
    cases hp : u.hasPort with
    | false => simp [h.noPort hp]
    | true => simp
  have huser : parseUserInfo (authorityText u)
      = .ok (if u.hasUserInfo then some u.userInfo else none, u.authority) := by
    rw [authorityText]
    cases hu : u.hasUserInfo with
    | false => exact parseUserInfo_none (at_not_mem_authority h)
    | true =>
      have hnormal := h.userInfo hu
      have hat := hnormal.not_mem isUserInfoChar_stable '@'.toUInt8 (by decide)
      have hsep : octets "@" = ['@'.toUInt8] := rfl
      simp only [if_true, hsep, append_assoc, singleton_append]
      rw [parseUserInfo_some _ hat, hnormal.ok "userinfo"]
      rfl
  have hname : (if u.hasUserInfo then some u.userInfo else none).getD [] = u.userInfo ∧
      (if u.hasUserInfo then some u.userInfo else none).isSome = u.hasUserInfo := by
    cases hu : u.hasUserInfo with
    | false => simp [h.noUserInfo hu]
    | true => simp
  simp only [parseAuthority, huser, parseHost_authority h, parsePortText_authority, ok_bind, hport,
    hname, authorityPart, ha]
  rfl

/-! ## Objects -/

/-- The components `toString` writes. -/
def recomposed (u : Uri) : Components where
  scheme := if u.scheme = [] then none else some u.scheme
  authority := if u.hasAuthority then some (authorityText u) else none
  path := u.path
  query := if u.hasQuery then some u.query else none
  fragment := if u.hasFragment then some u.fragment else none

theorem toString_eq (u : Uri) : u.toString = (recomposed u).text := by
  have hscheme : (if u.scheme.isEmpty then [] else u.scheme ++ octets ":")
      = (recomposed u).schemeText := by
    simp only [List.isEmpty_iff, recomposed, Components.schemeText]
    split_ifs <;> rfl
  have hauthority : (if u.hasAuthority then
      octets "//" ++ (if u.hasUserInfo then u.userInfo ++ octets "@" else []) ++ u.authority
      else []) = (recomposed u).authorityText := by
    simp only [recomposed, Components.authorityText, authorityText]
    cases u.hasAuthority with
    | false => rfl
    | true => simp [octets]
  have hquery : (if u.hasQuery then '?'.toUInt8 :: u.query else []) = (recomposed u).queryText := by
    simp only [recomposed, Components.queryText]
    cases u.hasQuery <;> rfl
  have hfragment : (if u.hasFragment then '#'.toUInt8 :: u.fragment else [])
      = (recomposed u).fragmentText := by
    simp only [recomposed, Components.fragmentText]
    cases u.hasFragment <;> rfl
  rw [Components.text, ← hscheme, ← hauthority, ← hquery, ← hfragment]
  rfl

/-- An object as `parse` leaves it. -/
structure Normal (u : Uri) : Prop where
  scheme : u.scheme ≠ [] → isValidScheme u.scheme = true ∧ toLowerCopy u.scheme = u.scheme
  authority : u.hasAuthority = true → NormalAuthority u
  noAuthority : u.hasAuthority = false → authorityPart u = {}
  path : NormalSegment u.path u.path
  noDots : u.scheme ≠ [] ∨ u.hasAuthority = true → removeDotSegments u.path = u.path
  abempty : u.hasAuthority = true → u.path = [] ∨ ∃ q, u.path = '/'.toUInt8 :: q
  relative : u.scheme = [] → u.hasAuthority = false →
    ¬ octets "//" <+: u.path ∧ ':'.toUInt8 ∉ u.path.takeWhile (· != '/'.toUInt8)
  query : Normalizes isQueryOrFragmentChar false u.query u.query
  noQuery : u.hasQuery = false → u.query = []
  fragment : Normalizes isQueryOrFragmentChar false u.fragment u.fragment
  noFragment : u.hasFragment = false → u.fragment = []

theorem Normal.build_recomposed (h : Normal u) : (recomposed u).build = .ok u := by
  have hfragment : (recomposed u).fragment.mapM
      (normalizeComponent isQueryOrFragmentChar "fragment" false)
        = .ok (if u.hasFragment then some u.fragment else none) := by
    simp only [recomposed]
    cases u.hasFragment with
    | false => rfl
    | true => simp only [if_true, Option.mapM_some, h.fragment.ok "fragment"]; rfl
  have hquery : (recomposed u).query.mapM (normalizeComponent isQueryOrFragmentChar "query" false)
      = .ok (if u.hasQuery then some u.query else none) := by
    simp only [recomposed]
    cases u.hasQuery with
    | false => rfl
    | true => simp only [if_true, Option.mapM_some, h.query.ok "query"]; rfl
  have hscheme : Components.buildScheme (recomposed u).scheme = .ok u.scheme := by
    simp only [recomposed]
    split_ifs with hs
    · rw [hs]
      rfl
    · obtain ⟨hvalid, hlower⟩ := h.scheme hs
      simp only [Components.buildScheme, hvalid, Bool.not_true, Bool.false_eq_true, if_false,
        hlower]
  have hauthority : Components.buildAuthority (recomposed u).authority = .ok (authorityPart u) := by
    simp only [recomposed]
    cases ha : u.hasAuthority with
    | false => rw [h.noAuthority ha]; rfl
    | true => exact (h.authority ha).parse ha
  have hq : (if u.hasQuery then some u.query else none).getD [] = u.query ∧
      (if u.hasQuery then some u.query else none).isSome = u.hasQuery := by
    cases hq : u.hasQuery with
    | false => simp [h.noQuery hq]
    | true => simp
  have hf : (if u.hasFragment then some u.fragment else none).getD [] = u.fragment ∧
      (if u.hasFragment then some u.fragment else none).isSome = u.hasFragment := by
    cases hf : u.hasFragment with
    | false => simp [h.noFragment hf]
    | true => simp
  have hpath : (if !u.scheme.isEmpty || (authorityPart u).hasAuthority then removeDotSegments u.path
      else u.path) = u.path := by
    split_ifs with hdots
    · refine h.noDots ?_
      rw [Bool.or_eq_true] at hdots
      refine hdots.imp (fun hs => ?_) id
      simpa using hs
    · rfl
  simp only [Components.build, hfragment, hquery, hscheme, hauthority, ok_bind]
  have hnormal : normalizeComponent isPathChar "path" false (recomposed u).path = .ok u.path :=
    h.path.ok "path"
  rw [hnormal, ok_bind, hpath, hq.1, hq.2, hf.1, hf.2]
  rfl

theorem mapM_normal {component : String} {o r : Option Octets}
    (h : o.mapM (normalizeComponent isQueryOrFragmentChar component false) = .ok r) :
    Normalizes isQueryOrFragmentChar false (r.getD []) (r.getD []) := by
  cases o with
  | none =>
    cases h
    exact .nil
  | some text =>
    rw [Option.mapM_some] at h
    obtain ⟨t, ht, h⟩ := bind_eq_ok.mp h
    cases h
    exact (normalizeComponent_ok_iff.mp ht).idem isQueryOrFragmentChar_stable

theorem isValidScheme_lower {s : Octets} (h : isValidScheme s = true) :
    isValidScheme (toLowerCopy s) = true := by
  have hclass : ∀ ch, (isAlpha ch = true → isAlpha (toLowerAscii ch) = true) ∧
      ((isAlpha ch || isDigit ch || '+'.toUInt8 == ch || '-'.toUInt8 == ch ||
          '.'.toUInt8 == ch) = true →
        (isAlpha (toLowerAscii ch) || isDigit (toLowerAscii ch) ||
          '+'.toUInt8 == toLowerAscii ch || '-'.toUInt8 == toLowerAscii ch ||
          '.'.toUInt8 == toLowerAscii ch) = true) := by
    decide +kernel
  cases s with
  | nil => simp [isValidScheme] at h
  | cons ch s =>
    simp only [isValidScheme, Bool.and_eq_true, all_eq_true] at h
    simp only [toLowerCopy, map_cons, isValidScheme, Bool.and_eq_true, all_map,
      all_eq_true, Function.comp_apply]
    exact ⟨(hclass ch).1 h.1, fun c hc => (hclass c).2 (h.2 c hc)⟩

theorem buildScheme_normal {o : Option Octets} {scheme : Octets}
    (h : Components.buildScheme o = .ok scheme) : (scheme = [] ↔ o = none) ∧
      (scheme ≠ [] → isValidScheme scheme = true ∧ toLowerCopy scheme = scheme) := by
  cases o with
  | none =>
    cases h
    simp
  | some s =>
    rw [Components.buildScheme] at h
    split at h
    · simp [throwInvalidUri] at h
    · rename_i hvalid
      cases h
      have hvalid : isValidScheme s = true := by simpa using hvalid
      refine ⟨?_, fun _ => ⟨isValidScheme_lower hvalid, toLowerCopy_idem s⟩⟩
      cases s with
      | nil => simp [isValidScheme] at hvalid
      | cons c s => simp [toLowerCopy]

theorem buildAuthority_normal {o : Option Octets} {a : Uri}
    (h : Components.buildAuthority o = .ok a) : (a.hasAuthority = true ↔ o ≠ none) ∧
      (a.hasAuthority = true → NormalAuthority a) ∧
      (a.hasAuthority = false → authorityPart a = {}) := by
  cases o with
  | none =>
    cases h
    exact ⟨by simp, by simp, fun _ => rfl⟩
  | some text =>
    obtain ⟨hnormal, hhas, -⟩ := parseAuthority_normal h
    exact ⟨by simp [hhas], fun _ => hnormal, by simp [hhas]⟩

/-- A relative path keeps the form of its start. -/
theorem normalSegment_relative {path p : Octets} (h : NormalSegment path p)
    (hno : ¬ octets "//" <+: path)
    (hcolon : ':'.toUInt8 ∉ path.takeWhile (· != '/'.toUInt8)) :
    ¬ octets "//" <+: p ∧ ':'.toUInt8 ∉ p.takeWhile (· != '/'.toUInt8) := by
  have hwhile : ∀ {a : Octets}, '/'.toUInt8 ∉ a → ∀ c ∈ a, (c != '/'.toUInt8) = true := by
    intro a ha c hc
    simp only [bne_iff_ne, ne_eq]
    rintro rfl
    exact ha hc
  constructor
  · rintro ⟨t, rfl⟩
    obtain ⟨x, rfl, hx⟩ := normalSegment_slash_cons h
    obtain ⟨y, rfl, -⟩ := normalSegment_slash_cons hx
    exact hno ⟨y, rfl⟩
  · obtain ⟨a, ha, rfl | ⟨b, rfl⟩⟩ := exists_cut '/'.toUInt8 path
    · rw [takeWhile_eq_self_iff.mpr (hwhile ha)] at hcolon
      rw [takeWhile_eq_self_iff.mpr (hwhile (h.slash_not_mem ha))]
      exact NormalSegment.not_mem (by decide) h hcolon
    · obtain ⟨a', b', ha', -, rfl⟩ := h.split (by decide) (by decide) (by decide) rfl
      have hslash := Normalizes.slash_not_mem ha' ha
      rw [takeWhile_append_of_pos (hwhile ha), takeWhile_cons_of_neg (by simp),
        append_nil] at hcolon
      rw [takeWhile_append_of_pos (hwhile hslash), takeWhile_cons_of_neg (by simp),
        append_nil]
      exact NormalSegment.not_mem (by decide) ha' hcolon

/-- What `parse` returns is normal; its path is the normal form of the one
which was written, without its dot segments unless the reference is a
relative one. -/
theorem build_normal {c : Components} (hsep : c.Separated) (h : c.build = .ok u) :
    Normal u ∧ (u.scheme = [] ↔ c.scheme = none) ∧ (u.hasAuthority = true ↔ c.authority ≠ none) ∧
      ∃ p, NormalSegment c.path p ∧
        u.path = if !u.scheme.isEmpty || u.hasAuthority then removeDotSegments p else p := by
  rw [Components.build] at h
  obtain ⟨fragment, hfragment, h⟩ := bind_eq_ok.mp h
  obtain ⟨query, hquery, h⟩ := bind_eq_ok.mp h
  obtain ⟨scheme, hscheme, h⟩ := bind_eq_ok.mp h
  obtain ⟨authority, hauthority, h⟩ := bind_eq_ok.mp h
  obtain ⟨path, hpath, h⟩ := bind_eq_ok.mp h
  cases h
  obtain ⟨hnone, hscheme⟩ := buildScheme_normal hscheme
  obtain ⟨hsome, hnormal, hempty⟩ := buildAuthority_normal hauthority
  have hpath := normalizeComponent_ok_iff.mp hpath
  have hp := hpath.idem isPathChar_stable
  refine ⟨{
    scheme := hscheme
    authority := fun ha => ?_
    noAuthority := fun ha => ?_
    path := ?_
    noDots := fun h => ?_
    abempty := fun ha => ?_
    relative := fun hs ha => ?_
    query := mapM_normal hquery
    noQuery := fun hq => ?_
    fragment := mapM_normal hfragment
    noFragment := fun hf => ?_ }, hnone, hsome, path, hpath, rfl⟩
  · obtain ⟨huser, hnouser, hhost, hport⟩ := hnormal ha
    exact ⟨huser, hnouser, hhost, hport⟩
  · exact hempty ha
  · simp only
    split_ifs
    · exact normalSegment_removeDotSegments hp
    · exact hp
  · have hdots : (!scheme.isEmpty || authority.hasAuthority) = true := by
      rw [Bool.or_eq_true]
      exact h.imp (fun hs => by simpa using hs) id
    simp only [hdots, if_true]
    exact removeDotSegments_idem path
  · have hdots : (!scheme.isEmpty || authority.hasAuthority) = true := by
      rw [Bool.or_eq_true]
      exact .inr ha
    simp only [hdots, if_true]
    refine removeDotSegments_abempty ?_
    have hauth : c.authority.isSome := Option.isSome_iff_ne_none.mpr (hsome.mp ha)
    rcases hsep.abempty hauth with hc | ⟨q, hc⟩
    · rw [hc] at hpath
      exact .inl (hpath.eq_nil_iff.mpr rfl)
    · rw [hc] at hpath
      obtain ⟨a', b', ha', -, rfl⟩ := hpath.split (a := []) (by decide) (by decide) (by decide) rfl
      rw [ha'.eq_nil_iff.mpr rfl]
      exact .inr ⟨b', rfl⟩
  · have hdots : (!scheme.isEmpty || authority.hasAuthority) = false := by
      rw [Bool.or_eq_false_iff]
      exact ⟨by simpa using hs, ha⟩
    have hauth : c.authority = none := by
      by_contra hne
      rw [hsome.mpr hne] at ha
      exact absurd ha (by decide)
    simp only [hdots, Bool.false_eq_true, if_false]
    exact normalSegment_relative hpath (hsep.noAuthority hauth)
      (hsep.noScheme (hnone.mp hs) hauth)
  · obtain rfl : query = none := by simpa using hq
    rfl
  · obtain rfl : fragment = none := by simpa using hf
    rfl

/-! ## The round trip -/

/-- The components `toString` writes are separated, but for a path which
looks like an authority. -/
theorem Normal.recomposed_separated (h : Normal u)
    (hno : u.hasAuthority = false → ¬ octets "//" <+: u.path) : (recomposed u).Separated := by
  have hvalid : Valid (recomposed u) :=
    (build_acceptsIff (recomposed u)).isOk.mp ⟨u, h.build_recomposed⟩
  refine hvalid.separated ?_ ?_
  · cases ha : u.hasAuthority with
    | false => simpa [PathFits, recomposed, ha] using hno ha
    | true => simpa [PathFits, recomposed, ha] using h.abempty ha
  · intro hs ha
    have hs : u.scheme = [] := by
      by_contra hne
      simp [recomposed, hne] at hs
    have ha : u.hasAuthority = false := by
      by_contra hne
      simp [recomposed, hne] at ha
    exact (h.relative hs ha).2

theorem build_of_parse {s : Octets} (h : parse s = .ok u) :
    (Components.components s).build = .ok u := by
  obtain ⟨hsep, htext⟩ := Components.components_separated s
  rw [parse, ← htext, Components.parseImpl_text hsep] at h
  obtain ⟨_, -, h⟩ := bind_eq_ok.mp h
  exact h

theorem parse_text {c : Components} (hsep : c.Separated) (h : c.build = .ok u) :
    parse c.text = .ok u := by
  have hvalid : Valid c := (build_acceptsIff c).isOk.mp ⟨u, h⟩
  obtain ⟨_, hstrict⟩ := (chkStrictCharacters_acceptsIff c.text).isOk.mpr hvalid.strict
  rw [parse, Components.parseImpl_text hsep, hstrict, ok_bind, h]

/-- A path which looks like an authority is read as one. -/
theorem parse_toString_of_slashes {v : Uri} (hs : u.scheme ≠ [])
    (hvalid : isValidScheme u.scheme = true) (ha : u.hasAuthority = false)
    (hpath : octets "//" <+: u.path) (h : parse u.toString = .ok v) : v.hasAuthority = true := by
  obtain ⟨t, ht⟩ := hpath
  have htext : u.toString = u.scheme ++ ':'.toUInt8 :: '/'.toUInt8 :: '/'.toUInt8 ::
      (t ++ (recomposed u).queryText ++ (recomposed u).fragmentText) := by
    rw [toString_eq, Components.text]
    simp only [Components.schemeText, Components.authorityText, recomposed, hs, ha, ← ht, if_false,
      Bool.false_eq_true, append_assoc, nil_append]
    rfl
  have hmem := (isValidScheme_iff _).mp hvalid
  have hauth := Components.components_authority
    (t ++ (recomposed u).queryText ++ (recomposed u).fragmentText) fun ch hch => by
      refine ⟨?_, ?_, ?_, ?_⟩ <;> rintro rfl <;> exact scheme_not_mem _ (by decide) _ hmem hch
  rw [← htext] at hauth
  obtain ⟨-, -, hsome, -⟩ := build_normal (Components.components_separated _).1 (build_of_parse h)
  exact hsome.mpr hauth

/-- The text of an accepted reference reads back as the same object exactly
when its path does not end up with two separators in front. -/
theorem parse_toString_iff (s : Octets) (u : Uri) (h : parse s = .ok u) :
    parse u.toString = .ok u ↔
      (Components.components s).scheme = none ∨ (Components.components s).authority ≠ none ∨
        ¬ EmptyFirst (pathKinds (Components.components s).path) := by
  obtain ⟨hnormal, hnone, hsome, p, hp, hpath⟩ :=
    build_normal (Components.components_separated s).1 (build_of_parse h)
  have hslashes := removeDotSegments_normal_slashes_iff hp
  constructor
  · intro hround
    by_contra hno
    simp only [not_or, not_not] at hno
    obtain ⟨hscheme, hauthority, hempty⟩ := hno
    have hs : u.scheme ≠ [] := fun e => hscheme (hnone.mp e)
    have ha : u.hasAuthority = false := by
      by_contra hne
      exact hsome.mp (by simpa using hne) hauthority
    have hdots : (!u.scheme.isEmpty || u.hasAuthority) = true := by simp [hs]
    rw [if_pos hdots] at hpath
    have hpre : octets "//" <+: u.path := by rw [hpath]; exact hslashes.mpr hempty
    have := parse_toString_of_slashes hs (hnormal.scheme hs).1 ha hpre hround
    rw [ha] at this
    exact absurd this (by decide)
  · intro hcond
    rw [toString_eq]
    refine parse_text (hnormal.recomposed_separated fun ha => ?_) hnormal.build_recomposed
    by_cases hs : u.scheme = []
    · exact (hnormal.relative hs ha).1
    · have hdots : (!u.scheme.isEmpty || u.hasAuthority) = true := by simp [hs]
      rw [hpath, if_pos hdots, hslashes]
      rcases hcond with hc | hc | hc
      · exact absurd (hnone.mpr hc) hs
      · rw [hsome.mpr hc] at ha
        exact absurd ha (by decide)
      · exact hc

/-- A reference whose ".." segments stay: it has no scheme. -/
theorem parse_toString_relative :
    parse (octets "a/../b?q")
        = .ok { path := octets "a/../b", query := octets "q", hasQuery := true } ∧
      parse (Uri.toString
          { path := octets "a/../b", query := octets "q", hasQuery := true : Uri })
        = .ok { path := octets "a/../b", query := octets "q", hasQuery := true } := by
  have hparse : parse (octets "a/../b?q")
      = .ok { path := octets "a/../b", query := octets "q", hasQuery := true } := by
    decide +kernel
  exact ⟨hparse, (parse_toString_iff _ _ hparse).mpr (.inl (by decide +kernel))⟩

/-- The path of an accepted reference can end up looking like an authority. -/
theorem parse_toString_not_id : ∃ s u, parse s = .ok u ∧ parse u.toString ≠ .ok u :=
  ⟨octets "a:/..//b", { scheme := octets "a", path := octets "//b" }, by decide +kernel,
    by decide +kernel⟩

end Baselib.Core.Uri
