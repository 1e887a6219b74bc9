/-
Baselib.Core.UriGrammarTheorems — the parser accepts the URI references
of the grammar and nothing else.

The check of every component accepts its production (`build_acceptsIff`).
A text is a URI reference exactly when its separated components are all
valid (`mem_uriReference_iff`), which is where the five forms of a path
become conditions on the delimiters, and the two meet at
`Components.parseImpl_text`.
-/
import Baselib.Core.UriHost
import Baselib.Core.UriComponents

namespace Baselib.Core.UriGrammar

open Lib Uri Computability List
open Language (append_mem_mul mem_add mem_mul)

/-! ## Ports -/

/-- The digits of `s` after those of `value`. -/
def portValue (value : Nat) (s : Octets) : Nat :=
  s.foldl (fun value ch => value * 10 + (ch.toNat - '0'.toNat)) value

theorem le_portValue (s : Octets) : ∀ value, value ≤ portValue value s := by
  induction s with
  | nil => exact fun _ => le_rfl
  | cons ch s ih =>
    intro value
    have := ih (value * 10 + (ch.toNat - '0'.toNat))
    simp only [portValue, foldl_cons] at this ⊢
    omega

theorem decimalValue_eq (s : Octets) : decimalValue s = portValue 0 s := by
  rw [decimalValue, Nat.ofDigits_eq_foldr, foldr_map, foldr_reverse, portValue]
  congr 1
  funext value ch
  simp only [Nat.cast_id]
  omega

theorem parsePortLoop_acceptsIff (s : Octets) : ∀ value,
    AcceptsIff (parsePortLoop value s)
      (s.all isDigit = true ∧ (s ≠ [] → portValue value s ≤ 65535)) := by
  induction s with
  | nil => intro value; simp [parsePortLoop]
  | cons ch s ih =>
    intro value
    rw [parsePortLoop]
    by_cases hdigit : isDigit ch = true
    · have hle := le_portValue s (value * 10 + (ch.toNat - '0'.toNat))
      simp only [hdigit, Bool.not_true, Bool.false_eq_true, if_false]
      split_ifs with hgt
      · rw [acceptsIff_throwInvalidUri]
        rintro ⟨-, hv⟩
        have hv := hv (by simp)
        simp only [portValue, foldl_cons] at hv hle
        omega
      · refine (ih _).congr ?_
        simp only [all_cons, hdigit, Bool.true_and]
        refine and_congr Iff.rfl ⟨fun h _ => ?_, fun h _ => h (by simp)⟩
        cases s with
        | nil => simpa [portValue] using hgt
        | cons _ _ => exact h (by simp)
    · simp [hdigit]

theorem parsePort_acceptsIff (s : Octets) : AcceptsIff (parsePort s) (s ∈ port) := by
  have hport : s ∈ port ↔ s.all isDigit = true ∧ portValue 0 s ≤ 65535 := by
    have hmem : s ∈ port ↔ s ∈ digit∗ ∧ decimalValue s ≤ 65535 := Iff.rfl
    rw [hmem, digit_eq, mem_single_kstar, decimalValue_eq]
  rw [hport, parsePort]
  cases s with
  | nil => simp [portValue]
  | cons ch s =>
    refine AcceptsIff.congr ((parsePortLoop_acceptsIff (ch :: s) 0).bind (q := True)
      fun _ _ => trivial) ?_
    simp

/-! ## Hosts -/

/-- `host [ ":" port ]` -/
def hostPort : Language UInt8 := host * opt (lit ':' * port)

/-- What a repetition of a class and of encoded octets cannot contain. -/
theorem component_not_mem {isAllowed : UInt8 → Bool} (ch : UInt8)
    (h : isAllowed ch = false ∧ isHexDigit ch = false ∧ ch ≠ '%'.toUInt8) :
    ∀ w ∈ (single isAllowed + pctEncoded)∗, ch ∉ w := by
  have hp : Over (· ≠ ch) pctEncoded := by
    rw [pctEncoded, hexdig_eq]
    have hhex : Over (· ≠ ch) (single isHexDigit) :=
      Over.single fun c hc e => by simp [← e, hc] at h
    exact ((over_lit (P := (· ≠ ch)) (Ne.symm h.2.2)).mul hhex).mul hhex
  have hover : Over (· ≠ ch) (single isAllowed + pctEncoded)∗ :=
    ((Over.single fun c hc e => by simp [← e, hc] at h).add hp).kstar
  exact fun w hw hmem => hover w hw ch hmem rfl

theorem userinfo_not_mem (ch : UInt8) (h : isUserInfoChar ch = false ∧ isHexDigit ch = false ∧
    ch ≠ '%'.toUInt8) : ∀ w ∈ userinfo, ch ∉ w := by
  rw [userinfo_eq]
  exact component_not_mem ch h

theorem regName_not_mem (ch : UInt8) (h : isRegNameChar ch = false ∧ isHexDigit ch = false ∧
    ch ≠ '%'.toUInt8) : ∀ w ∈ regName, ch ∉ w := by
  rw [regName_eq]
  exact component_not_mem ch h

theorem path_not_mem (ch : UInt8) (h : isPathChar ch = false ∧ isHexDigit ch = false ∧
    ch ≠ '%'.toUInt8) : ∀ w ∈ (pchar + lit '/')∗, ch ∉ w := by
  rw [path_eq]
  exact component_not_mem ch h

theorem query_not_mem (ch : UInt8) (h : isQueryOrFragmentChar ch = false ∧
    isHexDigit ch = false ∧ ch ≠ '%'.toUInt8) : ∀ w ∈ query, ch ∉ w := by
  rw [query_eq]
  exact component_not_mem ch h

theorem ipv4address_regName {w : Octets} (hw : w ∈ ipv4address) : w ∈ regName := by
  have hall : w.all isRegNameChar = true := by
    rw [all_eq_true]
    intro c hc
    by_contra hno
    refine ipv4address_not_mem c ?_ ?_ w hw hc
    · by_contra hdigit
      simp only [Bool.not_eq_false] at hdigit
      exact hno (by simp [isRegNameChar, isUnreserved, hdigit])
    · rintro rfl
      exact hno (by decide)
  rw [regName_eq]
  exact kstar_mono (fun v hv => (mem_add _ _ _).mpr (.inl hv))
    (mem_single_kstar.mpr hall)

theorem ipLiteral_cons {ch : UInt8} {rest : Octets} :
    ch :: rest ∈ ipLiteral ↔ ch = '['.toUInt8 ∧
      ∃ literal, rest = literal ++ [']'.toUInt8] ∧ literal ∈ ipv6address + ipvFuture := by
  rw [ipLiteral, mul_assoc, lit, cons_mem_single_mul, beq_iff_eq, eq_comm]
  refine and_congr Iff.rfl ?_
  rw [mem_mul]
  constructor
  · rintro ⟨literal, hliteral, _, ⟨c, hc, rfl⟩, rfl⟩
    exact ⟨literal, by rw [eq_of_beq hc], hliteral⟩
  · rintro ⟨literal, rfl, hliteral⟩
    exact ⟨literal, hliteral, _, ⟨_, beq_self_eq_true _, rfl⟩, rfl⟩

/-- What cannot stand between the brackets. -/
theorem literal_not_mem (ch : UInt8) (huser : isUserInfoChar ch = false)
    (hhexch : isHexDigit ch = false) : ∀ w ∈ ipv6address + ipvFuture, ch ∉ w := by
  have hne : ∀ c, isUserInfoChar c = true → c ≠ ch := fun c hc e => by simp [← e, hc] at huser
  have hhex : ∀ c, isHexDigit c = true → c ≠ ch := fun c hc e => by simp [← e, hc] at hhexch
  have hun : ∀ c, isUnreserved c = true → c ≠ ch := fun c hc => hne c (by simp [isUserInfoChar, hc])
  have hsub : ∀ c, isSubDelim c = true → c ≠ ch := fun c hc => hne c (by simp [isUserInfoChar, hc])
  have hlit : ∀ c : Char, isUserInfoChar c.toUInt8 = true → Over (· ≠ ch) (lit c) :=
    fun c hc => over_lit (P := (· ≠ ch)) (hne _ hc)
  have htail : Over (· ≠ ch) (unreserved + subDelims + lit ':') := by
    rw [unreserved_eq, subDelims_eq]
    exact ((Over.single hun).add (Over.single hsub)).add (hlit ':' (by decide))
  have hhexdig : Over (· ≠ ch) hexdig := by
    rw [hexdig_eq]
    exact Over.single hhex
  have hfuture : Over (· ≠ ch) ipvFuture :=
    ((((hlit 'v' (by decide)).add (hlit 'V' (by decide))).mul (hhexdig.mul hhexdig.kstar)).mul
      (hlit '.' (by decide))).mul (htail.mul htail.kstar)
  have hover := (ipv6address_over (P := (· ≠ ch)) hhex (hne _ (by decide))
    (hne _ (by decide))).add hfuture
  exact fun w hw hmem => hover w hw ch hmem rfl

theorem literal_mem_hostPort {rest : Octets} :
    '['.toUInt8 :: rest ∈ hostPort ↔ ∃ literal remainder,
      rest = literal ++ ']'.toUInt8 :: remainder ∧ ']'.toUInt8 ∉ literal ∧
        literal ∈ ipv6address + ipvFuture ∧ remainder ∈ opt (lit ':' * port) := by
  rw [hostPort, mem_mul]
  constructor
  · rintro ⟨h, hh, t, ht, e⟩
    cases h with
    | nil =>
      -- the port does not start with a bracket
      rw [nil_append] at e
      rw [e, mem_opt, lit, cons_mem_single_mul] at ht
      have hne : (':'.toUInt8 == '['.toUInt8) = false := by decide
      simp only [reduceCtorEq, hne, Bool.false_eq_true, false_and, or_self] at ht
    | cons c h =>
      simp only [cons_append, List.cons.injEq] at e
      obtain ⟨rfl, rfl⟩ := e
      rcases hh with (hh | hh) | hh
      · obtain ⟨-, literal, rfl, hliteral⟩ := ipLiteral_cons.mp hh
        have hclose := literal_not_mem ']'.toUInt8 (by decide) (by decide) _ hliteral
        exact ⟨literal, t, by simp, hclose, hliteral, ht⟩
      · exact absurd (by simp) (ipv4address_not_mem '['.toUInt8 (by decide) (by decide) _ hh)
      · exact absurd (by simp) (regName_not_mem '['.toUInt8 (by decide) _ hh)
  · rintro ⟨literal, remainder, rfl, -, hliteral, hrest⟩
    refine ⟨'['.toUInt8 :: (literal ++ [']'.toUInt8]), .inl (.inl ?_), remainder, hrest, by simp⟩
    exact ipLiteral_cons.mpr ⟨rfl, literal, rfl, hliteral⟩

theorem name_mem_hostPort {s : Octets} (hs : s.head? ≠ some '['.toUInt8) :
    s ∈ hostPort ↔ s ∈ regName * opt (lit ':' * port) := by
  rw [hostPort, mem_mul, mem_mul]
  constructor
  · rintro ⟨h, (hh | hh) | hh, t, ht, rfl⟩
    · cases h with
      | nil =>
        have hnil : [] ∉ ipLiteral := by rw [ipLiteral, nil_mem_mul]; simp [lit]
        exact absurd hh hnil
      | cons c h => simp [(ipLiteral_cons.mp hh).1] at hs
    · exact ⟨h, ipv4address_regName hh, t, ht, rfl⟩
    · exact ⟨h, hh, t, ht, rfl⟩
  · rintro ⟨h, hh, t, ht, rfl⟩
    exact ⟨h, .inr hh, t, ht, rfl⟩

section

variable {β : Type} {k : Octets × Bool × Option Octets → Except UriException β}

/-- The host and then the port, whatever is done with them. -/
theorem parseHost_bind_acceptsIff (hnone : ∀ h l, AcceptsIff (k (h, l, none)) True)
    (hsome : ∀ h l p, AcceptsIff (k (h, l, some p)) (p ∈ port)) (s : Octets) :
    AcceptsIff (parseHost s >>= k) (s ∈ hostPort) := by
  have hname : ∀ name, AcceptsIff (normalizeComponent isRegNameChar "host" true name)
      (name ∈ regName) := by
    rw [regName_eq]
    exact normalizeComponent_acceptsIff (by decide) "host" true
  by_cases hopen : s.head? = some '['.toUInt8
  · obtain ⟨rest, rfl⟩ : ∃ rest, s = '['.toUInt8 :: rest := by
      cases s with
      | nil => simp at hopen
      | cons c rest => exact ⟨rest, by simpa using hopen⟩
    rw [literal_mem_hostPort]
    obtain ⟨literal, hclose, rfl | ⟨remainder, rfl⟩⟩ := exists_cut ']'.toUInt8 rest
    · rw [parseHost_unclosed hclose, throwInvalidUri_bind, acceptsIff_throwInvalidUri]
      rintro ⟨literal, remainder, rfl, -⟩
      exact hclose (by simp)
    · have hmem : (∃ literal' remainder',
          literal ++ ']'.toUInt8 :: remainder = literal' ++ ']'.toUInt8 :: remainder' ∧
            ']'.toUInt8 ∉ literal' ∧ literal' ∈ ipv6address + ipvFuture ∧
            remainder' ∈ opt (lit ':' * port)) ↔
          literal ∈ ipv6address + ipvFuture ∧ remainder ∈ opt (lit ':' * port) := by
        constructor
        · rintro ⟨literal', remainder', e, hclose', h⟩
          obtain ⟨rfl, rfl⟩ := (append_cons_inj hclose hclose').mp e
          exact h
        · exact fun h => ⟨literal, remainder, rfl, hclose, h⟩
      rw [hmem, parseHost_literal remainder hclose, bind_assoc]
      refine (chkIpLiteral_acceptsIff literal).bind fun _ _ => ?_
      cases remainder with
      | nil => exact (hnone _ _).congr (by simp [mem_opt])
      | cons ch p =>
        rw [mem_opt, lit, cons_mem_single_mul, literalHost]
        by_cases hch : ':'.toUInt8 = ch
        · subst hch
          simpa using hsome (toLowerCopy literal) true p
        · simp [hch]
  · rw [name_mem_hostPort hopen, lit]
    obtain ⟨name, hcolon, rfl | ⟨p, rfl⟩⟩ := exists_cut ':'.toUInt8 s
    · rw [mem_mul_opt_delimiter_of_not_mem hcolon, parseHost_name hopen hcolon, bind_map_ok]
      exact ((hname s).bind fun h _ => hnone h false).congr (by simp)
    · rw [mem_mul_opt_delimiter (regName_not_mem _ (by decide)) hcolon,
        parseHost_name_port p hopen hcolon, bind_map_ok]
      exact (hname name).bind fun h _ => hsome h false p

end

/-! ## Authorities -/

theorem hostPort_not_mem (ch : UInt8) (h : isUserInfoChar ch = false ∧ isHexDigit ch = false ∧
    ch ≠ '%'.toUInt8 ∧ ch ≠ '['.toUInt8 ∧ ch ≠ ']'.toUInt8) : ∀ w ∈ hostPort, ch ∉ w := by
  obtain ⟨huser, hhex, hpct, hopen, hclose⟩ := h
  have hne : ∀ c, isUserInfoChar c = true → c ≠ ch := fun c hc e => by simp [← e, hc] at huser
  have hdigit : ∀ c, isDigit c = true → c ≠ ch := fun c hc e => by
    simp [isHexDigit, ← e, hc] at hhex
  have hname : ∀ w ∈ regName, ch ∉ w := by
    refine regName_not_mem _ ⟨?_, hhex, hpct⟩
    simp only [isUserInfoChar, Bool.or_eq_false_iff] at huser
    simp [isRegNameChar, huser.1]
  have hliteral : Over (· ≠ ch) (ipv6address + ipvFuture) := fun w hw c hc e =>
    literal_not_mem ch huser hhex w hw (e ▸ hc)
  have hhost : Over (· ≠ ch) host := by
    refine ((((over_lit (P := (· ≠ ch)) (Ne.symm hopen)).mul hliteral).mul
      (over_lit (P := (· ≠ ch)) (Ne.symm hclose))).add ?_).add ?_
    · exact fun w hw c hc e => hname w (ipv4address_regName hw) (e ▸ hc)
    · exact fun w hw c hc e => hname w hw (e ▸ hc)
  have hport : Over (· ≠ ch) port := by
    intro w hw
    have hmem : w ∈ digit∗ := hw.1
    rw [digit_eq] at hmem
    exact (Over.single hdigit).kstar w hmem
  have hover : Over (· ≠ ch) hostPort :=
    hhost.mul ((over_lit (hne _ (by decide))).mul hport).opt
  exact fun w hw hmem => hover w hw ch hmem rfl

theorem authority_not_mem (ch : UInt8) (h : isUserInfoChar ch = false ∧ isHexDigit ch = false ∧
    ch ≠ '%'.toUInt8 ∧ ch ≠ '['.toUInt8 ∧ ch ≠ ']'.toUInt8) (hat : ch ≠ '@'.toUInt8) :
    ∀ w ∈ authority, ch ∉ w := by
  have hover : Over (· ≠ ch) authority := by
    rw [authority, mul_assoc]
    refine Over.mul (Over.opt (Over.mul ?_ (over_lit (P := (· ≠ ch)) (Ne.symm hat)))) ?_
    · exact fun w hw c hc e => userinfo_not_mem ch ⟨h.1, h.2.1, h.2.2.1⟩ w hw (e ▸ hc)
    · exact fun w hw c hc e => hostPort_not_mem ch h w hw (e ▸ hc)
  exact fun w hw hmem => hover w hw ch hmem rfl

theorem parseAuthority_acceptsIff (a : Octets) :
    AcceptsIff (parseAuthority a) (a ∈ authority) := by
  have hform : authority = opt (userinfo * single ('@'.toUInt8 == ·)) * hostPort := by
    rw [authority, hostPort, lit, mul_assoc]
  have huser : ∀ text, AcceptsIff (normalizeComponent isUserInfoChar "userinfo" false text)
      (text ∈ userinfo) := by
    rw [userinfo_eq]
    exact normalizeComponent_acceptsIff (by decide) "userinfo" false
  rw [hform, parseAuthority]
  have hhost : ∀ (user : Option Octets) (rest : Octets), AcceptsIff (do
      let host ← parseHost rest
      let port ← parsePortText host.2.2
      return ({
        userInfo := user.getD []
        host := host.1
        port := port.getD 0
        hasAuthority := true
        hasUserInfo := user.isSome
        hasPort := port.isSome
        isIpLiteral := host.2.1 } : Uri)) (rest ∈ hostPort) := by
    intro user rest
    refine parseHost_bind_acceptsIff (fun _ _ => ?_) (fun h l p => ?_) rest
    · trivial
    refine AcceptsIff.congr ((parsePort_acceptsIff p).bind (q := True) fun _ _ => ?_) (by simp)
    trivial
  obtain ⟨text, hat, rfl | ⟨rest, rfl⟩⟩ := exists_cut '@'.toUInt8 a
  · rw [mem_opt_delimiter_mul_of_not_mem hat, parseUserInfo_none hat, ok_bind]
    exact hhost none a
  · rw [mem_opt_delimiter_mul (userinfo_not_mem _ (by decide)) (hostPort_not_mem _ (by decide)) hat,
      parseUserInfo_some rest hat, bind_map_ok]
    exact (huser text).bind fun userInfo _ => hhost (some userInfo) rest

/-! ## Components -/

/-- Every component is a word of its production. -/
structure Valid (c : Components) : Prop where
  scheme : ∀ s ∈ c.scheme, s ∈ UriGrammar.scheme
  authority : ∀ a ∈ c.authority, a ∈ UriGrammar.authority
  path : c.path ∈ (pchar + lit '/')∗
  query : ∀ q ∈ c.query, q ∈ UriGrammar.query
  fragment : ∀ f ∈ c.fragment, f ∈ UriGrammar.fragment

theorem isValidScheme_iff (s : Octets) : isValidScheme s = true ↔ s ∈ scheme := by
  rw [scheme, alpha_eq, digit_eq]
  simp only [lit, single_add]
  cases s with
  | nil => simp [isValidScheme]
  | cons ch s => simp [isValidScheme, mem_single_kstar]

theorem buildScheme_acceptsIff (o : Option Octets) :
    AcceptsIff (Components.buildScheme o) (∀ s ∈ o, s ∈ scheme) := by
  cases o with
  | none => simp [Components.buildScheme]
  | some s =>
    rw [Components.buildScheme]
    by_cases h : isValidScheme s = true
    · simpa [h] using (isValidScheme_iff s).mp h
    · simpa [h] using fun hs => h ((isValidScheme_iff s).mpr hs)

theorem buildAuthority_acceptsIff (o : Option Octets) :
    AcceptsIff (Components.buildAuthority o) (∀ a ∈ o, a ∈ authority) := by
  cases o with
  | none => simp [Components.buildAuthority]
  | some a => exact (parseAuthority_acceptsIff a).congr (by simp)

theorem build_acceptsIff (c : Components) : AcceptsIff c.build (Valid c) := by
  have hquery : ∀ component text,
      AcceptsIff (normalizeComponent isQueryOrFragmentChar component false text)
        (text ∈ query) := by
    rw [query_eq]
    exact fun component text => normalizeComponent_acceptsIff (by decide) component false text
  have hpath : AcceptsIff (normalizeComponent isPathChar "path" false c.path)
      (c.path ∈ (pchar + lit '/')∗) := by
    rw [path_eq]
    exact normalizeComponent_acceptsIff (by decide) "path" false c.path
  have hvalid : Valid c ↔ (∀ f ∈ c.fragment, f ∈ query) ∧ (∀ q ∈ c.query, q ∈ query) ∧
      (∀ s ∈ c.scheme, s ∈ scheme) ∧ (∀ a ∈ c.authority, a ∈ authority) ∧
      c.path ∈ (pchar + lit '/')∗ ∧ True :=
    ⟨fun h => ⟨h.fragment, h.query, h.scheme, h.authority, h.path, trivial⟩,
      fun ⟨hf, hq, hs, ha, hp, _⟩ => ⟨hs, ha, hp, hq, hf⟩⟩
  refine AcceptsIff.congr ?_ hvalid.symm
  refine (AcceptsIff.mapM (hquery "fragment") c.fragment).bind fun _ _ => ?_
  refine (AcceptsIff.mapM (hquery "query") c.query).bind fun _ _ => ?_
  refine (buildScheme_acceptsIff c.scheme).bind fun _ _ => ?_
  refine (buildAuthority_acceptsIff c.authority).bind fun _ _ => ?_
  refine hpath.bind fun _ _ => ?_
  trivial

/-! ## Paths -/

theorem path_mem_iff {p : Octets} :
    p ∈ (pchar + lit '/')∗ ↔ p ∈ segment * pathAbempty := mem_add_kstar

theorem nil_not_mem_pctEncoded : [] ∉ pctEncoded := by
  rw [mem_pctEncoded]
  simp

theorem segment_not_mem : ∀ w ∈ segment, '/'.toUInt8 ∉ w := by
  have hpchar : pchar = single (fun c => isRegNameChar c || ':'.toUInt8 == c || '@'.toUInt8 == c) +
      pctEncoded := by
    rw [pchar]
    simp only [add_right_comm _ pctEncoded]
    simp only [unreserved_eq, subDelims_eq, lit, single_add, isRegNameChar]
  rw [segment, hpchar]
  exact component_not_mem _ (by decide)

theorem segmentNz_iff {w : Octets} : w ∈ segmentNz ↔ w ∈ segment ∧ w ≠ [] := by
  refine mem_mul_kstar ?_
  rw [pchar, unreserved_eq, subDelims_eq]
  simp only [mem_add, lit, nil_not_mem_single, nil_not_mem_pctEncoded, or_self,
    not_false_eq_true]

theorem segmentNzNc_iff {w : Octets} :
    w ∈ segmentNzNc ↔ w ∈ segment ∧ w ≠ [] ∧ ':'.toUInt8 ∉ w := by
  have hpchar : pchar = (unreserved + pctEncoded + subDelims + lit '@') + lit ':' := by
    rw [pchar, add_right_comm]
  have hnil : [] ∉ unreserved + pctEncoded + subDelims + lit '@' := by
    rw [unreserved_eq, subDelims_eq]
    simp only [mem_add, lit, nil_not_mem_single, nil_not_mem_pctEncoded, or_self,
      not_false_eq_true]
  have hname : Over (· ≠ ':'.toUInt8) (unreserved + pctEncoded + subDelims + lit '@') := by
    have hform : unreserved + pctEncoded + subDelims + lit '@' =
        single (fun c => isRegNameChar c || '@'.toUInt8 == c) + pctEncoded := by
      rw [add_right_comm unreserved pctEncoded, add_right_comm _ pctEncoded]
      simp only [unreserved_eq, subDelims_eq, lit, single_add, isRegNameChar]
    intro v hv c hc
    rintro rfl
    rw [hform] at hv
    exact component_not_mem _ (by decide) v (mem_kstar_of_mem hv) hc
  rw [segmentNzNc, mem_mul_kstar hnil, segment, hpchar]
  constructor
  · rintro ⟨hw, hne⟩
    exact ⟨kstar_mono (fun v hv => (mem_add _ _ _).mpr (.inl hv)) hw, hne,
      fun hmem => hname.kstar w hw _ hmem rfl⟩
  · rintro ⟨hw, hne, hcolon⟩
    refine ⟨mem_kstar_of_mem_add hw fun c hc => ?_, hne⟩
    simp only [beq_eq_false_iff_ne]
    rintro rfl
    exact hcolon hc

theorem pathAbempty_cases {p : Octets} (hp : p ∈ pathAbempty) :
    p = [] ∨ ∃ s q, p = '/'.toUInt8 :: (s ++ q) ∧ s ∈ segment ∧ q ∈ pathAbempty := by
  rcases mem_kstar_cases.mp hp with rfl | hp
  · exact .inl rfl
  · obtain ⟨_, hslash, q, hq, rfl⟩ := mem_mul.mp hp
    obtain ⟨_, ⟨c, hc, rfl⟩, s, hs, rfl⟩ := mem_mul.mp hslash
    exact .inr ⟨s, q, by rw [eq_of_beq hc]; rfl, hs, hq⟩

theorem slash_mem_pathAbempty {s q : Octets} (hs : s ∈ segment) (hq : q ∈ pathAbempty) :
    '/'.toUInt8 :: (s ++ q) ∈ pathAbempty := by
  refine mem_kstar_cases.mpr (.inr (mem_mul.mpr ⟨'/'.toUInt8 :: s, ?_, q, hq, rfl⟩))
  exact cons_mem_single_mul.mpr ⟨beq_self_eq_true _, hs⟩

theorem pathAbempty_iff {p : Octets} :
    p ∈ pathAbempty ↔ p ∈ (pchar + lit '/')∗ ∧ (p = [] ∨ ∃ q, p = '/'.toUInt8 :: q) := by
  rw [path_mem_iff, mem_mul]
  constructor
  · intro hp
    refine ⟨⟨[], Language.nil_mem_kstar _, p, hp, rfl⟩, ?_⟩
    rcases pathAbempty_cases hp with rfl | ⟨s, q, rfl, -⟩
    · exact .inl rfl
    · exact .inr ⟨_, rfl⟩
  · rintro ⟨⟨s, hs, q, hq, rfl⟩, hp⟩
    cases s with
    | nil => exact hq
    | cons c s =>
      rcases hp with hp | ⟨r, hp⟩
      · simp at hp
      · obtain rfl := (List.cons.inj hp).1
        exact absurd (by simp) (segment_not_mem _ hs)

theorem takeWhile_segment {s q : Octets} (hs : s ∈ segment) (hq : q ∈ pathAbempty) :
    (s ++ q).takeWhile (· != '/'.toUInt8) = s := by
  have hne : ∀ c ∈ s, (c != '/'.toUInt8) = true := fun c hc => by
    simp only [bne_iff_ne, ne_eq]
    rintro rfl
    exact segment_not_mem s hs hc
  rw [takeWhile_append_of_pos hne]
  rcases pathAbempty_cases hq with rfl | ⟨_, _, rfl, -⟩
  · simp
  · rw [takeWhile_cons_of_neg (by simp), append_nil]

/-- A path which does not look like an authority, by its first segment. -/
theorem path_noAuthority {p : Octets} (hp : p ∈ (pchar + lit '/')∗) (hno : ¬ octets "//" <+: p) :
    p ∈ pathAbsolute + pathEmpty ∨ ∃ s q, p = s ++ q ∧ s ∈ segment ∧ s ≠ [] ∧ q ∈ pathAbempty := by
  obtain ⟨s, hs, q, hq, rfl⟩ := mem_mul.mp (path_mem_iff.mp hp)
  by_cases hne : s = []
  · subst hne
    rcases pathAbempty_cases hq with rfl | ⟨s, r, rfl, hs, hr⟩
    · exact .inl (.inr rfl)
    · refine .inl (.inl (cons_mem_single_mul.mpr ⟨beq_self_eq_true _, mem_opt.mpr ?_⟩))
      by_cases hne : s = []
      · subst hne
        rcases pathAbempty_cases hr with rfl | ⟨_, _, rfl, -⟩
        · exact .inl rfl
        · exact absurd ⟨_, rfl⟩ hno
      · exact .inr (append_mem_mul (segmentNz_iff.mpr ⟨hs, hne⟩) hr)
  · exact .inr ⟨s, q, rfl, hs, hne, hq⟩

theorem segment_head {s : Octets} (hs : s ∈ segment) (hne : s ≠ []) :
    ∃ c r, s = c :: r ∧ c ≠ '/'.toUInt8 := by
  cases s with
  | nil => exact absurd rfl hne
  | cons c r =>
    refine ⟨c, r, rfl, ?_⟩
    rintro rfl
    exact segment_not_mem _ hs (by simp)

theorem not_slashes_cons {c : UInt8} {p : Octets} :
    octets "//" <+: c :: p ↔ c = '/'.toUInt8 ∧ p.head? = some '/'.toUInt8 := by
  have hslashes : octets "//" = ['/'.toUInt8, '/'.toUInt8] := rfl
  rw [hslashes, cons_prefix_cons, eq_comm]
  cases p <;> simp [eq_comm]

theorem pathAbsolute_spec {p : Octets} (hp : p ∈ pathAbsolute + pathEmpty) :
    p ∈ (pchar + lit '/')∗ ∧ ¬ octets "//" <+: p ∧ p.takeWhile (· != '/'.toUInt8) = [] := by
  rcases hp with hp | hp
  · obtain ⟨_, ⟨c, hc, rfl⟩, r, hr, rfl⟩ := mem_mul.mp hp
    obtain rfl := eq_of_beq hc
    rcases mem_opt.mp hr with rfl | hr
    · refine ⟨mem_kstar_of_mem (.inr ⟨_, beq_self_eq_true _, rfl⟩), by decide, by decide⟩
    · obtain ⟨s, hs, q, hq, rfl⟩ := mem_mul.mp hr
      obtain ⟨hs, hne⟩ := segmentNz_iff.mp hs
      refine ⟨(pathAbempty_iff.mp (slash_mem_pathAbempty hs hq)).1, ?_, by simp⟩
      obtain ⟨c, r, rfl, hc⟩ := segment_head hs hne
      rw [singleton_append, not_slashes_cons]
      simpa using hc
  · rw [show p = [] from hp]
    exact ⟨Language.nil_mem_kstar _, by decide, rfl⟩

theorem pathRootless_spec {s q : Octets} (hs : s ∈ segment) (hne : s ≠ []) (hq : q ∈ pathAbempty) :
    s ++ q ∈ (pchar + lit '/')∗ ∧ ¬ octets "//" <+: s ++ q := by
  refine ⟨path_mem_iff.mpr (append_mem_mul hs hq), ?_⟩
  obtain ⟨c, r, rfl, hc⟩ := segment_head hs hne
  rw [cons_append, not_slashes_cons]
  exact fun h => hc h.1

/-- What is required of the path after an authority, or without one. -/
def PathFits (authority : Option Octets) (path : Octets) : Prop :=
  match authority with
  | some _ => path = [] ∨ ∃ q, path = '/'.toUInt8 :: q
  | none => ¬ octets "//" <+: path

section

variable {w : Octets}

theorem mem_authority_path :
    w ∈ lit '/' * lit '/' * authority * pathAbempty ↔ ∃ a p, w = '/'.toUInt8 :: '/'.toUInt8 :: a ++ p ∧
      a ∈ authority ∧ p ∈ (pchar + lit '/')∗ ∧ PathFits (some a) p := by
  rw [mul_assoc, mul_assoc]
  constructor
  · intro h
    obtain ⟨_, ⟨c, hc, rfl⟩, _, h', rfl⟩ := mem_mul.mp h
    obtain ⟨_, ⟨d, hd, rfl⟩, _, h'', rfl⟩ := mem_mul.mp h'
    obtain ⟨a, ha, p, hp, rfl⟩ := mem_mul.mp h''
    obtain rfl := eq_of_beq hc
    obtain rfl := eq_of_beq hd
    exact ⟨a, p, rfl, ha, pathAbempty_iff.mp hp⟩
  · rintro ⟨a, p, rfl, ha, hp⟩
    rw [lit, cons_append, cons_mem_single_mul, cons_append, cons_mem_single_mul]
    exact ⟨beq_self_eq_true _, beq_self_eq_true _,
      append_mem_mul ha (pathAbempty_iff.mpr hp)⟩

/-- The parts, by what the first segment has to be besides. -/
theorem mem_part {first : Language UInt8} {P : Octets → Prop} (hnil : P [])
    (hfirst : ∀ s, s ∈ first ↔ s ∈ segment ∧ s ≠ [] ∧ P s) :
    w ∈ lit '/' * lit '/' * authority * pathAbempty + pathAbsolute + first * pathAbempty + pathEmpty ↔
      ∃ a p, w = (Components.mk none a p none none).hier ∧ (∀ x ∈ a, x ∈ authority) ∧
        p ∈ (pchar + lit '/')∗ ∧ PathFits a p ∧ (a = none → P (p.takeWhile (· != '/'.toUInt8))) := by
  rw [add_right_comm _ (first * pathAbempty), add_assoc _ pathAbsolute, mem_add, mem_add,
    mem_authority_path]
  constructor
  · rintro ((⟨a, p, rfl, ha, hp⟩ | h) | h)
    · exact ⟨some a, p, rfl, by simpa using ha, hp.1, hp.2, by simp⟩
    · obtain ⟨hp, hno, htake⟩ := pathAbsolute_spec h
      exact ⟨none, w, rfl, by simp, hp, hno, fun _ => htake ▸ hnil⟩
    · obtain ⟨s, hs, q, hq, rfl⟩ := mem_mul.mp h
      obtain ⟨hs, hne, hP⟩ := (hfirst s).mp hs
      obtain ⟨hp, hno⟩ := pathRootless_spec hs hne hq
      exact ⟨none, s ++ q, rfl, by simp, hp, hno, fun _ => by rwa [takeWhile_segment hs hq]⟩
  · rintro ⟨a, p, rfl, ha, hp, hfits, hP⟩
    cases a with
    | some a => exact .inl (.inl ⟨a, p, rfl, ha a rfl, hp, hfits⟩)
    | none =>
      rcases path_noAuthority hp hfits with h | ⟨s, q, rfl, hs, hne, hq⟩
      · exact .inl (.inr h)
      · have htake := hP rfl
        rw [takeWhile_segment hs hq] at htake
        have hmem := append_mem_mul ((hfirst s).mpr ⟨hs, hne, htake⟩) hq
        exact .inr hmem

theorem mem_hierPart :
    w ∈ hierPart ↔ ∃ a p, w = (Components.mk none a p none none).hier ∧ (∀ x ∈ a, x ∈ authority) ∧
      p ∈ (pchar + lit '/')∗ ∧ PathFits a p := by
  refine (mem_part (P := fun _ => True) trivial fun s => ?_).trans (by simp)
  rw [segmentNz_iff, and_true]

theorem mem_relativePart :
    w ∈ relativePart ↔ ∃ a p, w = (Components.mk none a p none none).hier ∧
      (∀ x ∈ a, x ∈ authority) ∧ p ∈ (pchar + lit '/')∗ ∧ PathFits a p ∧
      (a = none → ':'.toUInt8 ∉ p.takeWhile (· != '/'.toUInt8)) :=
  mem_part (P := (':'.toUInt8 ∉ ·)) not_mem_nil fun _ => segmentNzNc_iff

end

/-! ## References -/

theorem scheme_not_mem (ch : UInt8) (h : (isAlpha ch || isDigit ch || '+'.toUInt8 == ch ||
    '-'.toUInt8 == ch || '.'.toUInt8 == ch) = false) : ∀ w ∈ scheme, ch ∉ w := by
  intro w hw hmem
  rw [← isValidScheme_iff] at hw
  cases w with
  | nil => simp at hmem
  | cons c w =>
    simp only [isValidScheme, Bool.and_eq_true, all_eq_true] at hw
    rcases mem_cons.mp hmem with rfl | hmem
    · simp [hw.1] at h
    · exact absurd (hw.2 ch hmem) (by simp [h])

/-- Valid components whose path fits are separated. -/
theorem Valid.separated {c : Components} (h : Valid c) (hfits : PathFits c.authority c.path)
    (hcolon : c.scheme = none → c.authority = none →
      ':'.toUInt8 ∉ c.path.takeWhile (· != '/'.toUInt8)) : c.Separated where
  scheme s hs ch hch := by
    refine ⟨?_, ?_, ?_, ?_⟩ <;> rintro rfl <;>
      exact scheme_not_mem _ (by decide) s (h.scheme s hs) hch
  authority a ha ch hch := by
    refine ⟨?_, ?_, ?_⟩ <;> rintro rfl <;>
      exact authority_not_mem _ (by decide) (by decide) a (h.authority a ha) hch
  path ch hch := by
    refine ⟨?_, ?_⟩ <;> rintro rfl <;> exact path_not_mem _ (by decide) _ h.path hch
  query q hq := query_not_mem _ (by decide) q (h.query q hq)
  abempty ha := by
    cases hc : c.authority with
    | none => simp [hc] at ha
    | some a => rwa [hc] at hfits
  noAuthority ha := by rwa [ha] at hfits
  noScheme := hcolon

theorem mem_opt_tail {ch : Char} {l : Language UInt8} {w : Octets} :
    w ∈ opt (lit ch * l) ↔
      w = [] ∨ ∃ q ∈ l, w = ch.toUInt8 :: q := by
  rw [mem_opt]
  refine or_congr Iff.rfl ⟨?_, ?_⟩
  · intro h
    obtain ⟨_, ⟨c, hc, rfl⟩, q, hq, rfl⟩ := mem_mul.mp h
    exact ⟨q, hq, by rw [eq_of_beq hc]; rfl⟩
  · rintro ⟨q, hq, rfl⟩
    exact cons_mem_single_mul.mpr ⟨beq_self_eq_true _, hq⟩

theorem mem_opt_part {sep : Char} {part : Language UInt8} (text : Option Octets → Octets)
    (hnone : text none = []) (hsome : ∀ o, text (some o) = sep.toUInt8 :: o) {w : Octets} :
    w ∈ opt (lit sep * part) ↔ ∃ o, w = text o ∧ ∀ q ∈ o, q ∈ part := by
  rw [mem_opt_tail, Option.exists]
  simp [hnone, hsome, and_comm]

theorem mem_opt_query {w : Octets} :
    w ∈ opt (lit '?' * query) ↔
      ∃ o, w = (Components.mk none none [] o none).queryText ∧ ∀ q ∈ o, q ∈ query :=
  mem_opt_part _ rfl fun _ => rfl

theorem mem_opt_fragment {w : Octets} :
    w ∈ opt (lit '#' * fragment) ↔
      ∃ o, w = (Components.mk none none [] none o).fragmentText ∧ ∀ f ∈ o, f ∈ fragment :=
  mem_opt_part _ rfl fun _ => rfl

theorem text_some (sch : Octets) (a : Option Octets) (p : Octets) (q f : Option Octets) :
    (Components.mk (some sch) a p q f).text =
      sch ++ [':'.toUInt8] ++ (Components.mk none a p none none).hier ++
        (Components.mk none none [] q none).queryText ++
        (Components.mk none none [] none f).fragmentText := by
  simp only [Components.text_eq, Components.hier, Components.schemeText, append_assoc,
    nil_append]
  rfl

/-- The references are the texts of valid separated components. -/
theorem mem_uriReference_iff {s : Octets} :
    s ∈ uriReference ↔ ∃ c : Components, c.Separated ∧ Valid c ∧ c.text = s := by
  rw [uriReference, mem_add]
  constructor
  · rintro (h | h)
    · obtain ⟨_, huq, _, hf, rfl⟩ := mem_mul.mp h
      obtain ⟨_, hu, _, hq, rfl⟩ := mem_mul.mp huq
      obtain ⟨_, hsch, _, hh, rfl⟩ := mem_mul.mp hu
      obtain ⟨sch, hs, _, ⟨c, hc, rfl⟩, rfl⟩ := mem_mul.mp hsch
      obtain rfl := eq_of_beq hc
      obtain ⟨q, rfl, hquery⟩ := mem_opt_query.mp hq
      obtain ⟨f, rfl, hfragment⟩ := mem_opt_fragment.mp hf
      obtain ⟨a, p, rfl, ha, hp, hfits⟩ := mem_hierPart.mp hh
      have hv : Valid ⟨some sch, a, p, q, f⟩ :=
        ⟨by simpa using hs, ha, hp, hquery, hfragment⟩
      exact ⟨_, hv.separated hfits (by simp), hv, text_some sch a p q f⟩
    · obtain ⟨_, hrq, _, hf, rfl⟩ := mem_mul.mp h
      obtain ⟨_, hr, _, hq, rfl⟩ := mem_mul.mp hrq
      obtain ⟨q, rfl, hquery⟩ := mem_opt_query.mp hq
      obtain ⟨f, rfl, hfragment⟩ := mem_opt_fragment.mp hf
      obtain ⟨a, p, rfl, ha, hp, hfits, hcolon⟩ := mem_relativePart.mp hr
      have hv : Valid ⟨none, a, p, q, f⟩ := ⟨by simp, ha, hp, hquery, hfragment⟩
      exact ⟨_, hv.separated hfits fun _ => hcolon, hv, rfl⟩
  · rintro ⟨⟨sch, a, p, q, f⟩, hsep, hv, rfl⟩
    have hq := mem_opt_query.mpr ⟨q, rfl, hv.query⟩
    have hf := mem_opt_fragment.mpr ⟨f, rfl, hv.fragment⟩
    have hfits : PathFits a p := by
      cases a with
      | none => exact hsep.noAuthority rfl
      | some a => exact hsep.abempty rfl
    cases sch with
    | some sch =>
      have hh := mem_hierPart.mpr ⟨a, p, rfl, hv.authority, hv.path, hfits⟩
      have hs : sch ++ [':'.toUInt8] ∈ scheme * lit ':' :=
        append_mem_mul (hv.scheme sch rfl) ⟨_, beq_self_eq_true _, rfl⟩
      have hmem := append_mem_mul (append_mem_mul
        (append_mem_mul hs hh) hq) hf
      exact .inl (text_some sch a p q f ▸ hmem)
    | none =>
      have hr := mem_relativePart.mpr ⟨a, p, rfl, hv.authority, hv.path, hfits,
        hsep.noScheme rfl⟩
      exact .inr (append_mem_mul (append_mem_mul hr hq) hf)

/-! ## The parser -/

/-- No octet which `chkStrictCharacters` rejects is in the grammar. -/
theorem chkStrictCharacters_acceptsIff (s : Octets) :
    AcceptsIff (chkStrictCharacters s) (∀ ch ∈ s, 0x20 < ch ∧ ch < 0x7F ∧ ch ≠ '\\'.toUInt8) := by
  induction s with
  | nil => simp [chkStrictCharacters]
  | cons ch s ih =>
    have hch : (0x20 < ch ∧ ch < 0x7F ∧ ch ≠ '\\'.toUInt8) ↔ ¬ (0x80 ≤ ch ∨
        (ch ≤ 0x1F || 0x7F == ch) = true ∨ (' '.toUInt8 == ch) = true ∨
        ('\\'.toUInt8 == ch) = true) := by
      revert ch; decide +kernel
    rw [forall_mem_cons, hch, chkStrictCharacters]
    split
    · rename_i h; simp [h]
    · split
      · rename_i h; simp [h]
      · split
        · rename_i h; simp [h]
        · split
          · rename_i h; simp [h]
          · rename_i h1 h2 h3 h4
            exact ih.congr (by simp [h1, h2, h3, h4])

/-- The octets `chkStrictCharacters` rejects are in no class of the grammar. -/
theorem class_of_not_strict {ch : UInt8} :
    ¬ (0x20 < ch ∧ ch < 0x7F ∧ ch ≠ '\\'.toUInt8) →
      (isAlpha ch || isDigit ch || '+'.toUInt8 == ch || '-'.toUInt8 == ch ||
        '.'.toUInt8 == ch) = false ∧
      isUserInfoChar ch = false ∧ isHexDigit ch = false ∧ isPathChar ch = false ∧
      isQueryOrFragmentChar ch = false ∧ ch ≠ '%'.toUInt8 ∧ ch ≠ '['.toUInt8 ∧
      ch ≠ ']'.toUInt8 ∧ ch ≠ '@'.toUInt8 ∧ ch ≠ ':'.toUInt8 ∧ ch ≠ '/'.toUInt8 ∧
      ch ≠ '?'.toUInt8 ∧ ch ≠ '#'.toUInt8 := by
  revert ch; decide +kernel

theorem Valid.strict {c : Components} (h : Valid c) :
    ∀ ch ∈ c.text, 0x20 < ch ∧ ch < 0x7F ∧ ch ≠ '\\'.toUInt8 := by
  intro ch hch
  by_contra hno
  obtain ⟨hscheme, huser, hhex, hpath, hquery, hpct, hopen, hclose, hat, hcolon, hslash, hmark,
    hhash⟩ := class_of_not_strict hno
  simp only [Components.text, mem_append] at hch
  rcases hch with (((hch | hch) | hch) | hch) | hch
  · cases hs : c.scheme with
    | none => simp [Components.schemeText, hs] at hch
    | some s =>
      simp only [Components.schemeText, hs, mem_append, mem_singleton] at hch
      exact hch.elim (scheme_not_mem ch hscheme s (h.scheme s hs)) hcolon
  · cases ha : c.authority with
    | none => simp [Components.authorityText, ha] at hch
    | some a =>
      simp only [Components.authorityText, ha, mem_cons, hslash, false_or] at hch
      exact authority_not_mem ch ⟨huser, hhex, hpct, hopen, hclose⟩ hat a (h.authority a ha) hch
  · exact path_not_mem ch ⟨hpath, hhex, hpct⟩ _ h.path hch
  · cases hq : c.query with
    | none => simp [Components.queryText, hq] at hch
    | some q =>
      simp only [Components.queryText, hq, mem_cons, hmark, false_or] at hch
      exact query_not_mem ch ⟨hquery, hhex, hpct⟩ q (h.query q hq) hch
  · cases hf : c.fragment with
    | none => simp [Components.fragmentText, hf] at hch
    | some f =>
      simp only [Components.fragmentText, hf, mem_cons, hhash, false_or] at hch
      exact query_not_mem ch ⟨hquery, hhex, hpct⟩ f (h.fragment f hf) hch

/-- `parse` accepts the URI references whose port fits 16 bits, and throws
`InvalidDataFormatException`, and nothing else, on every other text. -/
theorem parse_accepts_uriReference (s : Octets) :
    ((∃ u, parse s = .ok u) ↔ s ∈ uriReference) ∧
      (s ∉ uriReference → ∃ message, parse s = .error (.invalidDataFormat message)) := by
  have haccepts : AcceptsIff (parse s) (s ∈ uriReference) := by
    have htext : ∀ c : Components, c.Separated → AcceptsIff (parse c.text)
        ((∀ ch ∈ c.text, 0x20 < ch ∧ ch < 0x7F ∧ ch ≠ '\\'.toUInt8) ∧ Valid c) := by
      intro c hsep
      rw [parse, Components.parseImpl_text hsep]
      exact (chkStrictCharacters_acceptsIff c.text).bind fun _ _ => build_acceptsIff c
    by_cases hs : s ∈ uriReference
    · obtain ⟨c, hsep, hv, rfl⟩ := mem_uriReference_iff.mp hs
      exact (htext c hsep).congr (iff_of_true ⟨hv.strict, hv⟩ hs)
    · obtain ⟨c, hsep, rfl⟩ := Components.exists_separated s
      refine (htext c hsep).congr (iff_of_false ?_ hs)
      exact fun h => hs (mem_uriReference_iff.mpr ⟨c, hsep, h.2, rfl⟩)
  exact ⟨haccepts.isOk, haccepts.error⟩

end Baselib.Core.UriGrammar
