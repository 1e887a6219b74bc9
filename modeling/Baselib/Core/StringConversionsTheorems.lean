/-
Baselib.Core.StringConversionsTheorems — what the percent encoding and
the conversion to ISO-8859-1 do, on every octet string.

`decoded` reads a text from the left, one token at a time, and knows
nothing of pointers, tables or lookahead. The loops of `uriDecode`
compute it, so the round trips are facts about `decoded`: an escaped
octet followed by a text decodes to the octet followed by the decoded
text, and so does any octet but '%' standing for itself.
-/
import Baselib.Core.StringConversions
import Baselib.Core.Uri

namespace Baselib.Core.Str

open Lib List
open Uri (isHexDigit hexValue)

@[simp] theorem ok_bind {α β : Type} (a : α) (f : α → Except StringException β) :
    (Except.ok a >>= f) = f a := rfl

@[simp] theorem read_zero (ch : UInt8) (src : Octets) : read (ch :: src) 0 = .ok ch := rfl

@[simp] theorem read_succ (ch : UInt8) (src : Octets) (offset : Nat) :
    read (ch :: src) (offset + 1) = read src offset := rfl

/-! ## The tables -/

/-- The tables and the hexadecimal digits, octet by octet. -/
theorem hexDigit_spec : ∀ ch : UInt8,
    hex2Dec.getD ch.toNat 0 = (if isHexDigit ch then UInt8.ofNat (hexValue ch) else no) ∧
    (isHexDigit ch = true → no ≠ UInt8.ofNat (hexValue ch) ∧ isUnsafe ch = false ∧
      UInt8.ofNat (hexValue ch) <<< 4 = UInt8.ofNat (16 * hexValue ch)) := by
  decide +kernel

theorem hex2Dec_eq (ch : UInt8) :
    hex2Dec.getD ch.toNat 0 = if isHexDigit ch then UInt8.ofNat (hexValue ch) else no :=
  (hexDigit_spec ch).1

theorem ofNat_hexValue_ne_no (ch : UInt8) (h : isHexDigit ch = true) :
    no ≠ UInt8.ofNat (hexValue ch) := ((hexDigit_spec ch).2 h).1

theorem not_isSafe_percent : isSafe '%'.toUInt8 = false := by decide

theorem isUnsafe_percent : isUnsafe '%'.toUInt8 = true := by decide

/-- So the digits of an escape are not escaped again. -/
theorem not_isUnsafe_of_isHexDigit (ch : UInt8) (h : isHexDigit ch = true) :
    isUnsafe ch = false := ((hexDigit_spec ch).2 h).2.1

/-- '%' and two hexadecimal digits. -/
def IsEscape (token : Octets) : Prop :=
  ∃ h1 h2, token = ['%'.toUInt8, h1, h2] ∧ isHexDigit h1 = true ∧ isHexDigit h2 = true

theorem dec2Hex_eq : dec2Hex =
    [0x30, 0x31, 0x32, 0x33, 0x34, 0x35, 0x36, 0x37, 0x38, 0x39,
      0x41, 0x42, 0x43, 0x44, 0x45, 0x46] := by
  decide

/-- The digits of an escaped octet are digits, and their value is the octet. -/
theorem escape_spec : ∀ ch : UInt8,
    (isHexDigit (dec2Hex.getD (ch >>> 4).toNat 0) = true ∧
      isHexDigit (dec2Hex.getD (ch &&& 0x0F).toNat 0) = true) ∧
    UInt8.ofNat (16 * hexValue (dec2Hex.getD (ch >>> 4).toNat 0) +
      hexValue (dec2Hex.getD (ch &&& 0x0F).toNat 0)) = ch := by
  rw [dec2Hex_eq]
  decide +kernel

theorem isEscape_escape (ch : UInt8) : IsEscape (escape ch) :=
  ⟨_, _, rfl, (escape_spec ch).1.1, (escape_spec ch).1.2⟩

/-! ## Decoding -/

/-- The text with every '%' and two hexadecimal digits, from the left,
replaced by their octet. -/
def decoded : Octets → Octets
  | a :: b :: c :: rest =>
    if a = '%'.toUInt8 ∧ isHexDigit b = true ∧ isHexDigit c = true then
      UInt8.ofNat (16 * hexValue b + hexValue c) :: decoded rest
    else a :: decoded (b :: c :: rest)
  | rest => rest

theorem decoded_cons {a : UInt8} (ha : a ≠ '%'.toUInt8) (s : Octets) :
    decoded (a :: s) = a :: decoded s := by
  rcases s with _ | ⟨b, _ | ⟨c, rest⟩⟩
  · simp [decoded]
  · simp [decoded]
  · rw [decoded, if_neg (fun h => ha h.1)]

theorem decoded_escape_append (ch : UInt8) (s : Octets) :
    decoded (escape ch ++ s) = ch :: decoded s := by
  obtain ⟨hdigits, hvalue⟩ := escape_spec ch
  simp only [escape, cons_append, nil_append]
  rw [decoded, if_pos ⟨rfl, hdigits⟩, hvalue]

/-- The value of two digits, as the source puts it together. -/
theorem shift_add_hexValue : ∀ h1 : UInt8, isHexDigit h1 = true → ∀ h2 : UInt8,
    isHexDigit h2 = true → (UInt8.ofNat (hexValue h1) <<< 4) + UInt8.ofNat (hexValue h2)
      = UInt8.ofNat (16 * hexValue h1 + hexValue h2) := by
  intro h1 hh1 h2 _
  rw [((hexDigit_spec h1).2 hh1).2.2, UInt8.ofNat_add]

theorem uriDecodeLoop_eq (src out : Octets) :
    uriDecodeLoop src out = .ok (out ++ decoded src) := by
  induction hn : src.length using Nat.strong_induction_on generalizing src out with
  | _ n ih =>
    subst hn
    rw [uriDecodeLoop]
    rcases src with _ | ⟨a, _ | ⟨b, _ | ⟨c, rest⟩⟩⟩
    · simp [decoded]
    · simp [decoded]
    · simp [decoded]
    · have hskip : uriDecodeLoop (b :: c :: rest) (out ++ [a])
          = .ok (out ++ a :: decoded (b :: c :: rest)) := by
        rw [ih _ (by simp) _ _ rfl, append_assoc, singleton_append]
      have hjump : ∀ ch, uriDecodeLoop rest (out ++ [ch]) = .ok (out ++ ch :: decoded rest) := by
        intro ch
        rw [ih _ (by simp; omega) _ _ rfl, append_assoc, singleton_append]
      simp only [length_cons, read_zero, read_succ, ok_bind, hex2Dec_eq, decoded]
      rw [dif_pos (by omega)]
      simp only [drop_succ_cons, drop_zero]
      by_cases ha : a = '%'.toUInt8
      · subst ha
        by_cases hb : isHexDigit b = true
        · by_cases hc : isHexDigit c = true
          · simp only [hb, hc, if_true, and_self, ofNat_hexValue_ne_no b hb,
              ofNat_hexValue_ne_no c hc, ne_eq, not_false_eq_true, hjump]
            rw [shift_add_hexValue b hb c hc]
          · simp [hb, hc, ofNat_hexValue_ne_no b hb, hskip]
        · simp [hb, hskip]
      · simp [ha, hskip]

theorem uriDecode_eq (uri : Octets) : uriDecode uri = .ok (decoded uri) := by
  unfold uriDecode
  split
  · rename_i hlen
    rcases uri with _ | ⟨a, _ | ⟨b, _ | ⟨c, rest⟩⟩⟩
    · rfl
    · rfl
    · rfl
    · simp only [length_cons] at hlen
      omega
  · rw [uriDecodeLoop_eq, nil_append]

/-! ## Encoding -/

section

variable (copied : UInt8 → Bool)

/-- An encoder of either kind: some octets are copied, the others escaped. -/
theorem decoded_flatMap (hpercent : copied '%'.toUInt8 = false) (s : Octets) :
    decoded (s.flatMap fun ch => if copied ch then [ch] else escape ch) = s := by
  induction s with
  | nil => rfl
  | cons ch s ih =>
    rw [flatMap_cons]
    by_cases hch : copied ch = true
    · have hne : ch ≠ '%'.toUInt8 := by
        intro e
        simp [e, hpercent] at hch
      rw [if_pos hch, singleton_append, decoded_cons hne, ih]
    · rw [if_neg hch, decoded_escape_append, ih]

/-- A second encoding copies what the first has left. -/
theorem flatMap_idempotent (hpercent : copied '%'.toUInt8 = true)
    (hdigit : ∀ ch, isHexDigit ch = true → copied ch = true) (s : Octets) :
    (s.flatMap fun ch => if copied ch then [ch] else escape ch).flatMap
        (fun ch => if copied ch then [ch] else escape ch)
      = s.flatMap fun ch => if copied ch then [ch] else escape ch := by
  induction s with
  | nil => rfl
  | cons ch s ih =>
    rw [flatMap_cons, flatMap_append, ih]
    congr 1
    by_cases hch : copied ch = true
    · simp [hch]
    · obtain ⟨h1, h2, htoken, hh1, hh2⟩ := isEscape_escape ch
      simp [hch, htoken, hpercent, hdigit h1 hh1, hdigit h2 hh2]

/-- The encoded text is a text of copied octets and escapes. -/
theorem exists_tokens (s : Octets) :
    ∃ tokens : List Octets,
      (s.flatMap fun ch => if copied ch then [ch] else escape ch) = tokens.flatten ∧
        ∀ token ∈ tokens, (∃ ch, token = [ch] ∧ copied ch = true) ∨ IsEscape token := by
  refine ⟨s.map fun ch => if copied ch then [ch] else escape ch, by rw [flatMap_def], ?_⟩
  intro token htoken
  obtain ⟨ch, -, rfl⟩ := mem_map.mp htoken
  by_cases hch : copied ch = true
  · exact .inl ⟨ch, by simp [hch], hch⟩
  · right
    simp only [hch]
    exact isEscape_escape ch

end

theorem uriEncodeUnsafeOnly_eq (s : Octets) (escapePercent : Bool) :
    uriEncodeUnsafeOnly s escapePercent = s.flatMap fun ch =>
      if !(isUnsafe ch && ('%'.toUInt8 != ch || escapePercent)) then [ch] else escape ch := by
  unfold uriEncodeUnsafeOnly
  congr 1
  funext ch
  by_cases h : (isUnsafe ch && ('%'.toUInt8 != ch || escapePercent)) = true
  · simp [h]
  · simp [h]

/-- The laws of the percent encoding. -/
theorem percent_encoding :
    (∀ s excludedChars : Octets, '%'.toUInt8 ∉ excludedChars →
      uriDecode (uriEncode s excludedChars) = .ok s) ∧
    (∀ s : Octets, uriDecode (uriEncodeUnsafeOnly s true) = .ok s) ∧
    (∀ s excludedChars : Octets, ∃ tokens : List Octets,
      uriEncode s excludedChars = tokens.flatten ∧
        ∀ token ∈ tokens,
          (∃ ch, token = [ch] ∧ (isSafe ch = true ∨ ch ∈ excludedChars)) ∨ IsEscape token) ∧
    (∀ s : Octets, uriEncodeUnsafeOnly (uriEncodeUnsafeOnly s) = uriEncodeUnsafeOnly s) ∧
    (∀ t : Octets, uriDecode t = .ok (decoded t)) := by
  refine ⟨?_, ?_, ?_, ?_, uriDecode_eq⟩
  · intro s excludedChars hpercent
    rw [uriDecode_eq, uriEncode]
    refine congrArg _ (decoded_flatMap (fun ch => isSafe ch || excludedChars.contains ch) ?_ s)
    simp [not_isSafe_percent, hpercent]
  · intro s
    rw [uriDecode_eq, uriEncodeUnsafeOnly_eq]
    refine congrArg _ (decoded_flatMap _ ?_ s)
    simp [isUnsafe_percent]
  · intro s excludedChars
    obtain ⟨tokens, heq, htokens⟩ :=
      exists_tokens (fun ch => isSafe ch || excludedChars.contains ch) s
    refine ⟨tokens, heq, fun token htoken => ?_⟩
    rcases htokens token htoken with ⟨ch, rfl, hch⟩ | h
    · exact .inl ⟨ch, rfl, by simpa using hch⟩
    · exact .inr h
  · intro s
    rw [uriEncodeUnsafeOnly_eq s, uriEncodeUnsafeOnly_eq]
    refine flatMap_idempotent _ (by simp) (fun ch hch => ?_) s
    simp [not_isUnsafe_of_isHexDigit ch hch]

/-- An excluded slash, an escaped space and percent sign. -/
theorem percent_encoding_slash :
    '%'.toUInt8 ∉ octets "/" ∧ uriEncode (octets "a/ %") (octets "/") = octets "a/%20%25" ∧
      uriDecode (uriEncode (octets "a/ %") (octets "/")) = .ok (octets "a/ %") :=
  ⟨by decide, by decide, percent_encoding.1 _ _ (by decide)⟩

/-! ## UTF-8 to ISO-8859-1 -/

/-- The UTF-8 of the code point a Latin-1 octet stands for. -/
def latin1Utf8 (ch : UInt8) : Octets :=
  if ch ≤ 0x7F then [ch] else [(0xC0 : UInt8) ||| (ch >>> 6), (0x80 : UInt8) ||| (ch &&& 0x3F)]

/-- A code point of Latin-1 in UTF-8, and what the loop reads of its octets
when there are two of them. -/
theorem latin1Utf8_spec : ∀ ch : UInt8,
    (Char.ofNat ch.toNat).toNat = ch.toNat ∧
    String.utf8EncodeChar (Char.ofNat ch.toNat) = latin1Utf8 ch ∧
    (0x80 ≤ ch → ch ≤ 0xBF →
      latin1Utf8 ((((0xC2 : UInt8) &&& 0x03) <<< 6) ||| (ch &&& 0x3F)) = [0xC2, ch] ∧
      latin1Utf8 ((((0xC3 : UInt8) &&& 0x03) <<< 6) ||| (ch &&& 0x3F)) = [0xC3, ch]) ∧
    (¬ch ≤ 0x7F →
      ¬ (0xC0 : UInt8) ||| (ch >>> 6) ≤ 0x7F ∧ (0xC2 : UInt8) ≤ (0xC0 : UInt8) ||| (ch >>> 6) ∧
      (0xC0 : UInt8) ||| (ch >>> 6) ≤ 0xC3 ∧ (0x80 : UInt8) ≤ (0x80 : UInt8) ||| (ch &&& 0x3F) ∧
      (0x80 : UInt8) ||| (ch &&& 0x3F) ≤ 0xBF ∧
      (((((0xC0 : UInt8) ||| (ch >>> 6)) &&& 0x03) <<< 6) |||
        (((0x80 : UInt8) ||| (ch &&& 0x3F)) &&& 0x3F)) = ch) := by
  decide +kernel

theorem utf8EncodeChar_eq (c : Char) (hc : c.toNat ≤ 0xFF) :
    String.utf8EncodeChar c = latin1Utf8 (UInt8.ofNat c.toNat) := by
  have h := (latin1Utf8_spec (UInt8.ofNat c.toNat)).2.1
  rwa [UInt8.toNat_ofNat_of_lt' (by simp [UInt8.size]; omega), Char.ofNat_toNat] at h

/-- The octets of two that the loop takes together. -/
theorem latin1Utf8_pair (nextChar : UInt8) (hlow : 0x80 ≤ nextChar) (hhigh : nextChar ≤ 0xBF) :
    latin1Utf8 ((((0xC2 : UInt8) &&& 0x03) <<< 6) ||| (nextChar &&& 0x3F)) = [0xC2, nextChar] ∧
    latin1Utf8 ((((0xC3 : UInt8) &&& 0x03) <<< 6) ||| (nextChar &&& 0x3F)) = [0xC3, nextChar] :=
  (latin1Utf8_spec nextChar).2.2.1 hlow hhigh

theorem lead_cases (ch : UInt8) (h : 0xC2 ≤ ch ∧ ch ≤ 0xC3) : ch = 0xC2 ∨ ch = 0xC3 := by
  simp only [UInt8.le_iff_toNat_le, ← UInt8.toNat_inj] at h ⊢
  simp at h ⊢
  omega

/-- What the loop reads of one code point, whatever follows. -/
theorem utf8ToIso88591Loop_latin1Utf8 (ch : UInt8) (pos result : Octets) :
    utf8ToIso88591Loop (latin1Utf8 ch ++ pos) result
      = utf8ToIso88591Loop pos (result ++ [ch]) := by
  rw [utf8ToIso88591Loop]
  by_cases hch : ch ≤ 0x7F
  · simp [latin1Utf8, hch]
  · obtain ⟨h1, h2, h3, h4, h5, h6⟩ := (latin1Utf8_spec ch).2.2.2 hch
    simp [latin1Utf8, hch, h1, h2, h3, h4, h5, h6]

theorem utf8ToIso88591Loop_flatMap (r pos result : Octets) :
    utf8ToIso88591Loop (r.flatMap latin1Utf8 ++ pos) result
      = utf8ToIso88591Loop pos (result ++ r) := by
  induction r generalizing result with
  | nil => simp
  | cons ch r ih =>
    rw [flatMap_cons, append_assoc, utf8ToIso88591Loop_latin1Utf8, ih,
      append_assoc, singleton_append]

/-- Either what is left is Latin-1, or the loop says what is wrong with it. -/
theorem utf8ToIso88591Loop_cases (pos result : Octets) :
    (∃ r : Octets, pos = r.flatMap latin1Utf8) ∨
      utf8ToIso88591Loop pos result = .error invalidSequence ∨
      utf8ToIso88591Loop pos result = .error outsideOfRange := by
  induction hn : pos.length using Nat.strong_induction_on generalizing pos result with
  | _ n ih =>
    subst hn
    have hone : ∀ ch rest, pos = latin1Utf8 ch ++ rest →
        (∃ r : Octets, pos = r.flatMap latin1Utf8) ∨
          utf8ToIso88591Loop pos result = .error invalidSequence ∨
          utf8ToIso88591Loop pos result = .error outsideOfRange := by
      rintro ch rest rfl
      have hlt : rest.length < (latin1Utf8 ch ++ rest).length := by
        unfold latin1Utf8
        split
        · simp
        · simp only [cons_append, nil_append, length_cons]
          omega
      rw [utf8ToIso88591Loop_latin1Utf8]
      rcases ih _ hlt rest (result ++ [ch]) rfl with ⟨r, hr⟩ | h
      · exact .inl ⟨ch :: r, by rw [flatMap_cons, ← hr]⟩
      · exact .inr h
    rcases pos with _ | ⟨ch, rest⟩
    · exact .inl ⟨[], rfl⟩
    by_cases hascii : ch ≤ 0x7F
    · exact hone ch rest (by simp [latin1Utf8, hascii])
    by_cases hlead : 0xC2 ≤ ch ∧ ch ≤ 0xC3
    · rcases rest with _ | ⟨nextChar, rest⟩
      · right; left
        rw [utf8ToIso88591Loop]
        simp [hascii, hlead]
      by_cases hnext : 0x80 ≤ nextChar ∧ nextChar ≤ 0xBF
      · obtain ⟨hc2, hc3⟩ := latin1Utf8_pair nextChar hnext.1 hnext.2
        rcases lead_cases ch hlead with rfl | rfl
        · exact hone _ rest (by rw [hc2]; rfl)
        · exact hone _ rest (by rw [hc3]; rfl)
      · right; left
        rw [utf8ToIso88591Loop]
        simp [hascii, hlead, hnext]
    · right; right
      rw [utf8ToIso88591Loop]
      simp [hascii, hlead]

theorem utf8ToIso88591Simple_eq_ok (s r : Octets) :
    utf8ToIso88591Simple s = .ok r ↔ s = r.flatMap latin1Utf8 := by
  have hflat : ∀ r : Octets, utf8ToIso88591Simple (r.flatMap latin1Utf8) = .ok r := by
    intro r
    have h := utf8ToIso88591Loop_flatMap r [] []
    rw [append_nil, nil_append] at h
    rw [utf8ToIso88591Simple, h, utf8ToIso88591Loop]
    simp
  constructor
  · intro h
    rcases utf8ToIso88591Loop_cases s [] with ⟨r', rfl⟩ | h' | h'
    · rw [hflat] at h
      cases h
      rfl
    · simp [utf8ToIso88591Simple, h'] at h
    · simp [utf8ToIso88591Simple, h'] at h
  · rintro rfl
    exact hflat r

/-- The texts of Latin-1 characters, and the octets of these characters. -/
theorem flatMap_latin1Utf8_iff (s r : Octets) :
    s = r.flatMap latin1Utf8 ↔
      ∃ cs : List Char, (∀ c ∈ cs, c.toNat ≤ 0xFF) ∧ s = cs.flatMap String.utf8EncodeChar ∧
        r = cs.map fun c => UInt8.ofNat c.toNat := by
  constructor
  · rintro rfl
    refine ⟨r.map fun ch => Char.ofNat ch.toNat, ?_, ?_, ?_⟩
    · intro c hc
      obtain ⟨ch, -, rfl⟩ := mem_map.mp hc
      have hlt := ch.toNat_lt
      rw [(latin1Utf8_spec ch).1]
      omega
    · rw [flatMap_map]
      exact flatMap_congr fun ch _ => (latin1Utf8_spec ch).2.1.symm
    · rw [List.map_map]
      refine (map_id r).symm.trans (map_congr_left fun ch _ => ?_)
      simp [(latin1Utf8_spec ch).1]
  · rintro ⟨cs, hcs, rfl, rfl⟩
    rw [flatMap_map]
    exact flatMap_congr fun c hc => utf8EncodeChar_eq c (hcs c hc)

/-- The conversion inverts UTF-8 on the characters of Latin-1, and fails on
any other octets. -/
theorem utf8ToIso88591Simple_inverse :
    (∀ s r : Octets, utf8ToIso88591Simple s = .ok r ↔
      ∃ cs : List Char, (∀ c ∈ cs, c.toNat ≤ 0xFF) ∧ s = cs.flatMap String.utf8EncodeChar ∧
        r = cs.map fun c => UInt8.ofNat c.toNat) ∧
    (∀ (s : Octets) (e : StringException), utf8ToIso88591Simple s = .error e →
      e = invalidSequence ∨ e = outsideOfRange) := by
  refine ⟨fun s r => (utf8ToIso88591Simple_eq_ok s r).trans (flatMap_latin1Utf8_iff s r), ?_⟩
  intro s e h
  rcases utf8ToIso88591Loop_cases s [] with ⟨r, hr⟩ | h' | h'
  · simp [(utf8ToIso88591Simple_eq_ok s r).mpr hr] at h
  · rw [utf8ToIso88591Simple, h'] at h
    cases h
    exact .inl rfl
  · rw [utf8ToIso88591Simple, h'] at h
    cases h
    exact .inr rfl

/-- U+00E9 has two octets, and the first alone is no text. -/
theorem utf8ToIso88591Simple_e_acute :
    utf8ToIso88591Simple [0x61, 0xC3, 0xA9] = .ok [0x61, 0xE9] ∧
      utf8ToIso88591Simple [0xC3] = .error invalidSequence :=
  ⟨(utf8ToIso88591Simple_inverse.1 _ _).mpr
      ⟨['a', 'é'], by simp, by decide +kernel, by decide +kernel⟩,
    by decide +kernel⟩

end Baselib.Core.Str
