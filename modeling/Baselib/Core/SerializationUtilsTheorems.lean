/-
Baselib.Core.SerializationUtilsTheorems — base64 decodes what it encodes and
refuses the rest.

A text is its unpadded part and a number of padding characters, in one way
(`unpadded_append`), and the decoders look at the two parts only. The bits of
the unpadded part are those of the buffer and some zeros, fewer than an octet
of them, so the groups of eight are the octets.
-/
import Baselib.Core.SerializationUtils

namespace Baselib.Core.SerializationUtils

open Lib List

variable {it : Iterators} {buffer encoded text : Octets}

/-! ## The alphabet -/

theorem length_alphabet : alphabet.length = 64 := by decide +kernel

theorem nodup_alphabet : alphabet.Nodup := by decide +kernel

theorem isValid_iff (ch : UInt8) : isValid ch = true ↔ ch ∈ alphabet := by
  have hall : ∀ n < 256, isValid (UInt8.ofNat n) = decide (UInt8.ofNat n ∈ alphabet) := by
    decide +kernel
  have hch := hall ch.toNat ch.toNat_lt
  rw [UInt8.ofNat_toNat] at hch
  rw [hch, decide_eq_true_iff]

theorem charOf_eq {bits : List Bool} (h : bits.length = 6) :
    ∃ hlt : ofBits bits < alphabet.length, charOf bits = alphabet[ofBits bits] := by
  have hlt := ofBits_lt bits
  rw [h] at hlt
  have hlt' : ofBits bits < alphabet.length := by
    rwa [length_alphabet]
  exact ⟨hlt', by rw [charOf, getD_eq_getElem?_getD, getElem?_eq_getElem hlt']; rfl⟩

theorem charOf_mem {bits : List Bool} (h : bits.length = 6) : charOf bits ∈ alphabet := by
  obtain ⟨hlt, heq⟩ := charOf_eq h
  rw [heq]
  exact getElem_mem hlt

theorem bitsOfChar_charOf {bits : List Bool} (h : bits.length = 6) :
    bitsOfChar (charOf bits) = bits := by
  obtain ⟨hlt, heq⟩ := charOf_eq h
  rw [bitsOfChar, heq, nodup_alphabet.idxOf_getElem, ← h]
  exact bitsOf_ofBits bits

theorem pad_not_mem : pad ∉ alphabet := by decide +kernel

/-! ## Regrouping -/

/-- The bits of a buffer. -/
def bitsOfOctets (buffer : Octets) : List Bool := buffer.flatMap fun octet => bitsOf 8 octet.toNat

theorem length_flatMap_const {α β : Type} {f : α → List β} {w : Nat} (h : ∀ a, (f a).length = w)
    (l : List α) : (l.flatMap f).length = l.length * w := by
  induction l with
  | nil => simp
  | cons a l ih => rw [flatMap_cons, length_append, h, ih, length_cons, Nat.succ_mul,
      Nat.add_comm]

@[simp] theorem length_bitsOfOctets (buffer : Octets) :
    (bitsOfOctets buffer).length = buffer.length * 8 :=
  length_flatMap_const (fun _ => length_bitsOf _ _) buffer

theorem length_bitsOfChar (ch : UInt8) : (bitsOfChar ch).length = 6 := length_bitsOf _ _

/-- The groups which the characters are made of. -/
theorem sextets_spec (buffer : Octets) :
    (groups 6 (padBits 6 (bitsOfOctets buffer))).flatten = padBits 6 (bitsOfOctets buffer) ∧
      ∀ g ∈ groups 6 (padBits 6 (bitsOfOctets buffer)), g.length = 6 := by
  obtain ⟨k, hk⟩ := length_padBits (w := 6) (by omega) (bitsOfOctets buffer)
  exact flatten_groups (by omega) hk

theorem mem_alphabet_of_toBase64 {ch : UInt8} (h : ch ∈ regroupedToBase64 buffer) :
    ch ∈ alphabet := by
  obtain ⟨g, hg, rfl⟩ := mem_map.mp h
  exact charOf_mem ((sextets_spec buffer).2 g hg)

theorem length_regroupedToBase64 (buffer : Octets) :
    (regroupedToBase64 buffer).length = (4 * buffer.length + 2) / 3 := by
  have hpad : (padBits 6 (bitsOfOctets buffer)).length =
      buffer.length * 8 + (6 - buffer.length * 8 % 6) % 6 := by
    rw [padBits, length_append, length_replicate, length_bitsOfOctets, missing]
  rw [regroupedToBase64, length_map, length_groups]
  exact (congrArg (· / 6) hpad).trans (by omega)

theorem length_regroupedFromBase64 (text : Octets) :
    (regroupedFromBase64 text).length = 3 * text.length / 4 := by
  rw [regroupedFromBase64, length_map, length_groups,
    length_flatMap_const length_bitsOfChar]
  omega

/-- The characters of a buffer, with some zeros behind the last bit. -/
theorem flatMap_toBase64 (buffer : Octets) :
    (regroupedToBase64 buffer).flatMap bitsOfChar = padBits 6 (bitsOfOctets buffer) := by
  have hspec := sextets_spec buffer
  have hback : ∀ L : List (List Bool), (∀ g ∈ L, g.length = 6) →
      (L.map charOf).flatMap bitsOfChar = L.flatten := by
    intro L hL
    induction L with
    | nil => rfl
    | cons g L ih =>
      rw [map_cons, flatMap_cons, flatten_cons, bitsOfChar_charOf (hL g (by simp)),
        ih fun other hother => hL other (by simp [hother])]
  exact (hback _ hspec.2).trans hspec.1

theorem fromBase64_toBase64 (buffer : Octets) :
    regroupedFromBase64 (regroupedToBase64 buffer) = buffer := by
  rw [regroupedFromBase64, flatMap_toBase64, padBits, bitsOfOctets, flatMap_def]
  have hoctets : ∀ g ∈ buffer.map fun octet => bitsOf 8 octet.toNat, g.length = 8 := by
    intro g hg
    obtain ⟨octet, -, rfl⟩ := mem_map.mp hg
    exact length_bitsOf _ _
  have hzeros : (List.replicate (missing 6
      ((buffer.map fun octet => bitsOf 8 octet.toNat).flatten).length) false).length < 8 := by
    have hlt := missing_lt (w := 6) (by omega)
      ((buffer.map fun octet => bitsOf 8 octet.toNat).flatten).length
    rw [length_replicate]
    omega
  rw [groups_flatten hoctets hzeros, List.map_map]
  refine map_id'' ?_ buffer
  intro octet
  rw [Function.comp_apply, ofBits_bitsOf octet.toNat_lt, UInt8.ofNat_toNat]

/-! ## Padding -/

/-- The text without the padding characters at its end. -/
def unpadded (encoded : Octets) : Octets := encoded.rdropWhile (· == pad)

/-- How many there are. -/
def paddingOf (encoded : Octets) : Nat := countPadding encoded.reverse

/-- The text does not end with a padding character. -/
def Unpadded (text : Octets) : Prop := ∀ h : text ≠ [], text.getLast h ≠ pad

theorem unpadded_of (h : Unpadded text) : unpadded text = text := by
  refine rdropWhile_eq_self_iff.mpr fun hne => ?_
  have hlast := h hne
  simpa using hlast

theorem paddingOf_of (h : Unpadded text) : paddingOf text = 0 := by
  rw [paddingOf]
  rcases eq_nil_or_concat' text with rfl | ⟨before, ch, rfl⟩
  · rfl
  · have hlast : ch ≠ pad := by simpa using h (by simp)
    rw [reverse_append, reverse_singleton, singleton_append, countPadding,
      if_neg hlast]

theorem unpadded_append (h : Unpadded text) (k : Nat) :
    unpadded (text ++ List.replicate k pad) = text ∧
      paddingOf (text ++ List.replicate k pad) = k := by
  induction k with
  | zero =>
    rw [replicate_zero, append_nil]
    exact ⟨unpadded_of h, paddingOf_of h⟩
  | succ k ih =>
    rw [replicate_succ', ← append_assoc]
    constructor
    · rw [unpadded, rdropWhile_concat_pos _ _ _ (by simp)]
      exact ih.1
    · rw [paddingOf, reverse_append, reverse_singleton, singleton_append,
        countPadding, if_pos rfl]
      exact congrArg (· + 1) ih.2

theorem exists_padding (encoded : Octets) :
    ∃ text k, encoded = text ++ List.replicate k pad ∧ Unpadded text := by
  induction encoded using reverseRecOn with
  | nil => exact ⟨[], 0, rfl, fun h => absurd rfl h⟩
  | append_singleton before ch ih =>
    by_cases hpad : ch = pad
    · obtain ⟨text, k, rfl, htext⟩ := ih
      refine ⟨text, k + 1, ?_, htext⟩
      rw [replicate_succ', ← append_assoc, hpad]
    · refine ⟨before ++ [ch], 0, by simp, fun h => ?_⟩
      simpa using hpad

/-! ## Decoding -/

/-- What a decoder takes: characters of its alphabet, two padding characters
at most, and no group of a single character. -/
structure Accepted (characters encoded : Octets) : Prop where
  mem : ∀ ch ∈ unpadded encoded, ch ∈ characters
  padding : paddingOf encoded ≤ 2
  length : (unpadded encoded).length % 4 ≠ 1

theorem base64Decode_append (h : Unpadded text) (k : Nat) :
    base64Decode it (text ++ List.replicate k pad) =
      if text = [] ∧ k = 0 then .ok []
      else if 2 < k ∨ text.length % 4 = 1 ∨ text.all isValid = false then
        .error (.argument (text.length + k))
      else .ok (it.fromBase64 text) := by
  have hcount := (unpadded_append h k).2
  have hlength : (text ++ List.replicate k pad).length = text.length + k := by simp
  rw [paddingOf] at hcount
  rw [base64Decode]
  dsimp only
  rw [hcount, hlength, Nat.add_sub_cancel, take_left]
  by_cases hempty : text = [] ∧ k = 0
  · obtain ⟨rfl, rfl⟩ := hempty
    rfl
  · have hpos : ¬text.length + k = 0 := by
      intro hzero
      exact hempty ⟨length_eq_zero_iff.mp (by omega), by omega⟩
    rw [if_neg hpos, if_neg hempty]
    by_cases hk : 2 < k
    · simp [hk]
    · by_cases hmod : text.length % 4 = 1
      · simp [hk, hmod]
      · cases hall : text.all isValid <;> simp [hk, hmod]

theorem all_isValid_iff : text.all isValid = true ↔ ∀ ch ∈ text, ch ∈ alphabet := by
  simp [all_eq_true, isValid_iff]

theorem regroupedFromBase64_nil : regroupedFromBase64 [] = [] := rfl

/-- The decoder takes exactly these texts, and gives the octets of their
unpadded part. -/
theorem base64Decode_ok_iff {r : Octets} :
    base64Decode it encoded = .ok r ↔
      Accepted alphabet encoded ∧ r = regroupedFromBase64 (unpadded encoded) := by
  obtain ⟨text, k, rfl, htext⟩ := exists_padding encoded
  obtain ⟨hunpadded, hpadding⟩ := unpadded_append htext k
  have haccepted : Accepted alphabet (text ++ List.replicate k pad) ↔
      (∀ ch ∈ text, ch ∈ alphabet) ∧ k ≤ 2 ∧ text.length % 4 ≠ 1 := by
    constructor
    · rintro ⟨hmem, hle, hmod⟩
      rw [hunpadded] at hmem hmod
      rw [hpadding] at hle
      exact ⟨hmem, hle, hmod⟩
    · rintro ⟨hmem, hle, hmod⟩
      exact ⟨by rwa [hunpadded], by rwa [hpadding], by rwa [hunpadded]⟩
  rw [base64Decode_append htext, haccepted, hunpadded, ← all_isValid_iff]
  split_ifs with hempty hrefused
  · obtain ⟨rfl, rfl⟩ := hempty
    simp [regroupedFromBase64_nil, eq_comm]
  · constructor
    · nofun
    · rintro ⟨⟨hall, hle, hmod⟩, -⟩
      rcases hrefused with hk | hone | hinvalid
      · omega
      · exact absurd hone hmod
      · simp [hall] at hinvalid
  · simp only [not_or, not_lt, Bool.not_eq_false] at hrefused
    obtain ⟨hk, hmod, hall⟩ := hrefused
    rw [it.fromBase64_eq text (all_isValid_iff.mp hall) hmod]
    simp [hk, hmod, hall, eq_comm]

theorem unpadded_toBase64 (buffer : Octets) : Unpadded (regroupedToBase64 buffer) := by
  intro hne hlast
  have hmem := mem_alphabet_of_toBase64 (getLast_mem hne)
  rw [hlast] at hmem
  exact pad_not_mem hmem

variable (it) in
theorem base64Encode_eq (buffer : Octets) :
    base64Encode it buffer =
      regroupedToBase64 buffer ++ List.replicate ((3 - buffer.length % 3) % 3) pad := by
  rw [base64Encode]
  split_ifs with hempty
  · obtain rfl := length_eq_zero_iff.mp hempty
    rfl
  · rw [it.toBase64_eq]

theorem length_toBase64_mod (buffer : Octets) : (regroupedToBase64 buffer).length % 4 ≠ 1 := by
  rw [length_regroupedToBase64]
  omega

theorem base64Decode_base64Encode (buffer : Octets) :
    base64Decode it (base64Encode it buffer) = .ok buffer := by
  obtain ⟨hunpadded, hpadding⟩ := unpadded_append (unpadded_toBase64 buffer)
    ((3 - buffer.length % 3) % 3)
  rw [base64Encode_eq, base64Decode_ok_iff, hunpadded, fromBase64_toBase64]
  refine ⟨⟨?_, ?_, ?_⟩, rfl⟩
  · rw [hunpadded]
    exact fun ch hch => mem_alphabet_of_toBase64 hch
  · rw [hpadding]
    omega
  · rw [hunpadded]
    exact length_toBase64_mod buffer

/-! ## Base64url -/

/-- What the encoder makes of a character. -/
def toUrl (ch : UInt8) : UInt8 :=
  let ch := if ch = 43 then 45 else ch
  if ch = 47 then 95 else ch

/-- What the decoder makes of it. -/
def ofUrl (ch : UInt8) : UInt8 :=
  let ch := if ch = 45 then 43 else ch
  if ch = 95 then 47 else ch

theorem replace_toUrl (l : Octets) : replace 47 95 (replace 43 45 l) = l.map toUrl := by
  rw [replace, replace, List.map_map]
  rfl

theorem replace_ofUrl (l : Octets) : replace 95 47 (replace 45 43 l) = l.map ofUrl := by
  rw [replace, replace, List.map_map]
  rfl

def urlAlphabet : Octets :=
  octets "ABCDEFGHIJKLMNOPQRSTUVWXYZabcdefghijklmnopqrstuvwxyz0123456789-_"

theorem toUrl_spec {ch : UInt8} (h : ch ∈ alphabet) :
    toUrl ch ∈ urlAlphabet ∧ ofUrl (toUrl ch) = ch := by
  have hall : ∀ c ∈ alphabet, toUrl c ∈ urlAlphabet ∧ ofUrl (toUrl c) = c := by decide +kernel
  exact hall ch h

theorem mem_of_ofUrl {ch : UInt8} (h : ofUrl ch ∈ alphabet) : ch ∈ alphabet ++ [45, 95] := by
  rw [mem_append]
  by_cases hminus : ch = 45
  · exact .inr (by simp [hminus])
  · by_cases hunderscore : ch = 95
    · exact .inr (by simp [hunderscore])
    · rw [ofUrl] at h
      simp only [hminus, hunderscore, if_false] at h
      exact .inl h

theorem ofUrl_eq_pad_iff {ch : UInt8} : ofUrl ch = pad ↔ ch = pad := by
  rw [ofUrl]
  by_cases hminus : ch = 45
  · rw [if_pos hminus, hminus]
    decide
  · rw [if_neg hminus]
    by_cases hunderscore : ch = 95
    · rw [if_pos hunderscore, hunderscore]
      decide
    · rw [if_neg hunderscore]

theorem unpadded_map_ofUrl (h : Unpadded text) : Unpadded (text.map ofUrl) := by
  intro hne hlast
  rw [getLast_map] at hlast
  exact h _ (ofUrl_eq_pad_iff.mp hlast)

theorem base64UrlEncode_eq (buffer : Octets) :
    base64UrlEncode it buffer = (regroupedToBase64 buffer).map toUrl := by
  rw [base64UrlEncode, base64Encode_eq, replace_toUrl]
  exact congrArg _ (unpadded_append (unpadded_toBase64 buffer) _).1

variable (it) in
theorem base64UrlDecode_eq (h : Unpadded text) (k : Nat) :
    base64UrlDecode it (text ++ List.replicate k pad) =
      if text = [] ∧ k = 0 then .ok []
      else if (text.length + k) % 4 = 1 then .error .invalidBase64Url
      else base64Decode it
        (text.map ofUrl ++ List.replicate (k + addedPadding (text.length + k)) pad) := by
  have hlength : (text ++ List.replicate k pad).length = text.length + k := by simp
  have hmap : ((text ++ List.replicate k pad) ++
      List.replicate (addedPadding (text.length + k)) pad).map ofUrl =
        text.map ofUrl ++ List.replicate (k + addedPadding (text.length + k)) pad := by
    have hpad : ofUrl pad = pad := rfl
    rw [append_assoc, replicate_append_replicate, map_append, map_replicate,
      hpad]
  rw [base64UrlDecode, hlength, replace_ofUrl]
  by_cases hempty : text = [] ∧ k = 0
  · obtain ⟨rfl, rfl⟩ := hempty
    rfl
  · have hpos : ¬text.length + k = 0 := by
      intro hzero
      exact hempty ⟨length_eq_zero_iff.mp (by omega), by omega⟩
    rw [if_neg hpos, if_neg hempty]
    exact if_congr Iff.rfl rfl (congrArg (base64Decode it) hmap)

/-- The decoder takes texts of either alphabet, with or without the padding. -/
theorem base64UrlDecode_ok {r : Octets} (h : base64UrlDecode it encoded = .ok r) :
    Accepted (alphabet ++ [45, 95]) encoded ∧
      r = regroupedFromBase64 ((unpadded encoded).map ofUrl) := by
  obtain ⟨text, k, rfl, htext⟩ := exists_padding encoded
  obtain ⟨hunpadded, hpadding⟩ := unpadded_append htext k
  rw [base64UrlDecode_eq it htext] at h
  split_ifs at h with hempty hone
  · obtain ⟨rfl, rfl⟩ := hempty
    cases h
    exact ⟨⟨by simp [unpadded], Nat.zero_le _, by simp [unpadded]⟩, rfl⟩
  · obtain ⟨⟨hmem, hle, hmod⟩, hr⟩ := base64Decode_ok_iff.mp h
    obtain ⟨hunpadded', hpadding'⟩ := unpadded_append (unpadded_map_ofUrl htext)
      (k + addedPadding (text.length + k))
    rw [hunpadded'] at hmem hmod hr
    rw [hpadding'] at hle
    rw [length_map] at hmod
    refine ⟨⟨?_, ?_, ?_⟩, ?_⟩
    · intro ch hch
      rw [hunpadded] at hch
      exact mem_of_ofUrl (hmem _ (mem_map_of_mem hch))
    · rw [hpadding]
      omega
    · rwa [hunpadded]
    · rw [hunpadded, hr]

theorem ofUrl_toUrl_base64 (buffer : Octets) :
    ((regroupedToBase64 buffer).map toUrl).map ofUrl = regroupedToBase64 buffer := by
  rw [List.map_map]
  conv_rhs => rw [← map_id (regroupedToBase64 buffer)]
  apply map_congr_left
  intro ch hch
  exact (toUrl_spec (mem_alphabet_of_toBase64 hch)).2

theorem unpadded_toUrl (buffer : Octets) : Unpadded ((regroupedToBase64 buffer).map toUrl) := by
  intro hne hlast
  rw [getLast_map] at hlast
  have hne' : regroupedToBase64 buffer ≠ [] := by simpa using hne
  have hmem := (toUrl_spec (mem_alphabet_of_toBase64 (getLast_mem hne'))).2
  rw [hlast] at hmem
  exact unpadded_toBase64 buffer hne' hmem.symm

theorem base64UrlDecode_base64UrlEncode (buffer : Octets) :
    base64UrlDecode it (base64UrlEncode it buffer) = .ok buffer := by
  have hlength := length_regroupedToBase64 buffer
  have hdecode := base64UrlDecode_eq it (unpadded_toUrl buffer) 0
  rw [replicate_zero, append_nil, ofUrl_toUrl_base64, length_map, Nat.add_zero,
    Nat.zero_add] at hdecode
  rw [base64UrlEncode_eq, hdecode]
  split_ifs with hempty hone
  · have hnil : (regroupedToBase64 buffer).length = 0 := by
      rw [← length_map (f := toUrl), hempty.1]
      rfl
    obtain rfl : buffer = [] := length_eq_zero_iff.mp (by omega)
    rfl
  · omega
  · have hadded : addedPadding (regroupedToBase64 buffer).length =
        (3 - buffer.length % 3) % 3 := by
      have hmod : buffer.length % 3 = 0 ∨ buffer.length % 3 = 1 ∨ buffer.length % 3 = 2 := by omega
      rw [addedPadding, hlength]
      rcases hmod with hmod | hmod | hmod <;> rw [hmod] <;> split_ifs <;> omega
    rw [hadded, ← base64Encode_eq it]
    exact base64Decode_base64Encode buffer

/-- Both decoders give back what was encoded, and what they take is well
formed: two padding characters at most, all others among the characters, and
as many octets as these hold. -/
theorem base64_exact (it : Iterators) :
    (∀ buffer, base64Decode it (base64Encode it buffer) = .ok buffer) ∧
    (∀ buffer, base64UrlDecode it (base64UrlEncode it buffer) = .ok buffer) ∧
    (∀ buffer, ∀ ch ∈ base64UrlEncode it buffer, ch ∈ urlAlphabet) ∧
    (∀ encoded r, base64Decode it encoded = .ok r →
      Accepted alphabet encoded ∧ r.length = 3 * (unpadded encoded).length / 4) ∧
    ∀ encoded r, base64UrlDecode it encoded = .ok r →
      Accepted (alphabet ++ [45, 95]) encoded ∧
        r.length = 3 * (unpadded encoded).length / 4 := by
  refine ⟨base64Decode_base64Encode, base64UrlDecode_base64UrlEncode, ?_, ?_, ?_⟩
  · intro buffer ch hch
    rw [base64UrlEncode_eq] at hch
    obtain ⟨ch, hmem, rfl⟩ := List.mem_map.mp hch
    exact (toUrl_spec (mem_alphabet_of_toBase64 hmem)).1
  · intro encoded r h
    obtain ⟨haccepted, rfl⟩ := base64Decode_ok_iff.mp h
    exact ⟨haccepted, length_regroupedFromBase64 _⟩
  · intro encoded r h
    obtain ⟨haccepted, rfl⟩ := base64UrlDecode_ok h
    refine ⟨haccepted, ?_⟩
    rw [length_regroupedFromBase64, List.length_map]

/-- A group of a single character is refused, with the padding or without. -/
example : base64Decode regrouping (octets "QUJDR===") = .error (.argument 8) := by decide +kernel

end Baselib.Core.SerializationUtils
