/-
Baselib.Http.StatusLine — the status line `doReadStatus` takes.

The extractions take exactly a status line (`readStatusLine_statusLine`,
`readStatusLine_ok`). They skip line ends like other blanks, so they look
beyond the first line unless the version and the status code stand in it;
when they do not, a longer buffer makes no difference
(`readStatusLine_append`).
-/
import Baselib.Http.SimpleHttpResponse

namespace Baselib.Http.SimpleHttpTask

open Lib List
open Baselib.Core (InputStream)
open Core.InputStream
open Core.Uri (isDigit)
open Core.Str (isSpace)
open HttpServer.HttpHeader (crlf crlf_eq crlf_ne_nil)

/-! ## The status line -/

/-- Blanks, the version, blanks, the status code and the rest of the line. -/
inductive StatusLine : Octets → Nat → Prop
  | intro {blank version gap sign digits message : Octets} {statusCode : Nat}
      (blank_space : ∀ ch ∈ blank, isSpace ch = true)
      (version_begins : octets "HTTP/" <+: version)
      (version_word : ∀ ch ∈ version, isSpace ch = false)
      (gap_space : ∀ ch ∈ gap, isSpace ch = true) (gap_ne : gap ≠ [])
      (number : IsNumber sign digits message)
      (value : unsignedValue sign digits = some statusCode) (value_ne : statusCode ≠ 0)
      (message_ne : message ≠ []) (message_line : lineFeed ∉ message) :
      StatusLine
        (blank ++ (version ++ (gap ++ (sign ++ (digits ++ (message ++ [lineFeed])))))) statusCode

theorem prefix_iff_take (version : Octets) :
    version.take 5 = octets "HTTP/" ↔ octets "HTTP/" <+: version := by
  rw [prefix_iff_eq_take]
  exact eq_comm

theorem readStatusLine_statusLine {line : Octets} {statusCode : Nat}
    (h : StatusLine line statusCode) (rest : Octets) :
    readStatusLine { rest := line ++ rest } = (.ok statusCode, { rest := rest }) := by
  obtain ⟨hblank, hprefix, hversion, hgap, hgapne, hnumber, hvalue, hcode, hmessage, hline⟩ := h
  rename_i blank version gap sign digits message
  have hne : version ≠ [] := by
    rintro rfl
    exact absurd (prefix_nil.mp hprefix) (by decide)
  have hgaphead : ∀ (r : Octets), ∀ ch ∈ (gap ++ r).head?, isSpace ch = true := by
    intro r ch hch
    cases gap with
    | nil => exact absurd rfl hgapne
    | cons c gap =>
      obtain rfl : c = ch := by simpa using hch
      exact hgap c mem_cons_self
  have hmore : IsNumber sign digits (message ++ lineFeed :: rest) := by
    refine ⟨hnumber.sign, hnumber.digits, fun ch hch => hnumber.rest ch ?_⟩
    cases message with
    | nil => exact absurd rfl hmessage
    | cons c message => simpa using hch
  have hfirst := extractString_word hblank hne hversion
    (hgaphead (sign ++ (digits ++ (message ++ lineFeed :: rest))))
  have hsecond := extractUnsigned_number hgap hmore hvalue
  have hgapEmpty :
      (gap ++ (sign ++ (digits ++ (message ++ lineFeed :: rest)))).isEmpty = false := by
    simp [isEmpty_eq_false_iff]
  have hmessageEmpty : (message ++ lineFeed :: rest).isEmpty = false := by
    simp [isEmpty_eq_false_iff]
  rw [hgapEmpty] at hfirst
  rw [hmessageEmpty] at hsecond
  have htext :
      blank ++ (version ++ (gap ++ (sign ++ (digits ++ (message ++ [lineFeed]))))) ++ rest =
        blank ++ (version ++ (gap ++ (sign ++ (digits ++ (message ++ lineFeed :: rest))))) := by
    simp
  rw [htext]
  simp [readStatusLine, hfirst, hsecond, getline_line rest hline,
    (prefix_iff_take version).mpr hprefix, Ne.symm hcode, hmessage]

/-- The three extractions behind a status code which is taken. -/
theorem readStatusLine_eq_ok {s rstream : InputStream} {statusCode : Nat}
    (h : readStatusLine s = (.ok statusCode, rstream)) :
    ∃ version s₁ s₂ message, s.extractString = (version, s₁) ∧ s₁.failbit = false ∧
      octets "HTTP/" <+: version ∧ s₁.extractUnsigned = (some statusCode, s₂) ∧ statusCode ≠ 0 ∧
      s₂.getline = (message, rstream) ∧ rstream.failbit = false ∧ message ≠ [] := by
  unfold readStatusLine at h
  rcases hfirst : s.extractString with ⟨version, s₁⟩
  rcases hsecond : s₁.extractUnsigned with ⟨_ | code, s₂⟩
  all_goals
    rw [hfirst] at h
    dsimp only at h
    split_ifs at h with hversion
  · cases h
  · simp [hsecond] at h
  · cases h
  · rw [hsecond] at h
    rcases hthird : s₂.getline with ⟨message, s₃⟩
    dsimp only at h
    rw [hthird] at h
    split_ifs at h with hcode hmessage
    · cases h
    · cases h
    · cases h
      simp only [Bool.or_eq_true, not_or, bne_iff_ne, ne_eq, not_not, Bool.not_eq_true,
        prefix_iff_take, isEmpty_eq_false_iff] at hversion hmessage
      exact ⟨version, s₁, s₂, message, rfl, hversion.1, hversion.2, hsecond, Ne.symm hcode, hthird,
        hmessage.1, hmessage.2⟩

/-- A status code which is taken stands in a status line, or the buffer ends
in the middle of one. -/
theorem readStatusLine_ok {t : Octets} {statusCode : Nat} {rstream : InputStream}
    (h : readStatusLine { rest := t } = (.ok statusCode, rstream)) :
    ∃ line, t = line ++ rstream.rest ∧
      (StatusLine line statusCode ∧ rstream.eofbit = false ∨
        StatusLine (line ++ [lineFeed]) statusCode ∧ rstream.eofbit = true) := by
  obtain ⟨version, s₁, s₂, message, hfirst, hfail, hprefix, hsecond, hcode, hthird, hfail', hne⟩ :=
    readStatusLine_eq_ok h
  obtain ⟨blank, rfl, hblank, hword, hhead, hs₁⟩ := extractString_spec hfirst hfail
  obtain ⟨r₁, eof₁, fail₁⟩ := s₁
  simp only [InputStream.mk.injEq, true_and] at hs₁
  obtain ⟨rfl, rfl⟩ := hs₁
  have hmore : r₁.isEmpty = false := by
    by_contra heof
    rw [extractUnsigned_eof (by simpa using heof)] at hsecond
    cases hsecond
  rw [hmore] at hsecond
  obtain ⟨gap, sign, digits, rfl, hgap, hnumber, hvalue, hs₂⟩ := extractUnsigned_spec hsecond
  have hgapne : gap ≠ [] := by
    rintro rfl
    have hdigits := digits_ne_nil hvalue
    cases hch : (sign ++ (digits ++ s₂.rest)).head? with
    | none => simp [hdigits] at hch
    | some ch =>
      have hspace := hhead ch hch
      rw [hnumber.head hdigits ch hch] at hspace
      cases hspace
  obtain ⟨r₂, eof₂, fail₂⟩ := s₂
  simp only [InputStream.mk.injEq, true_and] at hs₂
  obtain ⟨rfl, rfl⟩ := hs₂
  have hmore₂ : r₂.isEmpty = false := by
    by_contra heof
    rw [getline_eof (by simpa using heof)] at hthird
    cases hthird
    exact hne rfl
  rw [hmore₂] at hthird
  obtain ⟨line, hline, rfl | ⟨rest, rfl⟩⟩ := exists_cut lineFeed r₂
  · rw [getline_last hline] at hthird
    cases hthird
    refine ⟨_, (append_nil _).symm, .inr ⟨?_, rfl⟩⟩
    simpa using StatusLine.intro hblank hprefix hword hgap hgapne hnumber hvalue hcode hne hline
  · have hmessage : IsNumber sign digits line := by
      refine ⟨hnumber.sign, hnumber.digits, fun ch hch => hnumber.rest ch ?_⟩
      rw [Option.mem_def] at hch
      rw [head?_append, hch]
      rfl
    rw [getline_line rest hline] at hthird
    cases hthird
    refine ⟨_, ?_, .inl ⟨.intro hblank hprefix hword hgap hgapne hmessage hvalue hcode hne hline,
      rfl⟩⟩
    simp

/-- Extractions which do not come to the end of the buffer give the same on a
longer one. -/
theorem readStatusLine_append {s : InputStream} (more : Octets)
    (h : (readStatusLine s).2.eofbit = false) :
    readStatusLine (s.append more) = ((readStatusLine s).1, (readStatusLine s).2.append more) := by
  unfold readStatusLine at *
  rcases hfirst : s.extractString with ⟨version, s₁⟩
  rw [hfirst] at h
  dsimp only at h ⊢
  have heof₁ : s₁.eofbit = false := by
    by_contra heof
    rw [extractUnsigned_eof (by simpa using heof)] at h
    split_ifs at h
    · exact heof h
    · exact heof h
  have hfirst' := extractString_append more (s := s) (by rw [hfirst]; exact heof₁)
  rw [hfirst', hfirst]
  dsimp only
  rw [append_failbit]
  split_ifs with hversion
  · rfl
  · rw [if_neg hversion] at h
    rcases hsecond : s₁.extractUnsigned with ⟨_ | code, s₂⟩
    · rw [hsecond] at h
      rw [extractUnsigned_append more (by rw [hsecond]; exact h), hsecond]
    · rw [hsecond] at h
      dsimp only at h
      have heof₂ : s₂.eofbit = false := by
        by_contra heof
        rw [getline_eof (by simpa using heof), apply_ite Prod.snd, apply_ite Prod.snd, ite_self,
          apply_ite InputStream.eofbit] at h
        split_ifs at h
        · exact heof h
        · exact heof h
      rw [extractUnsigned_append more (by rw [hsecond]; exact heof₂), hsecond]
      dsimp only
      by_cases hcode : 0 = code
      · rw [if_pos hcode, if_pos hcode]
      · rw [if_neg hcode, apply_ite Prod.snd, ite_self] at h
        rw [if_neg hcode, if_neg hcode, getline_append more h, append_failbit]
        split_ifs
        · rfl
        · rfl

/-- A line with a word in it, and with a second one when the first one is a
version. -/
def holdsStatus (line : Octets) : Bool :=
  let word := line.dropWhile isSpace
  !word.isEmpty && (!(octets "HTTP/").isPrefixOf word ||
    (word.dropWhile (!isSpace ·)).any (!isSpace ·))

/-- The first line, when there is one in time, holds the version and the
status code. -/
def StatusInFirstLine (s : Octets) : Prop :=
  ∀ n, findText crlf (s.take maxResponseHeadersSize) = some n →
    holdsStatus (s.take n) = true

theorem dropWhile_crlf {p : UInt8 → Bool} (hp : p '\r'.toUInt8 = false) (text : Octets) :
    (text ++ crlf).dropWhile p = text.dropWhile p ++ crlf := by
  have hcrlf : crlf.dropWhile p = crlf := by
    rw [crlf_eq, dropWhile_cons, if_neg (by simp [hp])]
  rw [dropWhile_append, hcrlf]
  split_ifs with hempty
  · rw [isEmpty_iff.mp hempty, nil_append]
  · rfl

theorem takeWhile_crlf {p : UInt8 → Bool} (hp : p '\r'.toUInt8 = false) (text : Octets) :
    (text ++ crlf).takeWhile p = text.takeWhile p := by
  have hcrlf : crlf.takeWhile p = [] := by
    rw [crlf_eq, takeWhile_cons_of_neg]
    simp [hp]
  rw [takeWhile_append, hcrlf, append_nil]
  split_ifs with hlen
  · exact ((List.takeWhile_prefix p).eq_of_length hlen).symm
  · rfl

theorem isEmpty_append_crlf (text : Octets) : (text ++ crlf).isEmpty = false := by
  rw [isEmpty_eq_false_iff]
  exact append_ne_nil_of_right_ne_nil text crlf_ne_nil

theorem extractString_crlf {text : Octets} (h : (text.dropWhile isSpace).isEmpty = false) :
    (extractString { rest := text ++ crlf }).1 =
        (text.dropWhile isSpace).takeWhile (!isSpace ·) ∧
      (extractString { rest := text ++ crlf }).2.rest =
        (text.dropWhile isSpace).dropWhile (!isSpace ·) ++ crlf ∧
      (extractString { rest := text ++ crlf }).2.eofbit = false := by
  have hskip := dropWhile_append_of_isEmpty crlf h
  have hword := takeWhile_crlf (p := (!isSpace ·)) (by decide) (text.dropWhile isSpace)
  have hrest := dropWhile_crlf (p := (!isSpace ·)) (by decide) (text.dropWhile isSpace)
  simp only [extractString, sentry, Bool.or_self, Bool.false_eq_true, if_false, hskip,
    isEmpty_append_crlf, hword, hrest]
  exact ⟨trivial, trivial, trivial⟩

theorem extractUnsigned_crlf {text : Octets} (h : (text.dropWhile isSpace).isEmpty = false) :
    ∃ rest, (extractUnsigned { rest := text ++ crlf }).2.rest =
        rest ++ crlf ∧
      (extractUnsigned { rest := text ++ crlf }).2.eofbit = false := by
  have hskip := dropWhile_append_of_isEmpty crlf h
  have hsign := cutSign_append crlf (by simpa using h : text.dropWhile isSpace ≠ [])
  refine ⟨(cutSign (text.dropWhile isSpace)).2.dropWhile isDigit, ?_⟩
  have hdigits := dropWhile_crlf (p := isDigit) (by decide) (cutSign (text.dropWhile isSpace)).2
  simp only [extractUnsigned, sentry, Bool.or_self, Bool.false_eq_true, if_false, hskip,
    isEmpty_append_crlf, hsign, hdigits]
  exact ⟨trivial, trivial⟩

theorem getline_crlf (text : Octets) :
    (getline { rest := text ++ crlf }).2.eofbit = false := by
  obtain ⟨line, hline, hcut | ⟨rest, hcut⟩⟩ := exists_cut lineFeed (text ++ crlf)
  · exact absurd (hcut ▸ hline) (by simp [crlf_eq, lineFeed])
  · rw [hcut, getline_line rest hline]

/-- The extractions do not come to the end of a line which holds a status. -/
theorem readStatusLine_eofbit {line : Octets} (h : holdsStatus line = true) :
    (readStatusLine { rest := line ++ crlf }).2.eofbit = false := by
  simp only [holdsStatus, Bool.and_eq_true, Bool.not_eq_true', Bool.or_eq_true] at h
  obtain ⟨hword, hstatus⟩ := h
  obtain ⟨hversion, hrest₁, heof₁⟩ := extractString_crlf hword
  unfold readStatusLine
  rcases hfirst : extractString { rest := line ++ crlf } with
    ⟨version, rest₁, eof₁, fail₁⟩
  rw [hfirst] at hversion hrest₁ heof₁
  dsimp only at hversion hrest₁ heof₁ ⊢
  subst hversion hrest₁ heof₁
  split_ifs with hcheck
  · rfl
  · rw [Bool.or_eq_true, not_or, bne_iff_ne, not_not, Bool.not_eq_true, prefix_iff_take] at hcheck
    obtain ⟨rfl, hprefix⟩ := hcheck
    have hcode : (((line.dropWhile isSpace).dropWhile (!isSpace ·)).dropWhile isSpace).isEmpty =
        false := by
      have hbegin := hprefix.trans (List.takeWhile_prefix _)
      rw [← isPrefixOf_iff_prefix] at hbegin
      simpa [hbegin, isEmpty_eq_false_iff] using hstatus
    obtain ⟨rest₂, hrest₂, heof₂⟩ := extractUnsigned_crlf hcode
    rcases hsecond : extractUnsigned { rest := (line.dropWhile isSpace).dropWhile (!isSpace ·) ++
      crlf } with ⟨_ | code, s₂⟩
    · rwa [hsecond] at heof₂
    · obtain ⟨_, _, _, -, -, -, -, hs₂⟩ := extractUnsigned_spec hsecond
      rw [hsecond] at hrest₂
      rw [hrest₂, isEmpty_append_crlf] at hs₂
      rw [hs₂, apply_ite Prod.snd, apply_ite Prod.snd, ite_self]
      split_ifs
      · rfl
      · exact getline_crlf rest₂

/-- Nor to the end of a buffer which was filled up to the first line. -/
theorem readStatusLine_buffer {text response rest : Octets} (h : StatusInFirstLine text)
    (htext : response ++ rest = text) (hsize : response.length ≤ maxResponseHeadersSize) {n : Nat}
    (hn : findText crlf response = some n) :
    (readStatusLine { rest := response }).2.eofbit = false := by
  have hfound := findText_take_of_append crlf_ne_nil htext hsize hn
  have hline : text.take n = response.take n := by
    have hle := findText_length_le hn crlf_ne_nil
    rw [← htext, take_append_of_le_length (by omega)]
  have heof := readStatusLine_eofbit (hline ▸ h n hfound)
  have hlong := readStatusLine_append (response.drop (n + crlf.length)) heof
  simp only [append, ← findText_split hn] at hlong
  rwa [hlong]

end Baselib.Http.SimpleHttpTask
