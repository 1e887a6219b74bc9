/-
Baselib.Http.SimpleHttpResponseAcceptance — which responses are accepted.

A response is a status line, a header section and a content. It is accepted
when the status code is 200, the content has the length the header map
announces and can be decoded (`Complete`), and what the caller gets is then
settled by the three parts. `readResponse` accepts nothing else, in whatever
pieces the response arrives.
-/
import Baselib.Core.StringConversions
import Baselib.Http.SimpleHttpResponseTheorems

namespace Baselib.Http.SimpleHttpTask

open Lib List
open Baselib.Core (InputStream Str.lexicalCast_of_unsigned Str.unsignedDigits_eq_some
  Str.utf8ToIso88591Simple)
open Core.InputStream
open Core.Uri (isDigit digitsValue toLowerCopy)
open HttpServer (HttpHeader.cookie HeadersMap)
open HttpServer.HttpHeader (crlf sentinel contentLength iso8859_1 latin1 windows1252 utf8
  crlf_ne_nil sentinel_ne_nil)

variable {content : Octets} {headers : HeadersMap}

/-! ## The announced length -/

/-- What the header map announces is a number, and the content has that
length unless it is the number which stands for none. -/
def HasAnnouncedLength (headers : HeadersMap) (content : Octets) : Prop :=
  ∀ value, headers.entries.lookup (toLowerCopy contentLength) = some value →
    value ≠ [] ∧ value.all isDigit = true ∧ digitsValue value < 2 ^ 64 ∧
      (digitsValue value ≠ noLength → content.length = digitsValue value)

theorem lookup_emplaceHeader {name value other : Octets} (h : other ≠ name) :
    (emplaceHeader headers name value).entries.lookup other = headers.entries.lookup other := by
  unfold emplaceHeader
  cases hemplace : headers.emplace name value with
  | none => rfl
  | some headers' =>
    rw [Option.getD_some, (HeadersMap.emplace_eq_some.mp hemplace).2, lookup_append]
    have hne : (other == name) = false := by simpa using h
    simp [lookup_cons, hne]

/-- The cookies do not change what is announced. -/
theorem lookup_responseHeaders (lines : List Octets) :
    (responseHeaders lines).entries.lookup (toLowerCopy contentLength) =
      (sectionHeaders lines).1.entries.lookup (toLowerCopy contentLength) := by
  unfold responseHeaders
  split_ifs
  · rfl
  · exact lookup_emplaceHeader (by decide)

theorem readResponseLength_of_none (h : headers.entries.lookup (toLowerCopy contentLength) = none) :
    readResponseLength headers = .ok noLength := by
  rw [readResponseLength, h]

/-- A value which is read is written in digits, without a sign. -/
theorem readResponseLength_of_some {value : Octets} {n : Nat}
    (h : headers.entries.lookup (toLowerCopy contentLength) = some value) :
    readResponseLength headers = .ok n ↔
      value ≠ [] ∧ value.all isDigit = true ∧ digitsValue value < 2 ^ 64 ∧
        digitsValue value = n := by
  rw [readResponseLength, h]
  dsimp only
  split_ifs with hsign
  · refine ⟨nofun, ?_⟩
    rintro ⟨hne, hdigits, -, -⟩
    cases value with
    | nil => exact absurd rfl hne
    | cons ch rest =>
      rw [all_cons, Bool.and_eq_true] at hdigits
      obtain hnil | hminus | hplus := hsign
      · cases hnil
      · cases hminus
        exact absurd hdigits.1 (by decide)
      · cases hplus
        exact absurd hdigits.1 (by decide)
  · rw [not_or, not_or] at hsign
    have hunsigned : ∀ ch ∈ value.head?, ch ≠ '+'.toUInt8 ∧ ch ≠ '-'.toUInt8 := by
      intro ch hch
      rw [Option.mem_def] at hch
      refine ⟨?_, ?_⟩
      · rintro rfl
        exact hsign.2.2 hch
      · rintro rfl
        exact hsign.2.1 hch
    rw [Str.lexicalCast_of_unsigned hunsigned, ← Str.unsignedDigits_eq_some]
    cases Baselib.Core.Str.unsignedDigits value with
    | none => simp
    | some m => simp

/-! ## Complete responses -/

section

variable (options : ResponseOptions) (fromUtf8 : Octets → Option Octets)

/-- The body the caller gets: the content, converted from UTF-8 when the
header map names that charset and the caller does not expect it. -/
def IsBody (headers : HeadersMap) (content body : Octets) : Prop :=
  if tryGetContentCharset headers = utf8 ∧ options.isExpectUtf8Content = false then
    fromUtf8 content = some body
  else content = body

theorem decodeContent_eq_some {body : Octets} :
    decodeContent options fromUtf8 headers content = some body ↔
      IsBody options fromUtf8 headers content body := by
  unfold decodeContent IsBody
  by_cases hutf8 : tryGetContentCharset headers = utf8
  · rw [hutf8]
    have hnotnil : utf8 ≠ [] := by decide
    have hother : ¬ (utf8 = iso8859_1 ∨
        utf8 = latin1 ∨ utf8 = windows1252) := by
      decide
    rw [if_neg hnotnil, if_neg hother, if_pos rfl]
    cases options.isExpectUtf8Content with
    | true => simp
    | false => simp
  · simp [hutf8]

/-- The parts of a complete response. The status line is whole unless the
buffer can end within it, which takes a first line without the status. -/
structure Complete (text line : Octets) (lines : List Octets) (content body : Octets) : Prop where
  parts : text = line ++ (headerSection lines ++ content)
  status : StatusLine line httpSuccessOk ∨
    ¬ StatusInFirstLine text ∧ StatusLine (line ++ [lineFeed]) httpSuccessOk
  headerLines : HeaderLines lines
  statusInReach : (findText crlf (text.take maxResponseHeadersSize)).isSome = true
  headersInReach : (findText sentinel
    ((headerSection lines ++ content).take maxResponseHeadersSize)).isSome = true
  length : HasAnnouncedLength (responseHeaders lines) content
  size : content.length ≤ options.maxResponseSize
  body : IsBody options fromUtf8 (responseHeaders lines) content body

/-- What the caller gets of a complete response. -/
def completeOutcome (lines : List Octets) (body : Octets) : Outcome where
  failure := none
  httpStatus := httpSuccessOk
  responseHeaders := responseHeaders lines
  contentOut := body

/-- The outcome of a header section and a content. -/
theorem wholeAfterStatus_section {lines : List Octets} (hlines : HeaderLines lines) (hreach : (findText sentinel
      ((headerSection lines ++ content).take maxResponseHeadersSize)).isSome = true)
    (response : Octets) (statusCode : Nat) :
    wholeAfterStatus options fromUtf8 { response := response, httpStatus := statusCode }
        (headerSection lines ++ content) =
      match readResponseLength (responseHeaders lines) with
      | .error failure => ⟨some failure, statusCode, (sectionHeaders lines).1, []⟩
      | .ok n =>
        if content.length ≤ options.maxResponseSize then
          if noLength ≠ n ∧ n ≠ content.length then
            ⟨some (.truncated content.length n), statusCode, responseHeaders lines, []⟩
          else
            match decodeContent options fromUtf8 (responseHeaders lines) content with
            | none => ⟨some .conversion, statusCode, responseHeaders lines, []⟩
            | some body =>
              ⟨if httpSuccessOk ≠ statusCode then some (.errorStatusCode statusCode) else none,
                statusCode, responseHeaders lines, body⟩
        else
          ⟨some (.responseTooLarge options.maxResponseSize), statusCode, responseHeaders lines,
            []⟩ := by
  obtain ⟨n, hn⟩ := Option.isSome_iff_exists.mp hreach
  have hsection := doReadHeaders_section options hlines (s := { httpStatus := statusCode }) rfl
    content
  dsimp only at hsection
  unfold wholeAfterStatus
  rw [hn]
  dsimp only
  rw [hsection]
  have hlength : readResponseLength (responseHeaders lines) =
      readResponseLength (sectionHeaders lines).1 := by
    unfold readResponseLength
    rw [lookup_responseHeaders]
  rw [hlength]
  cases readResponseLength (sectionHeaders lines).1 with
  | error failure => rfl
  | ok n =>
    unfold chkResponseSize doReadContentEof
    simp only [Nat.zero_add, nil_append]
    by_cases hsize : content.length ≤ options.maxResponseSize
    · rw [if_pos hsize, if_pos hsize]
      dsimp only
      by_cases hlen : noLength ≠ n ∧ n ≠ content.length
      · rw [if_pos hlen, if_pos hlen]
        rfl
      · rw [if_neg hlen, if_neg hlen]
        cases decodeContent options fromUtf8 (responseHeaders lines) content with
        | none => rfl
        | some body =>
          dsimp only
          split_ifs
          · rfl
          · rfl
    · rw [if_neg hsize, if_neg hsize]
      rfl

/-- The content has the announced length when no check of it fails. -/
theorem hasAnnouncedLength_iff : HasAnnouncedLength headers content ↔
      ∃ n, readResponseLength headers = .ok n ∧ ¬ (noLength ≠ n ∧ n ≠ content.length) := by
  unfold HasAnnouncedLength
  cases hlookup : headers.entries.lookup (toLowerCopy contentLength) with
  | none =>
    refine ⟨fun _ => ⟨noLength, readResponseLength_of_none hlookup, by simp⟩, fun _ => by simp⟩
  | some value =>
    constructor
    · intro h
      obtain ⟨hne, hdigits, hlt, hlen⟩ := h value rfl
      refine ⟨digitsValue value,
        (readResponseLength_of_some hlookup).mpr ⟨hne, hdigits, hlt, rfl⟩, ?_⟩
      rintro ⟨hnone, hdiffers⟩
      exact hdiffers (hlen (Ne.symm hnone)).symm
    · rintro ⟨n, hn, hcheck⟩ value' hvalue
      cases hvalue
      obtain ⟨hne, hdigits, hlt, rfl⟩ := (readResponseLength_of_some hlookup).mp hn
      refine ⟨hne, hdigits, hlt, fun hnone => ?_⟩
      by_contra hdiffers
      exact hcheck ⟨Ne.symm hnone, Ne.symm hdiffers⟩

theorem wholeAfterStatus_complete {text line : Octets} {lines : List Octets}
    {body : Octets} (h : Complete options fromUtf8 text line lines content body)
    (response : Octets) :
    wholeAfterStatus options fromUtf8 { response := response, httpStatus := httpSuccessOk }
      (headerSection lines ++ content) = completeOutcome lines body := by
  obtain ⟨n, hn, hcheck⟩ := hasAnnouncedLength_iff.mp h.length
  rw [wholeAfterStatus_section options fromUtf8 h.headerLines h.headersInReach, hn]
  dsimp only
  rw [if_pos h.size, if_neg hcheck,
    (decodeContent_eq_some options fromUtf8).mpr h.body]
  rfl

theorem wholeAfterStatus_success {text response : Octets} {statusCode : Nat}
    (h : (wholeAfterStatus options fromUtf8
      { response := response, httpStatus := statusCode } text).failure = none) :
    ∃ lines content body, text = headerSection lines ++ content ∧ HeaderLines lines ∧
      (findText sentinel (text.take maxResponseHeadersSize)).isSome = true ∧
      HasAnnouncedLength (responseHeaders lines) content ∧
      content.length ≤ options.maxResponseSize ∧
      IsBody options fromUtf8 (responseHeaders lines) content body ∧
      statusCode = httpSuccessOk ∧
      wholeAfterStatus options fromUtf8 { response := response, httpStatus := statusCode } text =
        completeOutcome lines body := by
  cases hreach : findText sentinel (text.take maxResponseHeadersSize) with
  | none =>
    unfold wholeAfterStatus at h
    rw [hreach] at h
    cases h
  | some n =>
    have hfound := findText_append_right sentinel_ne_nil
      (text.drop maxResponseHeadersSize) hreach
    rw [take_append_drop] at hfound
    obtain ⟨lines, content, hlines, rfl⟩ := headerSection_of_sentinel hfound
    have hreach' := Option.isSome_iff_exists.mpr ⟨n, hreach⟩
    have hsection := wholeAfterStatus_section options fromUtf8 hlines hreach' response statusCode
    rw [hsection] at h ⊢
    cases hlength : readResponseLength (responseHeaders lines) with
    | error failure =>
      rw [hlength] at h
      cases h
    | ok n =>
      rw [hlength] at h
      dsimp only at h ⊢
      by_cases hsize : content.length ≤ options.maxResponseSize
      · rw [if_pos hsize] at h ⊢
        by_cases hcheck : noLength ≠ n ∧ n ≠ content.length
        · rw [if_pos hcheck] at h
          cases h
        · rw [if_neg hcheck] at h ⊢
          cases hbody : decodeContent options fromUtf8 (responseHeaders lines) content with
          | none =>
            rw [hbody] at h
            cases h
          | some body =>
            rw [hbody] at h
            dsimp only at h ⊢
            split_ifs at h with hstatus
            obtain rfl := not_not.mp hstatus
            rw [if_neg hstatus]
            exact ⟨lines, content, body, rfl, hlines, rfl,
              hasAnnouncedLength_iff.mpr ⟨n, hlength, hcheck⟩, hsize,
              (decodeContent_eq_some options fromUtf8).mp hbody, rfl, rfl⟩
      · rw [if_neg hsize] at h
        cases h

/-! ## The outcome -/

/-- What is accepted is complete, and the outcome is settled by the parts. -/
theorem readResponse_success {text : Octets} (cut : Cut text)
    (h : (readResponse options fromUtf8 cut.pieces).failure = none) :
    ∃ line lines content body, Complete options fromUtf8 text line lines content body ∧
      readResponse options fromUtf8 cut.pieces = completeOutcome lines body := by
  obtain ⟨pieces, hpieces, htext⟩ := cut
  unfold readResponse at h ⊢
  dsimp only at h ⊢
  cases hread : readUntil crlf maxResponseHeadersSize [] pieces with
  | error e =>
    rw [hread] at h
    cases h
  | ok r =>
    obtain ⟨response, pieces'⟩ := r
    obtain ⟨htotal, hsize, n, hn⟩ := readUntil_ok (Nat.zero_le _) hread
    rw [nil_append, htext] at htotal
    rw [hread] at h
    unfold doReadStatus at h ⊢
    dsimp only at h ⊢
    rcases hcode : readStatusLine { rest := response } with ⟨info | statusCode, rstream⟩
    · rw [hcode] at h
      cases h
    · rw [hcode] at h
      dsimp only at h ⊢
      obtain ⟨line, hline, hstatus⟩ := readStatusLine_ok hcode
      have hbuffer : rstream.rest.length ≤ maxResponseHeadersSize := by
        have hle := congrArg List.length hline
        rw [length_append] at hle
        omega
      have hafter : readAfterStatus options fromUtf8 pieces'
          { response := rstream.rest, httpStatus := statusCode } =
            wholeAfterStatus options fromUtf8
              { response := rstream.rest, httpStatus := statusCode }
              (rstream.rest ++ pieces'.flatten) :=
        readAfterStatus_eq options fromUtf8 hbuffer rfl
      rw [hafter] at h ⊢
      obtain ⟨lines, content, body, hparts, hlines, hreach, hlength, hcontent, hbody, rfl,
        hout⟩ := wholeAfterStatus_success options fromUtf8 h
      have hreach₁ := findText_take_of_append crlf_ne_nil htotal hsize hn
      refine ⟨line, lines, content, body, ⟨?_, ?_, hlines,
        Option.isSome_iff_exists.mpr ⟨n, hreach₁⟩, hparts ▸ hreach, hlength, hcontent, hbody⟩,
        hout⟩
      · rw [← hparts, ← append_assoc, ← hline, htotal]
      · obtain ⟨hwhole, -⟩ | ⟨hcut, heof⟩ := hstatus
        · exact .inl hwhole
        · refine .inr ⟨fun hfirst => ?_, hcut⟩
          have hnot := readStatusLine_buffer hfirst htotal hsize hn
          rw [hcode] at hnot
          exact absurd (heof.symm.trans hnot) (by decide)

theorem wholeResponse_statusLine {line rest : Octets} {statusCode : Nat}
    (hline : StatusLine line statusCode) (hreach : (findText crlf
      ((line ++ rest).take maxResponseHeadersSize)).isSome = true) :
    wholeResponse options fromUtf8 (line ++ rest) =
      wholeAfterStatus options fromUtf8 { response := rest, httpStatus := statusCode } rest := by
  obtain ⟨n, hn⟩ := Option.isSome_iff_exists.mp hreach
  unfold wholeResponse doReadStatus
  dsimp only
  rw [hn, readStatusLine_statusLine hline]

theorem readResponse_complete {text line : Octets} {lines : List Octets} {body : Octets}
    (hstatus : StatusInFirstLine text)
    (h : Complete options fromUtf8 text line lines content body) (cut : Cut text) :
    readResponse options fromUtf8 cut.pieces = completeOutcome lines body := by
  have hline : StatusLine line httpSuccessOk := h.status.resolve_right fun hcut => hcut.1 hstatus
  have hreach := h.statusInReach
  rw [h.parts] at hreach
  rw [readResponse_eq options fromUtf8 hstatus, h.parts,
    wholeResponse_statusLine options fromUtf8 hline hreach, wholeAfterStatus_complete _ _ h]

/-- A text is cut in one way into a header section and what follows. -/
theorem headerSection_inj {lines lines' : List Octets} {rest rest' : Octets}
    (hlines : HeaderLines lines) (hlines' : HeaderLines lines')
    (h : headerSection lines ++ rest = headerSection lines' ++ rest') :
    sectionHeaders lines = sectionHeaders lines' ∧ rest = rest' := by
  have hread : readHeaders { rest := headerSection lines ++ rest } ({}, []) =
      (sectionHeaders lines, { rest := rest }) := readHeaders_section rest hlines
  have hread' : readHeaders { rest := headerSection lines' ++ rest' } ({}, []) =
      (sectionHeaders lines', { rest := rest' }) := readHeaders_section rest' hlines'
  rw [h, hread'] at hread
  obtain ⟨hheaders, hrest⟩ := Prod.mk.inj hread
  exact ⟨hheaders.symm, (congrArg InputStream.rest hrest).symm⟩

/-- A content of another length than the announced one is not accepted. -/
theorem readResponse_truncated {line : Octets} {lines : List Octets} {value : Octets}
    {statusCode : Nat} (hstatus : StatusInFirstLine (line ++ (headerSection lines ++ content)))
    (hline : StatusLine line statusCode) (hlines : HeaderLines lines)
    (hvalue : (responseHeaders lines).entries.lookup (toLowerCopy contentLength) =
      some value)
    (hnone : digitsValue value ≠ noLength) (hlength : content.length ≠ digitsValue value)
    (cut : Cut (line ++ (headerSection lines ++ content))) :
    (readResponse options fromUtf8 cut.pieces).failure ≠ none := by
  intro h
  rw [readResponse_eq options fromUtf8 hstatus] at h
  cases hreach : findText crlf
      ((line ++ (headerSection lines ++ content)).take maxResponseHeadersSize) with
  | none =>
    unfold wholeResponse at h
    rw [hreach] at h
    cases h
  | some n =>
    rw [wholeResponse_statusLine options fromUtf8 hline
      (Option.isSome_iff_exists.mpr ⟨n, hreach⟩)] at h
    obtain ⟨lines', content', body, hparts, hlines', -, hannounced, -⟩ :=
      wholeAfterStatus_success options fromUtf8 h
    obtain ⟨hheaders, rfl⟩ := headerSection_inj hlines hlines' hparts
    have hsame : responseHeaders lines = responseHeaders lines' := by
      unfold responseHeaders
      rw [hheaders]
    exact hlength ((hannounced value (hsame ▸ hvalue)).2.2.2 hnone)

/-- When the first line holds the version and the status code, every way in
which a response can arrive gives the same outcome: a complete response is
accepted, and one whose content has another length than the announced one is
not. Whatever the first line holds, nothing but a complete response is
accepted. -/
theorem readResponse_exact (text : Octets) :
    (StatusInFirstLine text → ∀ cut cut' : Cut text,
      readResponse options fromUtf8 cut.pieces = readResponse options fromUtf8 cut'.pieces) ∧
    (∀ cut : Cut text, (readResponse options fromUtf8 cut.pieces).failure = none →
      ∃ line lines content body, Complete options fromUtf8 text line lines content body ∧
        readResponse options fromUtf8 cut.pieces = completeOutcome lines body) ∧
    (StatusInFirstLine text → ∀ (line : Octets) (lines : List Octets) (content body : Octets),
      Complete options fromUtf8 text line lines content body → ∀ cut : Cut text,
        readResponse options fromUtf8 cut.pieces = completeOutcome lines body) ∧
    (StatusInFirstLine text → ∀ (line : Octets) (lines : List Octets) (content value : Octets)
      (statusCode : Nat), text = line ++ (headerSection lines ++ content) →
      StatusLine line statusCode → HeaderLines lines →
      (responseHeaders lines).entries.lookup (toLowerCopy contentLength) = some value →
      digitsValue value ≠ noLength → content.length ≠ digitsValue value → ∀ cut : Cut text,
        (readResponse options fromUtf8 cut.pieces).failure ≠ none) := by
  refine ⟨fun hstatus cut cut' => ?_, readResponse_success options fromUtf8, ?_, ?_⟩
  · rw [readResponse_eq options fromUtf8 hstatus cut, readResponse_eq options fromUtf8 hstatus cut']
  · intro hstatus line lines content body hcomplete cut
    exact readResponse_complete options fromUtf8 hstatus hcomplete cut
  · rintro hstatus line lines content value statusCode rfl hline hlines hvalue hnone hlength cut
    exact readResponse_truncated options fromUtf8 hstatus hline hlines hvalue hnone hlength cut

end

/-- The conversion of a build without Boost.Locale. -/
def fromUtf8Simple (content : Octets) : Option Octets := (Str.utf8ToIso88591Simple content).toOption

def okLine : Octets := octets "HTTP/1.0 200 OK\r\n"

theorem statusLine_okLine : StatusLine okLine httpSuccessOk := by
  have hparts : okLine = [] ++ (octets "HTTP/1.0" ++ (octets " " ++ ([] ++ (octets "200" ++
      (octets " OK\r" ++ [lineFeed]))))) := by decide +kernel
  have hnumber : IsNumber [] (octets "200") (octets " OK\r") :=
    ⟨.inl rfl, by decide +kernel, by decide +kernel⟩
  rw [hparts]
  exact .intro (by simp) (by decide +kernel) (by decide +kernel) (by decide +kernel)
    (by decide +kernel) hnumber (by decide +kernel) (by decide) (by decide +kernel)
    (by decide +kernel)

def lengthLines : List Octets := [octets "Content-Length: 2\r"]

theorem headerLines_lengthLines : HeaderLines lengthLines := by
  intro line hline
  obtain rfl := mem_singleton.mp hline
  exact ⟨by decide +kernel, by decide +kernel⟩

theorem lookup_lengthLines : (responseHeaders lengthLines).entries.lookup
    (toLowerCopy contentLength) = some (octets "2") := by decide +kernel

/-- A response which announces two octets, and the same one an octet short. -/
def announced : Octets := okLine ++ (headerSection lengthLines ++ octets "hi")
def announcedShort : Octets := okLine ++ (headerSection lengthLines ++ octets "h")

theorem statusInFirstLine_announced : StatusInFirstLine announced := by
  have hfound : findText crlf (announced.take maxResponseHeadersSize) = some 15 := by
    decide +kernel
  intro n hn
  rw [hfound] at hn
  cases hn
  decide +kernel

theorem statusInFirstLine_announcedShort : StatusInFirstLine announcedShort := by
  have hfound : findText crlf (announcedShort.take maxResponseHeadersSize) =
      some 15 := by decide +kernel
  intro n hn
  rw [hfound] at hn
  cases hn
  decide +kernel

def announcedAtOnce : Cut announced := ⟨[announced], by decide +kernel, by decide +kernel⟩

/-- Two pieces which part within the first line. -/
def announcedInPieces : Cut announced :=
  ⟨[announced.take 10, announced.drop 10], by decide +kernel, by decide +kernel⟩

def announcedShortInPieces : Cut announcedShort :=
  ⟨[announcedShort.take 10, announcedShort.drop 10], by decide +kernel, by decide +kernel⟩

theorem complete_announced :
    Complete {} fromUtf8Simple announced okLine lengthLines (octets "hi") (octets "hi") where
  parts := rfl
  status := .inl statusLine_okLine
  headerLines := headerLines_lengthLines
  statusInReach := by decide +kernel
  headersInReach := by decide +kernel
  length := by
    intro value hvalue
    rw [lookup_lengthLines] at hvalue
    cases hvalue
    exact ⟨by decide +kernel, by decide +kernel, by decide +kernel, fun _ => by decide +kernel⟩
  size := by decide +kernel
  body := by
    have hcharset : tryGetContentCharset (responseHeaders lengthLines) = [] := by decide +kernel
    unfold IsBody
    rw [hcharset, if_neg (by decide)]

/-- The response is accepted in pieces as it is at once, the short one not. -/
theorem readResponse_exact_announced :
    readResponse {} fromUtf8Simple announcedAtOnce.pieces =
        readResponse {} fromUtf8Simple announcedInPieces.pieces ∧
      readResponse {} fromUtf8Simple announcedInPieces.pieces =
        completeOutcome lengthLines (octets "hi") ∧
      (∃ line lines content body,
        Complete {} fromUtf8Simple announced line lines content body ∧
          readResponse {} fromUtf8Simple announcedAtOnce.pieces = completeOutcome lines body) ∧
      (readResponse {} fromUtf8Simple announcedShortInPieces.pieces).failure ≠ none := by
  obtain ⟨hsame, haccepted, hcomplete, -⟩ := readResponse_exact {} fromUtf8Simple announced
  obtain ⟨-, -, -, hshort⟩ := readResponse_exact {} fromUtf8Simple announcedShort
  refine ⟨hsame statusInFirstLine_announced _ _,
    hcomplete statusInFirstLine_announced _ _ _ _ complete_announced _,
    haccepted announcedAtOnce (by decide +kernel), ?_⟩
  exact hshort statusInFirstLine_announcedShort _ _ _ _ httpSuccessOk rfl statusLine_okLine
    headerLines_lengthLines lookup_lengthLines (by decide +kernel) (by decide +kernel) _

/-- A content in UTF-8, and a status line with a line end before the status
code. -/
def charsetResponse : Octets :=
  okLine ++ (headerSection [octets "Content-Type: text/html; charset=utf-8\r"] ++ [0xC3, 0xA9])
def lateResponse : Octets := octets "HTTP/1.0\r\n 200 OK\r\nA: b\r\n\r\n"

def charsetAtOnce : Cut charsetResponse :=
  ⟨[charsetResponse], by decide +kernel, by decide +kernel⟩

def lateAtOnce : Cut lateResponse := ⟨[lateResponse], by decide +kernel, by decide +kernel⟩

def lateInPieces : Cut lateResponse :=
  ⟨[lateResponse.take 10, lateResponse.drop 10], by decide +kernel, by decide +kernel⟩

/-- The body of one response stands nowhere at its end, and the other one is
accepted at once and not in pieces. -/
theorem readResponse_converts :
    (readResponse {} fromUtf8Simple charsetAtOnce.pieces).failure = none ∧
      ¬ (readResponse {} fromUtf8Simple charsetAtOnce.pieces).contentOut <:+ charsetResponse ∧
      (readResponse {} fromUtf8Simple lateAtOnce.pieces).failure = none ∧
      (readResponse {} fromUtf8Simple lateInPieces.pieces).failure ≠ none := by
  decide +kernel

end Baselib.Http.SimpleHttpTask
