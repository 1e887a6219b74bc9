/-
Baselib.Http.ResponseRoundTrip — the response of the server, read by the
client.

The status line, one line for each header and the empty line are a header
section of the client; of the lines, one alone announces a length, and it is
that of the content.
-/
import Baselib.Http.RequestRoundTrip
import Baselib.Http.SimpleHttpResponseAcceptance

namespace Baselib.Http.SimpleHttpTask

open Lib List
open Core.Str (trim isSpace iequals)
open Core.InputStream
open Core.Uri (toDecimal toLowerCopy isDigit digitsValue toDecimal_spec)
open HttpServer
open HttpHeader hiding cookie

/-! ## The status line -/

theorem statusLine_getStatusLine {status : HttpStatusCode} (hstatus : status ≠ 0) :
    StatusLine (StatusStrings.getStatusLine status) status.toNat := by
  obtain ⟨phrase, hphrase, hline⟩ := getStatusLine_eq status
  obtain ⟨hne, hall, hvalue⟩ := toDecimal_spec status.toNat
  have hparts : StatusStrings.getStatusLine status = [] ++ (octets "HTTP/1.0" ++ (octets " " ++
      ([] ++ (toDecimal status.toNat ++ ((octets " " ++ (phrase ++ ['\r'.toUInt8])) ++
        [lineFeed]))))) := by
    rw [hline]
    simp only [append_assoc]
    rfl
  have hnumber : IsNumber [] (toDecimal status.toNat) (octets " " ++ (phrase ++ ['\r'.toUInt8])) :=
    ⟨.inl rfl, all_eq_true.mp hall, by simp [octets]; decide⟩
  rw [hparts]
  refine .intro (by simp) (by decide +kernel) (by decide +kernel) (by decide +kernel)
    (by decide +kernel) hnumber ?_ ?_ (by simp) ?_
  · have hdigits : digitsValue (toDecimal status.toNat) = status.toNat := hvalue
    rw [unsignedValue, hdigits, if_neg, if_neg (by decide)]
    exact not_or.mpr ⟨hne, Nat.not_le.mpr status.toNat_lt⟩
  · exact fun hzero => hstatus (UInt32.toNat_inj.mp hzero)
  · simp only [mem_append, not_or]
    exact ⟨by decide, hphrase, by decide⟩

theorem statusInFirstLine_serialized (status : HttpStatusCode) (rest : Octets) :
    StatusInFirstLine (StatusStrings.getStatusLine status ++ rest) := by
  intro n hn
  obtain ⟨phrase, -, hline⟩ := getStatusLine_eq status
  obtain ⟨hne, hall, -⟩ := toDecimal_spec status.toNat
  obtain ⟨d, digits, hdigits⟩ := exists_cons_of_ne_nil hne
  have hd : isDigit d = true := all_eq_true.mp hall d (hdigits ▸ mem_cons_self)
  have hcr : '\r'.toUInt8 ∉ octets "HTTP/1.0 " ++ [d] := by
    have hdigit : '\r'.toUInt8 ≠ d := by
      rintro rfl
      cases hd
    simp only [mem_append, mem_singleton, hdigit, or_false]
    decide
  obtain ⟨text, htext⟩ : ∃ text, StatusStrings.getStatusLine status ++ rest =
      octets "HTTP/1.0 " ++ [d] ++ text := by
    rw [hline, hdigits]
    refine ⟨digits ++ (octets " " ++ phrase) ++ crlf ++ rest, ?_⟩
    simp only [append_assoc, cons_append, nil_append]
  have hlength : (octets "HTTP/1.0 " ++ [d]).length = 10 := rfl
  rw [htext, take_append, take_of_length_le (by rw [hlength]; decide), crlf_eq,
    findText_skip hcr] at hn
  obtain ⟨m, -, rfl⟩ := Option.map_eq_some_iff.mp hn
  rw [htext, take_append, take_of_length_le (by omega)]
  generalize text.take _ = more
  have hholds : holdsStatus (octets "HTTP/1.0 " ++ [d] ++ more) =
      (!isSpace d || more.any (!isSpace ·)) := rfl
  rw [hholds, isSpace_of_isDigit hd]
  rfl

/-! ## The header lines -/

/-- A line of a header section, with the carriage return of its CRLF. -/
def receivedLine (header : Octets × Octets) : Octets :=
  Response.headerLine header ++ [carriageReturn]

theorem readHeader_receivedLine {header : Octets × Octets} (hcolon : nameSeparator ∉ header.1)
    (hne : header.1 ≠ []) (headers : HeadersMap × Octets) :
    (readHeader headers (receivedLine header)).1 =
      if iequals (trim header.1) setCookie then headers.1
      else emplaceHeader headers.1 (toLowerCopy (trim header.1))
        (trim (space :: (header.2 ++ [carriageReturn]))) := by
  have hline : receivedLine header =
      header.1 ++ nameSeparator :: space :: (header.2 ++ [carriageReturn]) := by
    simp [receivedLine, Response.headerLine]
  have htake := @take_left _ header.1 (nameSeparator :: space :: (header.2 ++ [carriageReturn]))
  have hdrop := @drop_left _ (header.1 ++ [nameSeparator]) (space :: (header.2 ++ [carriageReturn]))
  rw [length_append, length_singleton, append_assoc, singleton_append] at hdrop
  rw [readHeader, hline, find_append_cons _ hcolon]
  split
  next heq => cases heq
  next heq => exact absurd (length_eq_zero_iff.mp (Option.some.inj heq)) hne
  next pos _ heq =>
    cases heq
    rw [htake, hdrop, apply_ite Prod.fst]

/-! ## The announced length -/

theorem lookup_emplaceHeader_self (headers : HeadersMap) (name value : Octets) :
    (emplaceHeader headers name value).entries.lookup name =
      some ((headers.entries.lookup name).getD value) := by
  unfold emplaceHeader
  cases hemplace : headers.emplace name value with
  | none =>
    have hmem : name ∈ headers.entries.map Prod.fst := by
      by_contra hnot
      simp [HeadersMap.emplace, hnot] at hemplace
    rw [Option.getD_none]
    cases hlookup : headers.entries.lookup name with
    | none =>
      obtain ⟨entry, hentry, rfl⟩ := mem_map.mp hmem
      simpa using lookup_eq_none_iff.mp hlookup entry hentry
    | some value' => rfl
  | some headers' =>
    rw [Option.getD_some, (HeadersMap.emplace_eq_some.mp hemplace).2, lookup_append,
      lookup_cons_self]
    cases headers.entries.lookup name <;> rfl

theorem lookup_other {header : Octets × Octets} {key : Octets} (hcolon : nameSeparator ∉ header.1)
    (hne : header.1 ≠ []) (hkey : toLowerCopy (trim header.1) ≠ key)
    (headers : HeadersMap × Octets) :
    (readHeader headers (receivedLine header)).1.entries.lookup key =
      headers.1.entries.lookup key := by
  rw [readHeader_receivedLine hcolon hne]
  split_ifs
  · rfl
  · exact lookup_emplaceHeader (Ne.symm hkey)

theorem readHeader_contentLength (n : Nat) (headers : HeadersMap × Octets) :
    (readHeader headers (receivedLine (contentLength, toDecimal n))).1 =
      emplaceHeader headers.1 (toLowerCopy contentLength) (toDecimal n) := by
  have htrim : trim (space :: (toDecimal n ++ [carriageReturn])) = toDecimal n := by
    have hdigits := trim_toDecimal n
    obtain ⟨hne, hall, -⟩ := toDecimal_spec n
    obtain ⟨d, digits, heq⟩ := exists_cons_of_ne_nil hne
    have hd : isSpace d = false := isSpace_of_isDigit (all_eq_true.mp hall d (heq ▸ mem_cons_self))
    rw [heq] at hdigits ⊢
    simp only [trim] at hdigits ⊢
    rw [dropWhile_cons_of_pos (by decide), dropWhile_cons_of_neg (by simp [hd])] at hdigits
    rw [dropWhile_cons_of_pos (by decide), cons_append, dropWhile_cons_of_neg (by simp [hd]),
      ← cons_append, rdropWhile_concat_pos _ _ _ (by decide), hdigits]
  have hname : nameSeparator ∉ contentLength ∧ contentLength ≠ [] := by decide
  have hset : iequals (trim contentLength) setCookie = false ∧ trim contentLength = contentLength := by
    decide +kernel
  rw [readHeader_receivedLine hname.1 hname.2, htrim, if_neg (by simp [hset.1]), hset.2]

/-- One header alone sets the value of a key. -/
theorem lookup_receivedLines {key value : Octets} {written : List (Octets × Octets)}
    (hothers : ∀ header ∈ written,
      (∀ headers, (readHeader headers (receivedLine header)).1.entries.lookup key =
        headers.1.entries.lookup key) ∨
      ∀ headers, (readHeader headers (receivedLine header)).1 = emplaceHeader headers.1 key value) :
    ∀ {headers : HeadersMap × Octets}, (headers.1.entries.lookup key = some value ∨
      headers.1.entries.lookup key = none ∧ ∃ header ∈ written, ∀ headers,
        (readHeader headers (receivedLine header)).1 = emplaceHeader headers.1 key value) →
      ((written.map receivedLine).foldl readHeader headers).1.entries.lookup key = some value := by
  induction written with
  | nil => simp
  | cons header written ih =>
    intro headers hstate
    obtain ⟨hheader, hrest⟩ := forall_mem_cons.mp hothers
    refine ih hrest ?_
    obtain hsame | hsets := hheader
    · rw [hsame]
      refine hstate.imp_right fun ⟨hnone, setter, hmem, hset⟩ => ⟨hnone, ?_⟩
      obtain rfl | hmem := mem_cons.mp hmem
      · have hself := hsame headers
        rw [hset, lookup_emplaceHeader_self, hnone] at hself
        cases hself
      · exact ⟨setter, hmem, hset⟩
    · rw [hsets, lookup_emplaceHeader_self]
      obtain hvalue | ⟨hnone, -⟩ := hstate
      · exact .inl (by rw [hvalue, Option.getD_some])
      · exact .inl (by rw [hnone, Option.getD_none])

/-! ## The response of the server -/

theorem addCustomHeaders_checked {customs : List (Octets × Octets)} {headers headers' : HeadersMap}
    (h : Response.addCustomHeaders customs headers = .ok headers') :
    ∀ header ∈ customs, Response.chkCustomHeader header.1 header.2 = .ok () := by
  induction customs generalizing headers with
  | nil => simp
  | cons header customs ih =>
    unfold Response.addCustomHeaders at h
    split at h
    · cases h
    · next hchk =>
      split at h
      · exact forall_mem_cons.mpr ⟨hchk, ih h⟩
      · cases h

/-- A name the server accepts is found as it was written. -/
theorem trim_of_checked {name value : Octets} (h : Response.chkCustomHeader name value = .ok ()) :
    name ≠ [] ∧ trim name = name := by
  unfold Response.chkCustomHeader at h
  split_ifs at h with hname
  simp only [ParserHelpers.isValidName, Bool.not_eq_true', Bool.not_eq_false, Bool.and_eq_true,
    isEmpty_eq_false_iff, all_eq_true] at hname
  have hall : ∀ ch, (!(!ParserHelpers.isChar ch || ParserHelpers.isCtl ch ||
      ParserHelpers.isTSpecial ch)) = true → ¬isSpace ch = true := by decide +kernel
  have hspace : ∀ ch ∈ name, ¬isSpace ch = true := fun ch hmem => hall ch (by simp [hname.2 ch hmem])
  refine ⟨hname.1, ?_⟩
  rw [trim, dropWhile_eq_self_iff.mpr fun _ => hspace _ (getElem_mem _),
    rdropWhile_eq_self_iff.mpr fun hne => hspace _ (getLast_mem hne)]

theorem findText_reach {delim before rest : Octets} {n : Nat} (hne : delim ≠ [])
    (hin : delim <:+: before) (hle : before.length ≤ n) :
    (findText delim ((before ++ rest).take n)).isSome = true := by
  rw [Option.isSome_iff_ne_none, Ne, findText_eq_none_iff hne, not_not, take_append,
    take_of_length_le hle]
  exact hin.trans (prefix_append _ _).isInfix

/-- A header a response is built with, as the client sees it. -/
structure Received (length : Nat) (header : Octets × Octets) : Prop where
  safe : SafeHeader header
  name : header.1 ≠ []
  key : header = (contentLength, toDecimal length) ∨
    toLowerCopy (trim header.1) ≠ toLowerCopy contentLength

theorem builtHeaders_received {content contentType : Octets} {customHeaders : HeadersMap}
    (htype : '\n'.toUInt8 ∉ contentType) (hcustom : ∀ header ∈ customHeaders.entries,
      Response.chkCustomHeader header.1 header.2 = .ok ()) :
    ∀ header ∈ builtHeaders content contentType customHeaders,
      Received content.length header := by
  intro header hmem
  simp only [builtHeaders, Response.getRequiredHeaders, mem_append, mem_cons, not_mem_nil,
    or_false] at hmem
  obtain (rfl | rfl | rfl) | hmem := hmem
  · refine ⟨⟨(by decide : nameSeparator ∉ HttpHeader.contentType), (by decide :
      '\n'.toUInt8 ∉ HttpHeader.contentType), ?_⟩, (by decide : HttpHeader.contentType ≠ []), .inr
        (by decide +kernel : toLowerCopy (trim HttpHeader.contentType) ≠ toLowerCopy contentLength)⟩
    dsimp only
    split_ifs
    · decide
    · exact htype
  · exact ⟨⟨(by decide : nameSeparator ∉ contentLength), (by decide : '\n'.toUInt8 ∉ contentLength),
      lf_not_mem_toDecimal _⟩, (by decide : contentLength ≠ []), .inl rfl⟩
  · exact ⟨⟨by decide, by decide, by decide⟩, by decide, .inr (by decide +kernel)⟩
  · obtain ⟨hsafe, hname⟩ := chkCustomHeader_ok (hcustom header hmem)
    obtain ⟨hne, htrim⟩ := trim_of_checked (hcustom header hmem)
    exact ⟨hsafe, hne, .inr (htrim.symm ▸ iequals_eq_false.mp hname)⟩

variable {iterate : HeadersMap → List (Octets × Octets)} {status : HttpStatusCode}
  {content contentType : Octets} {customHeaders : HeadersMap} {response : Response}
  (options : ResponseOptions) (fromUtf8 : Octets → Option Octets)

/-- What the server answers arrives as it was meant, however it is cut: the
status, the headers and, decoded, the content. -/
theorem readResponse_create (hiterate : ∀ headers : HeadersMap, (iterate headers).Perm headers.entries)
    (h : Response.create iterate status content contentType customHeaders = .ok response)
    (hstatus : status ≠ 0) (htype : '\n'.toUInt8 ∉ contentType)
    (hhead : response.serialized.length ≤ maxResponseHeadersSize + content.length)
    (hsize : content.length ≤ options.maxResponseSize) (hlength : content.length < 2 ^ 64)
    (cut : Cut response.serialized) :
    readResponse options fromUtf8 cut.pieces =
      let headers := responseHeaders ((iterate response.headers).map receivedLine)
      match decodeContent options fromUtf8 headers content with
      | none => ⟨some .conversion, status.toNat, headers, []⟩
      | some body =>
        ⟨if httpSuccessOk ≠ status.toNat then some (.errorStatusCode status.toNat) else none,
          status.toNat, headers, body⟩ := by
  unfold Response.create at h
  dsimp only at h
  split at h
  · cases h
  rename_i headers hadd
  cases h
  obtain ⟨hentries, hcustom⟩ := addCustomHeaders_ok hadd
  have hperm : (iterate headers).Perm (builtHeaders content contentType customHeaders) := by
    refine (hiterate headers).trans ?_
    rw [hentries]
    exact (hiterate customHeaders).append_left _
  have hreceived : ∀ header ∈ iterate headers, Received content.length header := fun header hmem =>
    builtHeaders_received htype (fun header hmem => addCustomHeaders_checked hadd header
      ((hiterate customHeaders).mem_iff.mpr hmem)) header (hperm.mem_iff.mp hmem)
  have hannounced : (contentLength, toDecimal content.length) ∈ iterate headers :=
    hperm.mem_iff.mpr (by simp [builtHeaders, Response.getRequiredHeaders])
  dsimp only at cut hhead ⊢
  generalize iterate headers = written at *
  have hlines : HeaderLines (written.map receivedLine) := by
    intro line hline
    obtain ⟨header, hmem, rfl⟩ := mem_map.mp hline
    obtain ⟨hcolon, hname, hvalue⟩ := (hreceived header hmem).safe
    simp only [receivedLine, Response.headerLine, mem_append, not_or]
    refine ⟨⟨⟨⟨hname, by decide⟩, hvalue⟩, by decide⟩, fun heq => ?_⟩
    have hlength := congrArg List.length heq
    simp only [length_append, length_cons] at hlength
    omega
  have hlookup : (responseHeaders (written.map receivedLine)).entries.lookup
      (toLowerCopy contentLength) = some (toDecimal content.length) := by
    rw [lookup_responseHeaders, sectionHeaders]
    refine lookup_receivedLines (fun header hmem => ?_)
      (.inr ⟨rfl, _, hannounced, readHeader_contentLength _⟩)
    obtain rfl | hother := (hreceived header hmem).key
    · exact .inr (readHeader_contentLength _)
    · exact .inl (lookup_other (hreceived header hmem).safe.colon (hreceived header hmem).name hother)
  have hread : readResponseLength (responseHeaders (written.map receivedLine)) =
      .ok content.length := by
    obtain ⟨hne, hdigits, hvalue⟩ := toDecimal_spec content.length
    have heq : digitsValue (toDecimal content.length) = content.length := hvalue
    exact (readResponseLength_of_some hlookup).mpr ⟨hne, hdigits, heq.symm ▸ hlength, heq⟩
  have hserialized : Response.buildResponse status content written =
      StatusStrings.getStatusLine status ++ (headerSection (written.map receivedLine) ++ content) := by
    simp only [Response.buildResponse, headerSection, flatMap_map, append_assoc, receivedLine]
    rfl
  rw [hserialized, length_append, length_append] at hhead
  obtain ⟨phrase, -, hphrase⟩ := getStatusLine_eq status
  rw [readResponse_eq options fromUtf8 (hserialized ▸ statusInFirstLine_serialized _ _), hserialized,
    wholeResponse_statusLine options fromUtf8 (statusLine_getStatusLine hstatus)
      (findText_reach crlf_ne_nil (hphrase ▸ (suffix_append _ _).isInfix) (by omega)),
    wholeAfterStatus_section options fromUtf8 hlines (findText_reach (by decide) ?_ (by omega)), hread]
  · dsimp only
    cases decodeContent options fromUtf8 (responseHeaders (written.map receivedLine)) content <;>
      rw [if_pos hsize, if_neg fun hne => hne.2 rfl]
  · obtain rfl | ⟨before, last, rfl⟩ := eq_nil_or_concat written
    · cases hannounced
    · refine ⟨(before.map receivedLine).flatMap (· ++ [lineFeed]) ++ Response.headerLine last, [], ?_⟩
      simp only [headerSection, receivedLine, concat_eq_append, map_append, map_cons, map_nil,
        flatMap_append, flatMap_cons, flatMap_nil, append_assoc, append_nil]
      rfl
/-- A response with a header of its own, and a status which is no success. -/
def notFoundHeaders : HeadersMap := ⟨[(octets "X-A", octets "b")], nodup_singleton _⟩

def notFound : Response where
  status := 404
  content := octets "hi"
  headers :=
    ⟨[(HttpHeader.contentType, octets "text/plain"), (contentLength, octets "2"),
      (connection, close), (octets "X-A", octets "b")], by decide +kernel⟩
  serialized := octets ("HTTP/1.0 404 Not Found\r\nContent-Type: text/plain\r\n" ++
    "Content-Length: 2\r\nConnection: close\r\nX-A: b\r\n\r\nhi")

/-- Two pieces which part within the status line. -/
def notFoundInPieces : Cut notFound.serialized :=
  ⟨[notFound.serialized.take 10, notFound.serialized.drop 10], by decide +kernel, by decide +kernel⟩

theorem readResponse_create_notFound :
    (readResponse {} fromUtf8Simple notFoundInPieces.pieces).failure = some (.errorStatusCode 404) ∧
      (readResponse {} fromUtf8Simple notFoundInPieces.pieces).contentOut = octets "hi" := by
  rw [readResponse_create {} fromUtf8Simple (fun _ => .rfl)
    (by decide +kernel : Response.create HeadersMap.entries 404 (octets "hi") (octets "text/plain")
      notFoundHeaders = .ok notFound) (by decide) (by decide +kernel) (by decide +kernel)
    (by decide +kernel) (by decide +kernel)]
  decide +kernel

end Baselib.Http.SimpleHttpTask
