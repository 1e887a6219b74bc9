/-
Baselib.HttpServer.ResponseTheorems — a response read back by a client
that splits it at the first empty line.

Custom headers are checked before they are written, the generated ones
are harmless, and the content type of the caller is written as it is. So
the head has one line for each header exactly if the content type has no
CRLF in it.
-/
import Baselib.Core.UriRoundTrip
import Baselib.HttpServer.ParserFraming
import Baselib.HttpServer.Response

namespace Baselib.HttpServer

open Lib Baselib.Core List
open Core.Uri (isDigit digitsValue toDecimal)
open HttpHeader (crlf sentinel)
open HttpHeader (nameSeparator space crlf_ne_nil contentLength)
open Response (buildResponse chkCustomHeader getRequiredHeaders headerLine)

/-! ## Lines and the sentinel -/

variable {p r : Octets}

theorem sentinel_eq_crlf : sentinel = crlf ++ crlf := rfl

/-- A line which contains no CRLF. -/
abbrev OneLine (p : Octets) : Prop := ¬ crlf <:+: p

theorem OneLine.of_lf (h : '\n'.toUInt8 ∉ p) : OneLine p := fun hin =>
  h (hin.subset (by decide : '\n'.toUInt8 ∈ crlf))

theorem OneLine.of_cons {c : UInt8} (h : OneLine (c :: p)) : OneLine p := fun hin =>
  h (infix_cons hin)

/-- No CRLF begins in a line and ends after it. -/
theorem OneLine.append_cr (h : OneLine p) : ¬ crlf <:+: p ++ crlf.dropLast := by
  have hlast : crlf.dropLast = ['\r'.toUInt8] := rfl
  rw [hlast, infix_concat_iff]
  intro hin
  cases hin with
  | inl hsuffix =>
    have heq := hsuffix.getLast (cons_ne_nil _ _)
    rw [getLast_append_singleton] at heq
    exact absurd heq (by decide)
  | inr hin => exact h hin

theorem OneLine.not_crlf {c : UInt8} (h : OneLine (c :: p)) (r : Octets) :
    ¬ crlf <+: c :: (p ++ crlf ++ r) := by
  intro hp
  obtain ⟨rfl, htail⟩ := cons_prefix_cons.mp hp
  cases p with
  | nil => exact absurd (cons_prefix_cons.mp htail).1 (by decide)
  | cons d p =>
    obtain ⟨rfl, -⟩ := cons_prefix_cons.mp htail
    exact h ⟨[], p, rfl⟩

theorem OneLine.not_sentinel {c : UInt8} (h : OneLine (c :: p)) (r : Octets) :
    ¬ sentinel <+: c :: (p ++ crlf ++ r) := fun hp =>
  h.not_crlf r ((prefix_append crlf crlf).trans hp)

/-- The search goes past a line which no empty line follows. -/
theorem findText_sentinel_line (hp : OneLine p) (hr : ¬ crlf <+: r) :
    findText sentinel (p ++ crlf ++ r) = (findText sentinel r).map (p.length + 2 + ·) := by
  induction p with
  | nil =>
    have hcr : ¬ sentinel <+: '\r'.toUInt8 :: '\n'.toUInt8 :: r := fun h =>
      hr (cons_prefix_cons.mp (cons_prefix_cons.mp h).2).2
    have hlf : ¬ sentinel <+: '\n'.toUInt8 :: r := fun h =>
      absurd (cons_prefix_cons.mp h).1 (by decide)
    show findText sentinel ('\r'.toUInt8 :: '\n'.toUInt8 :: r) = _
    rw [findText_cons, if_neg hcr, findText_cons, if_neg hlf, Option.map_map]
    congr 1
    funext n
    simp only [Function.comp_apply, length_nil]
    omega
  | cons c p ih =>
    show findText sentinel (c :: (p ++ crlf ++ r)) = _
    rw [findText_cons, if_neg (hp.not_sentinel r), ih hp.of_cons, Option.map_map]
    congr 1
    funext n
    simp only [Function.comp_apply, length_cons]
    omega

theorem findText_sentinel_last (hp : OneLine p) (r : Octets) :
    findText sentinel (p ++ sentinel ++ r) = some p.length := by
  induction p with
  | nil => exact findText_of_isPrefix (prefix_append sentinel r)
  | cons c p ih =>
    have hcut := hp.not_sentinel (crlf ++ r)
    rw [append_assoc p, ← append_assoc crlf, ← sentinel_eq_crlf, ← append_assoc] at hcut
    show findText sentinel (c :: (p ++ sentinel ++ r)) = _
    rw [findText_cons, if_neg hcut, ih hp.of_cons]
    rfl

/-- The first empty line is the one after the last of the lines, none of
which but the first is empty itself. -/
theorem findText_sentinel_lines {line : Octets} {lines : List Octets} (r : Octets)
    (hline : OneLine line) (hlines : ∀ l ∈ lines, OneLine l ∧ l ≠ []) :
    findText sentinel (crlf.intercalate (line :: lines) ++ sentinel ++ r) =
      some (crlf.intercalate (line :: lines)).length := by
  induction lines generalizing line with
  | nil =>
    rw [intercalate_singleton]
    exact findText_sentinel_last hline r
  | cons l lines ih =>
    obtain ⟨hl, hne⟩ := hlines l mem_cons_self
    have hrest := ih hl fun l' hl' => hlines l' (mem_cons_of_mem l hl')
    have hstart : ¬ crlf <+: crlf.intercalate (l :: lines) ++ sentinel ++ r := by
      obtain ⟨x, hx⟩ : ∃ x, crlf.intercalate (l :: lines) ++ sentinel ++ r = l ++ crlf ++ x := by
        cases lines with
        | nil => exact ⟨crlf ++ r, by simp [sentinel_eq_crlf]⟩
        | cons l' lines =>
          exact ⟨crlf.intercalate (l' :: lines) ++ sentinel ++ r, by
            rw [intercalate_cons_cons]
            simp only [append_assoc]⟩
      rw [hx]
      cases l with
      | nil => exact absurd rfl hne
      | cons c l => exact hl.not_crlf x
    have hshape : crlf.intercalate (line :: l :: lines) ++ sentinel ++ r =
        line ++ crlf ++ (crlf.intercalate (l :: lines) ++ sentinel ++ r) := by
      rw [intercalate_cons_cons]
      simp only [append_assoc]
    rw [hshape, findText_sentinel_line hline hstart, hrest, intercalate_cons_cons,
      length_append, length_append]
    rfl

/-! ## The lines which are written -/

theorem lf_not_mem_toDecimal (n : Nat) : '\n'.toUInt8 ∉ toDecimal n := by
  intro hmem
  have hdigit := all_eq_true.mp (Uri.toDecimal_spec n).2.1 _ hmem
  exact absurd hdigit (by decide)

theorem getStatusLine_eq (status : HttpStatusCode) :
    ∃ phrase, '\n'.toUInt8 ∉ phrase ∧ StatusStrings.getStatusLine status =
      octets "HTTP/1.0 " ++ (toDecimal status.toNat ++ (octets " " ++ phrase)) ++ crlf := by
  unfold StatusStrings.getStatusLine
  cases hlookup : StatusStrings.lines.lookup status with
  | some line =>
    have hmem : (status, line) ∈ StatusStrings.lines := by
      obtain ⟨l₁, l₂, hlines, -⟩ := lookup_eq_some_iff.mp hlookup
      rw [hlines]
      exact mem_append_right _ mem_cons_self
    have hall : ∀ entry ∈ StatusStrings.lines,
        '\n'.toUInt8 ∉ ((octets entry.2).drop
          (10 + (toDecimal entry.1.toNat).length)).dropLast.dropLast ∧
        octets entry.2 = octets "HTTP/1.0 " ++ (toDecimal entry.1.toNat ++ (octets " " ++
          ((octets entry.2).drop (10 + (toDecimal entry.1.toNat).length)).dropLast.dropLast)) ++
            crlf := by decide +kernel
    exact ⟨_, hall _ hmem⟩
  | none =>
    refine ⟨octets (StatusStrings.genericReasonPhrase status), ?_, ?_⟩
    · unfold StatusStrings.genericReasonPhrase
      split <;> decide +kernel
    · simp only [append_assoc]
      rfl

theorem statusLine_split (status : HttpStatusCode) :
    ∃ line, StatusStrings.getStatusLine status = line ++ crlf ∧ OneLine line := by
  obtain ⟨phrase, hphrase, hline⟩ := getStatusLine_eq status
  refine ⟨_, hline, .of_lf ?_⟩
  simp only [mem_append, not_or]
  exact ⟨by decide, lf_not_mem_toDecimal _, by decide, hphrase⟩

/-- A header which the response can be given or generates. -/
structure SafeHeader (header : Octets × Octets) : Prop where
  colon : nameSeparator ∉ header.1
  name : '\n'.toUInt8 ∉ header.1
  value : '\n'.toUInt8 ∉ header.2

theorem SafeHeader.oneLine {header : Octets × Octets} (h : SafeHeader header) :
    OneLine (headerLine header) := by
  refine .of_lf ?_
  have hcolon : '\n'.toUInt8 ∉ [nameSeparator, space] := by decide
  unfold headerLine
  rw [mem_append, mem_append, not_or, not_or]
  exact ⟨⟨h.name, hcolon⟩, h.value⟩

theorem headerLine_ne_nil (header : Octets × Octets) : headerLine header ≠ [] := by
  unfold headerLine
  simp

theorem headerName_headerLine {header : Octets × Octets}
    (h : nameSeparator ∉ header.1) :
    headerName (headerLine header) = header.1 := by
  unfold headerName headerLine
  rw [append_assoc]
  exact congrArg Prod.fst (cut_append_cons (space :: header.2) h)

/-- The line of the content type is one line exactly if the content type
is. -/
theorem oneLine_contentType (contentType : Octets) :
    OneLine (headerLine (HttpHeader.contentType, contentType)) ↔ OneLine contentType := by
  have hname : '\r'.toUInt8 ∉
      HttpHeader.contentType ++ [nameSeparator, space] := by decide
  unfold OneLine
  rw [← findText_eq_none_iff crlf_ne_nil, ← findText_eq_none_iff crlf_ne_nil,
    headerLine, HttpHeader.crlf_eq, findText_skip hname, Option.map_eq_none_iff]

theorem chkCustomHeader_ok {name value : Octets} (h : chkCustomHeader name value = .ok ()) :
    SafeHeader (name, value) ∧ Str.iequals name contentLength = false := by
  unfold chkCustomHeader at h
  split_ifs at h with hname hvalue hgenerated
  simp only [Bool.not_eq_true', Bool.not_eq_false] at hname hvalue
  have hlf : '\n'.toUInt8 ∉ name := fun hmem =>
    ParserHelpers.not_isCtl_of_isValidName hname hmem (by decide)
  have hlf' : '\n'.toUInt8 ∉ value := fun hmem =>
    (ParserHelpers.isValidValue_iff.mp hvalue _ hmem).elim (by decide)
      fun hchar => hchar.2 (by decide)
  have hcolon : nameSeparator ∉ name := by
    intro hmem
    unfold ParserHelpers.isValidName at hname
    rw [Bool.and_eq_true, all_eq_true] at hname
    exact absurd (hname.2 _ hmem) (by decide)
  refine ⟨⟨hcolon, hlf, hlf'⟩, ?_⟩
  simp only [Bool.or_eq_true, not_or, Bool.not_eq_true] at hgenerated
  exact hgenerated.1.1.2

theorem addCustomHeaders_ok {customs : List (Octets × Octets)} {headers headers' : HeadersMap}
    (h : Response.addCustomHeaders customs headers = .ok headers') :
    headers'.entries = headers.entries ++ customs ∧
      ∀ header ∈ customs, SafeHeader header ∧
        Str.iequals header.1 contentLength = false := by
  induction customs generalizing headers with
  | nil =>
    cases Except.ok.inj h
    exact ⟨(append_nil _).symm, fun _ hmem => absurd hmem not_mem_nil⟩
  | cons header customs ih =>
    unfold Response.addCustomHeaders at h
    cases hchk : chkCustomHeader header.1 header.2 with
    | error message =>
      rw [hchk] at h
      cases h
    | ok _ =>
      rw [hchk] at h
      cases hemplace : headers.emplace header.1 header.2 with
      | none =>
        simp only [hemplace] at h
        cases h
      | some headers₁ =>
        simp only [hemplace] at h
        obtain ⟨hentries, hall⟩ := ih h
        obtain ⟨-, hentries₁⟩ := HeadersMap.emplace_eq_some.mp hemplace
        refine ⟨by rw [hentries, hentries₁, append_assoc]; rfl, ?_⟩
        exact forall_mem_cons.mpr ⟨chkCustomHeader_ok hchk, hall⟩

/-! ## A response read back -/

/-- The headers a response is built with. -/
def builtHeaders (content contentType : Octets) (customHeaders : HeadersMap) :
    List (Octets × Octets) :=
  (getRequiredHeaders content
    (if contentType = [] then HttpHeader.contentTypeDefault else contentType)).entries ++
      customHeaders.entries

/-- Split at the first empty line, a response has a status line, one line
for each header it was built with, and the content; and the length it
declares is that of the content. -/
structure ReadsAsBuilt (content contentType : Octets) (customHeaders : HeadersMap)
    (response : Response) : Prop where
  head : ∃ line lines, headLines response.serialized = line :: lines ∧
    line ++ crlf = StatusStrings.getStatusLine response.status ∧
    lines.Perm ((builtHeaders content contentType customHeaders).map headerLine)
  body : response.serialized = messageHead response.serialized ++ sentinel ++ content
  length : ∃ line, Parser.linesNamed contentLength response.serialized = [line] ∧
    (headerValue line).all isDigit ∧ digitsValue (headerValue line) = content.length

variable {iterate : HeadersMap → List (Octets × Octets)} {status : HttpStatusCode}
  {content contentType : Octets} {customHeaders : HeadersMap} {response : Response}

theorem intercalate_append_crlf (line : Octets) (lines : List Octets) :
    crlf.intercalate (line :: lines) ++ crlf = line ++ crlf ++ lines.flatMap (· ++ crlf) := by
  induction lines generalizing line with
  | nil => rw [intercalate_singleton, flatMap_nil, append_nil]
  | cons l lines ih =>
    rw [intercalate_cons_cons, append_assoc, ih, flatMap_cons]

variable (content) in
theorem buildResponse_eq (headers : List (Octets × Octets)) {line : Octets}
    (hline : StatusStrings.getStatusLine status = line ++ crlf) :
    buildResponse status content headers =
      crlf.intercalate (line :: headers.map headerLine) ++ sentinel ++ content := by
  unfold buildResponse
  rw [hline, sentinel_eq_crlf, ← append_assoc, intercalate_append_crlf, flatMap_map]

theorem builtHeaders_safe (hct : OneLine contentType)
    (hcustom : ∀ header ∈ customHeaders.entries, SafeHeader header) :
    ∀ header ∈ builtHeaders content contentType customHeaders,
      OneLine (headerLine header) := by
  intro header hmem
  unfold builtHeaders getRequiredHeaders at hmem
  simp only [mem_append, mem_cons, not_mem_nil, or_false] at hmem
  obtain (rfl | rfl | rfl) | hmem := hmem
  · rw [oneLine_contentType]
    split_ifs
    · exact .of_lf (by decide)
    · exact hct
  · have hname : nameSeparator ∉ contentLength ∧
        '\n'.toUInt8 ∉ contentLength := by decide
    exact SafeHeader.oneLine ⟨hname.1, hname.2, lf_not_mem_toDecimal _⟩
  · exact SafeHeader.oneLine ⟨by decide, by decide, by decide⟩
  · exact (hcustom header hmem).oneLine

theorem builtHeaders_length
    (hcustom : ∀ header ∈ customHeaders.entries, SafeHeader header ∧
      Str.iequals header.1 contentLength = false) :
    ((builtHeaders content contentType customHeaders).map headerLine).filter
        (fun line => Str.iequals (headerName line) contentLength) =
      [headerLine (contentLength, toDecimal content.length)] := by
  have hnone : (customHeaders.entries.map headerLine).filter
      (fun line => Str.iequals (headerName line) contentLength) = [] := by
    rw [filter_eq_nil_iff]
    intro line hline
    obtain ⟨header, hmem, rfl⟩ := mem_map.mp hline
    obtain ⟨hsafe, hname⟩ := hcustom header hmem
    rw [headerName_headerLine hsafe.colon, hname]
    exact Bool.false_ne_true
  have hname : ∀ name value, nameSeparator ∉ name →
      headerName (headerLine (name, value)) = name := fun name value h =>
    (headerName_headerLine (by exact h) : headerName (headerLine (name, value)) = _)
  have htype : Str.iequals HttpHeader.contentType contentLength = false := by decide
  have hlength : Str.iequals contentLength contentLength = true := by decide
  have hconnection : Str.iequals HttpHeader.connection contentLength = false := by
    decide
  unfold builtHeaders getRequiredHeaders
  rw [map_append, filter_append, hnone, append_nil]
  simp only [map_cons, map_nil]
  rw [filter_cons_of_neg (by rw [hname _ _ (by decide), htype]; decide),
    filter_cons_of_pos (by rw [hname _ _ (by decide), hlength]),
    filter_cons_of_neg (by rw [hname _ _ (by decide), hconnection]; decide), filter_nil]

theorem headerValue_contentLength (n : Nat) :
    headerValue (headerLine (contentLength, toDecimal n)) = toDecimal n := by
  have htext : headerText (headerLine (contentLength, toDecimal n)) =
      space :: toDecimal n := by
    unfold headerText headerLine
    rw [append_assoc]
    exact congrArg (fun pair : Octets × Option Octets => pair.2.getD [])
      (cut_append_cons (space :: toDecimal n)
        (by decide : nameSeparator ∉ contentLength))
  have hspace : ∀ ch ∈ toDecimal n, ¬ Str.isSpace ch := by
    have hdigit : ∀ ch, isDigit ch → ¬ Str.isSpace ch := by decide +kernel
    exact fun ch hmem => hdigit ch (all_eq_true.mp (Uri.toDecimal_spec n).2.1 ch hmem)
  have hfront : (toDecimal n).dropWhile Str.isSpace = toDecimal n :=
    dropWhile_eq_self_iff.mpr fun hlen => hspace _ (getElem_mem hlen)
  have hback : (toDecimal n).rdropWhile Str.isSpace = toDecimal n :=
    rdropWhile_eq_self_iff.mpr fun hne => hspace _ (getLast_mem hne)
  unfold headerValue Str.trim
  rw [htext, dropWhile_cons_of_pos (by decide), hfront, hback]

/-- A response reads as it was built exactly if the content type it was
given has no CRLF in it, whatever the order in which maps are iterated. -/
theorem readsAsBuilt_iff (hiterate : ∀ headers : HeadersMap, (iterate headers).Perm headers.entries)
    (h : Response.create iterate status content contentType customHeaders = .ok response) :
    ReadsAsBuilt content contentType customHeaders response ↔ ¬ crlf <:+: contentType := by
  have hdefault : OneLine HttpHeader.contentTypeDefault := .of_lf (by decide)
  unfold Response.create at h
  dsimp only at h
  split at h
  · cases h
  · rename_i headers hadd
    cases Except.ok.inj h
    obtain ⟨hentries, hcustom⟩ := addCustomHeaders_ok hadd
    have hcustom' : ∀ header ∈ customHeaders.entries, SafeHeader header ∧
        Str.iequals header.1 contentLength = false := fun header hmem =>
      hcustom header ((hiterate customHeaders).mem_iff.mpr hmem)
    have hperm : (iterate headers).Perm (builtHeaders content contentType customHeaders) := by
      refine (hiterate headers).trans ?_
      rw [hentries]
      exact (hiterate customHeaders).append_left _
    obtain ⟨line, hline, hone⟩ := statusLine_split status
    refine ⟨fun hreads => ?_, fun hct => ?_⟩
    · obtain ⟨line', lines, hhead, -, hlines⟩ := hreads.head
      by_cases hempty : contentType = []
      · subst hempty
        decide
      · have hmem : headerLine (HttpHeader.contentType, contentType) ∈
            headLines (buildResponse status content (iterate headers)) := by
          rw [hhead]
          refine List.mem_cons_of_mem _ (hlines.mem_iff.mpr (List.mem_map_of_mem ?_))
          unfold builtHeaders getRequiredHeaders
          rw [if_neg hempty]
          exact List.mem_append_left _ List.mem_cons_self
        rw [← OneLine, ← oneLine_contentType]
        exact not_infix_of_mem_splitText crlf_ne_nil _ hmem
    · have hlines : ∀ l ∈ (iterate headers).map headerLine, OneLine l ∧ l ≠ [] := by
        intro l hl
        obtain ⟨header, hmem, rfl⟩ := List.mem_map.mp hl
        exact ⟨builtHeaders_safe hct (fun header hmem => (hcustom' header hmem).1) header
          (hperm.mem_iff.mp hmem), headerLine_ne_nil header⟩
      have heq := buildResponse_eq content (iterate headers) hline
      have hfind := findText_sentinel_lines content hone hlines
      rw [← heq] at hfind
      have hmessage : messageHead (buildResponse status content (iterate headers)) =
          crlf.intercalate (line :: (iterate headers).map headerLine) := by
        unfold messageHead
        rw [hfind, Option.getD_some, heq, List.append_assoc, List.take_left]
      have hhead : headLines (buildResponse status content (iterate headers)) =
          line :: (iterate headers).map headerLine := by
        unfold headLines
        rw [hmessage]
        refine splitText_intercalate crlf_ne_nil (List.cons_ne_nil _ _) ?_
        refine List.forall_mem_cons.mpr ⟨hone.append_cr, fun l hl => ?_⟩
        exact (hlines l hl).1.append_cr
      refine ⟨⟨line, _, hhead, hline.symm, hperm.map _⟩, ?_, ?_⟩
      · show buildResponse status content (iterate headers) = messageHead _ ++ _ ++ _
        rw [hmessage, heq]
      · refine ⟨headerLine (contentLength, toDecimal content.length), ?_, ?_⟩
        · have hfilter := (hperm.map headerLine).filter
            fun line => Str.iequals (headerName line) contentLength
          rw [builtHeaders_length hcustom'] at hfilter
          unfold Parser.linesNamed headerLines
          rw [hhead, List.tail_cons]
          exact List.perm_singleton.mp hfilter
        · obtain ⟨-, hall, hvalue⟩ := Uri.toDecimal_spec content.length
          rw [headerValue_contentLength]
          exact ⟨hall, hvalue⟩

/-- A response with a custom header. -/
theorem readsAsBuilt_iff_text :
    ∃ response, Response.create HeadersMap.entries 200 (octets "abc") (octets "text/plain")
        ⟨[(octets "X-A", octets "1")], List.nodup_singleton _⟩ = .ok response ∧
      ReadsAsBuilt (octets "abc") (octets "text/plain")
        ⟨[(octets "X-A", octets "1")], List.nodup_singleton _⟩ response :=
  ⟨_, rfl, (readsAsBuilt_iff (fun _ => List.Perm.refl _) rfl).mpr (by decide)⟩

/-- A content type with a CRLF in it becomes two lines. -/
theorem readsAsBuilt_crlf :
    ∃ response, Response.create HeadersMap.entries 200 [] (octets "a\r\nB: c") = .ok response ∧
      ¬ ReadsAsBuilt [] (octets "a\r\nB: c") {} response := by
  refine ⟨_, rfl, fun hreads => ?_⟩
  obtain ⟨line, lines, hhead, -, hperm⟩ := hreads.head
  have hlines := congrArg List.length hhead
  rw [List.length_cons, hperm.length_eq] at hlines
  exact absurd hlines (by decide +kernel)

end Baselib.HttpServer
