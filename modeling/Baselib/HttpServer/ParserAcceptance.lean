/-
Baselib.HttpServer.ParserAcceptance — what the grammar of the head allows is
accepted: the other direction of the lemmas which read the grammar out of an
accepted request.
-/
import Baselib.HttpServer.ParserFragmentation

namespace Baselib.HttpServer

open Lib Baselib.Core List
open Core.Uri (toLowerCopy)

theorem HeadersMap.eq_of_entries {m m' : HeadersMap} (h : m.entries = m'.entries) : m = m' := by
  cases m
  cases m'
  cases h
  rfl

namespace ParserHelpers

variable {input name value method uri version : Octets}

/-! ## Lines -/

theorem not_isSpace_of_isValidName (h : isValidName name) {ch : UInt8} (hch : ch ∈ name) :
    Str.isSpace ch = false := by
  have hspace : ∀ ch : UInt8, Str.isSpace ch → isCtl ch ∨ isTSpecial ch := by decide +kernel
  unfold isValidName at h
  rw [Bool.and_eq_true, all_eq_true] at h
  have hall := h.2 ch hch
  simp only [Bool.not_eq_true', Bool.or_eq_false_iff] at hall
  refine Bool.eq_false_of_not_eq_true fun hsp => ?_
  cases hspace ch hsp with
  | inl hctl => rw [hall.1.2] at hctl; cases hctl
  | inr hspecial => rw [hall.2] at hspecial; cases hspecial

theorem ne_nil_of_isValidName (h : isValidName name) : name ≠ [] := by
  rintro rfl
  cases h

theorem nameSeparator_notMem_of_isValidName (h : isValidName name) :
    HttpHeader.nameSeparator ∉ name := by
  intro hmem
  unfold isValidName at h
  rw [Bool.and_eq_true, all_eq_true] at h
  have hall := h.2 _ hmem
  revert hall
  decide

theorem parseMethodURIVersion_of (h : RequestLine input method uri version) (huri : uri ≠ [])
    (context : Context) : parseMethodURIVersion input context =
      (serverResult .parsed, { context with method := method, uri := uri }) := by
  have hversion : version ≠ [] := by
    obtain rfl | rfl := h.version_supported <;> decide
  have hempty : (method.isEmpty || uri.isEmpty || version.isEmpty) = false := by
    simp [ne_nil_of_isValidName h.method_valid, huri, hversion]
  have hsupported : ¬(version ≠ HttpHeader.httpVersion1_1 ∧ version ≠ HttpHeader.httpVersion1_0) :=
    fun hne => h.version_supported.elim hne.1 hne.2
  rw [parseMethodURIVersion, h.elements]
  dsimp only
  rw [hempty, if_neg Bool.false_ne_true, h.method_valid, if_neg (by decide),
    if_neg (Nat.not_lt.mpr h.uri_length), h.uri_valid, if_neg (by decide), if_neg hsupported]

theorem parseHeader_of {context : Context} (h : HeaderLine input name value)
    (hnew : name ∉ context.headers.entries.map Prod.fst) :
    ∃ headers, headers.entries = context.headers.entries ++ [(name, value)] ∧
      parseHeader input context = (serverResult .parsed, { context with headers := headers }) := by
  obtain ⟨n, v, rfl, hvalid, hmem, rfl, rfl⟩ := h.line
  cases hemplace : context.headers.emplace (toLowerCopy n) (Str.trim v) with
  | none =>
    unfold HeadersMap.emplace at hemplace
    rw [dif_neg hnew] at hemplace
    cases hemplace
  | some headers =>
    refine ⟨headers, (HeadersMap.emplace_eq_some.mp hemplace).2, ?_⟩
    have hname : (n ++ HttpHeader.nameSeparator :: v).take n.length = n := take_left
    have hvalue : (n ++ HttpHeader.nameSeparator :: v).drop (n.length + 1) = v := by
      rw [← drop_drop, drop_left]
      rfl
    have hhead : n.head?.any Str.isSpace = false := by
      cases hh : n.head? with
      | none => rfl
      | some ch => exact not_isSpace_of_isValidName hvalid (mem_of_head? hh)
    have hlast : n.getLast?.any Str.isSpace = false := by
      cases hh : n.getLast? with
      | none => rfl
      | some ch => exact not_isSpace_of_isValidName hvalid (mem_of_getLast? hh)
    have hempty : n.isEmpty = false := by simpa using ne_nil_of_isValidName hvalid
    rw [parseHeader, find_append_cons v hmem]
    dsimp only
    rw [hname, hvalue, hempty, if_neg Bool.false_ne_true, hhead, hlast, Bool.or_self,
      if_neg Bool.false_ne_true, hvalid, if_neg (by decide), h.value_valid, if_neg (by decide),
      hemplace]

end ParserHelpers

namespace Parser

open ParserHelpers

/-! ## Heads -/

variable {context : Context} {buffer : Octets} {posSentinel : Nat} {fields : HeadFields}

theorem parseHeaderLines_of {lines : List Octets} {added : List (Octets × Octets)}
    (h : List.Forall₂ (fun line header => HeaderLine line header.1 header.2) lines added)
    (hnodup : ((context.headers.entries ++ added).map Prod.fst).Nodup) :
    ∃ headers : HeadersMap, headers.entries = context.headers.entries ++ added ∧
      parseHeaderLines lines context =
        (serverResult .parsed, { context with headers := headers }) := by
  induction h generalizing context with
  | nil => exact ⟨context.headers, (append_nil _).symm, rfl⟩
  | @cons line header lines added hline _ ih =>
    have hnew : header.1 ∉ context.headers.entries.map Prod.fst := by
      rw [map_append, map_cons, nodup_append] at hnodup
      exact fun hmem => hnodup.2.2 _ hmem _ mem_cons_self rfl
    obtain ⟨headers₁, hentries₁, hparse⟩ := parseHeader_of hline hnew
    have hentries : headers₁.entries ++ added =
        context.headers.entries ++ header :: added := by
      rw [hentries₁, append_assoc]
      rfl
    obtain ⟨headers, hheaders, hrest⟩ :=
      @ih { context with headers := headers₁ } (hentries ▸ hnodup)
    refine ⟨headers, hheaders.trans hentries, ?_⟩
    rwa [parseHeaderLines, hparse]

theorem parseFraming_of {length : Nat} (h : Framing context.headers length) :
    parseFraming context =
      (serverResult .parsed, { context with expectedBodyLength := length }) := by
  rw [parseFraming, h.not_chunked, if_neg (by decide)]
  obtain ⟨hnone, rfl⟩ | ⟨header, hsome, hcast⟩ := h.length_eq
  · rw [hnone]
  · rw [hsome]
    dsimp only
    rw [hcast]

theorem Head.parseHead_eq (h : Head (buffer.take posSentinel) fields) (huri : fields.uri ≠ [])
    (hle : posSentinel ≤ buffer.length) :
    parseHead posSentinel { buffer := buffer } =
      (serverResult .parsed, headContext posSentinel fields buffer) := by
  obtain ⟨line, lines, version, hsplit, hrequest, hheaders⟩ := h.lines
  let started : Context :=
    { method := fields.method
      uri := fields.uri
      buffer := buffer }
  have hstart : parseMethodURIVersion line { buffer := buffer } = (serverResult .parsed, started) :=
    parseMethodURIVersion_of hrequest huri { buffer := buffer }
  obtain ⟨headers, hentries, hparse⟩ :=
    @parseHeaderLines_of started lines _ hheaders fields.headers.nodup
  obtain rfl : headers = fields.headers := HeadersMap.eq_of_entries hentries
  have hlines : parseLines (line :: lines) { buffer := buffer } =
      (serverResult .parsed, { started with headers := fields.headers }) := by
    rwa [parseLines, hstart]
  exact parseHead_of_parsed hle hsplit hlines
    (@parseFraming_of { started with headers := fields.headers } _ h.framing)

theorem headRead_of (hsentinel : findText HttpHeader.sentinel buffer = some posSentinel)
    (hsize : posSentinel ≤ maxHeadersSize) (hhead : Head (buffer.take posSentinel) fields)
    (huri : fields.uri ≠ []) (hcontent : fields.length ≤ maxContentSize) :
    HeadRead buffer posSentinel fields := by
  have hle : posSentinel ≤ buffer.length :=
    (Nat.le_add_right _ _).trans (findText_length_le hsentinel HttpHeader.sentinel_ne_nil)
  exact ⟨hsentinel, hsize, ⟨none, hhead.parseHead_eq huri hle⟩, hhead, hcontent⟩

end Parser

end Baselib.HttpServer
