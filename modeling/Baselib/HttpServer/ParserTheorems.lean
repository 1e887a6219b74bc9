/-
Baselib.HttpServer.ParserTheorems — what a head looks like which the
parser accepts, block by block in the order of the source.

Each block has one lemma for its accepting branch, which says everything
later proofs use about it, and one lemma that it does not look at the
buffer. The lines of the head are the pieces of the buffer up to the
sentinel, so a head is parsed alike whatever follows it.
-/
import Baselib.HttpServer.Parser

namespace Baselib.HttpServer

open Lib Baselib.Core List
open Core.Uri (toLowerCopy)
open HttpHeader

namespace ParserHelpers

variable {input : Octets} {context context' : Context} {e : Option Octets}

/-! ## The buffer is not looked at -/

/-- The context with another buffer. -/
def withBuffer (b : Octets) (context : Context) : Context := { context with buffer := b }

theorem parseMethodURIVersion_withBuffer (b input : Octets) (context : Context) :
    parseMethodURIVersion input (withBuffer b context) =
      (parseMethodURIVersion input context).map id (withBuffer b) := by
  unfold parseMethodURIVersion
  split
  · split_ifs <;> rfl
  · rfl

theorem parseHeader_withBuffer (b input : Octets) (context : Context) :
    parseHeader input (withBuffer b context) =
      (parseHeader input context).map id (withBuffer b) := by
  unfold parseHeader
  cases find input nameSeparator 0 with
  | none => rfl
  | some pos =>
    have hheaders : (withBuffer b context).headers = context.headers := rfl
    dsimp only
    rw [hheaders]
    split_ifs
    · rfl
    · rfl
    · rfl
    · rfl
    · cases context.headers.emplace (toLowerCopy (input.take pos))
        (Str.trim (input.drop (pos + 1))) <;> rfl

/-! ## A line is accepted or refused -/

theorem parseMethodURIVersion_settles (input : Octets) (context : Context) :
    (parseMethodURIVersion input context).1.1 ≠ .moreDataRequired := by
  unfold parseMethodURIVersion
  split
  · dsimp only
    split_ifs <;> exact nofun
  · exact nofun

theorem parseHeader_settles (input : Octets) (context : Context) :
    (parseHeader input context).1.1 ≠ .moreDataRequired := by
  unfold parseHeader
  split
  · rintro ⟨⟩
  · dsimp only
    split_ifs
    · rintro ⟨⟩
    · rintro ⟨⟩
    · rintro ⟨⟩
    · rintro ⟨⟩
    · split <;> rintro ⟨⟩

/-! ## Lines which are accepted -/

/-- A request line which is accepted. -/
structure RequestLine (input method uri version : Octets) : Prop where
  elements : input.splitOn space = [method, uri, version]
  method_valid : isValidName method
  uri_valid : isValidValue uri
  uri_length : uri.length ≤ maxUriSize
  version_supported :
    version = httpVersion1_1 ∨ version = httpVersion1_0

theorem parseMethodURIVersion_parsed
    (h : parseMethodURIVersion input context = ((.parsed, e), context')) :
    ∃ method uri version, RequestLine input method uri version ∧
      context' = { context with method := method, uri := uri } := by
  unfold parseMethodURIVersion at h
  split at h
  · rename_i method uri version helements
    split_ifs at h with hempty hname hlong hvalue hversion
    all_goals simp only [serverError, serverResult, reduceCtorEq, if_false, Prod.mk.injEq,
      false_and] at h
    refine ⟨method, uri, version, ⟨helements, by simpa using hname, by simpa using hvalue,
      Nat.le_of_not_lt hlong, ?_⟩, h.2.symm⟩
    by_contra hne
    exact hversion ⟨fun h => hne (.inl h), fun h => hne (.inr h)⟩
  · simp [serverError] at h

/-- A header line which is accepted, with the name and the value that go
to the map. -/
structure HeaderLine (input name value : Octets) : Prop where
  line : ∃ n v, input = n ++ nameSeparator :: v ∧ isValidName n ∧
    nameSeparator ∉ n ∧ name = toLowerCopy n ∧ value = Str.trim v
  value_valid : isValidValue value

theorem parseHeader_parsed (h : parseHeader input context = ((.parsed, e), context')) :
    ∃ name value, HeaderLine input name value ∧
      name ∉ context.headers.entries.map Prod.fst ∧
      ∃ headers, headers.entries = context.headers.entries ++ [(name, value)] ∧
        context' = { context with headers := headers } := by
  unfold parseHeader at h
  obtain ⟨-, hnone⟩ | ⟨n, v, rfl, hmem, hsome⟩ := find_cases input nameSeparator
  · rw [hnone] at h
    simp [serverError] at h
  · rw [hsome] at h
    simp only [take_left, drop_length_add_append, drop_succ_cons, drop_zero]
      at h
    split_ifs at h with hempty hspace hname hvalue
    all_goals first | (simp only [serverError, Prod.mk.injEq, reduceCtorEq, false_and] at h; done) | skip
    split at h
    · simp [serverError] at h
    · rename_i headers hemplace
      obtain ⟨hnew, hentries⟩ := HeadersMap.emplace_eq_some.mp hemplace
      refine ⟨toLowerCopy n, Str.trim v, ⟨⟨n, v, rfl, by simpa using hname, hmem, rfl, rfl⟩,
        by simpa using hvalue⟩, hnew, headers, hentries, ?_⟩
      exact (Prod.mk.inj h).2.symm

end ParserHelpers

namespace Parser

open ParserHelpers

variable {context context' : Context} {e : Option Octets} {posSentinel : Nat}

theorem parseHeaderLines_withBuffer (b : Octets) (lines : List Octets) (context : Context) :
    parseHeaderLines lines (withBuffer b context) =
      (parseHeaderLines lines context).map id (withBuffer b) := by
  induction lines generalizing context with
  | nil => rfl
  | cons header headers ih =>
    rw [parseHeaderLines, parseHeader_withBuffer, parseHeaderLines]
    obtain ⟨⟨code, message⟩, context'⟩ := parseHeader header context
    cases code with
    | parsed => exact ih context'
    | parsingError => rfl
    | moreDataRequired => rfl

theorem parseLines_withBuffer (b : Octets) (lines : List Octets) (context : Context) :
    parseLines lines (withBuffer b context) =
      (parseLines lines context).map id (withBuffer b) := by
  cases lines with
  | nil => rfl
  | cons header headers =>
    rw [parseLines, parseMethodURIVersion_withBuffer, parseLines]
    obtain ⟨⟨code, message⟩, context'⟩ := parseMethodURIVersion header context
    cases code with
    | parsed => exact parseHeaderLines_withBuffer b headers context'
    | parsingError => rfl
    | moreDataRequired => rfl

theorem parseFraming_withBuffer (b : Octets) (context : Context) :
    parseFraming (withBuffer b context) = (parseFraming context).map id (withBuffer b) := by
  have hheaders : (withBuffer b context).headers = context.headers := rfl
  unfold parseFraming
  rw [hheaders]
  split_ifs
  · rfl
  · cases context.headers.findName contentLength with
    | none => rfl
    | some header =>
      dsimp only
      cases Str.lexicalCast header.2 <;> rfl

/-- A head is parsed alike whatever follows it. -/
theorem parseHead_withBuffer {b : Octets} (hs : posSentinel ≤ context.buffer.length)
    (hb : posSentinel ≤ b.length) (htake : b.take posSentinel = context.buffer.take posSentinel) :
    parseHead posSentinel (withBuffer b context) =
      (parseHead posSentinel context).map id (withBuffer b) := by
  have hbuffer : (withBuffer b context).buffer = b := rfl
  unfold parseHead
  rw [hbuffer, Str.splitString_eq crlf_ne_nil hb,
    Str.splitString_eq crlf_ne_nil hs, htake]
  cases splitText crlf (context.buffer.take posSentinel) with
  | nil => rfl
  | cons line lines =>
    dsimp only
    rw [parseLines_withBuffer]
    obtain ⟨⟨code, message⟩, context₁⟩ := parseLines (line :: lines) context
    cases code with
    | parsed =>
      dsimp only [Prod.map_apply, id]
      rw [parseFraming_withBuffer]
      obtain ⟨⟨code', message'⟩, context₂⟩ := parseFraming context₁
      cases code' <;> rfl
    | parsingError => rfl
    | moreDataRequired => rfl

/-! ## A complete head is never left open -/

theorem parseHeaderLines_settles (lines : List Octets) (context : Context) :
    (parseHeaderLines lines context).1.1 ≠ .moreDataRequired := by
  induction lines generalizing context with
  | nil => exact nofun
  | cons header headers ih =>
    have hheader := parseHeader_settles header context
    rw [parseHeaderLines]
    split
    · exact ih _
    · exact hheader

theorem parseLines_settles (lines : List Octets) (context : Context) :
    (parseLines lines context).1.1 ≠ .moreDataRequired := by
  cases lines with
  | nil => exact nofun
  | cons header headers =>
    have hrequest := parseMethodURIVersion_settles header context
    rw [parseLines]
    split
    · exact parseHeaderLines_settles headers _
    · exact hrequest

theorem parseFraming_settles (context : Context) :
    (parseFraming context).1.1 ≠ .moreDataRequired := by
  unfold parseFraming
  split_ifs
  · exact nofun
  · split
    · exact nofun
    · split <;> exact nofun

theorem parseHead_settles (posSentinel : Nat) (context : Context) :
    (parseHead posSentinel context).1.1 ≠ .moreDataRequired := by
  unfold parseHead
  split
  · exact nofun
  · exact nofun
  · rename_i lines _ _
    have hlines := parseLines_settles lines context
    split
    · rename_i context₁ _
      have hframing := parseFraming_settles context₁
      split
      · exact nofun
      · exact hframing
    · exact hlines

/-! ## Heads which are accepted -/

theorem parseHeaderLines_parsed {lines : List Octets}
    (h : parseHeaderLines lines context = ((.parsed, e), context')) :
    ∃ added : List (Octets × Octets),
      List.Forall₂ (fun line header => HeaderLine line header.1 header.2) lines added ∧
      ∃ headers : HeadersMap, headers.entries = context.headers.entries ++ added ∧
        context' = { context with headers := headers } := by
  induction lines generalizing context with
  | nil =>
    refine ⟨[], .nil, context.headers, (append_nil _).symm, ?_⟩
    exact (Prod.mk.inj h).2.symm
  | cons header lines ih =>
    rw [parseHeaderLines] at h
    split at h
    · rename_i e₁ context₁ hheader
      obtain ⟨name, value, hline, -, headers₁, hentries₁, rfl⟩ := parseHeader_parsed hheader
      obtain ⟨added, hlines, headers, hentries, rfl⟩ := ih h
      refine ⟨(name, value) :: added, .cons hline hlines, headers, ?_, rfl⟩
      rw [hentries, hentries₁, append_assoc]
      rfl
    · rename_i hfailed
      exact (hfailed e context' h).elim

/-- What the parser takes out of a head. -/
structure HeadFields where
  method : Octets
  uri : Octets
  headers : HeadersMap
  length : Nat

/-- The framing headers of a map, and the length of the body they give. -/
structure Framing (headers : HeadersMap) (length : Nat) : Prop where
  not_chunked : headers.findName transferEncoding = none
  length_eq : headers.findName contentLength = none ∧ length = 0 ∨
    ∃ header, headers.findName contentLength = some header ∧
      Str.lexicalCast header.2 = some length

/-- A head which is accepted, and what is taken out of it. -/
structure Head (head : Octets) (fields : HeadFields) : Prop where
  lines : ∃ line lines version, splitText crlf head = line :: lines ∧
    RequestLine line fields.method fields.uri version ∧
    List.Forall₂ (fun line header => HeaderLine line header.1 header.2) lines
      fields.headers.entries
  framing : Framing fields.headers fields.length

/-- The context of a fresh parser once it has parsed a head. -/
def headContext (posSentinel : Nat) (fields : HeadFields) (buffer : Octets) : Context :=
  { method := fields.method
    uri := fields.uri
    headers := fields.headers
    buffer := buffer
    headersParsed := true
    bodyBeginPos := posSentinel + sentinel.length
    expectedBodyLength := fields.length
    maxRequestLength := (posSentinel + sentinel.length + fields.length) % 2 ^ 64 }

theorem headContext_inj {fields fields' : HeadFields} {buffer : Octets}
    (h : headContext posSentinel fields buffer = headContext posSentinel fields' buffer) :
    fields = fields' := by
  have hmethod : fields.method = fields'.method := congrArg Context.method h
  have huri : fields.uri = fields'.uri := congrArg Context.uri h
  have hheaders : fields.headers = fields'.headers := congrArg Context.headers h
  have hlength : fields.length = fields'.length := congrArg Context.expectedBodyLength h
  cases fields
  cases fields'
  simp_all

theorem parseFraming_parsed (h : parseFraming context = ((.parsed, e), context')) :
    ∃ length, Framing context.headers length ∧
      context' = { context with expectedBodyLength := length } := by
  unfold parseFraming at h
  split_ifs at h with hchunked
  · simp [serverError] at h
  · have hnone := Option.not_isSome_iff_eq_none.mp hchunked
    cases hfind : context.headers.findName contentLength with
    | none =>
      rw [hfind] at h
      exact ⟨0, ⟨hnone, .inl ⟨hfind, rfl⟩⟩, (Prod.mk.inj h).2.symm⟩
    | some header =>
      rw [hfind] at h
      dsimp only at h
      cases hcast : Str.lexicalCast header.2 with
      | none =>
        rw [hcast] at h
        simp [serverError] at h
      | some length =>
        rw [hcast] at h
        exact ⟨length, ⟨hnone, .inr ⟨header, hfind, hcast⟩⟩, (Prod.mk.inj h).2.symm⟩

/-- A head is accepted when its lines and its framing headers are. -/
theorem parseHead_of_parsed {lines : List Octets} {context₁ context₂ : Context}
    {e₁ e₂ : Option Octets} (hle : posSentinel ≤ context.buffer.length)
    (hsplit : splitText crlf (context.buffer.take posSentinel) = lines)
    (hlines : parseLines lines context = ((.parsed, e₁), context₁))
    (hframing : parseFraming context₁ = ((.parsed, e₂), context₂)) :
    parseHead posSentinel context = (serverResult .parsed,
      { context₂ with
        headersParsed := true
        bodyBeginPos := posSentinel + sentinel.length
        maxRequestLength := (posSentinel + sentinel.length +
          context₂.expectedBodyLength) % 2 ^ 64 }) := by
  have hne := splitText_ne_nil crlf_ne_nil (context.buffer.take posSentinel)
  unfold parseHead
  rw [Str.splitString_eq crlf_ne_nil hle, hsplit]
  cases lines with
  | nil => exact absurd hsplit hne
  | cons line lines =>
    dsimp only
    rw [hlines]
    dsimp only
    rw [hframing]

theorem parseHead_parsed {buffer : Octets} (hle : posSentinel ≤ buffer.length)
    (h : parseHead posSentinel { buffer := buffer } = ((.parsed, e), context')) :
    ∃ fields, Head (buffer.take posSentinel) fields ∧
      context' = headContext posSentinel fields buffer := by
  unfold parseHead at h
  dsimp only at h
  rw [Str.splitString_eq crlf_ne_nil hle] at h
  cases hsplit : splitText crlf (buffer.take posSentinel) with
  | nil => exact absurd hsplit (splitText_ne_nil crlf_ne_nil _)
  | cons line lines =>
    rw [hsplit] at h
    dsimp only at h
    split at h
    · rename_i e₁ context₁ hlines
      split at h
      · rename_i e₂ context₂ hframing
        rw [parseLines] at hlines
        split at hlines
        · rename_i e₀ context₀ hrequest
          obtain ⟨method, uri, version, hline, rfl⟩ := parseMethodURIVersion_parsed hrequest
          obtain ⟨added, hadded, headers, hentries, rfl⟩ := parseHeaderLines_parsed hlines
          obtain ⟨length, hlength, rfl⟩ := parseFraming_parsed hframing
          have hheaders : headers.entries = added := hentries
          refine ⟨⟨method, uri, headers, length⟩, ⟨⟨line, lines, version, hsplit, hline, ?_⟩,
            hlength⟩, (Prod.mk.inj h).2.symm⟩
          show List.Forall₂ _ lines headers.entries
          rwa [hheaders]
        · rename_i hfailed
          exact (hfailed _ _ hlines).elim
      · rename_i hfailed
        exact (hfailed _ _ h).elim
    · rename_i hfailed
      exact (hfailed _ _ h).elim

/-! ## One answer -/

variable {fields : HeadFields} {buffer : Octets}

/-- The context of a parser which has the request. -/
def requestContext (posSentinel : Nat) (fields : HeadFields) (buffer : Octets) : Context :=
  { headContext posSentinel fields buffer with
    body := if fields.length > 0 then
        (buffer.drop (posSentinel + sentinel.length)).take fields.length
      else []
    parsed := true }

/-- The head at the front of a buffer, read and accepted. -/
structure HeadRead (buffer : Octets) (posSentinel : Nat) (fields : HeadFields) : Prop where
  sentinel : findText HttpHeader.sentinel buffer = some posSentinel
  head_size : posSentinel ≤ maxHeadersSize
  parseHead_eq : ∃ e, parseHead posSentinel { buffer := buffer } =
    ((.parsed, e), headContext posSentinel fields buffer)
  head : Head (buffer.take posSentinel) fields
  content_size : fields.length ≤ maxContentSize

theorem HeadRead.le_length (h : HeadRead buffer posSentinel fields) :
    posSentinel + HttpHeader.sentinel.length ≤ buffer.length :=
  findText_length_le h.sentinel HttpHeader.sentinel_ne_nil

theorem maxHeadersSize_eq : maxHeadersSize = 65536 := rfl

theorem maxContentSize_eq : maxContentSize = 1048576 := rfl

theorem HeadRead.maxRequestLength_eq (h : HeadRead buffer posSentinel fields) (b : Octets) :
    (headContext posSentinel fields b).maxRequestLength =
      posSentinel + HttpHeader.sentinel.length + fields.length := by
  have hhead := h.head_size
  have hcontent := h.content_size
  rw [maxHeadersSize_eq] at hhead
  rw [maxContentSize_eq] at hcontent
  have hlen := HttpHeader.length_sentinel
  exact Nat.mod_eq_of_lt (by omega)

/-- A head is read alike whatever follows it. -/
theorem HeadRead.congr {b : Octets} (h : HeadRead buffer posSentinel fields)
    (hfind : findText HttpHeader.sentinel b = some posSentinel)
    (htake : b.take posSentinel = buffer.take posSentinel) :
    HeadRead b posSentinel fields where
  sentinel := hfind
  head_size := h.head_size
  parseHead_eq := by
    have hle := h.le_length
    have hle' := findText_length_le hfind HttpHeader.sentinel_ne_nil
    have hb := parseHead_withBuffer
      (show posSentinel ≤ ({ buffer := buffer } : Context).buffer.length from
        Nat.le_trans (Nat.le_add_right _ _) hle)
      (show posSentinel ≤ b.length by omega) htake
    obtain ⟨e, heq⟩ := h.parseHead_eq
    rw [heq] at hb
    exact ⟨e, hb⟩
  head := by
    rw [htake]
    exact h.head
  content_size := h.content_size

theorem HeadRead.append (h : HeadRead buffer posSentinel fields) (rest : Octets) :
    HeadRead (buffer ++ rest) posSentinel fields := by
  have hle := h.le_length
  refine h.congr (findText_append_right HttpHeader.sentinel_ne_nil rest h.sentinel) ?_
  rw [take_append_of_le_length (by omega)]

theorem HeadRead.of_append {rest : Octets} (h : HeadRead (buffer ++ rest) posSentinel fields)
    (hlen : posSentinel + HttpHeader.sentinel.length ≤ buffer.length) :
    HeadRead buffer posSentinel fields := by
  have hfind := findText_take HttpHeader.sentinel_ne_nil h.sentinel buffer.length
  rw [take_left, if_pos hlen] at hfind
  refine h.congr hfind ?_
  rw [take_append_of_le_length (by omega)]

theorem HeadRead.unique {posSentinel' : Nat} {fields' : HeadFields}
    (h : HeadRead buffer posSentinel fields) (h' : HeadRead buffer posSentinel' fields') :
    posSentinel' = posSentinel ∧ fields' = fields := by
  have hpos : posSentinel' = posSentinel :=
    Option.some.inj (h'.sentinel.symm.trans h.sentinel)
  subst hpos
  obtain ⟨e, heq⟩ := h.parseHead_eq
  obtain ⟨e', heq'⟩ := h'.parseHead_eq
  exact ⟨rfl, headContext_inj (Prod.mk.inj (heq'.symm.trans heq)).2⟩

theorem parseBody_headContext (h : HeadRead buffer posSentinel fields) (b : Octets) :
    parseBody (headContext posSentinel fields b) =
      if b.length = posSentinel + sentinel.length + fields.length then
        (serverResult .parsed, requestContext posSentinel fields b)
      else if b.length < posSentinel + sentinel.length + fields.length then
        (serverResult .moreDataRequired, headContext posSentinel fields b)
      else
        (serverError (octets ("The HTTP body size is larger than the expected size provided in " ++
          "the Content-Length header: ") ++ Core.Uri.toDecimal fields.length),
          headContext posSentinel fields b) := by
  have hmax := h.maxRequestLength_eq b
  have hcontent : ¬ (headContext posSentinel fields b).expectedBodyLength > maxContentSize :=
    Nat.not_lt.mpr h.content_size
  have hbuffer : (headContext posSentinel fields b).buffer.length = b.length := rfl
  unfold parseBody
  rw [if_neg hcontent, hbuffer]
  by_cases heq : b.length = posSentinel + sentinel.length + fields.length
  · rw [if_pos heq, if_pos (heq.trans hmax.symm)]
    rfl
  · rw [if_neg heq, if_neg (fun h => heq (h.trans hmax))]
    by_cases hlt : b.length < posSentinel + sentinel.length + fields.length
    · rw [if_pos hlt, if_pos (hlt.trans_eq hmax.symm)]
    · rw [if_neg hlt, if_neg (fun h => hlt (h.trans_eq hmax))]
      rfl

theorem parseBuffer_of_none (hne : buffer ≠ [])
    (hnone : findText sentinel buffer = none) :
    parseBuffer { buffer := buffer } =
      (if buffer.length > maxHeadersSize then serverError (octets "HTTP header size too large")
        else if !isValidName (buffer.take 1) then serverError (octets "Non HTTP request")
        else serverResult .moreDataRequired, { buffer := buffer }) := by
  have hempty : (!buffer.isEmpty) = true := by simpa using hne
  unfold parseBuffer
  dsimp only
  rw [hnone, Option.getD_none, if_neg Bool.false_ne_true, hempty, Bool.true_and]
  split_ifs <;> rfl

theorem parseBuffer_of_headRead (h : HeadRead buffer posSentinel fields) :
    parseBuffer { buffer := buffer } = parseBody (headContext posSentinel fields buffer) := by
  unfold parseBuffer
  dsimp only
  rw [h.sentinel, Option.getD_some, if_neg Bool.false_ne_true,
    if_neg (Nat.not_lt.mpr h.head_size)]
  dsimp only
  obtain ⟨e, heq⟩ := h.parseHead_eq
  rw [heq]

/-- A head which lets the parser go on has been read. -/
theorem headRead_of_parseBuffer {result : HttpParserResult}
    (hsome : findText sentinel buffer = some posSentinel)
    (h : parseBuffer { buffer := buffer } = ((result, e), context'))
    (hresult : result ≠ .parsingError) : ∃ fields, HeadRead buffer posSentinel fields := by
  have hle := findText_length_le hsome sentinel_ne_nil
  unfold parseBuffer at h
  dsimp only at h
  rw [hsome, Option.getD_some, if_neg Bool.false_ne_true] at h
  by_cases hsize : posSentinel > maxHeadersSize
  · rw [if_pos hsize] at h
    exact absurd (Prod.mk.inj (Prod.mk.inj h).1).1.symm hresult
  · rw [if_neg hsize] at h
    dsimp only at h
    split at h
    · rename_i e₁ context₁ hhead
      obtain ⟨fields, hok, rfl⟩ := parseHead_parsed (by omega) hhead
      refine ⟨fields, hsome, Nat.le_of_not_lt hsize, ⟨e₁, hhead⟩, hok, ?_⟩
      by_contra hlarge
      have hcontent : (headContext posSentinel fields buffer).expectedBodyLength >
          maxContentSize := Nat.lt_of_not_le hlarge
      unfold parseBody at h
      rw [if_pos hcontent] at h
      exact hresult (Prod.mk.inj (Prod.mk.inj h).1).1.symm
    · rename_i hfailed
      have hcode := parseHead_settles posSentinel { buffer := buffer }
      rw [h] at hcode
      cases result with
      | parsingError => exact absurd rfl hresult
      | parsed => exact (hfailed e context' h).elim
      | moreDataRequired => exact absurd rfl hcode

/-! ## Runs -/

/-- A whole request, read and accepted. -/
structure RequestRead (buffer : Octets) (posSentinel : Nat) (fields : HeadFields) : Prop
    extends HeadRead buffer posSentinel fields where
  length_eq : buffer.length = posSentinel + HttpHeader.sentinel.length + fields.length
  size : buffer.length ≤ maxContentSize + maxHeadersSize

/-- Where a parser is which has asked for more after every chunk so far,
once it has been given `buffer`. -/
inductive Reading : Octets → Context → Prop
  | head {buffer : Octets} (h : findText sentinel buffer = none) :
      Reading buffer { buffer := buffer }
  | body {buffer : Octets} {posSentinel : Nat} {fields : HeadFields}
      (h : HeadRead buffer posSentinel fields) :
      Reading buffer (headContext posSentinel fields buffer)

theorem reading_nil : Reading [] {} := .head rfl

variable {chunk : Octets}

theorem Reading.parsed_eq (h : Reading buffer context) : context.parsed = false := by
  cases h with
  | head _ => rfl
  | body _ => rfl

theorem Reading.buffer_eq (h : Reading buffer context) : context.buffer = buffer := by
  cases h with
  | head _ => rfl
  | body _ => rfl

theorem Reading.parse_eq (h : Reading buffer context) (hne : chunk ≠ [])
    (hsize : (buffer ++ chunk).length ≤ maxContentSize + maxHeadersSize) :
    parse chunk context =
      let answer := parseBuffer (withBuffer (buffer ++ chunk) context)
      (.answered answer.1, answer.2) := by
  rw [length_append] at hsize
  unfold parse
  rw [h.parsed_eq, h.buffer_eq, if_neg Bool.false_ne_true, if_neg hne,
    if_neg (Nat.not_lt.mpr hsize), ← h.parsed_eq]
  rfl

/-- While the sentinel has not arrived the parser asks for more, unless
there is too much or the first octet begins no method. -/
theorem Reading.parse_of_none (h : Reading buffer context) (hne : chunk ≠ [])
    (hsize : (buffer ++ chunk).length ≤ maxContentSize + maxHeadersSize)
    (hnone : findText sentinel (buffer ++ chunk) = none) :
    parse chunk context =
      (.answered (if (buffer ++ chunk).length > maxHeadersSize then
          serverError (octets "HTTP header size too large")
        else if !isValidName ((buffer ++ chunk).take 1) then
          serverError (octets "Non HTTP request")
        else serverResult .moreDataRequired), { buffer := buffer ++ chunk }) := by
  rw [h.parse_eq hne hsize]
  cases h with
  | head _ =>
    show (let answer := parseBuffer { buffer := buffer ++ chunk }
      (Outcome.answered answer.1, answer.2)) = _
    rw [parseBuffer_of_none (by simp [hne]) hnone]
  | body hhead =>
    rw [(hhead.append chunk).sentinel] at hnone
    cases hnone

/-- With the head in the buffer the answer is that of the body. -/
theorem Reading.parse_of_headRead (h : Reading buffer context) (hne : chunk ≠ [])
    (hsize : (buffer ++ chunk).length ≤ maxContentSize + maxHeadersSize)
    (hhead : HeadRead (buffer ++ chunk) posSentinel fields) :
    parse chunk context =
      let answer := parseBody (headContext posSentinel fields (buffer ++ chunk))
      (.answered answer.1, answer.2) := by
  rw [h.parse_eq hne hsize]
  cases h with
  | head _ =>
    show (let answer := parseBuffer { buffer := buffer ++ chunk }
      (Outcome.answered answer.1, answer.2)) = _
    rw [parseBuffer_of_headRead hhead]
  | body hread =>
    obtain ⟨rfl, rfl⟩ := hhead.unique (hread.append chunk)
    rfl

theorem Reading.parse_answered (h : Reading buffer context) (hne : chunk ≠ []) :
    ∃ result, (parse chunk context).1 = .answered result := by
  unfold parse
  rw [h.parsed_eq, if_neg Bool.false_ne_true, if_neg hne]
  by_cases hsize : context.buffer.length + chunk.length > maxContentSize + maxHeadersSize
  · rw [if_pos hsize]
    exact ⟨_, rfl⟩
  · rw [if_neg hsize]
    exact ⟨_, rfl⟩

/-- An answer which is no failure is one to a head still incomplete, or
to one which was accepted. -/
theorem Reading.cases_of_answer {code : HttpParserResult} (h : Reading buffer context)
    (hanswer : parse chunk context = (.answered (code, e), context'))
    (hcode : code ≠ .parsingError) :
    chunk ≠ [] ∧ (buffer ++ chunk).length ≤ maxContentSize + maxHeadersSize ∧
      (findText sentinel (buffer ++ chunk) = none ∨
        ∃ posSentinel fields, HeadRead (buffer ++ chunk) posSentinel fields) := by
  have hfail : ∀ message, Outcome.answered (serverError message) ≠ .answered (code, e) := by
    intro message heq
    exact hcode (Prod.mk.inj (Outcome.answered.inj heq)).1.symm
  have hne : chunk ≠ [] := by
    intro hnil
    unfold parse at hanswer
    rw [h.parsed_eq, if_neg Bool.false_ne_true, if_pos hnil] at hanswer
    cases hanswer
  have hsize : (buffer ++ chunk).length ≤ maxContentSize + maxHeadersSize := by
    by_contra hlarge
    rw [length_append] at hlarge
    unfold parse at hanswer
    rw [h.parsed_eq, h.buffer_eq, if_neg Bool.false_ne_true, if_neg hne,
      if_pos (Nat.lt_of_not_le hlarge)] at hanswer
    exact hfail _ (Prod.mk.inj hanswer).1
  refine ⟨hne, hsize, ?_⟩
  cases hfind : findText sentinel (buffer ++ chunk) with
  | none => exact .inl rfl
  | some posSentinel =>
    refine .inr ⟨posSentinel, ?_⟩
    rw [h.parse_eq hne hsize] at hanswer
    cases h with
    | head _ =>
      refine headRead_of_parseBuffer hfind (?_ : _ = ((_, e), context')) hcode
      obtain ⟨hresult, hcontext⟩ := Prod.mk.inj hanswer
      exact Prod.ext (Outcome.answered.inj hresult) hcontext
    | body hread =>
      have happ := hread.append chunk
      cases (Option.some.inj (hfind.symm.trans happ.sentinel))
      exact ⟨_, happ⟩

theorem Reading.parse_moreData (h : Reading buffer context)
    (hanswer : parse chunk context = (.answered (.moreDataRequired, e), context')) :
    Reading (buffer ++ chunk) context' := by
  obtain ⟨hne, hsize, hnone | ⟨posSentinel, fields, hhead⟩⟩ :=
    h.cases_of_answer hanswer nofun
  · rw [h.parse_of_none hne hsize hnone] at hanswer
    rw [← (Prod.mk.inj hanswer).2]
    exact .head hnone
  · rw [h.parse_of_headRead hne hsize hhead, parseBody_headContext hhead] at hanswer
    dsimp only at hanswer
    split_ifs at hanswer
    · cases hanswer
    · rw [← (Prod.mk.inj hanswer).2]
      exact .body hhead
    · cases hanswer

theorem Reading.parse_parsed (h : Reading buffer context)
    (hanswer : parse chunk context = (.answered (.parsed, e), context')) :
    ∃ posSentinel fields, RequestRead (buffer ++ chunk) posSentinel fields ∧
      context' = requestContext posSentinel fields (buffer ++ chunk) := by
  obtain ⟨hne, hsize, hnone | ⟨posSentinel, fields, hhead⟩⟩ :=
    h.cases_of_answer hanswer nofun
  · rw [h.parse_of_none hne hsize hnone] at hanswer
    split_ifs at hanswer <;> cases hanswer
  · rw [h.parse_of_headRead hne hsize hhead, parseBody_headContext hhead] at hanswer
    dsimp only at hanswer
    split_ifs at hanswer with hlength
    · exact ⟨posSentinel, fields, ⟨hhead, hlength, hsize⟩, (Prod.mk.inj hanswer).2.symm⟩
    · cases hanswer
    · cases hanswer

/-- The answers to the chunks of a request: more is asked for until the
last one. -/
def answers : Nat → List Outcome
  | 0 => []
  | 1 => [.answered (serverResult .parsed)]
  | n + 2 => .answered (serverResult .moreDataRequired) :: answers (n + 1)

/-- Chunks after each of which the parser asks for more. -/
theorem Reading.feed_moreData {chunks : List Octets} (h : Reading buffer context)
    (hmore : ∀ outcome ∈ (feed chunks context).1,
      outcome = .answered (serverResult .moreDataRequired)) :
    Reading (buffer ++ chunks.flatten) (feed chunks context).2 := by
  induction chunks generalizing buffer context with
  | nil =>
    rwa [flatten_nil, append_nil]
  | cons chunk rest ih =>
    have hanswer : parse chunk context =
        (.answered (.moreDataRequired, none), (parse chunk context).2) :=
      Prod.ext (hmore _ mem_cons_self) rfl
    rw [flatten_cons, ← append_assoc]
    exact ih (h.parse_moreData hanswer) fun outcome hmem =>
      hmore outcome (mem_cons_of_mem _ hmem)

/-- The chunks are the whole of a request, and the parser has it. -/
theorem Reading.feed_answers {chunks : List Octets} (hchunks : chunks ≠ [])
    (h : Reading buffer context) (hfeed : (feed chunks context).1 = answers chunks.length) :
    ∃ posSentinel fields, RequestRead (buffer ++ chunks.flatten) posSentinel fields ∧
      (feed chunks context).2 =
        requestContext posSentinel fields (buffer ++ chunks.flatten) := by
  induction chunks generalizing buffer context with
  | nil => exact absurd rfl hchunks
  | cons chunk rest ih =>
    cases rest with
    | nil =>
      have hanswer : parse chunk context =
          (.answered (.parsed, none), (parse chunk context).2) :=
        Prod.ext (List.cons.inj hfeed).1 rfl
      rw [flatten_singleton]
      exact h.parse_parsed hanswer
    | cons chunk' rest =>
      have hanswer : parse chunk context =
          (.answered (.moreDataRequired, none), (parse chunk context).2) :=
        Prod.ext (List.cons.inj hfeed).1 rfl
      have hrest := ih (cons_ne_nil _ _) (h.parse_moreData hanswer)
        (List.cons.inj hfeed).2
      rwa [append_assoc, ← flatten_cons] at hrest

end Parser

end Baselib.HttpServer
