/-
Baselib.Http.RequestRoundTrip — the request of the client, read by the
parser of the server.

A request is its request line, one line for each header, the empty line and
the body. The server takes the names in lower case and refuses a name which
comes twice, so the headers the client adds of its own must not meet those
of the caller.
-/
import Baselib.Http.SimpleHttpTask
import Baselib.HttpServer.ParserAcceptance
import Baselib.HttpServer.ResponseTheorems

namespace Baselib.Http.SimpleHttpTask

open Lib List
open Baselib.Core (Str.trim Str.isSpace Str.lexicalCast Str.iequals)
open Core.Uri (toDecimal toLowerCopy)
open HttpServer HttpServer.ParserHelpers HttpServer.Parser
open HttpHeader

variable {task : SimpleHttpTask} {headers : HeadersMap}

/-! ## The lines of a request -/

/-- A header as it is written: what stands before the colon and after it. -/
def headerLine (header : Octets × Octets) : Octets :=
  header.1 ++ nameSeparator :: header.2

def requestLine (task : SimpleHttpTask) : Octets :=
  [space].intercalate [task.action, task.path, httpVersion1_0]

/-- The headers the client writes before those of the caller. -/
def leadingHeaders (task : SimpleHttpTask) : List (Octets × Octets) :=
  (octets "Host", space :: task.hostName) ::
    ((if task.userAgent = [] then []
      else [(octets "User-Agent", space :: task.userAgent)]) ++
    [(octets "Accept", octets " */*"), (octets "Connection", octets " close")])

/-- The header it writes after them. -/
def trailingHeaders (task : SimpleHttpTask) : List (Octets × Octets) :=
  if task.contentIn = [] then []
  else [(octets "Content-Length", space :: toDecimal task.contentIn.length)]

def writtenHeaders (task : SimpleHttpTask) : List (Octets × Octets) :=
  leadingHeaders task ++ task.requestHeaders ++ trailingHeaders task

def head (task : SimpleHttpTask) : Octets :=
  crlf.intercalate (requestLine task :: (writtenHeaders task).map headerLine)

theorem intercalate_cons_eq (sep line : Octets) (lines : List Octets) :
    sep.intercalate (line :: lines) = line ++ lines.flatMap (sep ++ ·) := by
  induction lines generalizing line with
  | nil => simp
  | cons l lines ih =>
    rw [intercalate_cons_cons, ih, flatMap_cons, append_assoc, append_assoc]

theorem initRequest_eq (task : SimpleHttpTask) :
    initRequest task = head task ++ sentinel ++ task.contentIn := by
  have hline : requestLine task =
      task.action ++ octets " " ++ task.path ++ octets " HTTP/1.0" := by
    have hversion : octets " HTTP/1.0" = space :: httpVersion1_0 := rfl
    have hspace : octets " " = [space] := rfl
    rw [requestLine, hversion, hspace]
    simp
  have hhost : octets " HTTP/1.0\r\nHost: " = octets " HTTP/1.0" ++ crlf ++ octets "Host" ++
      [nameSeparator, space] := rfl
  have hagent : octets "\r\nUser-Agent: " =
      crlf ++ octets "User-Agent" ++ [nameSeparator, space] := rfl
  have haccept : octets "\r\nAccept: */*\r\nConnection: close" =
      crlf ++ (octets "Accept" ++ nameSeparator :: octets " */*") ++
        crlf ++ (octets "Connection" ++ nameSeparator :: octets " close") := rfl
  have hlength : octets "\r\nContent-Length: " =
      crlf ++ octets "Content-Length" ++ [nameSeparator, space] := rfl
  have hcrlf : octets "\r\n" = crlf := rfl
  have hsentinel : octets "\r\n\r\n" = sentinel := rfl
  have hcaller : (task.requestHeaders.map headerLine).flatMap (crlf ++ ·) =
      task.requestHeaders.flatMap fun header =>
        crlf ++ header.1 ++ [nameSeparator] ++ header.2 := by
    rw [flatMap_map]
    exact congrArg task.requestHeaders.flatMap (funext fun header => by simp [headerLine])
  rw [head, intercalate_cons_eq, hline, initRequest, hhost, hagent, haccept, hlength, hcrlf,
    hsentinel, writtenHeaders, leadingHeaders, trailingHeaders, map_append, map_append,
    flatMap_append, flatMap_append, hcaller]
  split_ifs <;>
    simp only [headerLine, map_cons, map_nil, flatMap_cons, flatMap_nil,
      nil_append, append_nil, cons_append, append_assoc]

/-! ## Requests which may be sent -/

/-- What the caller gives the client, and the host and the agent of the task. -/
structure Valid (task : SimpleHttpTask) : Prop where
  action : isValidName task.action
  path_ne_nil : task.path ≠ []
  path : ∀ ch ∈ task.path, Str.isSpace ch = false ∧ isCtl ch = false
  path_length : task.path.length ≤ maxUriSize
  hostName : isValidValue task.hostName
  userAgent : isValidValue task.userAgent
  names : ∀ header ∈ task.requestHeaders, isValidName header.1
  values : ∀ header ∈ task.requestHeaders,
    isValidValue header.2 ∧ Str.trim header.2 = header.2
  distinct : (task.requestHeaders.map fun header => toLowerCopy header.1).Nodup

/-- The size limits of the server. -/
structure WithinLimits (task : SimpleHttpTask) : Prop where
  head : (head task).length ≤ maxHeadersSize
  content : task.contentIn.length ≤ maxContentSize
  request : (initRequest task).length ≤ maxContentSize + maxHeadersSize

/-- The entry of a header in the map of the server. -/
def entryOf (header : Octets × Octets) : Octets × Octets :=
  (toLowerCopy header.1, Str.trim header.2)

theorem isValidValue_trim {text : Octets} (h : isValidValue text) :
    isValidValue (Str.trim text) := by
  obtain ⟨l, r, hsplit, -⟩ := Core.Str.trim_split text
  refine isValidValue_iff.mpr fun ch hch => isValidValue_iff.mp h ch ?_
  rw [hsplit]
  exact mem_append_left _ (mem_append_right _ hch)

theorem isValidValue_space_cons {text : Octets} (h : isValidValue text) :
    isValidValue (space :: text) := by
  refine isValidValue_iff.mpr fun ch hch => ?_
  obtain rfl | hch := mem_cons.mp hch
  · exact .inr (by decide)
  · exact isValidValue_iff.mp h ch hch

theorem isValidValue_toDecimal (n : Nat) : isValidValue (toDecimal n) := by
  have hdigit : ∀ ch : UInt8, Core.Uri.isDigit ch → isChar ch ∧ ¬isCtl ch := by decide +kernel
  refine isValidValue_iff.mpr fun ch hch => .inr (hdigit ch ?_)
  exact all_eq_true.mp (Core.Uri.toDecimal_spec n).2.1 ch hch

/-- Every header which is written has a name and a value of the grammar. -/
theorem Valid.writtenHeaders (h : Valid task) {header : Octets × Octets}
    (hmem : header ∈ writtenHeaders task) : isValidName header.1 ∧ isValidValue header.2 := by
  rw [SimpleHttpTask.writtenHeaders, mem_append, mem_append] at hmem
  obtain (hleading | hcaller) | htrailing := hmem
  · rw [leadingHeaders, mem_cons, mem_append] at hleading
    obtain rfl | hagent | hfixed := hleading
    · exact ⟨(by decide : isValidName (octets "Host")), isValidValue_space_cons h.hostName⟩
    · split at hagent
      · cases hagent
      · obtain rfl := mem_singleton.mp hagent
        exact ⟨(by decide : isValidName (octets "User-Agent")),
          isValidValue_space_cons h.userAgent⟩
    · simp only [mem_cons, not_mem_nil, or_false] at hfixed
      obtain rfl | rfl := hfixed <;> decide
  · exact ⟨h.names header hcaller, (h.values header hcaller).1⟩
  · rw [trailingHeaders] at htrailing
    split at htrailing
    · cases htrailing
    · obtain rfl := mem_singleton.mp htrailing
      exact ⟨(by decide : isValidName (octets "Content-Length")),
        isValidValue_space_cons (isValidValue_toDecimal _)⟩

theorem headerLine_iff {header : Octets × Octets} (hname : isValidName header.1)
    (hvalue : isValidValue header.2) {name value : Octets} :
    HeaderLine (headerLine header) name value ↔ (name, value) = entryOf header := by
  have hcolon := nameSeparator_notMem_of_isValidName hname
  constructor
  · intro h
    obtain ⟨n, v, hline, -, hn, rfl, rfl⟩ := h.line
    obtain ⟨hheader, hrest⟩ := (append_cons_inj hcolon hn).mp hline
    rw [entryOf, hheader, hrest]
  · intro h
    cases h
    exact ⟨⟨header.1, header.2, rfl, hname, hcolon, rfl, rfl⟩, isValidValue_trim hvalue⟩

theorem lf_notMem_of_isValidValue {value : Octets} (h : isValidValue value) :
    '\n'.toUInt8 ∉ value := by
  intro hmem
  cases isValidValue_iff.mp h _ hmem with
  | inl htab => exact absurd htab (by decide)
  | inr hchar => exact absurd hchar.2 (by decide)

theorem oneLine_headerLine {header : Octets × Octets} (hname : isValidName header.1)
    (hvalue : isValidValue header.2) : OneLine (headerLine header) := by
  refine .of_lf fun hmem => ?_
  rw [headerLine, mem_append, mem_cons] at hmem
  obtain hmem | hmem | hmem := hmem
  · exact not_isCtl_of_isValidName hname hmem (by decide)
  · exact absurd hmem (by decide)
  · exact lf_notMem_of_isValidValue hvalue hmem

theorem Valid.requestLine (h : Valid task) : OneLine (requestLine task) := by
  refine .of_lf fun hmem => ?_
  simp only [SimpleHttpTask.requestLine, intercalate_cons_cons, intercalate_singleton,
    mem_append, mem_singleton] at hmem
  obtain (hmem | hmem) | (hmem | hmem) | hmem := hmem
  · exact not_isCtl_of_isValidName h.action hmem (by decide)
  · exact absurd hmem (by decide)
  · exact absurd (h.path _ hmem).2 (by decide)
  · exact absurd hmem (by decide)
  · exact absurd hmem (by decide)

theorem Valid.elements (h : Valid task) : (SimpleHttpTask.requestLine task).splitOn
    space = [task.action, task.path, httpVersion1_0] := by
  refine splitOn_intercalate _ (fun l hl hmem => ?_) (cons_ne_nil _ _)
  simp only [mem_cons, not_mem_nil, or_false] at hl
  obtain rfl | rfl | rfl := hl
  · exact absurd (not_isSpace_of_isValidName h.action hmem) (by decide)
  · exact absurd (h.path _ hmem).1 (by decide)
  · exact absurd hmem (by decide)

theorem Valid.lines (h : Valid task) :
    ∀ l ∈ (SimpleHttpTask.writtenHeaders task).map headerLine, OneLine l ∧ l ≠ [] := by
  intro l hl
  obtain ⟨header, hmem, rfl⟩ := mem_map.mp hl
  obtain ⟨hname, hvalue⟩ := h.writtenHeaders hmem
  exact ⟨oneLine_headerLine hname hvalue, by simp [headerLine]⟩

theorem Valid.splitText_head (h : Valid task) : splitText crlf (head task) =
    SimpleHttpTask.requestLine task :: (SimpleHttpTask.writtenHeaders task).map headerLine := by
  refine splitText_intercalate crlf_ne_nil (cons_ne_nil _ _) ?_
  exact forall_mem_cons.mpr ⟨h.requestLine.append_cr, fun l hl => (h.lines l hl).1.append_cr⟩

theorem Valid.findText_sentinel (h : Valid task) :
    findText sentinel (initRequest task) = some (head task).length := by
  rw [initRequest_eq]
  exact findText_sentinel_lines task.contentIn h.requestLine h.lines

/-! ## The head the server reads -/

theorem forall₂_headerLine {written : List (Octets × Octets)}
    (h : ∀ header ∈ written, isValidName header.1 ∧ isValidValue header.2)
    {entries : List (Octets × Octets)} :
    List.Forall₂ (fun line header => HeaderLine line header.1 header.2)
      (written.map headerLine) entries ↔ entries = written.map entryOf := by
  induction written generalizing entries with
  | nil => exact forall₂_nil_left_iff
  | cons header written ih =>
    obtain ⟨hname, hvalue⟩ := h header mem_cons_self
    have ih := fun entries => @ih (fun header hmem => h header (mem_cons_of_mem _ hmem)) entries
    rw [map_cons, forall₂_cons_left_iff, map_cons]
    constructor
    · rintro ⟨entry, entries, hline, hrest, rfl⟩
      rw [(ih entries).mp hrest, ← (headerLine_iff hname hvalue).mp hline]
    · rintro rfl
      exact ⟨_, _, (headerLine_iff hname hvalue).mpr rfl, (ih _).mpr rfl, rfl⟩

theorem Valid.head_iff (h : Valid task) {fields : HeadFields} :
    Head (head task) fields ↔ fields.method = task.action ∧ fields.uri = task.path ∧
      isValidValue task.path ∧
      fields.headers.entries = (SimpleHttpTask.writtenHeaders task).map entryOf ∧
      Framing fields.headers fields.length := by
  have hentries := fun entries => @forall₂_headerLine (SimpleHttpTask.writtenHeaders task)
    (fun _ hmem => h.writtenHeaders hmem) entries
  constructor
  · intro hhead
    obtain ⟨line, lines, version, hsplit, hrequest, hheaders⟩ := hhead.lines
    obtain ⟨rfl, rfl⟩ := List.cons.inj (hsplit.symm.trans h.splitText_head)
    have helements := hrequest.elements.symm.trans h.elements
    simp only [List.cons.injEq, and_true] at helements
    obtain ⟨hmethod, huri, -⟩ := helements
    exact ⟨hmethod, huri, huri ▸ hrequest.uri_valid, (hentries _).mp hheaders, hhead.framing⟩
  · rintro ⟨hmethod, huri, hpath, hheaders, hframing⟩
    refine ⟨⟨_, _, _, h.splitText_head, ⟨?_, ?_, ?_, ?_, .inr rfl⟩, (hentries _).mpr hheaders⟩,
      hframing⟩
    · rw [hmethod, huri]
      exact h.elements
    · rw [hmethod]
      exact h.action
    · rwa [huri]
    · rw [huri]
      exact h.path_length

/-- The server takes the request and has of it what the caller gave. -/
def Understood (task : SimpleHttpTask) : Prop :=
  ∃ context request,
    parse (initRequest task) {} = (.answered (serverResult .parsed), context) ∧
      buildRequest context = .ok request ∧ request.method = task.action ∧
      request.uri = task.path ∧ request.body = task.contentIn ∧
      ∀ header ∈ task.requestHeaders,
        (toLowerCopy header.1, header.2) ∈ request.headers.entries

theorem take_head (task : SimpleHttpTask) :
    (initRequest task).take (head task).length = head task := by
  rw [initRequest_eq, append_assoc, take_left]

theorem length_initRequest (task : SimpleHttpTask) : (initRequest task).length =
    (head task).length + sentinel.length + task.contentIn.length := by
  rw [initRequest_eq, length_append, length_append]

theorem Valid.understood_iff (h : Valid task) (hlimits : WithinLimits task) :
    Understood task ↔
      ∃ fields, Head (head task) fields ∧ fields.length = task.contentIn.length := by
  constructor
  · rintro ⟨context, request, hparse, -⟩
    obtain ⟨posSentinel, fields, hread, -⟩ := reading_nil.parse_parsed hparse
    rw [nil_append] at hread
    obtain rfl := Option.some.inj (hread.sentinel.symm.trans h.findText_sentinel)
    have hhead := hread.head
    rw [take_head] at hhead
    have hlength := hread.length_eq
    rw [length_initRequest] at hlength
    exact ⟨fields, hhead, by omega⟩
  · rintro ⟨fields, hhead, hlength⟩
    obtain ⟨hmethod, huri, -, hentries, -⟩ := h.head_iff.mp hhead
    have hne : fields.uri ≠ [] := by
      rw [huri]
      exact h.path_ne_nil
    have hread : RequestRead (initRequest task) (head task).length fields := by
      refine ⟨headRead_of h.findText_sentinel hlimits.head ?_ hne ?_, ?_, hlimits.request⟩
      · rwa [take_head]
      · rw [hlength]
        exact hlimits.content
      · rw [length_initRequest, hlength]
    have hstarted : initRequest task ≠ [] := by
      intro hnil
      have hzero := length_initRequest task
      rw [hnil, length_nil] at hzero
      have hpos : sentinel.length = 4 := rfl
      omega
    have hparse := reading_nil.parse_last hstarted hread
    rw [nil_append] at hparse
    obtain ⟨request, hrequest, hsplit, -⟩ := hread.body_eq
    have hbody : request.body = task.contentIn := by
      rw [hread.messageHead_eq, take_head] at hsplit
      exact (append_cancel_left ((initRequest_eq task).symm.trans hsplit)).symm
    obtain rfl := Except.ok.inj hrequest
    refine ⟨_, _, hparse, hrequest, hmethod, huri, hbody, fun header hmem => ?_⟩
    have hentry : entryOf header ∈ (SimpleHttpTask.writtenHeaders task).map entryOf :=
      mem_map_of_mem (mem_append_left _ (mem_append_right _ hmem))
    rwa [← hentries, entryOf, (h.values header hmem).2] at hentry

/-! ## The headers of the client and of the caller -/

/-- No name of the caller is one the client writes itself. -/
def NoOverlap (task : SimpleHttpTask) : Prop :=
  ∀ header ∈ task.requestHeaders, ∀ own ∈ leadingHeaders task ++ trailingHeaders task,
    Str.iequals header.1 own.1 = false

/-- What the server asks of a request beyond the form of its parts. -/
structure Compatible (task : SimpleHttpTask) : Prop where
  path : ∀ ch ∈ task.path, isChar ch
  transferEncoding : ∀ header ∈ task.requestHeaders,
    Str.iequals header.1 transferEncoding = false
  contentLength : task.contentIn = [] → ∀ header ∈ task.requestHeaders,
    Str.iequals header.1 contentLength = true → Str.lexicalCast header.2 = some 0

theorem iequals_eq_false {a b : Octets} :
    Str.iequals a b = false ↔ toLowerCopy a ≠ toLowerCopy b := by
  rw [Str.iequals, beq_eq_false_iff_ne]

theorem ownNames_nodup (task : SimpleHttpTask) :
    ((leadingHeaders task ++ trailingHeaders task).map fun own => toLowerCopy own.1).Nodup := by
  rw [leadingHeaders, trailingHeaders]
  split_ifs <;>
    simp only [nil_append, append_nil, cons_append, map_cons, map_nil] <;>
    decide

theorem keys_perm (task : SimpleHttpTask) :
    (((writtenHeaders task).map entryOf).map Prod.fst).Perm
      (((leadingHeaders task ++ trailingHeaders task).map fun own => toLowerCopy own.1) ++
        task.requestHeaders.map fun header => toLowerCopy header.1) := by
  rw [List.map_map, writtenHeaders, append_assoc, map_append, map_append,
    map_append, append_assoc]
  exact (perm_append_comm).append_left _

theorem Valid.nodup_iff (h : Valid task) :
    (((SimpleHttpTask.writtenHeaders task).map entryOf).map Prod.fst).Nodup ↔ NoOverlap task := by
  rw [(keys_perm task).nodup_iff, nodup_append]
  constructor
  · rintro ⟨-, -, hdisjoint⟩ header hmem own hown
    refine iequals_eq_false.mpr fun heq => hdisjoint _ (mem_map_of_mem hown) _
      (mem_map_of_mem hmem) heq.symm
  · intro hown
    refine ⟨ownNames_nodup task, h.distinct, fun a ha b hb heq => ?_⟩
    obtain ⟨own, hmem, rfl⟩ := mem_map.mp ha
    obtain ⟨header, hheader, rfl⟩ := mem_map.mp hb
    exact iequals_eq_false.mp (hown header hheader own hmem) heq.symm

theorem findName_eq_none {name : Octets} : headers.findName name = none ↔
      ∀ entry ∈ headers.entries, Str.iequals entry.1 name = false := by
  rw [HeadersMap.findName, find?_eq_none]
  exact forall₂_congr fun _ _ => Bool.not_eq_true _ ▸ Iff.rfl

theorem mem_entries_iff
    (hentries : headers.entries = (writtenHeaders task).map entryOf) {P : Octets × Octets → Prop} :
    (∀ entry ∈ headers.entries, P entry) ↔
      (∀ own ∈ leadingHeaders task ++ trailingHeaders task, P (entryOf own)) ∧
        ∀ header ∈ task.requestHeaders, P (entryOf header) := by
  rw [hentries, writtenHeaders]
  simp only [map_append, mem_append, mem_map]
  constructor
  · intro h
    refine ⟨fun own hown => h _ ?_, fun header hmem => h _ (.inl (.inr ⟨header, hmem, rfl⟩))⟩
    exact hown.elim (fun hown => .inl (.inl ⟨own, hown, rfl⟩)) fun hown => .inr ⟨own, hown, rfl⟩
  · rintro ⟨hown, hcaller⟩ entry ((⟨own, hmem, rfl⟩ | ⟨header, hmem, rfl⟩) | ⟨own, hmem, rfl⟩)
    · exact hown own (.inl hmem)
    · exact hcaller header hmem
    · exact hown own (.inr hmem)

theorem iequals_entryOf (header : Octets × Octets) (name : Octets) :
    Str.iequals (entryOf header).1 name = Str.iequals header.1 name :=
  iequals_toLowerCopy header.1 name

theorem own_cases {own : Octets × Octets}
    (hown : own ∈ leadingHeaders task ++ trailingHeaders task) :
    own.1 ∈ [octets "Host", octets "User-Agent", octets "Accept", octets "Connection"] ∨
      task.contentIn ≠ [] ∧
        own = (octets "Content-Length", space :: toDecimal task.contentIn.length) := by
  rw [mem_append, leadingHeaders, mem_cons, mem_append] at hown
  obtain (rfl | hagent | hfixed) | htrailing := hown
  · exact .inl mem_cons_self
  · split at hagent
    · cases hagent
    · obtain rfl := mem_singleton.mp hagent
      exact .inl (mem_cons_of_mem _ mem_cons_self)
  · simp only [mem_cons, not_mem_nil, or_false] at hfixed
    obtain rfl | rfl := hfixed <;> exact .inl (by decide)
  · rw [trailingHeaders] at htrailing
    split at htrailing
    · cases htrailing
    next hne => exact .inr ⟨hne, mem_singleton.mp htrailing⟩

theorem own_not_chunked {own : Octets × Octets}
    (hown : own ∈ leadingHeaders task ++ trailingHeaders task) :
    Str.iequals own.1 transferEncoding = false := by
  obtain hname | ⟨-, rfl⟩ := own_cases hown
  · revert hname
    generalize own.1 = name
    revert name
    decide
  · exact (by decide :
      Str.iequals (octets "Content-Length") transferEncoding = false)

/-- The `Content-Length` of the client, when it writes one. -/
theorem own_contentLength {own : Octets × Octets}
    (hown : own ∈ leadingHeaders task ++ trailingHeaders task)
    (hname : Str.iequals own.1 contentLength = true) :
    task.contentIn ≠ [] ∧
      own = (octets "Content-Length", space :: toDecimal task.contentIn.length) := by
  obtain hfixed | hown := own_cases hown
  · exfalso
    revert hname
    revert hfixed
    generalize own.1 = name
    revert name
    decide
  · exact hown

theorem trim_toDecimal (n : Nat) : Str.trim (space :: toDecimal n) = toDecimal n := by
  have hcut := headerValue_contentLength n
  rwa [headerValue, headerText, Response.headerLine, append_assoc] at hcut

theorem lexicalCast_toDecimal {n : Nat} (hn : n < 2 ^ 64) :
    Str.lexicalCast (toDecimal n) = some n := by
  obtain ⟨hne, hall, hvalue⟩ := Core.Uri.toDecimal_spec n
  have hsign : ∀ ch : UInt8, Core.Uri.isDigit ch → ch ≠ '+'.toUInt8 ∧ ch ≠ '-'.toUInt8 := by
    decide +kernel
  rw [Core.Str.lexicalCast_of_unsigned fun ch hch =>
    hsign ch (all_eq_true.mp hall ch (mem_of_head? hch))]
  have hdigits : Core.Uri.digitsValue (toDecimal n) = n := hvalue
  refine Core.Str.unsignedDigits_eq_some.mpr ⟨hne, hall, ?_, hdigits⟩
  rwa [hdigits]

theorem findName_eq_some {name : Octets} {entry : Octets × Octets}
    (h : headers.findName name = some entry) :
    entry ∈ headers.entries ∧ Str.iequals entry.1 name = true :=
  ⟨mem_of_find?_eq_some h,
    find?_some (p := fun header : Octets × Octets => Str.iequals header.1 name) h⟩

theorem iequals_eq_true {a b : Octets} :
    Str.iequals a b = true ↔ toLowerCopy a = toLowerCopy b := by
  rw [Str.iequals, beq_iff_eq]

theorem key_of_iequals
    (hentries : headers.entries = (writtenHeaders task).map entryOf) {name : Octets} :
    ∀ entry ∈ headers.entries, Str.iequals entry.1 name = true → entry.1 = toLowerCopy name := by
  have hkey : ∀ header : Octets × Octets, Str.iequals (entryOf header).1 name = true →
      (entryOf header).1 = toLowerCopy name := fun header h =>
    iequals_eq_true.mp ((iequals_entryOf header name).symm.trans h)
  exact (mem_entries_iff hentries).mpr ⟨fun own _ => hkey own, fun header _ => hkey header⟩

/-- The length the server finds is the one the client has written. -/
theorem findName_contentLength
    (hentries : headers.entries = (writtenHeaders task).map entryOf) (hown : NoOverlap task)
    (hbody : task.contentIn ≠ []) :
    headers.findName contentLength =
      some (octets "content-length", toDecimal task.contentIn.length) := by
  have htrailing : (octets "Content-Length", space :: toDecimal task.contentIn.length) ∈
      leadingHeaders task ++ trailingHeaders task := by
    rw [trailingHeaders, if_neg hbody]
    exact mem_append_right _ mem_cons_self
  have hsame : Str.iequals (octets "Content-Length") contentLength = true := by decide
  cases hfind : headers.findName contentLength with
  | none =>
    have hnone := ((mem_entries_iff hentries).mp (findName_eq_none.mp hfind)).1 _ htrailing
    rw [iequals_entryOf] at hnone
    cases hsame.symm.trans hnone
  | some entry =>
    obtain ⟨hmem, hname⟩ := findName_eq_some hfind
    have hall : ∀ entry ∈ headers.entries,
        Str.iequals entry.1 contentLength = true →
          entry = (octets "content-length", toDecimal task.contentIn.length) := by
      refine (mem_entries_iff hentries).mpr ⟨fun own hmem hname => ?_, fun header hmem hname => ?_⟩
      · rw [iequals_entryOf] at hname
        obtain ⟨-, rfl⟩ := own_contentLength hmem hname
        exact Prod.ext rfl (trim_toDecimal _)
      · rw [iequals_entryOf] at hname
        cases (hown header hmem _ htrailing).symm.trans hname
    rw [hall entry hmem hname]

theorem Valid.framing_compatible (h : Valid task) (hlimits : WithinLimits task) (hown : NoOverlap task)
    (hentries : headers.entries = (SimpleHttpTask.writtenHeaders task).map entryOf) :
    Framing headers task.contentIn.length ↔
      (∀ header ∈ task.requestHeaders,
        Str.iequals header.1 transferEncoding = false) ∧
      (task.contentIn = [] → ∀ header ∈ task.requestHeaders,
        Str.iequals header.1 contentLength = true →
          Str.lexicalCast header.2 = some 0) := by
  have hchunked : headers.findName transferEncoding = none ↔
      ∀ header ∈ task.requestHeaders,
        Str.iequals header.1 transferEncoding = false := by
    rw [findName_eq_none, mem_entries_iff hentries]
    simp only [iequals_entryOf]
    exact and_iff_right fun own hmem => own_not_chunked hmem
  by_cases hbody : task.contentIn = []
  · have hmem : ∀ header ∈ task.requestHeaders, entryOf header ∈ headers.entries := fun header =>
      ((mem_entries_iff hentries).mp fun _ hentry => hentry).2 header
    have hvalue : ∀ header ∈ task.requestHeaders, (entryOf header).2 = header.2 :=
      fun header hheader => (h.values header hheader).2
    have hzero : task.contentIn.length = 0 := congrArg List.length hbody
    rw [hzero]
    constructor
    · intro hframing
      refine ⟨hchunked.mp hframing.not_chunked, fun _ header hheader hname => ?_⟩
      rw [← iequals_entryOf] at hname
      obtain ⟨hnone, -⟩ | ⟨entry, hsome, hcast⟩ := hframing.length_eq
      · simp [findName_eq_none.mp hnone _ (hmem header hheader)] at hname
      · obtain ⟨hentry, hentryName⟩ := findName_eq_some hsome
        have hkey : entry.1 = (entryOf header).1 :=
          (key_of_iequals hentries entry hentry hentryName).trans
            (key_of_iequals hentries _ (hmem header hheader) hname).symm
        have heq : entry = entryOf header :=
          inj_on_of_nodup_map headers.nodup hentry (hmem header hheader) hkey
        rwa [heq, hvalue header hheader] at hcast
    · rintro ⟨hte, hlength⟩
      refine ⟨hchunked.mpr hte, ?_⟩
      cases hfind : headers.findName contentLength with
      | none => exact .inl ⟨rfl, rfl⟩
      | some entry =>
        obtain ⟨hentry, hname⟩ := findName_eq_some hfind
        refine .inr ⟨entry, rfl, ?_⟩
        have hall : ∀ entry ∈ headers.entries,
            Str.iequals entry.1 contentLength = true →
              Str.lexicalCast entry.2 = some 0 := by
          refine (mem_entries_iff hentries).mpr
            ⟨fun own hmem hname => ?_, fun header hheader hname => ?_⟩
          · rw [iequals_entryOf] at hname
            exact absurd hbody (own_contentLength hmem hname).1
          · rw [iequals_entryOf] at hname
            rw [hvalue header hheader]
            exact hlength hbody header hheader hname
        exact hall entry hentry hname
  · have hfind := findName_contentLength hentries hown hbody
    have hlt : task.contentIn.length < 2 ^ 64 :=
      hlimits.content.trans_lt (by rw [maxContentSize_eq]; decide)
    constructor
    · exact fun hframing => ⟨hchunked.mp hframing.not_chunked, fun hnil => absurd hnil hbody⟩
    · rintro ⟨hte, -⟩
      exact ⟨hchunked.mpr hte, .inr ⟨_, hfind, lexicalCast_toDecimal hlt⟩⟩

/-- A request of the client is understood by the server, as long as the
headers of the caller stay clear of those the client writes, exactly when
its path is ASCII, it asks for no transfer encoding, and a length which is
given for no body is zero. -/
theorem understood_iff_compatible (task : SimpleHttpTask) (hvalid : Valid task)
    (hlimits : WithinLimits task) (hown : NoOverlap task) :
    Understood task ↔ Compatible task := by
  have hpath : isValidValue task.path ↔ ∀ ch ∈ task.path, isChar ch := by
    refine isValidValue_iff.trans ⟨fun hall ch hch => ?_, fun hall ch hch => .inr ⟨hall ch hch, ?_⟩⟩
    · obtain rfl | hchar := hall ch hch
      · decide
      · exact hchar.1
    · rw [(hvalid.path ch hch).2]
      exact Bool.false_ne_true
  rw [hvalid.understood_iff hlimits]
  constructor
  · rintro ⟨fields, hhead, hlength⟩
    obtain ⟨-, -, hvalue, hentries, hframing⟩ := hvalid.head_iff.mp hhead
    rw [hlength] at hframing
    obtain ⟨hchunked, hcontent⟩ := (hvalid.framing_compatible hlimits hown hentries).mp hframing
    exact ⟨hpath.mp hvalue, hchunked, hcontent⟩
  · intro hcompatible
    let headers : HeadersMap := ⟨(writtenHeaders task).map entryOf, hvalid.nodup_iff.mpr hown⟩
    have hframing := (hvalid.framing_compatible hlimits hown (rfl : headers.entries = _)).mpr
      ⟨hcompatible.transferEncoding, hcompatible.contentLength⟩
    exact ⟨⟨task.action, task.path, headers, task.contentIn.length⟩,
      hvalid.head_iff.mpr ⟨rfl, rfl, hpath.mpr hcompatible.path, rfl, hframing⟩, rfl⟩

/-- A request with a body and one header of the caller. -/
def postTask (path : Octets) (name : Octets) : SimpleHttpTask where
  hostName := octets "localhost"
  userAgent := octets "client/1.0"
  path := path
  action := octets "POST"
  contentIn := octets "ab"
  requestHeaders := [(name, octets "chunked")]

theorem valid_postTask {path name : Octets} (hpath : path ≠ [])
    (hclean : ∀ ch ∈ path, Str.isSpace ch = false ∧ isCtl ch = false)
    (hlength : path.length ≤ maxUriSize) (hname : isValidName name) :
    Valid (postTask path name) where
  action := (by decide : isValidName (octets "POST"))
  path_ne_nil := hpath
  path := hclean
  path_length := hlength
  hostName := (by decide : isValidValue (octets "localhost"))
  userAgent := (by decide : isValidValue (octets "client/1.0"))
  names := fun header hmem => mem_singleton.mp hmem ▸ hname
  values := fun header hmem => mem_singleton.mp hmem ▸
    (by decide : isValidValue (octets "chunked") ∧
      Str.trim (octets "chunked") = octets "chunked")
  distinct := nodup_singleton _

theorem understood_postTask : Understood (postTask (octets "/") (octets "X-A")) :=
  have hvalid := valid_postTask (by decide : octets "/" ≠ []) (by decide +kernel)
    (by decide +kernel) (by decide : isValidName (octets "X-A"))
  (understood_iff_compatible _ hvalid
    ⟨by decide +kernel, by decide +kernel, by decide +kernel⟩
    (by unfold NoOverlap; decide +kernel)).mpr
    ⟨by decide +kernel, by decide +kernel, nofun⟩

/-- A path with an octet above 127. -/
def latinPath : Octets := octets "/" ++ [UInt8.ofNat 0xe9]

/-- A path which is not ASCII, and a transfer encoding. -/
theorem not_understood_postTask :
    (Valid (postTask latinPath (octets "X-A")) ∧
      WithinLimits (postTask latinPath (octets "X-A")) ∧
      ¬Understood (postTask latinPath (octets "X-A"))) ∧
    Valid (postTask (octets "/") transferEncoding) ∧
      WithinLimits (postTask (octets "/") transferEncoding) ∧
      ¬Understood (postTask (octets "/") transferEncoding) := by
  have hlatin := valid_postTask (by decide : latinPath ≠ []) (by decide +kernel)
    (by decide +kernel) (by decide : isValidName (octets "X-A"))
  have hchunked := valid_postTask (by decide : octets "/" ≠ []) (by decide +kernel)
    (by decide +kernel) (by decide : isValidName transferEncoding)
  refine ⟨⟨hlatin, ⟨by decide +kernel, by decide +kernel, by decide +kernel⟩, ?_⟩,
    hchunked, ⟨by decide +kernel, by decide +kernel, by decide +kernel⟩, ?_⟩
  · rintro ⟨context, request, hparse, -⟩
    have hrefused : (parse (initRequest (postTask latinPath (octets "X-A"))) {}).1 ≠
        .answered (serverResult .parsed) := by decide +kernel
    exact hrefused (congrArg Prod.fst hparse)
  · rintro ⟨context, request, hparse, -⟩
    have hrefused : (parse (initRequest (postTask (octets "/") transferEncoding)) {}).1 ≠
        .answered (serverResult .parsed) := by decide +kernel
    exact hrefused (congrArg Prod.fst hparse)

end Baselib.Http.SimpleHttpTask
