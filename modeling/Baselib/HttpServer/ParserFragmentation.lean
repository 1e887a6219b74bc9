/-
Baselib.HttpServer.ParserFragmentation — the parser against the way the
octets of a request are cut into chunks.

A request which is accepted in one call is accepted in chunks, with the
same method, URI, headers and body, unless a chunk ends where the
sentinel is still incomplete and more than `maxHeadersSize` octets have
arrived: the size of the head is then taken to be that of the buffer,
which has up to three octets of the sentinel in it, while the call that
sees the whole sentinel measures the head without it.
-/
import Baselib.HttpServer.ParserTheorems

namespace Baselib.HttpServer.Parser

open Lib Baselib.Core List
open ParserHelpers
open HttpHeader

variable {context : Context} {buffer : Octets} {posSentinel : Nat} {fields : HeadFields}

/-! ## The first octet -/

theorem splitOn_head {c : UInt8} {a : Octets} {rest : List Octets} {s : Octets}
    (h : s.splitOn c = a :: rest) : a <+: s := by
  rw [← @List.intercalate_splitOn _ s _ _ c, h]
  cases rest with
  | nil =>
    rw [intercalate_singleton]
  | cons b rest =>
    rw [intercalate_cons_cons, append_assoc]
    exact prefix_append a _

theorem Head.isValidName_take {head : Octets} (h : Head head fields) :
    isValidName (head.take 1) := by
  obtain ⟨line, lines, version, hsplit, hline, -⟩ := h.lines
  have hpre : fields.method <+: head := by
    have hjoin := intercalate_splitText crlf_ne_nil head
    refine (splitOn_head hline.elements).trans ?_
    rw [← hjoin, hsplit]
    cases lines with
    | nil => rw [intercalate_singleton]
    | cons line' lines =>
      rw [intercalate_cons_cons, append_assoc]
      exact prefix_append line _
  have hvalid := hline.method_valid
  obtain ⟨rest, rfl⟩ := hpre
  cases hmethod : fields.method with
  | nil =>
    rw [hmethod] at hvalid
    cases hvalid
  | cons ch method =>
    rw [hmethod] at hvalid
    unfold isValidName at hvalid ⊢
    rw [cons_append, take_succ_cons, take_zero]
    simp only [isEmpty_cons, all_cons, all_nil, Bool.and_eq_true] at hvalid ⊢
    exact ⟨hvalid.1, hvalid.2.1, trivial⟩

/-! ## One chunk of a request -/

/-- A cut which leaves the sentinel incomplete with more than
`maxHeadersSize` octets before it. -/
def CutsLateSentinel (s : Octets) (length : Nat) : Prop :=
  ∃ posSentinel, findText sentinel s = some posSentinel ∧ maxHeadersSize < length ∧
    length < posSentinel + sentinel.length

variable {chunk rest : Octets}

theorem Reading.parse_last (h : Reading buffer context) (hne : chunk ≠ [])
    (hread : RequestRead (buffer ++ chunk) posSentinel fields) :
    parse chunk context =
      (.answered (serverResult .parsed), requestContext posSentinel fields (buffer ++ chunk)) := by
  rw [h.parse_of_headRead hne hread.size hread.toHeadRead,
    parseBody_headContext hread.toHeadRead, if_pos hread.length_eq]

/-- A chunk before the last one is asked to be followed by more exactly
if it does not cut the sentinel too late. -/
theorem Reading.parse_before_last (h : Reading buffer context) (hne : chunk ≠ [])
    (hrest : rest ≠ []) (hread : RequestRead (buffer ++ chunk ++ rest) posSentinel fields) :
    (parse chunk context).1 = .answered (serverResult .moreDataRequired) ↔
      ¬ CutsLateSentinel (buffer ++ chunk ++ rest) (buffer ++ chunk).length := by
  have hsize : (buffer ++ chunk).length ≤ maxContentSize + maxHeadersSize :=
    (prefix_append (buffer ++ chunk) rest).length_le.trans hread.size
  have hcut : CutsLateSentinel (buffer ++ chunk ++ rest) (buffer ++ chunk).length ↔
      maxHeadersSize < (buffer ++ chunk).length ∧
        (buffer ++ chunk).length < posSentinel + sentinel.length := by
    refine ⟨fun hcut => ?_, fun hcut => ⟨posSentinel, hread.sentinel, hcut⟩⟩
    obtain ⟨posSentinel', hfind, hlt⟩ := hcut
    cases (Option.some.inj (hfind.symm.trans hread.sentinel))
    exact hlt
  rw [hcut]
  by_cases hlen : posSentinel + sentinel.length ≤ (buffer ++ chunk).length
  · have hhead := hread.toHeadRead.of_append hlen
    have hlt : (buffer ++ chunk).length <
        posSentinel + sentinel.length + fields.length := by
      have hpos := length_pos_iff.mpr hrest
      have hlength := hread.length_eq
      rw [length_append] at hlength
      omega
    rw [h.parse_of_headRead hne hsize hhead, parseBody_headContext hhead, if_neg hlt.ne,
      if_pos hlt]
    exact ⟨fun _ hbad => absurd hbad.2 (Nat.not_lt.mpr hlen), fun _ => rfl⟩
  · have hnone : findText sentinel (buffer ++ chunk) = none := by
      have hfind := findText_take sentinel_ne_nil hread.sentinel (buffer ++ chunk).length
      rwa [take_left, if_neg hlen] at hfind
    have hfirst : isValidName ((buffer ++ chunk).take 1) := by
      have hhead := hread.head.isValidName_take
      have hpos : 1 ≤ (buffer ++ chunk).length := by
        rw [length_append]
        have hchunk := length_pos_iff.mpr hne
        omega
      rw [take_take] at hhead
      cases hzero : posSentinel with
      | zero =>
        rw [hzero, Nat.min_zero, take_zero] at hhead
        cases hhead
      | succ n =>
        rwa [hzero, Nat.min_eq_left (Nat.le_add_left 1 n),
          take_append_of_le_length hpos] at hhead
    rw [h.parse_of_none hne hsize hnone]
    by_cases hlate : (buffer ++ chunk).length > maxHeadersSize
    · rw [if_pos hlate]
      refine ⟨fun hbad => ?_, fun hgood => absurd ⟨hlate, Nat.lt_of_not_le hlen⟩ hgood⟩
      cases hbad
    · rw [if_neg hlate, hfirst]
      exact ⟨fun _ hbad => hlate hbad.1, fun _ => rfl⟩

/-! ## All chunks of a request -/

/-- No chunk but the last ends at a cut of the sentinel which is too
late. -/
def NoLateCut (s buffer : Octets) (chunks : List Octets) : Prop :=
  ∀ front back, chunks = front ++ back → front ≠ [] → back ≠ [] →
    ¬ CutsLateSentinel s (buffer ++ front.flatten).length

theorem noLateCut_singleton (s buffer chunk : Octets) : NoLateCut s buffer [chunk] := by
  intro front back h hfront hback
  exact absurd h (by
    cases front with
    | nil => exact absurd rfl hfront
    | cons a front => cases back <;> simp_all)

theorem noLateCut_cons {s buffer chunk chunk' : Octets} {rest : List Octets} :
    NoLateCut s buffer (chunk :: chunk' :: rest) ↔
      ¬ CutsLateSentinel s (buffer ++ chunk).length ∧
        NoLateCut s (buffer ++ chunk) (chunk' :: rest) := by
  refine ⟨fun h => ⟨?_, fun front back hchunks hfront hback => ?_⟩, fun h => ?_⟩
  · have hfirst := h [chunk] (chunk' :: rest) rfl (cons_ne_nil _ _) (cons_ne_nil _ _)
    rwa [flatten_singleton] at hfirst
  · have hnext := h (chunk :: front) back (by rw [hchunks]; rfl) (cons_ne_nil _ _) hback
    rwa [flatten_cons, ← append_assoc] at hnext
  · intro front back hchunks hfront hback
    cases front with
    | nil => exact absurd rfl hfront
    | cons a front =>
      obtain ⟨rfl, hrest⟩ := List.cons.inj hchunks
      cases front with
      | nil =>
        rw [flatten_singleton]
        exact h.1
      | cons b front =>
        rw [flatten_cons, ← append_assoc]
        exact h.2 (b :: front) back hrest (cons_ne_nil _ _) hback

/-- Chunks which are the rest of a request: the answers are those to a
request exactly if no chunk cuts the sentinel too late. -/
theorem Reading.feed_answers_iff {chunks : List Octets} (hchunks : chunks ≠ [])
    (hne : ∀ chunk ∈ chunks, chunk ≠ []) (h : Reading buffer context)
    (hread : RequestRead (buffer ++ chunks.flatten) posSentinel fields) :
    (feed chunks context).1 = answers chunks.length ↔
      NoLateCut (buffer ++ chunks.flatten) buffer chunks := by
  induction chunks generalizing buffer context with
  | nil => exact absurd rfl hchunks
  | cons chunk rest ih =>
    have hchunk := hne chunk mem_cons_self
    cases rest with
    | nil =>
      rw [flatten_singleton] at hread
      refine ⟨fun _ => noLateCut_singleton _ _ _, fun _ => ?_⟩
      unfold feed
      rw [h.parse_last hchunk hread]
      rfl
    | cons chunk' rest =>
      have hrest : (chunk' :: rest).flatten ≠ [] := by
        have hchunk' := hne chunk' (mem_cons_of_mem _ mem_cons_self)
        rw [flatten_cons]
        exact fun hnil => hchunk' (append_eq_nil_iff.mp hnil).1
      rw [flatten_cons, ← append_assoc] at hread ⊢
      have hfirst := h.parse_before_last hchunk hrest hread
      rw [noLateCut_cons, ← hfirst]
      have hsplit : (feed (chunk :: chunk' :: rest) context).1 =
          answers (chunk :: chunk' :: rest).length ↔
          (parse chunk context).1 = .answered (serverResult .moreDataRequired) ∧
            (feed (chunk' :: rest) (parse chunk context).2).1 =
              answers (chunk' :: rest).length := cons_eq_cons
      rw [hsplit]
      refine and_congr_right fun hanswer => ?_
      have hnext : Reading (buffer ++ chunk) (parse chunk context).2 :=
        h.parse_moreData (e := none) (Prod.ext hanswer rfl)
      exact ih (cons_ne_nil _ _)
        (fun c hc => hne c (mem_cons_of_mem chunk hc)) hnext hread

theorem buildRequest_requestContext (posSentinel : Nat) (fields : HeadFields) (s : Octets) :
    ∃ request, buildRequest (requestContext posSentinel fields s) = .ok request := ⟨_, rfl⟩

/-- A request accepted in one call is accepted in chunks, and the same
request is built, exactly if no chunk but the last leaves the sentinel
incomplete with more than `maxHeadersSize` octets before it. -/
theorem fragmentation_iff (s : Octets) (chunks : List Octets) (hflat : chunks.flatten = s)
    (hne : ∀ chunk ∈ chunks, chunk ≠ [])
    (hone : (parse s {}).1 = .answered (serverResult .parsed)) :
    ((feed chunks {}).1 = answers chunks.length ∧
      ∃ request, buildRequest (parse s {}).2 = .ok request ∧
        buildRequest (feed chunks {}).2 = .ok request) ↔
      ∀ front back, chunks = front ++ back → front ≠ [] → back ≠ [] →
        ¬ CutsLateSentinel s front.flatten.length := by
  subst hflat
  obtain ⟨posSentinel, fields, hread, hcontext⟩ :=
    reading_nil.parse_parsed (e := none) (Prod.ext hone rfl)
  rw [List.nil_append] at hread hcontext
  have hchunks : chunks ≠ [] := by
    intro hnil
    subst hnil
    cases hone
  have hfeed := reading_nil.feed_answers_iff hchunks hne (by rwa [List.nil_append])
  rw [List.nil_append] at hfeed
  refine Iff.trans ⟨fun h => h.1, fun hanswers => ⟨hanswers, ?_⟩⟩ hfeed
  obtain ⟨posSentinel', fields', hread', hcontext'⟩ := reading_nil.feed_answers hchunks hanswers
  rw [List.nil_append] at hread' hcontext'
  obtain ⟨rfl, rfl⟩ := hread.toHeadRead.unique hread'.toHeadRead
  obtain ⟨request, hrequest⟩ := buildRequest_requestContext posSentinel' fields' chunks.flatten
  exact ⟨request, (congrArg buildRequest hcontext).trans hrequest,
    (congrArg buildRequest hcontext').trans hrequest⟩

theorem fragmentation_iff_get :
    (feed [octets "GET / HT", octets "TP/1.0\r\n\r", octets "\n"] {}).1 = answers 3 ∧
      ∃ request, buildRequest (parse (octets "GET / HTTP/1.0\r\n\r\n") {}).2 = .ok request ∧
        buildRequest (feed [octets "GET / HT", octets "TP/1.0\r\n\r", octets "\n"] {}).2 =
          .ok request := by
  refine (fragmentation_iff (octets "GET / HTTP/1.0\r\n\r\n")
    [octets "GET / HT", octets "TP/1.0\r\n\r", octets "\n"] (by decide +kernel)
    (by decide +kernel) (by decide +kernel)).mpr fun front back hchunks _ _ hcut => ?_
  obtain ⟨-, -, hlarge, -⟩ := hcut
  have hlength := congrArg (fun chunks : List Octets => chunks.flatten.length) hchunks
  have hshort : ([octets "GET / HT", octets "TP/1.0\r\n\r", octets "\n"] :
    List Octets).flatten.length = 18 := by decide +kernel
  rw [maxHeadersSize_eq] at hlarge
  simp only [hshort, List.flatten_append, List.length_append] at hlength
  omega

/-! ## A cut in the sentinel of a head of the largest size -/

/-- A header line of `n` spaces after the name. -/
def blankHeader (n : Nat) : Octets := octets "A:" ++ List.replicate n space

/-- A head of 65536 octets. -/
def largestHead : Octets :=
  octets "GET / HTTP/1.0" ++ crlf ++ blankHeader 65518

theorem length_blankHeader (n : Nat) : (blankHeader n).length = n + 2 := by
  have hname : (octets "A:").length = 2 := rfl
  have hblank : (List.replicate n space).length = n := length_replicate
  unfold blankHeader
  rw [length_append, hname, hblank, Nat.add_comm]

theorem length_largestHead : largestHead.length = 65536 := by
  have hline : (octets "GET / HTTP/1.0" ++ crlf).length = 16 := rfl
  unfold largestHead
  rw [length_append, hline, length_blankHeader]

theorem not_mem_blankHeader {ch : UInt8} (h : ch ∉ octets "A: ") (n : Nat) :
    ch ∉ blankHeader n := by
  have hspace : space ∈ octets "A: " := by decide
  unfold blankHeader
  rw [mem_append, mem_replicate]
  intro hmem
  cases hmem with
  | inl hname =>
    have hsub : octets "A:" ⊆ octets "A: " := by decide
    exact h (hsub hname)
  | inr hblank => exact h (hblank.2 ▸ hspace)

theorem splitText_largestHead :
    splitText crlf largestHead = [octets "GET / HTTP/1.0", blankHeader 65518] := by
  have hlf : '\n'.toUInt8 ∉ octets "GET / HTTP/1.0\r" := by decide
  have hblank : ¬ crlf <:+: blankHeader 65518 := fun hin =>
    not_mem_blankHeader (by decide) 65518 (hin.subset (by decide : '\n'.toUInt8 ∈ crlf))
  unfold largestHead
  rw [splitText_append _ crlf_ne_nil fun hin =>
      hlf (hin.subset (by decide : '\n'.toUInt8 ∈ crlf)),
    splitText_of_none crlf_ne_nil
      ((findText_eq_none_iff crlf_ne_nil).mpr hblank)]

theorem trim_replicate_space (n : Nat) : Str.trim (List.replicate n space) = [] := by
  have hdrop : (List.replicate n space).dropWhile Str.isSpace = [] := by
    rw [dropWhile_eq_nil_iff]
    intro ch hch
    rw [eq_of_mem_replicate hch]
    decide
  rw [Str.trim, hdrop, rdropWhile_nil]

theorem findText_largestHead :
    findText sentinel (largestHead ++ sentinel) = some 65536 := by
  have hline : '\r'.toUInt8 ∉ octets "GET / HTTP/1.0" := by decide
  have hblank : '\r'.toUInt8 ∉ '\n'.toUInt8 :: blankHeader 65518 := by
    rw [mem_cons, not_or]
    exact ⟨by decide, not_mem_blankHeader (by decide) 65518⟩
  have hshape : largestHead ++ sentinel =
      octets "GET / HTTP/1.0" ++ ('\r'.toUInt8 :: (('\n'.toUInt8 :: blankHeader 65518) ++
        sentinel)) := by
    unfold largestHead
    rw [crlf_eq, append_assoc, append_assoc]
    rfl
  have hcut : ¬ sentinel <+: '\r'.toUInt8 :: (('\n'.toUInt8 :: blankHeader 65518) ++
      sentinel) := by
    intro hp
    have hthird := (cons_prefix_cons.mp (cons_prefix_cons.mp hp).2).2
    exact absurd (cons_prefix_cons.mp hthird).1 (by decide)
  have hend : findText sentinel sentinel = some 0 :=
    findText_of_isPrefix (prefix_refl _)
  rw [hshape, sentinel_eq, findText_skip hline, ← sentinel_eq, findText_cons,
    if_neg hcut, sentinel_eq, findText_skip hblank, ← sentinel_eq, hend,
    length_cons, length_blankHeader]
  rfl

theorem parseHeader_blankHeader (n : Nat) (context : Context) (h : context.headers = {}) :
    parseHeader (blankHeader n) context =
      (serverResult .parsed,
        { context with headers := ⟨[(octets "a", [])], nodup_singleton _⟩ }) := by
  have hshape : blankHeader n =
      octets "A" ++ nameSeparator :: List.replicate n space := rfl
  have hfind : find (blankHeader n) nameSeparator 0 = some 1 := by
    rw [hshape]
    exact find_append_cons _ (by decide)
  have hname : (blankHeader n).take 1 = octets "A" := rfl
  have htrim : Str.trim ((blankHeader n).drop (1 + 1)) = [] := trim_replicate_space n
  unfold parseHeader
  rw [hfind]
  dsimp only
  rw [hname, htrim, h]
  rfl

/-- The fields of the largest head. -/
def largestFields : HeadFields where
  method := octets "GET"
  uri := octets "/"
  headers := ⟨[(octets "a", [])], nodup_singleton _⟩
  length := 0

theorem parseLines_largestHead (buffer : Octets) (n : Nat) :
    parseLines [octets "GET / HTTP/1.0", blankHeader n] { buffer := buffer } =
      (serverResult .parsed,
        { method := largestFields.method
          uri := largestFields.uri
          headers := largestFields.headers
          buffer := buffer }) := by
  have hline : parseMethodURIVersion (octets "GET / HTTP/1.0") {} =
      (serverResult .parsed, { method := octets "GET", uri := octets "/" }) := by
    decide +kernel
  have hrequest : parseMethodURIVersion (octets "GET / HTTP/1.0") { buffer := buffer } =
      (serverResult .parsed,
        { method := octets "GET", uri := octets "/", buffer := buffer }) := by
    have hbuffer := parseMethodURIVersion_withBuffer buffer (octets "GET / HTTP/1.0") {}
    rwa [hline] at hbuffer
  rw [parseLines, hrequest]
  show parseHeaderLines [blankHeader n] _ = _
  rw [parseHeaderLines, parseHeader_blankHeader _ _ rfl]
  rfl

theorem headRead_largestHead :
    HeadRead (largestHead ++ sentinel) 65536 largestFields := by
  have hlen : (largestHead ++ sentinel).length = 65540 := by
    rw [length_append, length_largestHead]
    rfl
  have htake : (largestHead ++ sentinel).take 65536 = largestHead := by
    rw [← length_largestHead, take_left]
  have hsentinel := findText_largestHead
  have hsplit := splitText_largestHead
  generalize largestHead ++ sentinel = s at hlen htake hsentinel ⊢
  rw [← htake] at hsplit
  have heq : parseHead 65536 { buffer := s } =
      (serverResult .parsed, headContext 65536 largestFields s) :=
    parseHead_of_parsed (show 65536 ≤ ({ buffer := s } : Context).buffer.length from by
      show 65536 ≤ s.length
      omega) hsplit
      (parseLines_largestHead s 65518) rfl
  obtain ⟨fields, hhead, hcontext⟩ :=
    parseHead_parsed (show 65536 ≤ s.length by omega) heq
  cases headContext_inj hcontext
  exact ⟨hsentinel, Nat.le_refl _, ⟨none, heq⟩, hhead, Nat.zero_le _⟩

/-- The first chunk ends after the first octet of the sentinel. -/
theorem fragmentation_largestHead :
    ∃ s chunks, chunks.flatten = s ∧ (∀ chunk ∈ chunks, chunk ≠ []) ∧
      (parse s {}).1 = .answered (serverResult .parsed) ∧
      (feed chunks {}).1 ≠ answers chunks.length := by
  have hjoin : largestHead ++ ['\r'.toUInt8] ++ octets "\n\r\n" =
      largestHead ++ sentinel := by
    rw [List.append_assoc]
    rfl
  have hlen : (largestHead ++ ['\r'.toUInt8]).length = 65537 := by
    rw [List.length_append, length_largestHead]
    rfl
  have hlength : (largestHead ++ sentinel).length = 65540 := by
    rw [List.length_append, length_largestHead]
    rfl
  have hread : RequestRead (largestHead ++ sentinel) 65536 largestFields := by
    refine ⟨headRead_largestHead, hlength, ?_⟩
    rw [hlength]
    decide
  have hfirst : largestHead ++ ['\r'.toUInt8] ≠ [] :=
    List.append_ne_nil_of_right_ne_nil _ (List.cons_ne_nil _ _)
  have hlast : octets "\n\r\n" ≠ [] := List.cons_ne_nil _ _
  refine ⟨largestHead ++ sentinel,
    [largestHead ++ ['\r'.toUInt8], octets "\n\r\n"], ?_, ?_, ?_, fun hanswers => ?_⟩
  · rw [List.flatten_cons, List.flatten_singleton, hjoin]
  · intro chunk hchunk
    rw [List.mem_pair] at hchunk
    cases hchunk with
    | inl h => exact h ▸ hfirst
    | inr h => exact h ▸ hlast
  · have hne : largestHead ++ sentinel ≠ [] :=
      List.append_ne_nil_of_right_ne_nil _ (List.cons_ne_nil _ _)
    rw [reading_nil.parse_last hne hread]
  · have hcut := reading_nil.parse_before_last hfirst hlast
      (show RequestRead _ 65536 largestFields by rwa [List.nil_append, hjoin])
    rw [List.nil_append, hjoin, hlen] at hcut
    refine hcut.mp (List.cons.inj hanswers).1 ⟨65536, findText_largestHead, ?_, ?_⟩
    · decide
    · decide

end Baselib.HttpServer.Parser
