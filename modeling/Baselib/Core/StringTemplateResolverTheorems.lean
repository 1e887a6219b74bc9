/-
Baselib.Core.StringTemplateResolverTheorems — a resolved template is its
blocks one after the other.

The meaning of a template is given apart from the markers. A text is read as
tokens in one way at most (`Tokenizes.unique`), and nothing of it is lost or
written twice (`Tokenizes.source`). The tokens are cut into blocks, each with
the delimiter it ends at, and a block is rendered as a whole or not at all.

  §1 what the parser does at the front of a text, one equation for each kind
     of token;
  §2 the blocks of a list of tokens;
  §3 the loop of `resolve`. What it owes to a block is the text it has built
     and the text from its position to the next token, so the invariant is
     about the two together.
-/
import Baselib.Core.StringTemplateResolver

namespace Baselib.Core.StringTemplateResolver

open List
open Lib (Octets cut findText findText_cons findText_append findText_split
  findText_of_isPrefix not_infix_of_findText consHead exists_cut cut_of_not_mem cut_append_cons)

variable {name : Octets} {t : Token}

/-! ## Templates as tokens -/

inductive Token where
  | character (c : UInt8)
  | newLine
  /-- A variable, or the block separator if the name is empty. -/
  | reference (name : Octets)
  deriving DecidableEq, Repr

namespace Token

/-- A token as it is written in a template. -/
def text : Token → Octets
  | character c => [c]
  | newLine => [StringTemplateResolver.newLine]
  | reference name => varBegin ++ name ++ varEnd

def isDelimiter : Token → Bool
  | character _ => false
  | newLine => true
  | reference name => name.isEmpty

end Token

def source (tokens : List Token) : Octets := tokens.flatMap Token.text

/-- How a text is read. A reference ends at the first end marker and does not
reach beyond its line. -/
inductive Tokenizes : Octets → List Token → Prop
  | nil : Tokenizes [] []
  | newLine {text tokens} (later : Tokenizes text tokens) :
      Tokenizes (newLine :: text) (.newLine :: tokens)
  | character {c text tokens} (hline : c ≠ newLine) (hbegin : ¬ varBegin <+: c :: text)
      (later : Tokenizes text tokens) : Tokenizes (c :: text) (.character c :: tokens)
  | reference {name text tokens} (hline : newLine ∉ name)
      (hend : ¬ varEnd <:+: name ++ varEnd.dropLast) (later : Tokenizes text tokens) :
      Tokenizes (varBegin ++ (name ++ varEnd ++ text)) (.reference name :: tokens)

/-- The markers of these tokens, the first of which is at a position. -/
def markersOf (pos : Nat) : List Token → List MarkerInfo
  | [] => []
  | .character _ :: tokens => markersOf (pos + 1) tokens
  | .newLine :: tokens => ⟨[], pos, pos + 1, true⟩ :: markersOf (pos + 1) tokens
  | .reference name :: tokens =>
    let posEnd := pos + 2 + name.length + 2
    ⟨name, pos, posEnd, name.length ≠ 0⟩ :: markersOf posEnd tokens

/-! ## The meaning of a template -/

/-- Blocks end at their delimiters, except for the last one. -/
def blocksOf : List Token → List (List Token)
  | [] => [[]]
  | t :: tokens => if t.isDelimiter then [t] :: blocksOf tokens else consHead t (blocksOf tokens)

section

variable (variablesMap : Octets → Option Octets) (escaper : Option (Octets → Octets → Octets))

def renderToken : Token → Except Exception Octets
  | .character c => .ok [c]
  | .newLine => .ok [newLine]
  | .reference name =>
    if name = [] then .ok []
    else
      match variablesMap name with
      | some value => .ok (substituted escaper name value)
      | none => .error (undefinedVariable name)

def renderBlock (block : List Token) : Except Exception Octets :=
  (block.mapM (renderToken variablesMap escaper)).map List.flatten

/-- What a block adds to the result: nothing if it is skipped. -/
def orSkipped (skipUndefined : Bool) : Except Exception Octets → Except Exception Octets
  | .ok rendered => .ok rendered
  | .error e => if skipUndefined then .ok [] else .error e

def resolveBlocks (skipUndefined : Bool) (blocks : List (List Token)) :
    Except Exception Octets :=
  (blocks.mapM fun block => orSkipped skipUndefined (renderBlock variablesMap escaper block)).map
    List.flatten

end

/-! ## §1 The parser at the front of a text -/

theorem parseLine_nil (pos : Nat) : parseLine pos [] = .ok [] := by
  unfold parseLine
  rfl

theorem parseBlocks_of_not_mem {line : Octets} (pos : Nat) (h : newLine ∉ line) :
    parseBlocks pos line = parseLine pos line := by
  unfold parseBlocks
  split
  · rename_i hcut
    rw [cut_of_not_mem h] at hcut
    cases hcut
    rfl
  · rename_i hcut
    rw [cut_of_not_mem h] at hcut
    cases hcut

theorem parseBlocks_append_cons {line : Octets} (pos : Nat) (rest : Octets) (h : newLine ∉ line) :
    parseBlocks pos (line ++ newLine :: rest) = (do
      let markers ← parseLine pos line
      let later ← parseBlocks (pos + line.length + 1) rest
      return markers ++ ⟨[], pos + line.length, pos + line.length + 1, true⟩ :: later) := by
  conv_lhs => unfold parseBlocks
  split
  · rename_i hcut
    rw [cut_append_cons rest h] at hcut
    cases hcut
  · rename_i hcut
    rw [cut_append_cons rest h] at hcut
    cases hcut
    rfl

/-- What goes from the lines to the whole text: a step of the parser of a
line is a step of the parser of the text. -/
theorem parseBlocks_of_parseLine {before : Octets} (markers : List MarkerInfo)
    (hbefore : newLine ∉ before) (pos : Nat) (text : Octets)
    (hstep : ∀ line, line <+: text → parseLine pos (before ++ line) =
      (parseLine (pos + before.length) line).map (markers ++ ·)) :
    parseBlocks pos (before ++ text) =
      (parseBlocks (pos + before.length) text).map (markers ++ ·) := by
  obtain ⟨line, hline, rfl | ⟨rest, rfl⟩⟩ := exists_cut newLine text
  · have hmem : newLine ∉ before ++ text := by simp [hbefore, hline]
    rw [parseBlocks_of_not_mem pos hmem, parseBlocks_of_not_mem _ hline,
      hstep text (prefix_refl text)]
  · have hmem : newLine ∉ before ++ line := by simp [hbefore, hline]
    rw [← append_assoc, parseBlocks_append_cons pos rest hmem,
      parseBlocks_append_cons _ rest hline,
      hstep line (prefix_append line _)]
    simp only [length_append, Nat.add_assoc]
    cases parseLine (pos + before.length) line with
    | error e => rfl
    | ok first =>
      cases parseBlocks (pos + (before.length + (line.length + 1))) rest with
      | error e => rfl
      | ok later => simp [Except.map, bind, Except.bind, pure, Except.pure]

theorem parseLine_character {c : UInt8} {line : Octets} (pos : Nat)
    (hbegin : ¬ varBegin <+: c :: line) : parseLine pos (c :: line) = parseLine (pos + 1) line := by
  have hfind : findText varBegin (c :: line) = _ := findText_cons c line
  rw [if_neg hbegin] at hfind
  unfold parseLine
  rw [hfind]
  cases findText varBegin line with
  | none => rfl
  | some i =>
    have hpos : pos + (i + 1) = pos + 1 + i := by omega
    have hdrop : (c :: line).drop (i + 1 + 2) = line.drop (i + 2) := by
      rw [Nat.add_right_comm, drop_succ_cons]
    simp only [Option.map_some, hpos, hdrop]

theorem parseLine_reference (pos : Nat) (line : Octets)
    (hend : ¬ varEnd <:+: name ++ varEnd.dropLast) :
    parseLine pos (varBegin ++ (name ++ varEnd ++ line)) =
      (parseLine (pos + 2 + name.length + 2) line).map
        (⟨name, pos, pos + 2 + name.length + 2, name.length ≠ 0⟩ :: ·) := by
  have hfind : findText varBegin (varBegin ++ (name ++ varEnd ++ line)) = some 0 :=
    findText_of_isPrefix (prefix_append varBegin _)
  have hafter : (varBegin ++ (name ++ varEnd ++ line)).drop (0 + 2) = name ++ varEnd ++ line := rfl
  have hname : (name ++ varEnd ++ line).take name.length = name := by
    rw [append_assoc, take_left]
  have hrest : (name ++ varEnd ++ line).drop (name.length + 2) = line := by
    have hlen : (name ++ varEnd).length = name.length + 2 := by simp [varEnd]
    rw [← hlen, drop_left]
  conv_lhs => unfold parseLine
  rw [hfind]
  simp only [hafter, findText_append line (by decide : varEnd ≠ []) hend, hname, hrest,
    Nat.add_zero]

theorem parseLine_unterminated {line : Octets} (pos : Nat) (hend : findText varEnd line = none) :
    parseLine pos (varBegin ++ line) = .error endMarkerMissing := by
  have hfind : findText varBegin (varBegin ++ line) = some 0 :=
    findText_of_isPrefix (prefix_append varBegin line)
  have hafter : (varBegin ++ line).drop (0 + 2) = line := rfl
  unfold parseLine
  rw [hfind]
  simp only [hafter, hend]

theorem parseBlocks_nil (pos : Nat) : parseBlocks pos [] = .ok [] := by
  rw [parseBlocks_of_not_mem pos not_mem_nil, parseLine_nil]

theorem parseBlocks_newLine (pos : Nat) (text : Octets) :
    parseBlocks pos (newLine :: text) =
      (parseBlocks (pos + 1) text).map (⟨[], pos, pos + 1, true⟩ :: ·) := by
  have hline := parseBlocks_append_cons pos text (not_mem_nil (a := newLine))
  rw [nil_append, parseLine_nil] at hline
  rw [hline]
  cases parseBlocks (pos + 1) text <;> rfl

theorem parseBlocks_character {c : UInt8} {text : Octets} (pos : Nat) (hline : c ≠ newLine)
    (hbegin : ¬ varBegin <+: c :: text) :
    parseBlocks pos (c :: text) = parseBlocks (pos + 1) text := by
  have hmem : newLine ∉ [c] := by simpa using hline.symm
  have hstep := parseBlocks_of_parseLine [] hmem pos text fun line hprefix => by
    have hnot : ¬ varBegin <+: c :: line := fun h =>
      hbegin (h.trans (cons_prefix_cons.mpr ⟨rfl, hprefix⟩))
    rw [singleton_append, parseLine_character pos hnot]
    cases parseLine (pos + 1) line <;> rfl
  rw [singleton_append] at hstep
  rw [hstep]
  cases parseBlocks (pos + 1) text <;> rfl

theorem newLine_not_mem_reference (h : newLine ∉ name) : newLine ∉ varBegin ++ name ++ varEnd := by
  simp only [mem_append, not_or]
  exact ⟨⟨by decide, h⟩, by decide⟩

theorem length_reference (name : Octets) :
    (varBegin ++ name ++ varEnd).length = 2 + name.length + 2 := by
  rw [length_append, length_append]
  rfl

theorem parseBlocks_reference (pos : Nat) (text : Octets) (hline : newLine ∉ name)
    (hend : ¬ varEnd <:+: name ++ varEnd.dropLast) :
    parseBlocks pos (varBegin ++ (name ++ varEnd ++ text)) =
      (parseBlocks (pos + 2 + name.length + 2) text).map
        (⟨name, pos, pos + 2 + name.length + 2, name.length ≠ 0⟩ :: ·) := by
  have hpos : pos + (varBegin ++ name ++ varEnd).length = pos + 2 + name.length + 2 := by
    rw [length_reference]
    omega
  have hstep := parseBlocks_of_parseLine
    [⟨name, pos, pos + 2 + name.length + 2, name.length ≠ 0⟩]
    (newLine_not_mem_reference hline) pos text fun line _ => by
      rw [hpos, append_assoc, append_assoc, ← append_assoc name,
        parseLine_reference pos line hend]
      rfl
  rwa [hpos, append_assoc, append_assoc, ← append_assoc name] at hstep

theorem parseBlocks_unterminated {text : Octets} (pos : Nat)
    (hend : findText varEnd (cut newLine text).1 = none) :
    parseBlocks pos (varBegin ++ text) = .error endMarkerMissing := by
  have hbegin : newLine ∉ varBegin := by decide
  obtain ⟨line, hline, rfl | ⟨rest, rfl⟩⟩ := exists_cut newLine text
  · rw [cut_of_not_mem hline] at hend
    rw [parseBlocks_of_not_mem pos (by simp [hbegin, hline]), parseLine_unterminated pos hend]
  · rw [cut_append_cons rest hline] at hend
    rw [← append_assoc, parseBlocks_append_cons pos rest (by simp [hbegin, hline]),
      parseLine_unterminated pos hend]
    rfl

/-! What a text begins with. -/

/-- A text which begins with the begin marker is a reference and the rest, or
the end marker does not follow in the line. -/
theorem reference_or_unterminated (text : Octets) :
    findText varEnd (cut newLine text).1 = none ∨
      ∃ name rest, newLine ∉ name ∧ ¬ varEnd <:+: name ++ varEnd.dropLast ∧
        text = name ++ varEnd ++ rest := by
  have hne : varEnd ≠ [] := by decide
  obtain ⟨line, hline, htext⟩ := exists_cut newLine text
  have hfst : (cut newLine text).1 = line := by
    rcases htext with rfl | ⟨rest, rfl⟩
    · rw [cut_of_not_mem hline]
    · rw [cut_append_cons rest hline]
  obtain ⟨rest, rfl⟩ : ∃ rest, text = line ++ rest := by
    rcases htext with rfl | ⟨rest, rfl⟩
    · exact ⟨[], (append_nil text).symm⟩
    · exact ⟨newLine :: rest, rfl⟩
  rw [hfst]
  cases hfind : findText varEnd line with
  | none => exact .inl rfl
  | some j =>
    have hsplit := findText_split hfind
    refine .inr ⟨line.take j, line.drop (j + varEnd.length) ++ rest,
      fun hmem => hline (mem_of_mem_take hmem), not_infix_of_findText hne hfind, ?_⟩
    rw [← append_assoc, ← hsplit]

namespace Tokenizes

theorem source_eq {text : Octets} {tokens : List Token} (h : Tokenizes text tokens) :
    source tokens = text := by
  induction h with
  | nil => rfl
  | newLine _ ih => simpa [source, Token.text] using ih
  | character _ _ _ ih => simpa [source, Token.text] using ih
  | reference _ _ _ ih =>
    simp only [source, flatMap_cons, Token.text] at ih ⊢
    rw [ih]
    simp only [append_assoc]

theorem unique {text : Octets} {tokens : List Token} (h : Tokenizes text tokens) :
    ∀ {tokens'}, Tokenizes text tokens' → tokens' = tokens := by
  induction h with
  | nil =>
    intro tokens' h'
    cases h'
    rfl
  | newLine _ ih =>
    intro tokens' h'
    cases h' with
    | newLine later => rw [ih later]
    | character hline => exact absurd rfl hline
  | character hline hbegin _ ih =>
    intro tokens' h'
    cases h' with
    | newLine => exact absurd rfl hline
    | character _ _ later => rw [ih later]
    | reference => exact absurd (prefix_append varBegin _) hbegin
  | @reference name text tokens _ hend _ ih =>
    intro tokens' h'
    generalize htext : varBegin ++ (name ++ varEnd ++ text) = whole at h'
    have hbegin : varBegin <+: whole := htext ▸ prefix_append varBegin _
    cases h' with
    | nil => cases htext
    | newLine => cases htext
    | character _ hnot => exact absurd hbegin hnot
    | @reference name' text' tokens' _ hend' later =>
      have hne : varEnd ≠ [] := by decide
      have hrest := append_cancel_left htext
      have hfind := findText_append text hne hend
      rw [hrest, findText_append text' hne hend'] at hfind
      rw [append_assoc, append_assoc] at hrest
      obtain ⟨rfl, hlast⟩ := append_inj hrest (Option.some.inj hfind).symm
      obtain rfl := append_cancel_left hlast
      rw [ih later]

theorem parseBlocks_eq {text : Octets} {tokens : List Token} (h : Tokenizes text tokens) :
    ∀ pos, parseBlocks pos text = .ok (markersOf pos tokens) := by
  induction h with
  | nil =>
    intro pos
    rw [parseBlocks_nil]
    rfl
  | newLine _ ih =>
    intro pos
    rw [parseBlocks_newLine, ih]
    rfl
  | character hline hbegin _ ih =>
    intro pos
    rw [parseBlocks_character pos hline hbegin, ih]
    rfl
  | reference hline hend _ ih =>
    intro pos
    rw [parseBlocks_reference pos _ hline hend, ih]
    rfl

end Tokenizes

theorem tokenizes_or_error (text : Octets) : (∃ tokens, Tokenizes text tokens) ∨
    ∀ pos, parseBlocks pos text = .error endMarkerMissing := by
  induction hlen : text.length using Nat.strong_induction_on generalizing text with
  | h len ih =>
    subst hlen
    cases text with
    | nil => exact .inl ⟨[], .nil⟩
    | cons c rest =>
      have hlt : rest.length < (c :: rest).length := Nat.lt_succ_self _
      obtain rfl | hline := eq_or_ne c newLine
      · rcases ih _ hlt rest rfl with ⟨tokens, htokens⟩ | herror
        · exact .inl ⟨_, .newLine htokens⟩
        · right
          intro pos
          rw [parseBlocks_newLine, herror]
          rfl
      · by_cases hbegin : varBegin <+: c :: rest
        · obtain ⟨afterBegin, hafter⟩ := hbegin
          rw [← hafter] at ih ⊢
          rcases reference_or_unterminated afterBegin with hnone | ⟨name, later, hname, hend, rfl⟩
          · exact .inr fun pos => parseBlocks_unterminated pos hnone
          · have hlt : later.length < (varBegin ++ (name ++ varEnd ++ later)).length := by
              simp only [length_append, varBegin, length_cons]
              omega
            rcases ih _ hlt later rfl with ⟨tokens, htokens⟩ | herror
            · exact .inl ⟨_, .reference hname hend htokens⟩
            · right
              intro pos
              rw [parseBlocks_reference pos later hname hend, herror]
              rfl
        · rcases ih _ hlt rest rfl with ⟨tokens, htokens⟩ | herror
          · exact .inl ⟨_, .character hline hbegin htokens⟩
          · right
            intro pos
            rw [parseBlocks_character pos hline hbegin, herror]

/-! ## §2 Blocks -/

section

variable {variablesMap : Octets → Option Octets} {escaper : Option (Octets → Octets → Octets)}
  {skipUndefined : Bool}

theorem blocksOf_delimiter (tokens : List Token) (h : t.isDelimiter) :
    blocksOf (t :: tokens) = [t] :: blocksOf tokens := by
  simp [blocksOf, h]

theorem blocksOf_other (tokens : List Token) (h : ¬ t.isDelimiter) :
    blocksOf (t :: tokens) = consHead t (blocksOf tokens) := by
  simp [blocksOf, h]

theorem exists_blocksOf (tokens : List Token) :
    ∃ first later, blocksOf tokens = first :: later := by
  cases tokens with
  | nil => exact ⟨[], [], rfl⟩
  | cons t tokens =>
    by_cases h : t.isDelimiter
    · exact ⟨[t], blocksOf tokens, blocksOf_delimiter tokens h⟩
    · rw [blocksOf_other tokens h]
      cases blocksOf tokens with
      | nil => exact ⟨[t], [], rfl⟩
      | cons first later => exact ⟨t :: first, later, rfl⟩

theorem tail_blocksOf_other (tokens : List Token) (h : ¬ t.isDelimiter) :
    (blocksOf (t :: tokens)).tail = (blocksOf tokens).tail := by
  obtain ⟨first, later, hblocks⟩ := exists_blocksOf tokens
  rw [blocksOf_other tokens h, hblocks]
  rfl

theorem renderBlock_cons (t : Token) (block : List Token) :
    renderBlock variablesMap escaper (t :: block) = (do
      let rendered ← renderToken variablesMap escaper t
      let later ← renderBlock variablesMap escaper block
      return rendered ++ later) := by
  unfold renderBlock
  rw [mapM_cons]
  cases renderToken variablesMap escaper t with
  | error e => rfl
  | ok rendered =>
    cases block.mapM (renderToken variablesMap escaper) with
    | error e => rfl
    | ok later => rfl

theorem resolveBlocks_cons (block : List Token) (blocks : List (List Token)) :
    resolveBlocks variablesMap escaper skipUndefined (block :: blocks) = (do
      let rendered ← orSkipped skipUndefined (renderBlock variablesMap escaper block)
      let later ← resolveBlocks variablesMap escaper skipUndefined blocks
      return rendered ++ later) := by
  unfold resolveBlocks
  rw [mapM_cons]
  cases orSkipped skipUndefined (renderBlock variablesMap escaper block) with
  | error e => rfl
  | ok rendered =>
    cases blocks.mapM fun block =>
        orSkipped skipUndefined (renderBlock variablesMap escaper block) with
    | error e => rfl
    | ok later => rfl

variable (variablesMap escaper skipUndefined) in
/-- The result of the blocks, of the first of which a part is built already. -/
def resolveFrom (block : Octets) (tokens : List Token) : Except Exception Octets := do
  let rendered := renderBlock variablesMap escaper ((blocksOf tokens).headD [])
  let first ← orSkipped skipUndefined (rendered.map (block ++ ·))
  let later ← resolveBlocks variablesMap escaper skipUndefined (blocksOf tokens).tail
  return first ++ later

theorem resolveFrom_nil_block (tokens : List Token) :
    resolveFrom variablesMap escaper skipUndefined [] tokens =
      resolveBlocks variablesMap escaper skipUndefined (blocksOf tokens) := by
  obtain ⟨first, later, hblocks⟩ := exists_blocksOf tokens
  rw [resolveFrom, hblocks, resolveBlocks_cons]
  cases h : renderBlock variablesMap escaper first <;> simp [Except.map, h]

theorem resolveFrom_nil (block : Octets) :
    resolveFrom variablesMap escaper skipUndefined block [] = .ok block := by
  simp [resolveFrom, blocksOf, renderBlock, resolveBlocks, Except.map, orSkipped, bind, Except.bind,
    pure, Except.pure]

theorem resolveFrom_of_ok {rendered : Octets} (block : Octets) (tokens : List Token)
    (h : ¬ t.isDelimiter) (hrendered : renderToken variablesMap escaper t = .ok rendered) :
    resolveFrom variablesMap escaper skipUndefined block (t :: tokens) =
      resolveFrom variablesMap escaper skipUndefined (block ++ rendered) tokens := by
  obtain ⟨first, later, hblocks⟩ := exists_blocksOf tokens
  simp only [resolveFrom, blocksOf_other tokens h, hblocks, consHead, headD_cons,
    tail_cons, renderBlock_cons, hrendered]
  cases renderBlock variablesMap escaper first with
  | error e => rfl
  | ok rest => simp [Except.map, bind, Except.bind, pure, Except.pure]

theorem resolveFrom_delimiter {rendered : Octets} (block : Octets)
    (tokens : List Token) (h : t.isDelimiter)
    (hrendered : renderToken variablesMap escaper t = .ok rendered) :
    resolveFrom variablesMap escaper skipUndefined block (t :: tokens) =
      (resolveBlocks variablesMap escaper skipUndefined (blocksOf tokens)).map
        (block ++ rendered ++ ·) := by
  have hnil : renderBlock variablesMap escaper [] = .ok [] := rfl
  simp only [resolveFrom, blocksOf_delimiter tokens h, headD_cons, tail_cons,
    renderBlock_cons, hrendered, hnil]
  cases resolveBlocks variablesMap escaper skipUndefined (blocksOf tokens) <;>
    simp [Except.map, bind, Except.bind, pure, Except.pure, orSkipped]

theorem resolveFrom_of_error {e : Exception} (block : Octets) (tokens : List Token)
    (h : ¬ t.isDelimiter) (herror : renderToken variablesMap escaper t = .error e) :
    resolveFrom variablesMap escaper skipUndefined block (t :: tokens) =
      if skipUndefined then
        resolveBlocks variablesMap escaper skipUndefined (blocksOf tokens).tail
      else .error e := by
  obtain ⟨first, later, hblocks⟩ := exists_blocksOf tokens
  simp only [resolveFrom, blocksOf_other tokens h, hblocks, consHead, headD_cons,
    tail_cons, renderBlock_cons, herror]
  cases skipUndefined with
  | false => rfl
  | true =>
    cases resolveBlocks variablesMap escaper true later <;>
      simp [Except.map, bind, Except.bind, pure, Except.pure, orSkipped]

/-! ## §3 The loop over the markers -/

theorem source_cons (t : Token) (tokens : List Token) :
    source (t :: tokens) = t.text ++ source tokens := rfl

theorem between_append {before rest : Octets} (pos : Nat) :
    between (before ++ rest) pos before.length = before.drop pos := by
  rw [between, take_left]

theorem between_append_append (before text rest : Octets) :
    between (before ++ (text ++ rest)) before.length (before.length + text.length) = text := by
  rw [← append_assoc, ← length_append, between_append, drop_left]

theorem markersOf_delimiter (pos : Nat) (tokens : List Token) (h : t.isDelimiter) :
    ∃ copyData, markersOf pos (t :: tokens) =
      ⟨[], pos, pos + t.text.length, copyData⟩ :: markersOf (pos + t.text.length) tokens := by
  cases t with
  | character c => cases h
  | newLine => exact ⟨true, rfl⟩
  | reference name =>
    obtain rfl : name = [] := isEmpty_iff.mp h
    exact ⟨false, rfl⟩

theorem length_text_reference (pos : Nat) (name : Octets) :
    pos + (Token.reference name).text.length = pos + 2 + name.length + 2 := by
  rw [Token.text, length_reference]
  omega

theorem dropWhile_markersOf_cons (pos : Nat) (tokens : List Token) (h : ¬ t.isDelimiter) :
    (markersOf pos (t :: tokens)).dropWhile (fun m => decide (m.name ≠ [])) =
      (markersOf (pos + t.text.length) tokens).dropWhile (fun m => decide (m.name ≠ [])) := by
  cases t with
  | character c => rfl
  | newLine => exact absurd rfl h
  | reference name =>
    have hname : name ≠ [] := fun hnil => h (isEmpty_iff.mpr hnil)
    rw [length_text_reference, markersOf, dropWhile_cons_of_pos (by simpa using hname)]

/-- The search for the delimiter of a skipped block passes the markers of the
other tokens: it ends at the last block, or at the block after this one. -/
theorem skipped_markers (pos : Nat) (tokens : List Token) :
    ((blocksOf tokens).tail = [] ∧
      (markersOf pos tokens).dropWhile (fun m => decide (m.name ≠ [])) = []) ∨
    ∃ skipped delimiter rest posBegin copyData,
      posBegin = pos + (source skipped).length ∧ tokens = skipped ++ delimiter :: rest ∧
      (blocksOf tokens).tail = blocksOf rest ∧
      (markersOf pos tokens).dropWhile (fun m => decide (m.name ≠ [])) =
        ⟨[], posBegin, posBegin + delimiter.text.length, copyData⟩ ::
          markersOf (posBegin + delimiter.text.length) rest := by
  induction tokens generalizing pos with
  | nil => exact .inl ⟨rfl, rfl⟩
  | cons t tokens ih =>
    by_cases h : t.isDelimiter
    · obtain ⟨copyData, hmarkers⟩ := markersOf_delimiter pos tokens h
      refine .inr ⟨[], t, tokens, pos, copyData, rfl, rfl, ?_, ?_⟩
      · rw [blocksOf_delimiter tokens h, tail_cons]
      · rw [hmarkers, dropWhile_cons_of_neg (by simp)]
    · rw [dropWhile_markersOf_cons pos tokens h, tail_blocksOf_other tokens h]
      rcases ih (pos + t.text.length) with
        hlast | ⟨skipped, d, rest, _, copyData, rfl, rfl, hskip⟩
      · exact .inl hlast
      · refine .inr ⟨t :: skipped, d, rest, _, copyData, ?_, rfl, hskip⟩
        rw [source_cons, length_append, Nat.add_assoc]

theorem resolveLoop_newLine (r : Resolver) (markers : List MarkerInfo) {pos : Nat}
    {before rest : Octets} (block result : Octets)
    (htext : r.templateText = before ++ ([newLine] ++ rest)) :
    resolveLoop r variablesMap escaper
      (⟨[], before.length, before.length + 1, true⟩ :: markers) pos block result =
      resolveLoop r variablesMap escaper markers (before.length + 1) []
        (result ++ (block ++ before.drop pos ++ [newLine])) := by
  have hnewLine := between_append_append before [newLine] rest
  rw [resolveLoop, htext, between_append]
  simp only [if_true, length_singleton] at hnewLine ⊢
  rw [hnewLine]

theorem resolveLoop_separator (r : Resolver) (markers : List MarkerInfo) {pos : Nat}
    {before rest : Octets} (posEnd : Nat) (block result : Octets)
    (htext : r.templateText = before ++ rest) :
    resolveLoop r variablesMap escaper
      (⟨[], before.length, posEnd, false⟩ :: markers) pos block result =
      resolveLoop r variablesMap escaper markers posEnd []
        (result ++ (block ++ before.drop pos)) := by
  rw [resolveLoop, htext, between_append]
  rfl

theorem resolveLoop_value (r : Resolver) (markers : List MarkerInfo) {pos : Nat} {copyData : Bool}
    {value before rest : Octets} (posEnd : Nat) (block result : Octets)
    (htext : r.templateText = before ++ rest) (hname : name ≠ [])
    (hvalue : variablesMap name = some value) :
    resolveLoop r variablesMap escaper
      (⟨name, before.length, posEnd, copyData⟩ :: markers) pos block result =
      resolveLoop r variablesMap escaper markers posEnd
        (block ++ before.drop pos ++ substituted escaper name value) result := by
  rw [resolveLoop, htext, between_append]
  simp only [if_neg hname, hvalue]

theorem resolveLoop_undefined (r : Resolver) (markers : List MarkerInfo) {pos posBegin posEnd : Nat}
    {copyData : Bool} (block result : Octets) (hname : name ≠ [])
    (hvalue : variablesMap name = none) (hskip : r.skipUndefined = false) :
    resolveLoop r variablesMap escaper
      (⟨name, posBegin, posEnd, copyData⟩ :: markers) pos block result =
      .error (undefinedVariable name) := by
  rw [resolveLoop]
  simp [hname, hvalue, hskip]

/-- A skipped block which is the last one. -/
theorem resolveLoop_skip_last (r : Resolver) {markers : List MarkerInfo}
    {pos posBegin posEnd : Nat} {copyData : Bool} (block result : Octets)
    (hname : name ≠ []) (hvalue : variablesMap name = none) (hskip : r.skipUndefined = true)
    (hmarkers : markers.dropWhile (fun m => decide (m.name ≠ [])) = []) :
    resolveLoop r variablesMap escaper
      (⟨name, posBegin, posEnd, copyData⟩ :: markers) pos block result = .ok result := by
  rw [resolveLoop]
  simp only [if_neg hname, hvalue, hskip, if_true]
  split
  · rw [drop_length, append_nil]
  · rename_i hcons
    rw [hmarkers] at hcons
    cases hcons

theorem resolveLoop_skip (r : Resolver) {markers later : List MarkerInfo} {delimiter : MarkerInfo}
    {pos posBegin posEnd : Nat} {copyData : Bool} (block result : Octets)
    (hname : name ≠ []) (hvalue : variablesMap name = none) (hskip : r.skipUndefined = true)
    (hmarkers : markers.dropWhile (fun m => decide (m.name ≠ [])) = delimiter :: later) :
    resolveLoop r variablesMap escaper
      (⟨name, posBegin, posEnd, copyData⟩ :: markers) pos block result =
      resolveLoop r variablesMap escaper later delimiter.posEnd [] result := by
  rw [resolveLoop]
  simp only [if_neg hname, hvalue, hskip, if_true]
  split
  · rename_i hnil
    rw [hmarkers] at hnil
    cases hnil
  · rename_i hcons
    rw [hmarkers] at hcons
    cases hcons
    rfl

/-- A delimiter ends the block which is being built. -/
theorem resolveLoop_delimiter (r : Resolver) (tokens : List Token) (before : Octets)
    (pos : Nat) (block result : Octets) (h : t.isDelimiter)
    (htext : r.templateText = before ++ source (t :: tokens)) :
    ∃ rendered, renderToken variablesMap escaper t = .ok rendered ∧
      resolveLoop r variablesMap escaper (markersOf before.length (t :: tokens)) pos block result =
        resolveLoop r variablesMap escaper (markersOf (before.length + t.text.length) tokens)
          (before.length + t.text.length) []
          (result ++ (block ++ before.drop pos ++ rendered)) := by
  cases t with
  | character c => cases h
  | newLine => exact ⟨[newLine], rfl, resolveLoop_newLine r _ block result htext⟩
  | reference name =>
    obtain rfl : name = [] := isEmpty_iff.mp h
    refine ⟨[], rfl, ?_⟩
    rw [append_nil]
    exact resolveLoop_separator r _ _ block result htext

theorem map_append_append (a b : Octets) (later : Except Exception Octets) :
    (later.map (b ++ ·)).map (a ++ ·) = later.map (a ++ b ++ ·) := by
  cases later <;> simp [Except.map]

theorem source_append (a b : List Token) : source (a ++ b) = source a ++ source b :=
  flatMap_append

/-- A block which is skipped, when the loop does the blocks after it. -/
theorem resolveLoop_skipBlock (r : Resolver) (tokens : List Token) {pos posBegin : Nat}
    (posEnd : Nat) {copyData : Bool} (block result : Octets) (hname : name ≠ [])
    (hvalue : variablesMap name = none) (hskip : r.skipUndefined = true)
    (hrest : ∀ skipped d rest, tokens = skipped ++ d :: rest →
      resolveLoop r variablesMap escaper
          (markersOf (posEnd + (source skipped).length + d.text.length) rest)
          (posEnd + (source skipped).length + d.text.length) [] result =
        (resolveBlocks variablesMap escaper r.skipUndefined (blocksOf rest)).map (result ++ ·)) :
    resolveLoop r variablesMap escaper
      (⟨name, posBegin, posEnd, copyData⟩ :: markersOf posEnd tokens) pos block result =
      (resolveBlocks variablesMap escaper r.skipUndefined (blocksOf tokens).tail).map
        (result ++ ·) := by
  rcases skipped_markers posEnd tokens with
    ⟨htail, hmarkers⟩ | ⟨skipped, d, rest, _, delimiterData, rfl, htokens, htail, hmarkers⟩
  · rw [resolveLoop_skip_last r block result hname hvalue hskip hmarkers, htail]
    simp [resolveBlocks, Except.map, pure, Except.pure]
  · rw [resolveLoop_skip r block result hname hvalue hskip hmarkers, htail]
    exact hrest skipped d rest htokens

variable (variablesMap escaper) in
/-- The loop from the marker of a token on: the block is what has been built
of it with the text which has not been copied yet. -/
theorem resolveLoop_eq (r : Resolver) (tokens : List Token) (before : Octets) (pos : Nat)
    (block result : Octets) (htext : r.templateText = before ++ source tokens)
    (hpos : pos ≤ before.length) :
    resolveLoop r variablesMap escaper (markersOf before.length tokens) pos block result =
      (resolveFrom variablesMap escaper r.skipUndefined (block ++ before.drop pos) tokens).map
        (result ++ ·) := by
  induction hlen : tokens.length using Nat.strong_induction_on
    generalizing tokens before pos block result with
  | h len ih =>
    subst hlen
    -- the loop after a delimiter, at the beginning of a block
    have hblocks : ∀ (t : Token) (earlier : Octets) (rest : List Token) (result : Octets),
        rest.length < tokens.length → r.templateText = earlier ++ source (t :: rest) →
        resolveLoop r variablesMap escaper (markersOf (earlier.length + t.text.length) rest)
            (earlier.length + t.text.length) [] result =
          (resolveBlocks variablesMap escaper r.skipUndefined (blocksOf rest)).map
            (result ++ ·) := by
      intro t earlier rest result hlt htext
      rw [source_cons, ← append_assoc] at htext
      have hloop := ih rest.length hlt rest (earlier ++ t.text) (earlier ++ t.text).length []
        result htext le_rfl rfl
      rwa [drop_length, nil_append, resolveFrom_nil_block, length_append] at hloop
    cases tokens with
    | nil =>
      have hdrop : (before ++ source []).drop pos = before.drop pos := by
        rw [source, flatMap_nil, append_nil]
      rw [resolveFrom_nil, markersOf, resolveLoop, htext, hdrop, append_assoc]
      rfl
    | cons t tokens =>
      have hlt : tokens.length < (t :: tokens).length := Nat.lt_succ_self _
      by_cases hdelimiter : t.isDelimiter
      · obtain ⟨rendered, hrendered, hloop⟩ :=
          resolveLoop_delimiter r tokens before pos block result hdelimiter htext
        rw [hloop, hblocks t before tokens _ hlt htext,
          resolveFrom_delimiter _ _ hdelimiter hrendered, map_append_append]
      · have htext' : r.templateText = before ++ t.text ++ source tokens := by
          rw [htext, source_cons, append_assoc]
        have hpos' : pos ≤ (before ++ t.text).length := by
          rw [length_append]
          omega
        cases t with
        | newLine => exact absurd rfl hdelimiter
        | character c =>
          have hloop := ih tokens.length hlt tokens (before ++ [c]) pos block result htext'
            hpos' rfl
          rw [length_append, drop_append_of_le_length hpos,
            ← append_assoc] at hloop
          have hrendered : renderToken variablesMap escaper (.character c) = .ok [c] := rfl
          rw [resolveFrom_of_ok _ _ hdelimiter hrendered, ← hloop]
          rfl
        | reference name =>
          have hname : name ≠ [] := fun hnil => hdelimiter (isEmpty_iff.mpr hnil)
          rw [markersOf, ← length_text_reference]
          cases hvalue : variablesMap name with
          | some value =>
            have hrendered : renderToken variablesMap escaper (.reference name) =
                .ok (substituted escaper name value) := by
              simp only [renderToken, if_neg hname, hvalue]
            have hloop := ih tokens.length hlt tokens (before ++ (Token.reference name).text)
              (before ++ (Token.reference name).text).length
              (block ++ before.drop pos ++ substituted escaper name value) result htext'
              le_rfl rfl
            rw [drop_length, append_nil, length_append] at hloop
            rw [resolveLoop_value r _ _ block result htext hname hvalue, hloop,
              resolveFrom_of_ok _ _ hdelimiter hrendered]
          | none =>
            have hrendered : renderToken variablesMap escaper (.reference name) =
                .error (undefinedVariable name) := by
              simp only [renderToken, if_neg hname, hvalue]
            rw [resolveFrom_of_error _ _ hdelimiter hrendered]
            cases hskip : r.skipUndefined with
            | false =>
              rw [resolveLoop_undefined r _ block result hname hvalue hskip]
              rfl
            | true =>
              rw [if_pos rfl, ← hskip]
              refine resolveLoop_skipBlock r tokens _ block result hname hvalue hskip
                fun skipped d rest heq => ?_
              rw [heq, source_append, ← append_assoc] at htext'
              have hloop := hblocks d _ rest result
                (by rw [heq, length_cons, length_append, length_cons]; omega)
                htext'
              rwa [length_append, length_append] at hloop

end

/-- Parsing refuses a text which cannot be read as tokens. Any other text is
read in one way, each of its characters once, and resolving it gives its
blocks in order, each of them rendered as a whole, skipped or refused. -/
theorem template_resolves_blocks (templateText : Octets) (skipUndefined : Bool) :
    (create templateText skipUndefined = .error endMarkerMissing ∧
      ∀ tokens, ¬ Tokenizes templateText tokens) ∨
    ∃ tokens, Tokenizes templateText tokens ∧
      (∀ tokens', Tokenizes templateText tokens' → tokens' = tokens) ∧
      source tokens = templateText ∧
      ∃ r, create templateText skipUndefined = .ok r ∧ r.markers = markersOf 0 tokens ∧
        ∀ variablesMap escaper, resolve r variablesMap escaper =
          resolveBlocks variablesMap escaper skipUndefined (blocksOf tokens) := by
  rcases tokenizes_or_error templateText with ⟨tokens, htokens⟩ | herror
  · have hsource := htokens.source_eq
    have hcreate : create templateText skipUndefined =
        .ok ⟨templateText, skipUndefined, markersOf 0 tokens⟩ := by
      rw [create, parseTemplate, htokens.parseBlocks_eq]
      rfl
    refine Or.inr ⟨tokens, htokens, fun tokens' h => htokens.unique h, hsource, _, hcreate, rfl,
      fun variablesMap escaper => ?_⟩
    have hloop := resolveLoop_eq variablesMap escaper
      ⟨templateText, skipUndefined, markersOf 0 tokens⟩ tokens [] 0 [] [] hsource.symm le_rfl
    rw [List.drop_nil, List.append_nil, resolveFrom_nil_block] at hloop
    refine hloop.trans ?_
    cases resolveBlocks variablesMap escaper skipUndefined (blocksOf tokens) <;> rfl
  · left
    constructor
    · rw [create, parseTemplate, herror]
      rfl
    · intro tokens htokens
      have hparse := htokens.parseBlocks_eq 0
      rw [herror] at hparse
      cases hparse

end Baselib.Core.StringTemplateResolver
