/-
Baselib.Core.StringTemplateResolver — templates with variables, resolved
block by block, `core/StringTemplateResolver.h`.

`parseTemplate` goes through the lines of a text and finds the markers in
each: the references to variables, and at the end of each line but the last
the line break. `resolve` goes through the markers, with the text between
them, and builds a block which is added to the result at the next delimiter
or thrown away when a variable of it is undefined.

An iterator is a position in the text. The search for a marker is within one
line, so a line is parsed on its own, from the position it begins at. The
values come from any map, and the escaper does not throw.
-/
import Baselib.Lib.TextSearch

namespace Baselib.Core.StringTemplateResolver

open Lib (Octets octets cut findText findText_length_le exists_cut cut_of_not_mem
  cut_append_cons)

/-- `marker_info_t` -/
structure MarkerInfo where
  name : Octets
  posBegin : Nat
  posEnd : Nat
  copyData : Bool
  deriving DecidableEq, Repr

inductive Exception where
  /-- `InvalidDataFormatException` with its message. -/
  | invalidDataFormat (message : Octets)
  /-- `NotFoundException` with its message. -/
  | notFound (message : Octets)
  deriving DecidableEq, Repr

/-- `g_varBegin` -/
def varBegin : Octets := [123, 123]

/-- `g_varEnd` -/
def varEnd : Octets := [125, 125]

def newLine : UInt8 := 10

def endMarkerMissing : Exception :=
  .invalidDataFormat (octets <| "Variable end marker '\x7d\x7d' cannot be found while parsing " ++
    "string template")

def undefinedVariable (name : Octets) : Exception :=
  .notFound (octets "Variable '" ++ name ++
    octets "' is undefined when resolving a string template")

/-! ## Parsing -/

/-- The markers of a line, from a position of it on. The reference without a
name is the block separator. -/
def parseLine (pos : Nat) (line : Octets) : Except Exception (List MarkerInfo) :=
  match _hbegin : findText varBegin line with
  | none => .ok []
  | some i =>
    let afterBegin := line.drop (i + 2)
    match findText varEnd afterBegin with
    | none => .error endMarkerMissing
    | some j =>
      let newPos := pos + i + 2 + j + 2
      (parseLine newPos (afterBegin.drop (j + 2))).map
        (⟨afterBegin.take j, pos + i, newPos, j ≠ 0⟩ :: ·)
termination_by line.length
decreasing_by
  have hle := findText_length_le _hbegin (by decide)
  simp only [varBegin, List.length_cons, List.length_nil, List.length_drop] at hle ⊢
  omega

theorem length_lt_of_cut {line rest text : Octets} (h : cut newLine text = (line, some rest)) :
    rest.length < text.length := by
  obtain ⟨before, hbefore, rfl | ⟨tail, rfl⟩⟩ := exists_cut newLine text
  · rw [cut_of_not_mem hbefore] at h
    cases h
  · rw [cut_append_cons tail hbefore] at h
    cases h
    simp only [List.length_append, List.length_cons]
    omega

/-- The markers of a text which begins at this position. -/
def parseBlocks (blockPosBegin : Nat) (text : Octets) : Except Exception (List MarkerInfo) :=
  match _hcut : cut newLine text with
  | (line, none) => parseLine blockPosBegin line
  | (line, some rest) => do
      let blockPosEnd := blockPosBegin + line.length
      let markers ← parseLine blockPosBegin line
      let later ← parseBlocks (blockPosEnd + 1) rest
      return markers ++ ⟨[], blockPosEnd, blockPosEnd + 1, true⟩ :: later
termination_by text.length
decreasing_by exact length_lt_of_cut _hcut

def parseTemplate (templateText : Octets) : Except Exception (List MarkerInfo) :=
  parseBlocks 0 templateText

/-- `m_templateText`, `m_skipUndefined` and `m_markers`. -/
structure Resolver where
  templateText : Octets
  skipUndefined : Bool
  markers : List MarkerInfo
  deriving DecidableEq, Repr

/-- The constructor. -/
def create (templateText : Octets) (skipUndefined : Bool) :
    Except Exception Resolver :=
  (parseTemplate templateText).map fun markers => ⟨templateText, skipUndefined, markers⟩

/-! ## Resolving -/

/-- The text between two iterators. -/
def between (text : Octets) (first last : Nat) : Octets := (text.take last).drop first

/-- A value as it is substituted. -/
def substituted (escaper : Option (Octets → Octets → Octets)) (name value : Octets) : Octets :=
  match escaper with
  | some escape => escape name value
  | none => value

/-- The loop over the markers, with the position in the text, the block which
is being built and the result so far. -/
def resolveLoop (r : Resolver) (variablesMap : Octets → Option Octets)
    (escaper : Option (Octets → Octets → Octets)) :
    List MarkerInfo → Nat → Octets → Octets → Except Exception Octets
  | [], pos, block, result => .ok (result ++ block ++ r.templateText.drop pos)
  | marker :: markers, pos, block, result =>
    let block := block ++ between r.templateText pos marker.posBegin
    if marker.name = [] then
      let block :=
        if marker.copyData then
          block ++ between r.templateText marker.posBegin marker.posEnd
        else block
      resolveLoop r variablesMap escaper markers marker.posEnd [] (result ++ block)
    else
      match variablesMap marker.name with
      | some value =>
        resolveLoop r variablesMap escaper markers marker.posEnd
          (block ++ substituted escaper marker.name value) result
      | none =>
        if r.skipUndefined then
          -- on to the delimiter of the block, which is skipped with it
          match _hskip : markers.dropWhile fun marker => marker.name ≠ [] with
          | [] => .ok (result ++ r.templateText.drop r.templateText.length)
          | delimiter :: later =>
            resolveLoop r variablesMap escaper later delimiter.posEnd [] result
        else .error (undefinedVariable marker.name)
termination_by markers => markers.length
decreasing_by
  · simp
  · simp
  · have hsuffix := List.dropWhile_suffix (fun m => decide (m.name ≠ [])) (l := markers)
    have hle := hsuffix.length_le
    rw [_hskip] at hle
    simp only [List.length_cons] at hle ⊢
    omega

def resolve (r : Resolver) (variablesMap : Octets → Option Octets)
    (escaper : Option (Octets → Octets → Octets)) : Except Exception Octets :=
  resolveLoop r variablesMap escaper r.markers 0 [] []

end Baselib.Core.StringTemplateResolver
