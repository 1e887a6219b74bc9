/-
Baselib.Core.StringUtils — the members of `bl::str` and `bl::utils` the
HTTP code is written with: `trim`, `iequals`, `splitString`,
`quoteString` and `lexical_cast`.

The locale is the classic one, so white space is the six octets of
`std::isspace` and case is ASCII case. `splitString` keeps the loop of
the source over positions of the whole text; `splitString_eq` says that
it answers the pieces of the range it was given.
-/
import Mathlib.Data.List.DropRight
import Baselib.Core.Uri
import Baselib.Lib.TextSearch

namespace Baselib.Core.Str

open Lib List
open Core.Uri (isDigit digitsValue toLowerCopy)

/-! ## White space and case -/

/-- `str::is_space`. -/
def isSpace (ch : UInt8) : Bool := ch == ' '.toUInt8 || ('\t'.toUInt8 ≤ ch && ch ≤ '\r'.toUInt8)

/-- `str::trim`. -/
def trim (text : Octets) : Octets := (text.dropWhile isSpace).rdropWhile isSpace

/-- `str::iequals`. -/
def iequals (a b : Octets) : Bool := toLowerCopy a == toLowerCopy b

/-- `str::quoteString`. -/
def quoteString (text : Octets) : Octets := octets "'" ++ text ++ octets "'"

/-- What `trim` removes is white space on either side. -/
theorem trim_split (text : Octets) :
    ∃ l r, text = l ++ trim text ++ r ∧ (∀ ch ∈ l, isSpace ch) ∧ ∀ ch ∈ r, isSpace ch := by
  refine ⟨text.takeWhile isSpace, (text.dropWhile isSpace).rtakeWhile isSpace, ?_,
    fun ch => mem_takeWhile_imp, fun ch => mem_rtakeWhile_imp⟩
  rw [trim, append_assoc, rdropWhile_append_rtakeWhile, takeWhile_append_dropWhile]

/-! ## `splitString` -/

/-- The loop of `splitString`. Each turn which continues has moved
`currentPos` past a separator, so `endPos - currentPos` turns are left at
most. -/
def splitStringLoop (text separator : Octets) (endPos : Nat) : Nat → Nat → List Octets
  | 0, _ => []
  | turns + 1, currentPos =>
    let rest := text.drop currentPos
    match findText separator rest with
    | some pos =>
      if currentPos + pos + separator.length ≤ endPos then
        rest.take pos ::
          (if currentPos + pos + separator.length ≠ endPos then
            splitStringLoop text separator endPos turns (currentPos + pos + separator.length)
          else [(text.drop endPos).take 0])
      else [rest.take (endPos - currentPos)]
    | none => [rest.take (endPos - currentPos)]

/-- `splitString`; `none` is the `ArgumentException`. -/
def splitString (text separator : Octets) (startPos : Nat := 0) (endPos : Option Nat := none) :
    Option (List Octets) :=
  let endPos := endPos.getD text.length
  if separator ≠ [] ∧ startPos ≤ text.length ∧ endPos ≤ text.length ∧ startPos ≤ endPos then
    if separator.length > endPos - startPos then
      some [(text.drop startPos).take (endPos - startPos)]
    else
      some (splitStringLoop text separator endPos (endPos - startPos + 1) startPos)
  else none

theorem splitStringLoop_eq {text separator : Octets} (hsep : separator ≠ []) {endPos : Nat}
    (hend : endPos ≤ text.length) : ∀ {turns currentPos : Nat}, currentPos ≤ endPos →
      endPos - currentPos < turns →
      splitStringLoop text separator endPos turns currentPos =
        splitText separator ((text.take endPos).drop currentPos)
  | 0, _, _, hturns => absurd hturns (Nat.not_lt_zero _)
  | turns + 1, currentPos, hle, hturns => by
      have hpos := length_pos_iff.mpr hsep
      have hcut : (text.take endPos).drop currentPos =
          (text.drop currentPos).take (endPos - currentPos) := drop_take ..
      rw [splitStringLoop]
      cases hfind : findText separator (text.drop currentPos) with
      | none =>
        have hnone : findText separator ((text.drop currentPos).take (endPos - currentPos)) =
            none := by
          rw [findText_eq_none_iff hsep] at hfind ⊢
          exact fun h => hfind (h.trans (List.take_prefix _ _).isInfix)
        rw [hcut, splitText_of_none hsep hnone]
      | some pos =>
        have htake := findText_take hsep hfind (endPos - currentPos)
        show (if currentPos + pos + separator.length ≤ endPos then _ else _) = _
        split_ifs with hfits hlast
        · have hsome := htake.trans (if_pos (by omega))
          rw [hcut, splitText_of_some hsep hsome, take_take, Nat.min_eq_left (by omega),
            splitStringLoop_eq hsep hend hfits (by omega), ← hcut, drop_drop]
          rw [Nat.add_assoc currentPos]
        · have hsome := htake.trans (if_pos (by omega))
          have hdrop : ((text.drop currentPos).take (endPos - currentPos)).drop
              (pos + separator.length) = [] := by
            rw [drop_eq_nil_iff, length_take]
            omega
          rw [hcut, splitText_of_some hsep hsome, take_take, Nat.min_eq_left (by omega),
            hdrop, take_zero]
          rfl
        · have hnone := htake.trans (if_neg (by omega))
          rw [hcut, splitText_of_none hsep hnone]

/-- `splitString` answers the pieces of its range. -/
theorem splitString_range {text separator : Octets} (hsep : separator ≠ []) {startPos : Nat}
    {endPos : Option Nat} (hstart : startPos ≤ endPos.getD text.length)
    (hend : endPos.getD text.length ≤ text.length) :
    splitString text separator startPos endPos =
      some (splitText separator ((text.take (endPos.getD text.length)).drop startPos)) := by
  unfold splitString
  generalize endPos.getD text.length = last at hstart hend ⊢
  have hcut : (text.take last).drop startPos = (text.drop startPos).take (last - startPos) :=
    drop_take ..
  rw [if_pos ⟨hsep, hstart.trans hend, hend, hstart⟩]
  split_ifs with hlong
  · have hnone : findText separator ((text.drop startPos).take (last - startPos)) = none := by
      rw [findText_eq_none_iff hsep]
      intro h
      have hle := h.length_le
      rw [length_take] at hle
      omega
    rw [hcut, splitText_of_none hsep hnone]
  · rw [splitStringLoop_eq hsep hend hstart (Nat.lt_succ_self _)]

theorem splitString_eq {text separator : Octets} (hsep : separator ≠ []) {endPos : Nat}
    (hend : endPos ≤ text.length) :
    splitString text separator 0 (some endPos) = some (splitText separator (text.take endPos)) :=
  @splitString_range text separator hsep 0 (some endPos) (Nat.zero_le _) hend

/-- Joining the pieces gives the range back, none of them contains the
separator, and they depend on the range alone. -/
theorem splitString_joins (text separator : Octets) (startPos : Nat) (endPos : Option Nat)
    (hsep : separator ≠ []) (hstart : startPos ≤ endPos.getD text.length)
    (hend : endPos.getD text.length ≤ text.length) :
    ∃ pieces, splitString text separator startPos endPos = some pieces ∧
      separator.intercalate pieces = (text.take (endPos.getD text.length)).drop startPos ∧
      (∀ piece ∈ pieces, ¬ separator <:+: piece) ∧
      ∀ before after, splitString (before ++ separator.intercalate pieces ++ after) separator
        before.length (some (before ++ separator.intercalate pieces).length) = some pieces := by
  refine ⟨_, splitString_range hsep hstart hend, intercalate_splitText hsep _,
    fun piece hpiece => not_infix_of_mem_splitText hsep _ hpiece, fun before after => ?_⟩
  rw [intercalate_splitText hsep]
  generalize (text.take (endPos.getD text.length)).drop startPos = range
  have hlast : (some (before ++ range).length).getD (before ++ range ++ after).length =
      (before ++ range).length := rfl
  rw [splitString_range hsep (by rw [hlast, List.length_append]; omega)
    (by rw [hlast, @List.length_append _ _ after]; omega), hlast, List.take_left, List.drop_left]

/-- The separator at the end of the text goes beyond the range. -/
theorem splitString_joins_straddling :
    ∃ pieces, splitString (octets "x::a::b:") (octets "::") 1 (some 7) = some pieces ∧
      (octets "::").intercalate pieces = octets "::a::b" ∧ ∀ piece ∈ pieces,
        ¬ octets "::" <:+: piece := by
  obtain ⟨pieces, hpieces, hjoin, hnone, -⟩ := splitString_joins (octets "x::a::b:") (octets "::") 1
    (some 7) (by decide) (by decide) (by decide)
  exact ⟨pieces, hpieces, hjoin, hnone⟩

/-! ## `lexical_cast` -/

/-- The number of a `std::size_t` written in decimal digits. -/
def unsignedDigits (text : Octets) : Option Nat :=
  if text ≠ [] ∧ text.all isDigit ∧ digitsValue text < 2 ^ 64 then some (digitsValue text)
  else none

/-- `utils::lexical_cast< std::size_t >`; `none` is `bad_lexical_cast`. A
sign is accepted, and a minus sign negates modulo 2^64. -/
def lexicalCast : Octets → Option Nat
  | [] => none
  | ch :: rest =>
    if ch = '-'.toUInt8 then (unsignedDigits rest).map fun n => (2 ^ 64 - n) % 2 ^ 64
    else if ch = '+'.toUInt8 then unsignedDigits rest
    else unsignedDigits (ch :: rest)

theorem unsignedDigits_eq_some {text : Octets} {n : Nat} :
    unsignedDigits text = some n ↔
      text ≠ [] ∧ text.all isDigit ∧ digitsValue text < 2 ^ 64 ∧ digitsValue text = n := by
  unfold unsignedDigits
  split_ifs with h
  · rw [Option.some.injEq]
    exact ⟨fun heq => ⟨h.1, h.2.1, h.2.2, heq⟩, fun h' => h'.2.2.2⟩
  · exact ⟨fun hfalse => hfalse.elim, fun h' => absurd ⟨h'.1, h'.2.1, h'.2.2.1⟩ h⟩

/-- A text without a sign is read as its digits. -/
theorem lexicalCast_of_unsigned {text : Octets}
    (h : ∀ ch ∈ text.head?, ch ≠ '+'.toUInt8 ∧ ch ≠ '-'.toUInt8) :
    lexicalCast text = unsignedDigits text := by
  cases text with
  | nil => rfl
  | cons ch rest =>
    have hch := h ch rfl
    rw [lexicalCast, if_neg hch.2, if_neg hch.1]

end Baselib.Core.Str
