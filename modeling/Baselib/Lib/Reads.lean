/-
Baselib.Lib.Reads — a stream which arrives in pieces, read some elements
at a time or up to a delimiter.

`readUntil` fills a bounded buffer until the delimiter stands in it. Whether
it gets there is settled by the stream as a whole (`readUntil_ok`,
`readUntil_error`), however the stream was cut. What the cut decides is how
much the buffer holds beyond the delimiter, so a reader which goes on from
the buffer has to give the same answer on a longer one.
-/
import Baselib.Lib.TextSearch

namespace Baselib.Lib

open List

variable {α : Type}

/-- A way of cutting a stream into the pieces which arrive together. -/
structure Cut (s : List α) where
  pieces : List (List α)
  nonempty : ∀ p ∈ pieces, p ≠ []
  flatten_eq : pieces.flatten = s

/-- One read of at most `n` elements; `none` is the end of the stream. -/
def readSome (n : Nat) : List (List α) → Option (List α × List (List α))
  | [] => none
  | p :: ps => if p.length ≤ n then some (p, ps) else some (p.take n, p.drop n :: ps)

theorem readSome_flatten {n : Nat} {pieces pieces' : List (List α)} {p : List α}
    (h : readSome n pieces = some (p, pieces')) : p ++ pieces'.flatten = pieces.flatten := by
  cases pieces with
  | nil => cases h
  | cons q qs =>
    rw [readSome] at h
    split_ifs at h <;> cases h
    · rfl
    · rw [flatten_cons, flatten_cons, ← append_assoc, take_append_drop]

theorem readSome_length {n : Nat} {pieces pieces' : List (List α)} {p : List α}
    (h : readSome n pieces = some (p, pieces')) : p.length ≤ n := by
  cases pieces with
  | nil => cases h
  | cons q qs =>
    rw [readSome] at h
    split_ifs at h with hle <;> cases h
    · exact hle
    · exact length_take_le n q

/-- Every read leaves fewer pieces or fewer elements. -/
theorem readSome_lt {n : Nat} (hn : 0 < n) {pieces pieces' : List (List α)} {p : List α}
    (h : readSome n pieces = some (p, pieces')) :
    pieces'.length + pieces'.flatten.length < pieces.length + pieces.flatten.length := by
  cases pieces with
  | nil => cases h
  | cons q qs =>
    rw [readSome] at h
    split_ifs at h with hle <;> cases h
    · simp only [length_cons, flatten_cons, length_append]
      omega
    · simp only [length_cons, flatten_cons, length_append, length_drop]
      omega

/-! ## Up to a delimiter -/

inductive ReadError where
  | eof
  | notFound
  deriving DecidableEq, Repr

section

variable [DecidableEq α]

/-- Reads until the delimiter stands in the buffer, which holds `maxSize`
elements at most. The answer is the buffer and what is still to arrive. -/
def readUntil (delim : List α) (maxSize : Nat) (buffer : List α) (pieces : List (List α)) :
    Except ReadError (List α × List (List α)) :=
  if (findText delim buffer).isSome then .ok (buffer, pieces)
  else if _hfull : maxSize ≤ buffer.length then .error .notFound
  else
    match _hread : readSome (maxSize - buffer.length) pieces with
    | none => .error .eof
    | some (p, pieces') => readUntil delim maxSize (buffer ++ p) pieces'
termination_by pieces.length + pieces.flatten.length
decreasing_by exact readSome_lt (by omega) _hread

/-- How a search which does not find the delimiter ends. -/
def searchError (maxSize : Nat) (s : List α) : ReadError :=
  if maxSize ≤ s.length then .notFound else .eof

variable {delim : List α} {maxSize : Nat}

theorem readUntil_ok {buffer : List α} {pieces : List (List α)}
    (hbuffer : buffer.length ≤ maxSize) {buffer' : List α} {pieces' : List (List α)}
    (h : readUntil delim maxSize buffer pieces = .ok (buffer', pieces')) :
    buffer' ++ pieces'.flatten = buffer ++ pieces.flatten ∧ buffer'.length ≤ maxSize ∧
      ∃ n, findText delim buffer' = some n := by
  fun_induction readUntil delim maxSize buffer pieces with
  | case1 buffer pieces hfound =>
    cases h
    exact ⟨rfl, hbuffer, Option.isSome_iff_exists.mp hfound⟩
  | case2 => cases h
  | case3 => cases h
  | case4 buffer pieces hfound hfull p pieces₁ hread ih =>
    have hlen := readSome_length hread
    obtain ⟨htotal, hrest⟩ := ih (by rw [length_append]; omega) h
    exact ⟨by rw [htotal, append_assoc, readSome_flatten hread], hrest⟩

theorem readUntil_error {buffer : List α} {pieces : List (List α)}
    (hbuffer : buffer.length ≤ maxSize) {e : ReadError}
    (h : readUntil delim maxSize buffer pieces = .error e) :
    findText delim ((buffer ++ pieces.flatten).take maxSize) = none ∧
      e = searchError maxSize (buffer ++ pieces.flatten) := by
  fun_induction readUntil delim maxSize buffer pieces with
  | case1 => cases h
  | case2 buffer pieces hfound hfull =>
    cases h
    have herror : searchError maxSize (buffer ++ pieces.flatten) = .notFound := by
      rw [searchError, if_pos (by rw [length_append]; omega)]
    rw [take_append_of_le_length hfull, take_of_length_le hbuffer, herror]
    exact ⟨Option.not_isSome_iff_eq_none.mp hfound, rfl⟩
  | case3 buffer pieces hfound hfull hread =>
    cases h
    cases pieces with
    | cons q qs =>
      rw [readSome] at hread
      split_ifs at hread
    | nil =>
      rw [flatten_nil, append_nil, take_of_length_le hbuffer]
      exact ⟨Option.not_isSome_iff_eq_none.mp hfound, by rw [searchError, if_neg hfull]⟩
  | case4 buffer pieces hfound hfull p pieces₁ hread ih =>
    have hlen := readSome_length hread
    have hstep := ih (by rw [length_append]; omega) h
    rwa [append_assoc, readSome_flatten hread] at hstep

/-- A buffer with the delimiter in it is a beginning of the stream in which
a search of the stream finds it at the same place. -/
theorem findText_take_of_append (hdelim : delim ≠ []) {buffer rest s : List α}
    (h : buffer ++ rest = s) (hbuffer : buffer.length ≤ maxSize) {n : Nat}
    (hn : findText delim buffer = some n) : findText delim (s.take maxSize) = some n := by
  have hbegin : buffer <+: s.take maxSize :=
    prefix_take_iff.mpr ⟨⟨rest, h⟩, hbuffer⟩
  obtain ⟨b, hb⟩ := hbegin
  rw [← hb]
  exact findText_append_right hdelim b hn

end

end Baselib.Lib
