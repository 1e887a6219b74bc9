/-
Baselib.Lib.Octets — octet strings and the members of `std::string`
that cut them: `find`, `rfind`, `substr` and `erase`.

A `std::string` is the list of its octets. `npos` is `none`, and the
`std::out_of_range` of `substr` and `erase` is `none` of their result,
so a caller has to say what it does with either. Every search is stated
once, at the decomposition it finds: a search for `c` in `a ++ c :: b`
with `c` not in `a` answers `a.length`, and the cuts at that position
give back `a` and `b`. A proof about a parser built from these members
then never meets an index.
-/
import Mathlib.Data.FinEnum

namespace Baselib.Lib

open List

/-- The octets of a text. -/
abbrev Octets := List UInt8

/-- One name for the instance, which every comparison of texts uses. -/
instance octetsLawfulBEq : LawfulBEq Octets := inferInstance

/-- The octets of a character string whose characters are all below 256. -/
def octets (s : String) : Octets := s.toList.map Char.toUInt8

section

variable {α : Type} [DecidableEq α]

/-! ## Searches -/

/-- `s.find( c, pos )`. -/
def find (s : List α) (c : α) (pos : Nat) : Option Nat :=
  ((s.drop pos).idxOf? c).map (pos + ·)

/-- `s.find( text, 0 )` of a text rather than of one octet. -/
def findText (text : List α) : List α → Option Nat
  | [] => if text = [] then some 0 else none
  | x :: xs => if text <+: x :: xs then some 0 else (findText text xs).map (· + 1)

/-- `s.rfind( c )`. -/
def rfind (s : List α) (c : α) : Option Nat :=
  (s.reverse.idxOf? c).map (s.length - 1 - ·)

theorem find_eq_none {s : List α} {c : α} : find s c 0 = none ↔ c ∉ s := by
  simp [find]

/-- The first occurrence is the one with no other before it. -/
theorem find_append_cons {a : List α} {c : α} (b : List α) (h : c ∉ a) :
    find (a ++ c :: b) c 0 = some a.length := by
  simp only [find, drop_zero, Nat.zero_add, Option.map_id']
  rw [idxOf?_eq_some_iff]
  refine ⟨by simp, by simp, fun j hj => ?_⟩
  rw [getElem_append_left hj]
  exact fun e => h (by simp [← e])

/-- A search which starts past a prefix is the search in the rest. -/
theorem find_append_length (a s : List α) (c : α) :
    find (a ++ s) c a.length = (find s c 0).map (a.length + ·) := by
  simp [find]

/-- Either the octet does not occur, or the text splits at its first
occurrence. -/
theorem find_cases (s : List α) (c : α) :
    (c ∉ s ∧ find s c 0 = none) ∨
      ∃ a b, s = a ++ c :: b ∧ c ∉ a ∧ find s c 0 = some a.length := by
  by_cases h : c ∈ s
  · obtain ⟨a, b, rfl, ha⟩ := eq_append_cons_of_mem h
    exact .inr ⟨a, b, rfl, ha, find_append_cons b ha⟩
  · exact .inl ⟨h, find_eq_none.mpr h⟩

/-- The part of a text before the first `c`, and the part after it. -/
theorem exists_cut (c : α) (s : List α) :
    ∃ a, c ∉ a ∧ (s = a ∨ ∃ b, s = a ++ c :: b) := by
  rcases find_cases s c with ⟨h, -⟩ | ⟨a, b, rfl, ha, -⟩
  · exact ⟨s, h, .inl rfl⟩
  · exact ⟨a, ha, .inr ⟨b, rfl⟩⟩

/-- A text splits at its first occurrence in one way. -/
theorem append_cons_inj {a a' : List α} {c : α} {b b' : List α} (ha : c ∉ a) (ha' : c ∉ a') :
    a ++ c :: b = a' ++ c :: b' ↔ a = a' ∧ b = b' := by
  constructor
  · intro h
    have hlen : a.length = a'.length := by
      have := find_append_cons b ha
      rw [h, find_append_cons b' ha'] at this
      exact (Option.some.inj this).symm
    obtain ⟨rfl, hb⟩ := append_inj h hlen
    exact ⟨rfl, by simpa using hb⟩
  · rintro ⟨rfl, rfl⟩
    rfl

/-- The pieces between the delimiters, the last of them set apart. -/
theorem exists_splitOn (c : α) (s : List α) : ∃ ps p, s.splitOn c = ps ++ [p] :=
  (eq_nil_or_concat' _).resolve_left (splitOn_ne_nil c s)

/-- The pieces have no delimiter in them. -/
theorem not_mem_of_mem_splitOn {c : α} {s : List α} : ∀ {p : List α}, p ∈ s.splitOn c → c ∉ p := by
  induction s with
  | nil => simp
  | cons x xs ih =>
    intro p hp
    rw [splitOn_cons_eq_if_modifyHead] at hp
    obtain ⟨q, qs, hq⟩ := exists_cons_of_ne_nil (splitOn_ne_nil c xs)
    by_cases hx : x = c
    · rw [if_pos (by simpa using hx)] at hp
      rcases mem_cons.mp hp with rfl | hp
      · exact not_mem_nil
      · exact ih hp
    · rw [if_neg (by simpa using hx), hq, modifyHead_cons] at hp
      rcases mem_cons.mp hp with rfl | hp
      · have hcq : c ∉ q := ih (by simp [hq])
        simp [hcq, Ne.symm hx]
      · exact ih (by simp [hq, hp])

theorem rfind_eq_none {s : List α} {c : α} : rfind s c = none ↔ c ∉ s := by
  simp [rfind]

/-- The last occurrence is the one with no other after it. -/
theorem rfind_append_cons (a : List α) {c : α} {b : List α} (h : c ∉ b) :
    rfind (a ++ c :: b) c = some a.length := by
  have hr : (a ++ c :: b).reverse = b.reverse ++ c :: a.reverse := by simp
  have hf := find_append_cons a.reverse (c := c) (a := b.reverse) (by simpa using h)
  simp only [find, drop_zero, Nat.zero_add, Option.map_id'] at hf
  simp only [rfind, hr, hf, Option.map_some, Option.some.injEq, length_append,
    length_cons, length_reverse]
  omega

/-! ## Cuts -/

/-- The text before the first `c`, and the text after it when there is one. -/
def cut (c : α) (s : List α) : List α × Option (List α) :=
  match find s c 0 with
  | none => (s, none)
  | some n => (s.take n, some (s.drop (n + 1)))

theorem cut_of_not_mem {c : α} {s : List α} (h : c ∉ s) : cut c s = (s, none) := by
  rw [cut, find_eq_none.mpr h]

theorem cut_append_cons {c : α} {a : List α} (b : List α) (h : c ∉ a) :
    cut c (a ++ c :: b) = (a, some b) := by
  rw [cut, find_append_cons b h]
  simp

theorem cut_append_fst {c : α} {a : List α} (b : List α) (h : c ∉ a) :
    (cut c (a ++ b)).1 = a ++ (cut c b).1 := by
  obtain ⟨x, hx, rfl | ⟨y, rfl⟩⟩ := exists_cut c b
  · rw [cut_of_not_mem hx, cut_of_not_mem (by simp [h, hx])]
  · have hax : c ∉ a ++ x := by simp [h, hx]
    rw [cut_append_cons y hx, ← append_assoc, cut_append_cons y hax]

/-- `s.substr( pos )`; `none` is `std::out_of_range`. -/
def substrFrom (s : List α) (pos : Nat) : Option (List α) :=
  if pos ≤ s.length then some (s.drop pos) else none

/-- `s.substr( pos, count )`; `none` is `std::out_of_range`. -/
def substr (s : List α) (pos count : Nat) : Option (List α) :=
  if pos ≤ s.length then some ((s.drop pos).take count) else none

/-- `s.erase( pos )`, which keeps the text before `pos`; `none` is
`std::out_of_range`. -/
def eraseFrom (s : List α) (pos : Nat) : Option (List α) :=
  if pos ≤ s.length then some (s.take pos) else none

/-- `s.erase( 0, count )`, which removes the first `count` octets and
cannot be out of range. -/
def eraseFront (s : List α) (count : Nat) : List α := s.drop count

omit [DecidableEq α] in
@[simp] theorem substrFrom_append_cons (a b : List α) (c : α) :
    substrFrom (a ++ c :: b) (a.length + 1) = some b := by
  simp [substrFrom]

omit [DecidableEq α] in
@[simp] theorem substr_append (a b : List α) : substr (a ++ b) 0 a.length = some a := by
  simp [substr]

omit [DecidableEq α] in
@[simp] theorem eraseFrom_append (a b : List α) : eraseFrom (a ++ b) a.length = some a := by
  simp [eraseFrom]

omit [DecidableEq α] in
@[simp] theorem eraseFront_append_cons (a b : List α) (c : α) :
    eraseFront (a ++ c :: b) (a.length + 1) = b := by
  simp [eraseFront]

omit [DecidableEq α] in
@[simp] theorem eraseFront_append (a b : List α) : eraseFront (a ++ b) a.length = b := by
  simp [eraseFront]

end

end Baselib.Lib
