/-
Baselib.Lib.TextSearch — the search for a text in a text, and the pieces
between the occurrences of a separator.

`findText` answers the first occurrence. What a parser of a stream needs
to know about it is how the answer depends on the text read so far: an
occurrence stays where it is when more text arrives
(`findText_append_right`), and a cut keeps exactly the occurrence which
ends before the cut (`findText_take`).

`splitText` finds the separators from the left, without overlap, so the
pieces joined by the separator are the text again and no piece contains
the separator. It recurses over the text, so it evaluates.
-/
import Baselib.Lib.Octets

namespace Baselib.Lib

open List

section

variable {α : Type} [DecidableEq α] {text : List α} {s : List α}

/-! ## The first occurrence -/

theorem findText_cons (x : α) (xs : List α) :
    findText text (x :: xs) =
      if text <+: x :: xs then some 0 else (findText text xs).map (· + 1) := rfl

theorem findText_of_isPrefix (h : text <+: s) : findText text s = some 0 := by
  cases s with
  | nil => rw [findText, if_pos (prefix_nil.mp h)]
  | cons x xs => rw [findText_cons, if_pos h]

/-- The text stands where the search says. -/
theorem isPrefix_drop_of_findText : ∀ {s : List α} {n : Nat},
    findText text s = some n → text <+: s.drop n
  | [], n, h => by
      unfold findText at h
      split_ifs at h with htext
      subst htext
      exact nil_prefix
  | x :: xs, n, h => by
      rw [findText_cons] at h
      split_ifs at h with hp
      · cases h
        exact hp
      · obtain ⟨m, hm, rfl⟩ := Option.map_eq_some_iff.mp h
        rw [drop_succ_cons]
        exact isPrefix_drop_of_findText hm

/-- Where the text stands, the search has found it or finds it now. -/
theorem exists_findText (ht : text ≠ []) : ∀ {s : List α} {n : Nat},
    text <+: s.drop n → ∃ m, m ≤ n ∧ findText text s = some m
  | [], n, h => by
      rw [drop_nil, prefix_nil] at h
      exact absurd h ht
  | x :: xs, n, h => by
      rw [findText_cons]
      split_ifs with hp
      · exact ⟨0, Nat.zero_le n, rfl⟩
      · cases n with
        | zero => exact absurd h hp
        | succ n =>
          rw [drop_succ_cons] at h
          obtain ⟨m, hle, hm⟩ := exists_findText ht h
          exact ⟨m + 1, Nat.succ_le_succ hle, by rw [hm, Option.map_some]⟩

theorem findText_length_le {n : Nat} (h : findText text s = some n) (ht : text ≠ []) :
    n + text.length ≤ s.length := by
  have hle := (isPrefix_drop_of_findText h).length_le
  have hpos := length_pos_iff.mpr ht
  rw [length_drop] at hle
  omega

theorem findText_split {n : Nat} (h : findText text s = some n) :
    s = s.take n ++ text ++ s.drop (n + text.length) := by
  obtain ⟨rest, hrest⟩ := isPrefix_drop_of_findText h
  have hdrop : s.drop (n + text.length) = rest := by
    rw [← drop_drop, ← hrest, drop_left]
  rw [hdrop, append_assoc, hrest, take_append_drop]

/-- What has been found stays where it is when more text arrives. -/
theorem findText_append_right (ht : text ≠ []) : ∀ {s : List α} {n : Nat} (b : List α),
    findText text s = some n → findText text (s ++ b) = some n
  | [], n, b, h => by
      unfold findText at h
      exact absurd h (by simp [ht])
  | x :: xs, n, b, h => by
      rw [findText_cons] at h
      rw [cons_append, findText_cons]
      split_ifs at h with hp
      · rw [if_pos (List.IsPrefix.trans hp (prefix_append (x :: xs) b) :
          text <+: x :: (xs ++ b))]
        exact h
      · obtain ⟨m, hm, rfl⟩ := Option.map_eq_some_iff.mp h
        have hlen := findText_length_le hm ht
        have hnp : ¬ text <+: x :: (xs ++ b) := fun hp' =>
          hp (prefix_of_prefix_length_le hp' (prefix_append (x :: xs) b)
            (by rw [length_cons]; omega))
        rw [if_neg hnp, findText_append_right ht b hm, Option.map_some]

/-- A cut keeps the occurrence which ends before it. -/
theorem findText_take {n : Nat} (ht : text ≠ []) (h : findText text s = some n) (l : Nat) :
    findText text (s.take l) = if n + text.length ≤ l then some n else none := by
  have happ : s.take l ++ s.drop l = s := take_append_drop l s
  cases hfind : findText text (s.take l) with
  | none =>
    split_ifs with hle
    · have hcut : text <+: (s.take l).drop n := by
        rw [drop_take]
        exact prefix_take_iff.mpr ⟨isPrefix_drop_of_findText h, by omega⟩
      obtain ⟨m, -, hm⟩ := exists_findText ht hcut
      simp [hfind] at hm
    · rfl
  | some m =>
    have hm := findText_append_right ht (s.drop l) hfind
    rw [happ, h] at hm
    cases hm
    have hlen := findText_length_le hfind ht
    rw [length_take] at hlen
    rw [if_pos (by omega)]

/-- Elements other than the first one of the text are passed over. -/
theorem findText_skip {c : α} {t a : List α} (h : c ∉ a) (s : List α) :
    findText (c :: t) (a ++ s) = (findText (c :: t) s).map (a.length + ·) := by
  induction a with
  | nil =>
    rw [nil_append]
    simp
  | cons x a ih =>
    rw [mem_cons, not_or] at h
    have hne : ¬ c :: t <+: x :: (a ++ s) := fun hp => h.1 (cons_prefix_cons.mp hp).1
    rw [cons_append, findText_cons, if_neg hne, ih h.2, Option.map_map]
    congr 1
    funext n
    simp [Nat.add_right_comm]

omit [DecidableEq α] in
theorem isPrefix_drop_append (a b : List α) : text <+: (a ++ text ++ b).drop a.length := by
  rw [append_assoc, drop_left]
  exact prefix_append text b

theorem findText_eq_none_iff (ht : text ≠ []) : findText text s = none ↔ ¬ text <:+: s := by
  refine ⟨fun hnone hin => ?_, fun hin => ?_⟩
  · obtain ⟨a, b, rfl⟩ := hin
    obtain ⟨m, -, hm⟩ := exists_findText ht (isPrefix_drop_append a b)
    rw [hnone] at hm
    cases hm
  · cases h : findText text s with
    | none => rfl
    | some n => exact absurd ⟨s.take n, s.drop (n + text.length), (findText_split h).symm⟩ hin

/-- The first occurrence is the one no other ends before. -/
theorem findText_append {a : List α} (b : List α) (ht : text ≠ [])
    (h : ¬ text <:+: a ++ text.dropLast) : findText text (a ++ text ++ b) = some a.length := by
  obtain ⟨m, hle, hm⟩ := exists_findText ht (isPrefix_drop_append a b)
  obtain rfl | hlt := Nat.eq_or_lt_of_le hle
  · exact hm
  · exfalso
    have hpos := length_pos_iff.mpr ht
    have hcut : (a ++ text ++ b).take (a ++ text.dropLast).length = a ++ text.dropLast := by
      have hshape : a ++ text ++ b = (a ++ text.dropLast) ++ ([text.getLast ht] ++ b) := by
        rw [append_assoc, append_assoc, ← append_assoc text.dropLast,
          dropLast_append_getLast]
      rw [hshape, take_left]
    have hfound := findText_take ht hm (a ++ text.dropLast).length
    rw [hcut, if_pos (by rw [length_append, length_dropLast]; omega)] at hfound
    exact h (not_not.mp fun hn => by
      rw [(findText_eq_none_iff ht).mpr hn] at hfound
      cases hfound)

theorem not_infix_of_findText {n : Nat} (ht : text ≠ []) (h : findText text s = some n) :
    ¬ text <:+: s.take n ++ text.dropLast := by
  have hle := findText_length_le h ht
  have hpos := length_pos_iff.mpr ht
  have hlen : (s.take n ++ text.dropLast).length = n + (text.length - 1) := by
    rw [length_append, length_take, length_dropLast]
    omega
  have hsplit :
      s.take n ++ text.dropLast ++ ([text.getLast ht] ++ s.drop (n + text.length)) = s := by
    rw [append_assoc, ← append_assoc text.dropLast, dropLast_append_getLast,
      ← append_assoc]
    exact (findText_split h).symm
  have hcut : s.take (n + (text.length - 1)) = s.take n ++ text.dropLast := by
    rw [← hlen]
    exact (prefix_iff_eq_take.mp ⟨_, hsplit⟩).symm
  rw [← hcut, ← findText_eq_none_iff ht, findText_take ht h, if_neg (by omega)]

/-! ## The pieces between separators -/

/-- The first piece with one element more in front. -/
def consHead (x : α) : List (List α) → List (List α)
  | [] => [[x]]
  | p :: ps => (x :: p) :: ps

/-- The pieces of a text once `skip` elements of the last separator have
been passed. -/
def splitTextFrom (sep : List α) : Nat → List α → List (List α)
  | _, [] => [[]]
  | skip + 1, _ :: xs => splitTextFrom sep skip xs
  | 0, x :: xs =>
    if sep <+: x :: xs then [] :: splitTextFrom sep (sep.length - 1) xs
    else consHead x (splitTextFrom sep 0 xs)

/-- The pieces of a text between the occurrences of a separator. -/
def splitText (sep s : List α) : List (List α) := splitTextFrom sep 0 s

theorem splitTextFrom_eq (sep : List α) : ∀ (skip : Nat) (s : List α),
    splitTextFrom sep skip s = splitText sep (s.drop skip)
  | 0, _ => rfl
  | _ + 1, [] => rfl
  | skip + 1, _ :: xs => splitTextFrom_eq sep skip xs

variable {sep : List α}

theorem splitText_cons (hsep : sep ≠ []) (x : α) (xs : List α) :
    splitText sep (x :: xs) =
      if sep <+: x :: xs then [] :: splitText sep ((x :: xs).drop sep.length)
      else consHead x (splitText sep xs) := by
  have hpos := length_pos_iff.mpr hsep
  unfold splitText
  rw [splitTextFrom, splitTextFrom_eq sep (sep.length - 1) xs]
  have hdrop : (x :: xs).drop sep.length = xs.drop (sep.length - 1) := by
    obtain ⟨m, hm⟩ := Nat.exists_eq_add_of_lt hpos
    rw [hm, Nat.zero_add, drop_succ_cons, Nat.add_sub_cancel]
  rw [hdrop]
  rfl

theorem splitText_of_none : ∀ {s : List α}, sep ≠ [] → findText sep s = none →
    splitText sep s = [s]
  | [], _, _ => rfl
  | x :: xs, hsep, h => by
      rw [findText_cons] at h
      split_ifs at h with hp
      rw [splitText_cons hsep, if_neg hp,
        splitText_of_none hsep (Option.map_eq_none_iff.mp h), consHead]

theorem splitText_of_some : ∀ {s : List α} {n : Nat}, sep ≠ [] → findText sep s = some n →
    splitText sep s = s.take n :: splitText sep (s.drop (n + sep.length))
  | [], n, hsep, h => by
      unfold findText at h
      exact absurd h (by simp [hsep])
  | x :: xs, n, hsep, h => by
      rw [findText_cons] at h
      rw [splitText_cons hsep]
      split_ifs at h with hp
      · cases h
        rw [if_pos hp, take_zero, Nat.zero_add]
      · obtain ⟨m, hm, rfl⟩ := Option.map_eq_some_iff.mp h
        rw [if_neg hp, splitText_of_some hsep hm, consHead, take_succ_cons,
          Nat.add_right_comm, drop_succ_cons]

/-- Facts about the pieces go from the rest of the text past the first
separator to the text. -/
theorem splitText_induction {P : List α → Prop} (hsep : sep ≠ [])
    (hnone : ∀ s, findText sep s = none → P s)
    (hsome : ∀ s n, findText sep s = some n → P (s.drop (n + sep.length)) → P s)
    (s : List α) : P s := by
  induction hlen : s.length using Nat.strong_induction_on generalizing s with
  | h len ih =>
    cases h : findText sep s with
    | none => exact hnone s h
    | some n =>
      have hle := findText_length_le h hsep
      have hpos := length_pos_iff.mpr hsep
      have hlt : (s.drop (n + sep.length)).length < len := by
        rw [length_drop]
        omega
      exact hsome s n h (ih _ hlt _ rfl)

theorem splitText_ne_nil (hsep : sep ≠ []) (s : List α) : splitText sep s ≠ [] := by
  cases h : findText sep s with
  | none => simp [splitText_of_none hsep h]
  | some n => simp [splitText_of_some hsep h]

/-- The pieces joined by the separator are the text. -/
theorem intercalate_splitText (hsep : sep ≠ []) (s : List α) :
    sep.intercalate (splitText sep s) = s := by
  induction s using splitText_induction hsep with
  | hnone s h => rw [splitText_of_none hsep h, intercalate_singleton]
  | hsome s n h ih =>
    rw [splitText_of_some hsep h, intercalate_cons_of_ne_nil (splitText_ne_nil hsep _), ih,
      ← findText_split h]

/-- No piece contains the separator. -/
theorem not_infix_of_mem_splitText (hsep : sep ≠ []) {p : List α} (s : List α)
    (hp : p ∈ splitText sep s) : ¬ sep <:+: p := by
  induction s using splitText_induction hsep with
  | hnone s h =>
    rw [splitText_of_none hsep h, mem_singleton] at hp
    subst hp
    exact (findText_eq_none_iff hsep).mp h
  | hsome s n h ih =>
    rw [splitText_of_some hsep h, mem_cons] at hp
    cases hp with
    | inl hp =>
      subst hp
      have hpos := length_pos_iff.mpr hsep
      rw [← findText_eq_none_iff hsep, findText_take hsep h, if_neg (by omega)]
    | inr hp => exact ih hp

theorem splitText_append {a : List α} (b : List α) (hsep : sep ≠ [])
    (h : ¬ sep <:+: a ++ sep.dropLast) :
    splitText sep (a ++ sep ++ b) = a :: splitText sep b := by
  rw [splitText_of_some hsep (findText_append b hsep h), append_assoc, take_left,
    ← append_assoc, ← length_append, drop_left]

/-- Pieces none of which the separator cuts are found again. -/
theorem splitText_intercalate (hsep : sep ≠ []) {pieces : List (List α)} (hne : pieces ≠ [])
    (h : ∀ p ∈ pieces, ¬ sep <:+: p ++ sep.dropLast) :
    splitText sep (sep.intercalate pieces) = pieces := by
  induction pieces with
  | nil => exact absurd rfl hne
  | cons p pieces ih =>
    have hp := h p mem_cons_self
    cases pieces with
    | nil =>
      rw [intercalate_singleton]
      refine splitText_of_none hsep ((findText_eq_none_iff hsep).mpr fun hin => hp ?_)
      exact hin.trans (prefix_append p _).isInfix
    | cons p' pieces =>
      rw [intercalate_cons_cons, splitText_append _ hsep hp,
        ih (cons_ne_nil _ _) fun q hq => h q (mem_cons_of_mem p hq)]

end

end Baselib.Lib
