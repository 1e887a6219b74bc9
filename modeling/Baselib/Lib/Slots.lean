/-
Baselib.Lib.Slots — lists of numbered slots, one of which is rewritten or
taken out.

What is counted over the slots changes by what the one slot counted for
before and counts for afterwards. Stated as sums, so that arithmetic can
use it.
-/
import Mathlib.Algebra.GroupWithZero.Nat
import Mathlib.Data.List.Perm.Basic

namespace Baselib.Lib.Slots

open List

variable {α : Type*} {l : List α} {i : ℕ} {a : α}

theorem perm_cons_eraseIdx (h : l[i]? = some a) : l.Perm (a :: l.eraseIdx i) := by
  obtain ⟨hi, rfl⟩ := List.getElem?_eq_some_iff.mp h
  exact (getElem_cons_eraseIdx_perm hi).symm

theorem set_perm (h : l[i]? = some a) (b : α) : (l.set i b).Perm (b :: l.eraseIdx i) := by
  obtain ⟨hi, -⟩ := List.getElem?_eq_some_iff.mp h
  exact set_perm_cons_eraseIdx hi b

theorem countP_set_add (p : α → Bool) (h : l[i]? = some a) (b : α) :
    (l.set i b).countP p + (if p a then 1 else 0) = l.countP p + if p b then 1 else 0 := by
  rw [(set_perm h b).countP_eq, (perm_cons_eraseIdx h).countP_eq, countP_cons,
    countP_cons]
  omega

theorem sum_set_add (f : α → ℕ) (h : l[i]? = some a) (b : α) :
    ((l.set i b).map f).sum + f a = (l.map f).sum + f b := by
  rw [((set_perm h b).map f).sum_nat, ((perm_cons_eraseIdx h).map f).sum_nat, map_cons,
    map_cons, sum_cons, sum_cons]
  omega

/-- The other slots are as they were. -/
theorem getElem?_set_of_ne {j : ℕ} {b c : α} (hne : i ≠ j) (h : l[j]? = some c) :
    (l.set i b)[j]? = some c := by
  rw [getElem?_set_ne hne, h]

/-- A slot is one of those before, or the last one. -/
theorem getElem?_concat_eq_some {b : α} :
    (l ++ [b])[i]? = some a ↔ l[i]? = some a ∨ (i = l.length ∧ a = b) := by
  rcases Nat.lt_trichotomy i l.length with hlt | rfl | hgt
  · rw [getElem?_append_left hlt]
    exact ⟨.inl, fun h => h.resolve_right fun heq => absurd heq.1 (Nat.ne_of_lt hlt)⟩
  · rw [getElem?_concat_length, getElem?_eq_none (Nat.le_refl _)]
    simp [eq_comm]
  · rw [getElem?_eq_none (by rw [length_append]; exact hgt),
      getElem?_eq_none (Nat.le_of_lt hgt)]
    simp [Nat.ne_of_gt hgt]

/-- A slot after one was rewritten is that one, or as it was. -/
theorem getElem?_set_eq_some {j : ℕ} {b c : α} (h : (l.set i b)[j]? = some c) :
    (i = j ∧ c = b) ∨ (i ≠ j ∧ l[j]? = some c) := by
  obtain rfl | hij := eq_or_ne i j
  · have hlt := (List.getElem?_eq_some_iff.mp h).1
    rw [getElem?_set_self (by rwa [length_set] at hlt)] at h
    exact .inl ⟨rfl, (Option.some.inj h).symm⟩
  · rw [getElem?_set_ne hij] at h
    exact .inr ⟨hij, h⟩

end Baselib.Lib.Slots
