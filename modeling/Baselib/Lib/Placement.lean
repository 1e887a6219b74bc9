/-
Baselib.Lib.Placement — elements placed in lists, with a tag on each
which names its list.

Intrusive lists keep the same fact twice: an element is linked in a
list, and a field of the element says in which one. `Placed` says the
two agree and that nothing is linked twice, by counting; the lemmas say
what taking an element out and putting it in do to that.
-/
import Mathlib.Data.List.Count
import Mathlib.Data.List.Nodup
import Mathlib.Data.List.Perm.Basic

namespace Baselib.Lib

variable {ι τ : Type*} [DecidableEq ι] [DecidableEq τ]

/-- Each element is once in the list its tag names, and in no other. -/
def Placed (lists : ι → List τ) (owner : τ → Option ι) : Prop :=
  ∀ i t, (lists i).count t = if owner t = some i then 1 else 0

namespace Placed

variable {lists lists' : ι → List τ} {owner : τ → Option ι} {i j : ι} {t u : τ}

/-! ## What it says -/

theorem mem_iff (h : Placed lists owner) : t ∈ lists i ↔ owner t = some i := by
  rw [← List.count_pos_iff, h i t]
  split <;> simp_all

theorem nodup (h : Placed lists owner) (i : ι) : (lists i).Nodup := by
  rw [List.nodup_iff_count_le_one]
  intro t
  rw [h i t]
  split <;> simp

theorem disjoint (h : Placed lists owner) (hij : i ≠ j) : (lists i).Disjoint (lists j) := by
  intro t hi hj
  rw [h.mem_iff] at hi hj
  rw [hi] at hj
  exact hij (Option.some.inj hj)

theorem erase_of_ne (h : Placed lists owner) (ht : owner t ≠ some i) :
    (lists i).erase t = lists i :=
  List.erase_of_not_mem fun hmem => ht (h.mem_iff.mp hmem)

/-! ## What keeps it -/

/-- An element out of every list, its tag cleared. -/
theorem erase (h : Placed lists owner) (t : τ) :
    Placed (fun i => (lists i).erase t) (Function.update owner t none) := by
  intro i u
  obtain rfl | hu := eq_or_ne u t
  · rw [List.count_erase_self, h i u, Function.update_self]
    split <;> simp
  · rw [List.count_erase_of_ne hu, h i u, Function.update_of_ne hu]

/-- An element in one more list, when it was in none. -/
theorem insert (h : Placed lists owner) (ht : owner t = none)
    (hself : (lists' i).Perm (t :: lists i)) (hother : ∀ j, j ≠ i → lists' j = lists j) :
    Placed lists' (Function.update owner t (some i)) := by
  intro j u
  obtain rfl | hj := eq_or_ne j i
  · rw [hself.count_eq, List.count_cons, h j u]
    obtain rfl | hu := eq_or_ne u t
    · simp [ht]
    · simp [Function.update_of_ne hu, Ne.symm hu]
  · rw [hother j hj, h j u]
    obtain rfl | hu := eq_or_ne u t
    · simp [ht, Ne.symm hj]
    · rw [Function.update_of_ne hu]

/-- An element from its list to another, or within it. -/
theorem move (h : Placed lists owner) (hself : (lists' i).Perm (t :: (lists i).erase t))
    (hother : ∀ j, j ≠ i → lists' j = (lists j).erase t) :
    Placed lists' (Function.update owner t (some i)) := by
  have hmoved := (h.erase t).insert (Function.update_self t none owner) hself hother
  rwa [Function.update_idem] at hmoved

theorem length_erase (h : Placed lists owner) (i : ι) (t : τ) :
    ((lists i).erase t).length = (lists i).length - if owner t = some i then 1 else 0 := by
  by_cases ht : owner t = some i
  · rw [if_pos ht, List.length_erase_of_mem (h.mem_iff.mpr ht)]
  · rw [if_neg ht, h.erase_of_ne ht, Nat.sub_zero]

end Placed

end Baselib.Lib
