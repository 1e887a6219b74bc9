/-
Baselib.Lib.KeySort — sorts which order by a key and are not stable.

Such a sort answers with the same elements in the order of their keys and
is free to place the elements of one key as it likes. Its answer depends on
nothing but the elements exactly when no two of them share a key.
-/
import Mathlib.Data.List.Sort

namespace Baselib.Lib

open List

variable {α κ : Type*} [LinearOrder κ] {key : α → κ} {sort : List α → List α}

/-- What a sort promises, `std::sort` among them. -/
def IsSort (key : α → κ) (sort : List α → List α) : Prop :=
  ∀ l, (sort l).Perm l ∧ (sort l).Pairwise fun a b => key a ≤ key b

theorem isSort_mergeSort (key : α → κ) :
    IsSort key fun l => l.mergeSort fun a b => key a ≤ key b := by
  intro l
  refine ⟨mergeSort_perm _ _, ?_⟩
  have hsorted : (l.mergeSort fun a b => decide (key a ≤ key b)).Pairwise
      fun a b => decide (key a ≤ key b) = true :=
    pairwise_mergeSort (fun a b c => by simpa using le_trans)
      (fun a b => by simpa using le_total _ _) l
  exact hsorted.imp fun h => by simpa using h

theorem isSort_insertionSort (key : α → κ) :
    IsSort key fun l => l.insertionSort fun a b => key a ≤ key b := by
  have : Std.Total fun a b : α => key a ≤ key b := ⟨fun a b => le_total _ _⟩
  have : IsTrans α fun a b => key a ≤ key b := ⟨fun a b c => le_trans⟩
  exact fun l => ⟨perm_insertionSort _ l, pairwise_insertionSort _ l⟩

theorem IsSort.mem_iff (h : IsSort key sort) {l : List α} {a : α} : a ∈ sort l ↔ a ∈ l :=
  (h l).1.mem_iff

/-- The elements of a class, when there is one of them, come out of every
sort. -/
theorem IsSort.filter_eq_singleton (h : IsSort key sort) {l : List α} {p : α → Bool} {a : α}
    (hl : l.filter p = [a]) : (sort l).filter p = [a] :=
  perm_singleton.mp (hl ▸ (h l).1.filter p)

/-- Exchanging two elements of one key keeps every list in order. -/
theorem pairwise_map_swap [DecidableEq α] {a b : α} (hkey : key a = key b) {l : List α}
    (h : l.Pairwise fun x y => key x ≤ key y) :
    (l.map (Equiv.swap a b)).Pairwise fun x y => key x ≤ key y := by
  have hswap : ∀ x, key (Equiv.swap a b x) = key x := by
    intro x
    rw [Equiv.swap_apply_def]
    split_ifs with ha hb
    · rw [ha, hkey]
    · rw [hb, hkey]
    · rfl
  rw [pairwise_map]
  simpa only [hswap] using h

theorem map_swap_perm [DecidableEq α] {a b : α} {l : List α} (hl : l.Nodup) (ha : a ∈ l)
    (hb : b ∈ l) : (l.map (Equiv.swap a b)).Perm l := by
  rw [perm_ext_iff_of_nodup (hl.map (Equiv.swap a b).injective) hl]
  intro x
  rw [mem_map]
  constructor
  · rintro ⟨y, hy, rfl⟩
    rw [Equiv.swap_apply_def]
    split_ifs
    · exact hb
    · exact ha
    · exact hy
  · intro hx
    refine ⟨Equiv.swap a b x, ?_, Equiv.swap_apply_self a b x⟩
    rw [Equiv.swap_apply_def]
    split_ifs
    · exact hb
    · exact ha
    · exact hx

/-- Every sort answers alike on every order of the elements exactly when
their keys tell them apart. -/
theorem sort_determined_iff (key : α → κ) {l : List α} (hl : l.Nodup) :
    (∀ sort, IsSort key sort → ∀ l₁ l₂ : List α, l₁.Perm l → l₂.Perm l → sort l₁ = sort l₂) ↔
      ∀ a ∈ l, ∀ b ∈ l, key a = key b → a = b := by
  constructor
  · intro h a ha b hb hkey
    classical
    set sorted := l.mergeSort fun a b => decide (key a ≤ key b) with hsorted
    have hperm : sorted.Perm l := (isSort_mergeSort key l).1
    have hpair := (isSort_mergeSort key l).2
    have hmem : ∀ {x}, x ∈ l → x ∈ sorted := fun hx => hperm.mem_iff.mpr hx
    have hswap := map_swap_perm (hperm.nodup_iff.mpr hl) (hmem ha) (hmem hb)
    have hfix : ∀ l' : List α, l'.Pairwise (fun a b => key a ≤ key b) →
        (l'.mergeSort fun a b => decide (key a ≤ key b)) = l' := by
      intro l' hl'
      exact mergeSort_of_pairwise (hl'.imp fun hle => by simpa using hle)
    have heq := h _ (isSort_mergeSort key) _ _ hperm (hswap.trans hperm)
    rw [hfix _ hpair, hfix _ (pairwise_map_swap hkey hpair)] at heq
    have hid := map_inj_left.mp ((map_id sorted).trans heq) a (hmem ha)
    rwa [Equiv.swap_apply_left] at hid
  · intro h sort hsort l₁ l₂ h₁ h₂
    have hperm : (sort l₁).Perm (sort l₂) :=
      (hsort l₁).1.trans ((h₁.trans h₂.symm).trans (hsort l₂).1.symm)
    refine hperm.eq_of_pairwise ?_ (hsort l₁).2 (hsort l₂).2
    intro a b ha hb hab hba
    exact h a (h₁.mem_iff.mp (hsort.mem_iff.mp ha)) b (h₂.mem_iff.mp (hsort.mem_iff.mp hb))
      (le_antisymm hab hba)

end Baselib.Lib
