/-
Baselib.Lib.AssocList — a map as the list of its entries, to which an entry is
added only where there is none with its key.

What is found under a key is said of each operation.
-/
import Mathlib.Data.List.Forall2

namespace Baselib.Lib.AssocList

open List

variable {κ ν : Type*} [DecidableEq κ] {entries added : List (κ × ν)} {k : κ} {v : ν}

def emplace (k : κ) (v : ν) (entries : List (κ × ν)) : List (κ × ν) :=
  if (entries.lookup k).isSome then entries else entries ++ [(k, v)]

def emplaceAll (entries added : List (κ × ν)) : List (κ × ν) :=
  added.foldl (fun entries e => emplace e.1 e.2 entries) entries

theorem lookup_cons_eq (n : κ) : ((k, v) :: entries).lookup n =
    if n = k then some v else entries.lookup n := by
  obtain rfl | h := eq_or_ne n k
  · rw [lookup_cons_self, if_pos rfl]
  · rw [lookup_cons, beq_eq_false_iff_ne.mpr h, if_neg h]

theorem lookup_emplace (n : κ) : (emplace k v entries).lookup n =
    (entries.lookup n).or (if n = k then some v else none) := by
  rw [emplace]
  split
  · rename_i hsome
    obtain rfl | h := eq_or_ne n k
    · obtain ⟨w, hw⟩ := Option.isSome_iff_exists.mp hsome
      rw [hw, Option.some_or]
    · rw [if_neg h, Option.or_none]
  · rw [lookup_append, lookup_cons_eq, lookup_nil]

theorem lookup_emplaceAll (n : κ) :
    (emplaceAll entries added).lookup n = (entries.lookup n).or (added.lookup n) := by
  induction added generalizing entries with
  | nil => exact (Option.or_none).symm
  | cons e added ih =>
    rw [emplaceAll, foldl_cons, ← emplaceAll, ih, lookup_emplace, Option.or_assoc,
      lookup_cons_eq]
    by_cases h : n = e.1
    · rw [if_pos h, if_pos h, Option.some_or]
    · rw [if_neg h, if_neg h, Option.none_or]

theorem lookup_filter (p : κ → Bool) (n : κ) : (entries.filter fun e => p e.1).lookup n =
    if p n then entries.lookup n else none := by
  induction entries with
  | nil => simp
  | cons e entries ih =>
    obtain ⟨k, v⟩ := e
    rw [filter_cons, lookup_cons_eq]
    obtain rfl | h := eq_or_ne n k
    · by_cases hp : p n
      · rw [if_pos hp, lookup_cons_eq, if_pos rfl, if_pos rfl, if_pos hp]
      · rw [if_neg hp, ih, if_neg hp, if_neg hp]
    · rw [if_neg h, ← ih]
      split
      · rw [lookup_cons_eq, if_neg h]
      · rfl

theorem emplaceAll_eq_append (h : ((entries ++ added).map Prod.fst).Nodup) :
    emplaceAll entries added = entries ++ added := by
  induction added generalizing entries with
  | nil => exact (append_nil _).symm
  | cons e added ih =>
    have hnone : entries.lookup e.1 = none := by
      refine lookup_eq_none_iff.mpr fun x hx => ?_
      rw [map_append] at h
      simpa using ne_comm.mp ((nodup_append.mp h).2.2 x.1 (mem_map_of_mem hx) e.1
        (mem_map_of_mem mem_cons_self))
    have hone : emplace e.1 e.2 entries = entries ++ [e] := by
      rw [emplace, hnone]
      rfl
    rw [emplaceAll, foldl_cons, ← emplaceAll, hone, ih]
    · rw [append_assoc, singleton_append]
    · rwa [append_assoc, singleton_append]

/-- Lists with the same keys, and related values. -/
theorem lookup_of_forall₂ {μ : Type*} {R : ν → μ → Prop} {l : List (κ × ν)} {l' : List (κ × μ)}
    (h : List.Forall₂ (fun e e' => e'.1 = e.1 ∧ R e.2 e'.2) l l') (hv : l.lookup k = some v) :
    ∃ v', l'.lookup k = some v' ∧ R v v' := by
  induction h with
  | nil => cases hv
  | @cons e e' l l' he _ ih =>
    rw [lookup_cons_eq] at hv
    rw [lookup_cons_eq, he.1]
    split at hv
    · next hk =>
        cases hv
        exact ⟨e'.2, if_pos hk, he.2⟩
    · next hk => rw [if_neg hk]; exact ih hv

end Baselib.Lib.AssocList
