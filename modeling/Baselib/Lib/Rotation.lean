/-
Baselib.Lib.Rotation — positions taken in turn around a ring.

From any start, `n` places in turn are every position of a ring of `n`, once
each (`count_rotation_self`), so any whole number of rounds is fair.
-/
import Mathlib.Data.List.Count
import Mathlib.Data.List.Nodup
import Mathlib.Data.List.Range
import Mathlib.Data.Nat.ModEq

namespace Baselib.Lib

open List

/-- The `m` positions from `i` on, in a ring of `n`. -/
def rotation (n i m : Nat) : List Nat := (List.range m).map fun j => (i + j) % n

theorem rotation_zero (n i : Nat) : rotation n i 0 = [] := rfl

theorem rotation_succ {n i : Nat} (h : i < n) (m : Nat) :
    rotation n i (m + 1) = i :: rotation n ((i + 1) % n) m := by
  rw [rotation, range_succ_eq_map, map_cons, List.map_map, Nat.add_zero,
    Nat.mod_eq_of_lt h]
  congr 1
  apply map_congr_left
  intro j _
  rw [Function.comp_apply, Nat.mod_add_mod, Nat.succ_eq_add_one]
  congr 1
  omega

theorem rotation_add (n i m m' : Nat) :
    rotation n i (m + m') = rotation n i m ++ rotation n (i + m) m' := by
  rw [rotation, range_add, map_append, List.map_map]
  congr 1
  apply map_congr_left
  intro j _
  rw [Function.comp_apply, Nat.add_assoc]

/-- Two places of a round which are the same position are the same place. -/
theorem nodup_rotation_self (n i : Nat) : (rotation n i n).Nodup := by
  apply List.Nodup.map_on _ nodup_range
  intro j hj j' hj' heq
  rw [mem_range] at hj hj'
  have hmod : j % n = j' % n := Nat.ModEq.add_left_cancel' i heq
  rwa [Nat.mod_eq_of_lt hj, Nat.mod_eq_of_lt hj'] at hmod

theorem mem_rotation_self {n t : Nat} (i : Nat) (h : t < n) : t ∈ rotation n i n := by
  rw [rotation, mem_map]
  have hi := Nat.mod_lt i (Nat.zero_lt_of_lt h)
  refine ⟨(t + (n - i % n)) % n, mem_range.mpr (Nat.mod_lt _ (Nat.zero_lt_of_lt h)), ?_⟩
  rw [Nat.add_mod_mod, ← Nat.mod_add_mod]
  have hsum : i % n + (t + (n - i % n)) = t + n := by omega
  rw [hsum, Nat.add_mod_right, Nat.mod_eq_of_lt h]

theorem count_rotation_self {n t : Nat} (i : Nat) (h : t < n) : (rotation n i n).count t = 1 :=
  count_eq_one_of_mem (nodup_rotation_self n i) (mem_rotation_self i h)

/-- A whole number of rounds comes to each position equally often. -/
theorem count_rotation {n t : Nat} (i k : Nat) (h : t < n) : (rotation n i (k * n)).count t = k := by
  induction k with
  | zero => simp [rotation_zero]
  | succ k ih =>
    rw [Nat.succ_mul, rotation_add, count_append, ih, count_rotation_self _ h]

/-- The position come to last has been come to once more than the whole
rounds before it. -/
theorem count_rotation_last {n i q r : Nat} (hr : r < n) :
    (rotation n i (q * n + r + 1)).count ((i + (q * n + r)) % n) = q + 1 := by
  have hlast : (i + (q * n + r)) % n = (i + q * n + r) % n := by rw [Nat.add_assoc]
  have hround : rotation n (i + q * n) n =
      rotation n (i + q * n) (r + 1) ++ rotation n (i + q * n + (r + 1)) (n - (r + 1)) := by
    rw [← rotation_add, Nat.add_sub_cancel' hr]
  have hnodup : (rotation n (i + q * n) (r + 1)).Nodup := by
    have h := nodup_rotation_self n (i + q * n)
    rw [hround] at h
    exact (nodup_append.mp h).1
  have hmem : (i + q * n + r) % n ∈ rotation n (i + q * n) (r + 1) :=
    mem_map.mpr ⟨r, mem_range.mpr r.lt_succ_self, rfl⟩
  rw [Nat.add_assoc, rotation_add, count_append, hlast,
    count_rotation i q (Nat.mod_lt _ (Nat.zero_lt_of_lt hr)),
    count_eq_one_of_mem hnodup hmem]

/-- Whole rounds and one place more. -/
theorem count_rotation_succ {n i t : Nat} (k : Nat) (hi : i < n) (ht : t < n) :
    (rotation n i (k * n + 1)).count t = if t = i then k + 1 else k := by
  have hone : rotation n (i + k * n) 1 = [i] := by
    rw [rotation, range_one, map_singleton, Nat.add_zero, Nat.add_mul_mod_self_right,
      Nat.mod_eq_of_lt hi]
  rw [rotation_add, count_append, count_rotation i k ht, hone, count_singleton]
  by_cases h : t = i
  · simp [h]
  · simp [h, Ne.symm h]

end Baselib.Lib
