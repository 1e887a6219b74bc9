/-
Baselib.Lib.BitGroups — a sequence of bits cut into groups of another width.

`bitsOf` writes a number in a fixed number of bits, the most significant one
first, and `ofBits` reads it. `groups` cuts a list into full groups and drops
what is left over, so a list of groups with less than a group behind it is
cut into those groups (`groups_flatten`). Padding makes the last group full.
-/
import Mathlib.Data.List.Induction
import Mathlib.Tactic.Ring

namespace Baselib.Lib

open List

/-! ## Numbers as bits -/

/-- The `w` low bits of a number, the most significant one first. -/
def bitsOf : Nat → Nat → List Bool
  | 0, _ => []
  | w + 1, n => bitsOf w (n / 2) ++ [decide (n % 2 = 1)]

/-- The number which the bits denote. -/
def ofBits (l : List Bool) : Nat := l.foldl (fun n bit => 2 * n + bit.toNat) 0

@[simp] theorem length_bitsOf (w n : Nat) : (bitsOf w n).length = w := by
  induction w generalizing n with
  | zero => rfl
  | succ w ih => simp [bitsOf, ih]

theorem ofBits_concat (l : List Bool) (bit : Bool) :
    ofBits (l ++ [bit]) = 2 * ofBits l + bit.toNat := by
  simp [ofBits, foldl_append]

theorem ofBits_bitsOf {w : Nat} {n : Nat} (h : n < 2 ^ w) : ofBits (bitsOf w n) = n := by
  induction w generalizing n with
  | zero =>
    simp only [pow_zero, Nat.lt_one_iff] at h
    subst h
    rfl
  | succ w ih =>
    have hhalf : n / 2 < 2 ^ w := by
      rw [pow_succ] at h
      omega
    rw [bitsOf, ofBits_concat, ih hhalf]
    rcases Nat.mod_two_eq_zero_or_one n with hbit | hbit
    · simp [hbit]
      omega
    · simp [hbit]
      omega

theorem ofBits_lt (l : List Bool) : ofBits l < 2 ^ l.length := by
  induction l using reverseRecOn with
  | nil => exact Nat.one_pos
  | append_singleton l bit ih =>
    have hbit := Bool.toNat_le bit
    rw [ofBits_concat, length_append, length_singleton, pow_succ]
    omega

theorem bitsOf_ofBits (l : List Bool) : bitsOf l.length (ofBits l) = l := by
  induction l using reverseRecOn with
  | nil => rfl
  | append_singleton l bit ih =>
    have hhalf : (2 * ofBits l + bit.toNat) / 2 = ofBits l := by
      have hbit := Bool.toNat_lt bit
      omega
    have hlast : decide ((2 * ofBits l + bit.toNat) % 2 = 1) = bit := by
      cases bit <;> simp [Nat.add_mod]
    rw [length_append, length_singleton, bitsOf, ofBits_concat, hhalf, ih, hlast]

/-! ## Groups -/

section

variable {α : Type*}

/-- The full groups of `w` elements; the elements left over are dropped. -/
def groups (w : Nat) (l : List α) : List (List α) :=
  (List.range (l.length / w)).map fun i => (l.drop (i * w)).take w

@[simp] theorem length_groups (w : Nat) (l : List α) : (groups w l).length = l.length / w := by
  simp [groups]

theorem groups_of_lt {w : Nat} {l : List α} (h : l.length < w) : groups w l = [] := by
  rw [groups, Nat.div_eq_of_lt h]
  rfl

theorem groups_append {w : Nat} (hw : 0 < w) {g : List α} (hg : g.length = w) (l : List α) :
    groups w (g ++ l) = g :: groups w l := by
  have hlength : (g ++ l).length / w = l.length / w + 1 := by
    rw [length_append, hg, Nat.add_comm, Nat.add_div_right _ hw]
  rw [groups, hlength, range_succ_eq_map, map_cons, List.map_map]
  congr 1
  · rw [Nat.zero_mul, drop_zero, take_left' hg]
  · apply map_congr_left
    intro i _
    have hindex : Nat.succ i * w = g.length + i * w := by
      rw [hg, Nat.succ_mul, Nat.add_comm]
    rw [Function.comp_apply, hindex, drop_length_add_append]

/-- Groups with less than one behind them. -/
theorem groups_flatten {w : Nat} {L : List (List α)} {r : List α} (hL : ∀ g ∈ L, g.length = w)
    (hr : r.length < w) : groups w (L.flatten ++ r) = L := by
  have hw : 0 < w := Nat.zero_lt_of_lt hr
  induction L with
  | nil => exact groups_of_lt hr
  | cons g L ih =>
    rw [flatten_cons, append_assoc, groups_append hw (hL g (by simp)),
      ih fun other hother => hL other (by simp [hother])]

/-- A list of a whole number of groups is made of them. -/
theorem exists_groups {w k : Nat} {l : List α} (h : l.length = k * w) :
    ∃ L : List (List α), L.flatten = l ∧ ∀ g ∈ L, g.length = w := by
  induction k generalizing l with
  | zero =>
    rw [Nat.zero_mul] at h
    exact ⟨[], (length_eq_zero_iff.mp h).symm, by simp⟩
  | succ k ih =>
    rw [Nat.succ_mul] at h
    have hdrop : (l.drop w).length = k * w := by
      rw [length_drop, h]
      omega
    obtain ⟨L, hflatten, hL⟩ := ih hdrop
    refine ⟨l.take w :: L, ?_, ?_⟩
    · rw [flatten_cons, hflatten, take_append_drop]
    · intro g hg
      rcases mem_cons.mp hg with rfl | hg
      · rw [length_take, h]
        omega
      · exact hL g hg

theorem flatten_groups {w k : Nat} (hw : 0 < w) {l : List α} (h : l.length = k * w) :
    (groups w l).flatten = l ∧ ∀ g ∈ groups w l, g.length = w := by
  obtain ⟨L, rfl, hL⟩ := exists_groups h
  have hgroups : groups w (L.flatten ++ []) = L := groups_flatten hL hw
  rw [append_nil] at hgroups
  rw [hgroups]
  exact ⟨rfl, hL⟩

end

/-! ## Padding -/

/-- How many bits the last group lacks. -/
def missing (w n : Nat) : Nat := (w - n % w) % w

/-- The bits, filled up with zeros to a whole number of groups. -/
def padBits (w : Nat) (l : List Bool) : List Bool := l ++ List.replicate (missing w l.length) false

theorem length_padBits {w : Nat} (hw : 0 < w) (l : List Bool) :
    ∃ k, (padBits w l).length = k * w := by
  have hdvd : w ∣ l.length + missing w l.length := by
    have hmod := Nat.mod_lt l.length hw
    have hsplit := Nat.div_add_mod l.length w
    rw [missing]
    by_cases hzero : l.length % w = 0
    · rw [hzero, Nat.sub_zero, Nat.mod_self, Nat.add_zero]
      exact Nat.dvd_of_mod_eq_zero hzero
    · rw [Nat.mod_eq_of_lt (by omega)]
      refine ⟨l.length / w + 1, ?_⟩
      rw [Nat.mul_add, Nat.mul_one]
      omega
  obtain ⟨k, hk⟩ := hdvd
  exact ⟨k, by rw [padBits, length_append, length_replicate, hk, Nat.mul_comm]⟩

theorem missing_lt {w : Nat} (hw : 0 < w) (n : Nat) : missing w n < w := Nat.mod_lt _ hw

end Baselib.Lib
