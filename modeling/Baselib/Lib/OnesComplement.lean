/-
Baselib.Lib.OnesComplement — sums of words with the carry added back in.

With `m` the greatest word, a sum above `m` loses `m`: the carry leaves at
the top and comes in at the bottom. `residue m n` is the word which stands
for `n`: zero for zero alone, and otherwise the number from one to `m` which
is `n` modulo `m`. So a sum of words depends on their plain sum only
(`sum_eq_residue`), and a wide accumulator may fold its carries at the end
(`residue_foldCarries`).
-/
import Mathlib.Algebra.BigOperators.Group.List.Basic
import Mathlib.Tactic.Ring

namespace Baselib.Lib.OnesComplement

/-! ## Words -/

/-- One addition, the carry brought round. -/
def add (m a b : Nat) : Nat := if a + b ≤ m then a + b else a + b - m

def sum (m : Nat) (words : List Nat) : Nat := words.foldl (add m) 0

/-- The word which stands for a number. -/
def residue (m n : Nat) : Nat := if n = 0 then 0 else (n - 1) % m + 1

theorem residue_zero (m : Nat) : residue m 0 = 0 := rfl

theorem residue_of_le {m n : Nat} (h : n ≤ m) : residue m n = n := by
  unfold residue
  split
  · omega
  · rw [Nat.mod_eq_of_lt (by omega)]
    omega

theorem residue_le {m : Nat} (hm : 0 < m) (n : Nat) : residue m n ≤ m := by
  unfold residue
  split
  · omega
  · exact Nat.mod_lt _ hm

/-- A whole `m` is zero beside anything but zero. -/
theorem residue_add_self {m n : Nat} (h : 0 < n) : residue m (n + m) = residue m n := by
  have hpred : n + m - 1 = n - 1 + m := by omega
  simp only [residue, Nat.add_eq_zero_iff]
  rw [if_neg (by omega), if_neg (by omega), hpred, Nat.add_mod_right]

theorem residue_add_mul {m n : Nat} (h : 0 < n) (k : Nat) :
    residue m (n + k * m) = residue m n := by
  induction k with
  | zero => simp
  | succ k ih =>
    have hsplit : n + (k + 1) * m = n + k * m + m := by ring
    rw [hsplit, residue_add_self (by omega), ih]

/-- Every number is its word and a multiple of `m`. -/
theorem exists_residue (m n : Nat) : ∃ k, n = residue m n + k * m := by
  unfold residue
  split
  case isTrue h => exact ⟨0, by omega⟩
  case isFalse h =>
    refine ⟨(n - 1) / m, ?_⟩
    have hdiv := Nat.mod_add_div' (n - 1) m
    omega

theorem residue_pos {m n : Nat} (h : 0 < n) : 0 < residue m n := by
  unfold residue
  rw [if_neg (by omega)]
  omega

theorem add_eq_residue {m a b : Nat} (ha : a ≤ m) (hb : b ≤ m) :
    add m a b = residue m (a + b) := by
  unfold add
  split
  case isTrue h => rw [residue_of_le h]
  case isFalse h =>
    have hsplit : a + b = (a + b - m) + m := by omega
    rw [hsplit, residue_add_self (by omega), residue_of_le (by omega)]
    omega

/-- A word may stand for its number in any sum. -/
theorem residue_residue_add (m a b : Nat) : residue m (residue m a + b) = residue m (a + b) := by
  obtain ⟨k, hk⟩ := exists_residue m a
  rcases Nat.eq_zero_or_pos a with rfl | hpos
  · rfl
  · have hsplit : a + b = residue m a + b + k * m := by omega
    have := residue_pos (m := m) hpos
    rw [hsplit, residue_add_mul (by omega)]

/-! ## Sums -/

theorem foldl_add {m : Nat} (hm : 0 < m) {words : List Nat} (h : ∀ w ∈ words, w ≤ m) (n : Nat) :
    words.foldl (add m) (residue m n) = residue m (n + words.sum) := by
  induction words generalizing n with
  | nil => rfl
  | cons w words ih =>
    have hw : w ≤ m := h w (by simp)
    rw [List.foldl_cons, add_eq_residue (residue_le hm n) hw, residue_residue_add,
      ih (fun x hx => h x (by simp [hx])), List.sum_cons, Nat.add_assoc]

/-- The sum with the carries brought round at every addition is that of the
plain sum. -/
theorem sum_eq_residue {m : Nat} (hm : 0 < m) {words : List Nat} (h : ∀ w ∈ words, w ≤ m) :
    sum m words = residue m words.sum := by
  have hfold := foldl_add hm h 0
  rwa [residue_zero, Nat.zero_add] at hfold

/-- What is above a word is added to what is within. -/
def foldCarries (m n : Nat) : Nat := n / (m + 1) + n % (m + 1)

theorem residue_foldCarries {m : Nat} (n : Nat) : residue m (foldCarries m n) = residue m n := by
  have hdiv := Nat.div_add_mod' n (m + 1)
  have hsplit : n = foldCarries m n + n / (m + 1) * m := by
    unfold foldCarries
    rw [Nat.mul_add, Nat.mul_one] at hdiv
    omega
  rcases Nat.eq_zero_or_pos (foldCarries m n) with hzero | hpos
  · have hquot : n / (m + 1) = 0 := (Nat.add_eq_zero_iff.1 hzero).1
    rw [hquot, Nat.zero_mul, Nat.add_zero] at hsplit
    rw [← hsplit]
  · conv_rhs => rw [hsplit]
    rw [residue_add_mul hpos]

/-- The complement of the word of a sum makes the sum all ones. -/
theorem residue_add_complement {m : Nat} (hm : 0 < m) (n : Nat) :
    residue m (n + (m - residue m n)) = m := by
  have hle := residue_le hm n
  rw [← residue_residue_add, residue_of_le (by omega)]
  omega

end Baselib.Lib.OnesComplement
