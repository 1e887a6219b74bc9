/-
Baselib.Lib.IntTypes — the integer types of C++ and the conversions between
them.

A type is its size in octets and whether it has a sign, and a value carries
the proof that its type represents it. A conversion keeps the value modulo
the number of values of the target type (`cast`). Two operands of different
types are compared after the integer promotions and the usual arithmetic
conversions (`less`), which may change either of them. Between two operands
of one type they change nothing (`less_iff`).
-/
import Mathlib.Tactic.Linarith

namespace Baselib.Lib

/-- An integer type of the language. -/
structure IntType where
  size : Nat
  isSigned : Bool
  size_pos : 0 < size
  deriving DecidableEq, Repr

namespace IntType

/-- Half the number of values of the type. -/
def half (T : IntType) : Nat := 2 ^ (8 * T.size - 1)

/-- `std::numeric_limits< T >::min()` -/
def min (T : IntType) : Int := if T.isSigned then -(T.half : Int) else 0

/-- `std::numeric_limits< T >::max()` -/
def max (T : IntType) : Int := if T.isSigned then T.half - 1 else 2 * T.half - 1

/-- The type has a value which is this integer. -/
def Represents (T : IntType) (n : Int) : Prop := T.min ≤ n ∧ n ≤ T.max

instance (T : IntType) (n : Int) : Decidable (T.Represents n) :=
  inferInstanceAs (Decidable (_ ∧ _))

/-- The integer of the type which is `n` modulo the number of its values. -/
def wrap (T : IntType) (n : Int) : Int :=
  if T.isSigned then Int.bmod n (2 * T.half) else n % (2 * T.half : Nat)

/-- A value of the type. -/
structure Value (T : IntType) where
  val : Int
  represents : T.Represents val

variable {T : IntType}

theorem Value.ext {x y : T.Value} (h : x.val = y.val) : x = y := by
  cases x
  cases y
  cases h
  rfl

instance (T : IntType) : DecidableEq T.Value := fun x y =>
  decidable_of_iff (x.val = y.val) ⟨Value.ext, fun h => h ▸ rfl⟩

/-! ## Ranges -/

theorem half_pos (T : IntType) : 0 < T.half := Nat.two_pow_pos _

theorem half_le {U : IntType} (h : T.size ≤ U.size) : T.half ≤ U.half :=
  Nat.pow_le_pow_right (by omega) (by omega)

theorem two_mul_half_le {U : IntType} (h : T.size < U.size) : 2 * T.half ≤ U.half := by
  have hT := T.size_pos
  calc 2 * T.half = 2 ^ (8 * T.size - 1 + 1) := by rw [half, Nat.pow_succ, Nat.mul_comm]
    _ ≤ U.half := Nat.pow_le_pow_right (by omega) (by omega)

theorem min_le (T : IntType) : T.min ≤ 0 := by
  rw [min]
  split_ifs <;> omega

theorem max_nonneg (T : IntType) : 0 ≤ T.max := by
  have hpos := T.half_pos
  rw [max]
  split_ifs <;> omega

theorem represents_zero (T : IntType) : T.Represents 0 := ⟨T.min_le, T.max_nonneg⟩

theorem represents_min (T : IntType) : T.Represents T.min :=
  ⟨le_refl _, le_trans T.min_le T.max_nonneg⟩

theorem represents_max (T : IntType) : T.Represents T.max :=
  ⟨le_trans T.min_le T.max_nonneg, le_refl _⟩

theorem represents_signed (hT : T.isSigned = true) {n : Int} :
    T.Represents n ↔ -(T.half : Int) ≤ n ∧ n < T.half := by
  simp only [Represents, min, max, hT, if_true]
  omega

theorem represents_unsigned (hT : T.isSigned = false) {n : Int} :
    T.Represents n ↔ 0 ≤ n ∧ n < 2 * T.half := by
  simp only [Represents, min, max, hT, Bool.false_eq_true, if_false]
  omega

/-- A wider type represents what a narrower one does, unless it has no sign
and the integer has one. -/
theorem Represents.widen {U : IntType} {n : Int} (h : T.Represents n) (hsize : T.size < U.size)
    (hsign : U.isSigned = true ∨ 0 ≤ n) : U.Represents n := by
  have hle := two_mul_half_le hsize
  cases hT : T.isSigned <;> cases hU : U.isSigned <;>
    simp only [represents_signed, represents_unsigned, hT, hU] at h ⊢ <;> simp [hU] at hsign <;>
    omega

/-- So does a type of the same size with the same sign, or without one. -/
theorem Represents.same {U : IntType} {n : Int} (h : T.Represents n) (hsize : T.size ≤ U.size)
    (hsign : T.isSigned = U.isSigned ∨ U.isSigned = false ∧ 0 ≤ n) : U.Represents n := by
  have hle := half_le hsize
  cases hT : T.isSigned <;> cases hU : U.isSigned <;>
    simp only [represents_signed, represents_unsigned, hT, hU] at h ⊢ <;>
    simp [hT, hU] at hsign <;> omega

/-! ## Conversions -/

theorem represents_wrap (T : IntType) (n : Int) : T.Represents (T.wrap n) := by
  have hpos := T.half_pos
  cases hT : T.isSigned with
  | true =>
    rw [represents_signed hT, wrap, if_pos hT]
    have hlow := Int.le_bmod (x := n) (m := 2 * T.half) (by omega)
    have hhigh := Int.bmod_lt (x := n) (m := 2 * T.half) (by omega)
    omega
  | false =>
    rw [represents_unsigned hT, wrap, if_neg (by simp [hT])]
    have hlow := Int.emod_nonneg n (b := ((2 * T.half : Nat) : Int)) (by omega)
    have hhigh := Int.emod_lt_of_pos n (b := ((2 * T.half : Nat) : Int)) (by omega)
    omega

theorem wrap_of_represents {n : Int} (h : T.Represents n) : T.wrap n = n := by
  cases hT : T.isSigned with
  | true =>
    rw [represents_signed hT] at h
    rw [wrap, if_pos hT]
    exact Int.bmod_eq_of_le (by omega) (by omega)
  | false =>
    rw [represents_unsigned hT] at h
    rw [wrap, if_neg (by simp [hT])]
    exact Int.emod_eq_of_lt h.1 (by omega)

/-- `static_cast< T >` of an integer. -/
def ofInt (T : IntType) (n : Int) : T.Value := ⟨T.wrap n, T.represents_wrap n⟩

/-- `static_cast< T >` of a value of another type. -/
def cast (T : IntType) {U : IntType} (v : U.Value) : T.Value := T.ofInt v.val

theorem ofInt_val {n : Int} (h : T.Represents n) : (T.ofInt n).val = n :=
  wrap_of_represents h

theorem cast_val {U : IntType} {v : U.Value} (h : T.Represents v.val) : (T.cast v).val = v.val :=
  wrap_of_represents h

/-- Integers which are the same modulo the number of values give the same value. -/
theorem wrap_congr {m n : Int} (h : m % (2 * T.half : Nat) = n % (2 * T.half : Nat)) :
    T.wrap m = T.wrap n := by
  unfold wrap
  split_ifs
  · rw [← Int.emod_bmod (n := 2 * T.half) m, h, Int.emod_bmod]
  · exact h

theorem wrap_emod (T : IntType) (n : Int) :
    T.wrap n % (2 * T.half : Nat) = n % (2 * T.half : Nat) := by
  unfold wrap
  split_ifs
  · exact Int.bmod_emod
  · exact Int.emod_emod_of_dvd _ (dvd_refl _)

/-- A value comes back from a type which is not narrower. -/
theorem cast_cast {U : IntType} (h : U.size ≤ T.size) (v : U.Value) : U.cast (T.cast v) = v := by
  apply Value.ext
  change U.wrap (T.wrap v.val) = v.val
  rw [wrap_congr (n := v.val), wrap_of_represents v.represents]
  have hdvd : ((2 * U.half : Nat) : Int) ∣ (2 * T.half : Nat) := by
    refine Int.natCast_dvd_natCast.mpr (Nat.mul_dvd_mul_left 2 ?_)
    exact Nat.pow_dvd_pow 2 (by omega)
  rw [← Int.emod_emod_of_dvd (T.wrap v.val) hdvd, wrap_emod, Int.emod_emod_of_dvd _ hdvd]

/-- `std::numeric_limits< T >::min()` as a value. -/
def minimum (T : IntType) : T.Value := ⟨T.min, T.represents_min⟩

/-- `std::numeric_limits< T >::max()` as a value. -/
def maximum (T : IntType) : T.Value := ⟨T.max, T.represents_max⟩

/-! ## Comparisons -/

def int : IntType := ⟨4, true, by omega⟩

def unsignedShort : IntType := ⟨2, false, by omega⟩

def unsignedInt : IntType := ⟨4, false, by omega⟩

def int32 : IntType := int

def int64 : IntType := ⟨8, true, by omega⟩

def uint64 : IntType := ⟨8, false, by omega⟩

/-- The integer promotions: a type narrower than `int` becomes `int`. -/
def promoted (T : IntType) : IntType := if T.size < int.size then int else T

/-- The usual arithmetic conversions: the type two operands are converted to. -/
def common (T U : IntType) : IntType :=
  let P := T.promoted
  let Q := U.promoted
  if P.isSigned = Q.isSigned then
    if P.size < Q.size then Q else P
  else if P.isSigned then
    if P.size ≤ Q.size then Q else P
  else
    if Q.size ≤ P.size then P else Q

/-- `x < y` -/
def less {T U : IntType} (x : T.Value) (y : U.Value) : Bool :=
  ((common T U).cast x).val < ((common T U).cast y).val

/-- `x == y` -/
def equal {T U : IntType} (x : T.Value) (y : U.Value) : Bool :=
  ((common T U).cast x).val = ((common T U).cast y).val

theorem Represents.promoted {n : Int} (h : T.Represents n) : T.promoted.Represents n := by
  rw [IntType.promoted]
  split_ifs with hsize
  · exact h.widen hsize (.inl rfl)
  · exact h

@[simp] theorem common_self (T : IntType) : common T T = T.promoted := by
  simp [common]

@[simp] theorem cast_common_self (x : T.Value) : ((common T T).cast x).val = x.val := by
  apply cast_val
  rw [common_self]
  exact x.represents.promoted

/-- Two values of one type compare as the integers they are. -/
@[simp] theorem less_iff (x y : T.Value) : less x y = decide (x.val < y.val) := by
  simp [less]

@[simp] theorem equal_iff (x y : T.Value) : equal x y = decide (x.val = y.val) := by
  simp [equal]

/-- Two values of different types may not. -/
example : less (int.ofInt (-1)) (uint64.ofInt 0) = false := by decide

end IntType

end Baselib.Lib
