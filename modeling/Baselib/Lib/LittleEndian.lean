/-
Baselib.Lib.LittleEndian — unsigned integers in a fixed number of octets,
the least significant one first.

Writing a number and reading it gives it back when it fits; reading octets
and writing the number gives the octets back.
-/
import Baselib.Lib.Octets

namespace Baselib.Lib

/-- The low `width` octets of the number. -/
def toLittleEndian : Nat → Nat → Octets
  | 0, _ => []
  | width + 1, n => UInt8.ofNat n :: toLittleEndian width (n / 256)

/-- The number the octets denote. -/
def ofLittleEndian : Octets → Nat
  | [] => 0
  | octet :: rest => octet.toNat + 256 * ofLittleEndian rest

@[simp] theorem length_toLittleEndian (width : Nat) : ∀ n, (toLittleEndian width n).length = width := by
  induction width with
  | zero => intro n; rfl
  | succ width ih => intro n; simp [toLittleEndian, ih]

theorem ofLittleEndian_lt (l : Octets) : ofLittleEndian l < 256 ^ l.length := by
  induction l with
  | nil => simp [ofLittleEndian]
  | cons octet rest ih =>
    have hoctet := octet.toNat_lt
    simp only [ofLittleEndian, List.length_cons, Nat.pow_succ]
    omega

theorem ofLittleEndian_toLittleEndian {width : Nat} :
    ∀ {n : Nat}, n < 256 ^ width → ofLittleEndian (toLittleEndian width n) = n := by
  induction width with
  | zero => intro n h; simp [toLittleEndian, ofLittleEndian] at h ⊢; omega
  | succ width ih =>
    intro n h
    have hrest : n / 256 < 256 ^ width := by
      rw [Nat.pow_succ] at h
      omega
    simp only [toLittleEndian, ofLittleEndian, ih hrest, UInt8.toNat_ofNat']
    omega

theorem toLittleEndian_ofLittleEndian (l : Octets) :
    toLittleEndian l.length (ofLittleEndian l) = l := by
  induction l with
  | nil => rfl
  | cons octet rest ih =>
    have hoctet := octet.toNat_lt
    have hfirst : UInt8.ofNat (octet.toNat + 256 * ofLittleEndian rest) = octet := by
      apply UInt8.toNat_inj.mp
      rw [UInt8.toNat_ofNat']
      omega
    have hrest : (octet.toNat + 256 * ofLittleEndian rest) / 256 = ofLittleEndian rest := by omega
    simp only [ofLittleEndian, List.length_cons, toLittleEndian, hfirst, hrest, ih]

end Baselib.Lib
