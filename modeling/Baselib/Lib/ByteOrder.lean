/-
Baselib.Lib.ByteOrder — unsigned integers in the memory of hosts with
different byte orders.

What a host keeps in `n` octets is a number to it. Converting the number to
network order reverses the octets on a little endian host and leaves them on
a big endian one, so the octets are the same for every host afterwards.
-/
import Baselib.Lib.LittleEndian

namespace Baselib.Lib

/-- The octets of an object of size `n`. -/
abbrev OctetVector (n : Nat) := { octets : Octets // octets.length = n }

inductive ByteOrder where
  | littleEndian
  | bigEndian
  deriving DecidableEq

namespace ByteOrder

variable {n : Nat}

/-- The number which a host reads. -/
def load : ByteOrder → OctetVector n → Nat
  | .littleEndian, v => ofLittleEndian v.1
  | .bigEndian, v => ofLittleEndian v.1.reverse

/-- The octets a host writes. -/
def store (n : Nat) : ByteOrder → Nat → OctetVector n
  | .littleEndian, x => ⟨toLittleEndian n x, length_toLittleEndian n x⟩
  | .bigEndian, x => ⟨(toLittleEndian n x).reverse, by simp⟩

/-- The number with its octets in the opposite order. -/
def byteSwap (n x : Nat) : Nat := ofLittleEndian (toLittleEndian n x).reverse

/-- `htons` and `htonl`, which are `ntohs` and `ntohl` as well. -/
def hostToNetwork (n : Nat) : ByteOrder → Nat → Nat
  | .littleEndian, x => byteSwap n x
  | .bigEndian, x => x

/-- An integer of `n` octets is converted in place. -/
def convert (o : ByteOrder) (v : OctetVector n) : OctetVector n :=
  store n o (o.hostToNetwork n (o.load v))

def reverse (v : OctetVector n) : OctetVector n := ⟨v.1.reverse, by simp [v.2]⟩

@[simp] theorem reverse_reverse (v : OctetVector n) : reverse (reverse v) = v :=
  Subtype.ext (List.reverse_reverse v.1)

theorem load_bigEndian (v : OctetVector n) : bigEndian.load v = littleEndian.load (reverse v) := rfl

theorem load_reverse (v : OctetVector n) : littleEndian.load v = bigEndian.load (reverse v) := by
  rw [load_bigEndian, reverse_reverse]

theorem toLittleEndian_load (v : OctetVector n) : toLittleEndian n (littleEndian.load v) = v.1 := by
  obtain ⟨octets, rfl⟩ := v
  exact toLittleEndian_ofLittleEndian octets

@[simp] theorem convert_littleEndian (v : OctetVector n) : littleEndian.convert v = reverse v := by
  have hswap : byteSwap n (littleEndian.load v) = littleEndian.load (reverse v) := by
    rw [byteSwap, toLittleEndian_load]
    rfl
  apply Subtype.ext
  change toLittleEndian n (byteSwap n (littleEndian.load v)) = (reverse v).1
  rw [hswap, toLittleEndian_load]

@[simp] theorem convert_bigEndian (v : OctetVector n) : bigEndian.convert v = v := by
  apply Subtype.ext
  change (toLittleEndian n (bigEndian.load v)).reverse = v.1
  rw [load_bigEndian, toLittleEndian_load]
  exact List.reverse_reverse v.1

/-- A number converted on one host and converted back on another is the
same to both. -/
theorem load_convert_convert (s r : ByteOrder) (v : OctetVector n) :
    r.load (r.convert (s.convert v)) = s.load v := by
  cases s with
  | littleEndian =>
    cases r with
    | littleEndian => simp
    | bigEndian => simp [load_bigEndian]
  | bigEndian =>
    cases r with
    | littleEndian => simp [load_bigEndian]
    | bigEndian => simp

/-- The octets come to another host in the other order. -/
theorem convert_convert (s r : ByteOrder) (v : OctetVector n) :
    r.convert (s.convert v) = if s = r then v else reverse v := by
  cases s with
  | littleEndian | bigEndian =>
    cases r with
    | littleEndian => simp
    | bigEndian => simp

end ByteOrder

end Baselib.Lib
