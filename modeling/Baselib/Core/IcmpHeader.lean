/-
Baselib.Core.IcmpHeader — `IcmpHeader`, the eight octets in front of an
ICMP body, and the checksum it stores.

`computeChecksum` adds 16 bit words in a 32 bit accumulator and folds what
is above 16 bits at the end, twice. No word is above `0xFFFF` and an IP
packet has at most 32767 of them, so the accumulator holds the exact sum
(`toNat_accumulated`), and two folds leave the word which stands for it
(`foldTwice_mod`). With the complement of that word in its place the words
of the whole packet sum up to all ones.
-/
import Mathlib.Tactic.IntervalCases
import Baselib.Lib.Octets
import Baselib.Lib.OnesComplement

namespace Baselib.Core

open Lib

/-- `m_data`. -/
structure IcmpHeader where
  data : Vector UInt8 8
  deriving DecidableEq

namespace IcmpHeader

def decode (h : IcmpHeader) (a b : Fin 8) : UInt16 :=
  (h.data[a].toUInt16 <<< 8) + h.data[b].toUInt16

def encode (h : IcmpHeader) (a b : Fin 8) (n : UInt16) : IcmpHeader :=
  ⟨(h.data.set a (n >>> 8).toUInt8).set b (n &&& 0xFF).toUInt8⟩

def type (h : IcmpHeader) : UInt8 := h.data[(0 : Fin 8)]
def code (h : IcmpHeader) : UInt8 := h.data[(1 : Fin 8)]
def checksum (h : IcmpHeader) : UInt16 := h.decode 2 3
def identifier (h : IcmpHeader) : UInt16 := h.decode 4 5
def sequenceNumber (h : IcmpHeader) : UInt16 := h.decode 6 7

/-- `checksum( n )`. -/
def setChecksum (h : IcmpHeader) (n : UInt16) : IcmpHeader := h.encode 2 3 n

/-- What the four accessors give to the accumulator. -/
def headerSum (h : IcmpHeader) : UInt32 :=
  (h.type.toUInt32 <<< 8) + h.code.toUInt32 + h.identifier.toUInt32 + h.sequenceNumber.toUInt32

/-- The loop over the body. -/
def bodySum : Octets → UInt32 → UInt32
  | [], sum => sum
  | [a], sum => sum + (a.toUInt32 <<< 8)
  | a :: b :: rest, sum => bodySum rest (sum + (a.toUInt32 <<< 8) + b.toUInt32)

/-- The two lines after the loop. -/
def foldTwice (sum : UInt32) : UInt32 :=
  let sum := (sum >>> 16) + (sum &&& 0xFFFF)
  sum + (sum >>> 16)

def computeChecksum (h : IcmpHeader) (body : Octets) : IcmpHeader :=
  let h := h.setChecksum 0
  let sum := bodySum body h.headerSum
  h.setChecksum (~~~foldTwice sum).toUInt16

/-- What goes out: the header and the body behind it. -/
def packet (h : IcmpHeader) (body : Octets) : Octets := h.data.toList ++ body

/-! ## The fields -/

theorem toNat_decode (h : IcmpHeader) (a b : Fin 8) :
    (h.decode a b).toNat = h.data[a].toNat * 256 + h.data[b].toNat := by
  have ha := h.data[a].toNat_lt
  have hb := h.data[b].toNat_lt
  simp only [decode, UInt16.toNat_add, UInt16.toNat_shiftLeft, UInt8.toNat_toUInt16,
    Nat.shiftLeft_eq, UInt16.reduceToNat, Nat.reduceMod, Nat.reducePow]
  omega

theorem checksum_setChecksum (h : IcmpHeader) (n : UInt16) : (h.setChecksum n).checksum = n := by
  have hn := n.toNat_lt
  have hlow : n.toNat &&& 255 = n.toNat % 256 := Nat.and_two_pow_sub_one_eq_mod n.toNat 8
  have h2 : (h.setChecksum n).data[2] = (n >>> 8).toUInt8 := by simp [setChecksum, encode]
  have h3 : (h.setChecksum n).data[3] = (n &&& 0xFF).toUInt8 := by simp [setChecksum, encode]
  apply UInt16.toNat.inj
  change ((h.setChecksum n).decode 2 3).toNat = n.toNat
  rw [toNat_decode]
  change (h.setChecksum n).data[2].toNat * 256 + (h.setChecksum n).data[3].toNat = n.toNat
  rw [h2, h3]
  simp only [UInt16.toNat_toUInt8, UInt16.toNat_shiftRight, UInt16.toNat_and, UInt16.reduceToNat,
    Nat.reduceMod, Nat.shiftRight_eq_div_pow, Nat.reducePow, hlow]
  omega

theorem getElem_setChecksum (h : IcmpHeader) (n : UInt16) {i : Nat} (hi : i < 8)
    (h2 : i ≠ 2) (h3 : i ≠ 3) : (h.setChecksum n).data[i] = h.data[i] := by
  simp [setChecksum, encode, Vector.getElem_set_ne, h2.symm, h3.symm]

theorem headerSum_setChecksum (h : IcmpHeader) (n : UInt16) :
    (h.setChecksum n).headerSum = h.headerSum := by
  simp [headerSum, type, code, identifier, sequenceNumber, decode, setChecksum, encode]

/-! ## The words of a packet -/

/-- The 16 bit words of a text in network order. An odd octet at the end
has a zero behind it. -/
def wordsOf : Octets → List Nat
  | [] => []
  | [a] => [a.toNat * 256]
  | a :: b :: rest => (a.toNat * 256 + b.toNat) :: wordsOf rest

theorem wordsOf_le (text : Octets) : ∀ w ∈ wordsOf text, w ≤ 0xFFFF := by
  fun_induction wordsOf text with
  | case1 => simp
  | case2 a =>
    have ha := a.toNat_lt
    simp only [List.mem_singleton, forall_eq]
    omega
  | case3 a b rest ih =>
    have ha := a.toNat_lt
    have hb := b.toNat_lt
    simp only [List.mem_cons, forall_eq_or_imp]
    exact ⟨by omega, ih⟩

theorem sum_wordsOf_le (text : Octets) :
    (wordsOf text).sum ≤ (text.length + 1) / 2 * 0xFFFF := by
  fun_induction wordsOf text with
  | case1 => simp
  | case2 a =>
    have ha := a.toNat_lt
    simp only [List.sum_singleton, List.length_singleton]
    omega
  | case3 a b rest ih =>
    have ha := a.toNat_lt
    have hb := b.toNat_lt
    simp only [List.sum_cons, List.length_cons]
    omega

theorem toList_data (h : IcmpHeader) :
    h.data.toList = [h.type, h.code, h.data[2], h.data[3], h.data[4], h.data[5],
      h.data[6], h.data[7]] := by
  apply List.ext_getElem
  · simp
  · intro i hi hi'
    simp only [Vector.length_toList] at hi
    interval_cases i <;> simp [type, code]

theorem wordsOf_packet (h : IcmpHeader) (body : Octets) :
    wordsOf (h.packet body) =
      [h.type.toNat * 256 + h.code.toNat, h.checksum.toNat, h.identifier.toNat,
        h.sequenceNumber.toNat] ++ wordsOf body := by
  simp only [packet, toList_data, checksum, identifier, sequenceNumber, toNat_decode]
  rfl

/-! ## The accumulator -/

theorem toNat_headerSum (h : IcmpHeader) :
    h.headerSum.toNat = h.type.toNat * 256 + h.code.toNat + h.identifier.toNat
      + h.sequenceNumber.toNat := by
  have ht := h.type.toNat_lt
  have hc := h.code.toNat_lt
  have hi := h.identifier.toNat_lt
  have hs := h.sequenceNumber.toNat_lt
  simp only [headerSum, UInt32.toNat_add, UInt32.toNat_shiftLeft, UInt8.toNat_toUInt32,
    UInt16.toNat_toUInt32, Nat.shiftLeft_eq, UInt32.reduceToNat, Nat.reduceMod, Nat.reducePow]
  omega

theorem toNat_bodySum (body : Octets) (sum : UInt32)
    (h : sum.toNat + (wordsOf body).sum < 4294967296) :
    (bodySum body sum).toNat = sum.toNat + (wordsOf body).sum := by
  fun_induction bodySum body sum with
  | case1 sum => rfl
  | case2 a sum =>
    have ha := a.toNat_lt
    simp only [wordsOf, List.sum_singleton] at h ⊢
    simp only [UInt32.toNat_add, UInt32.toNat_shiftLeft, UInt8.toNat_toUInt32,
      Nat.shiftLeft_eq, UInt32.reduceToNat, Nat.reduceMod, Nat.reducePow]
    omega
  | case3 a b rest sum ih =>
    have ha := a.toNat_lt
    have hb := b.toNat_lt
    have hsum : (sum + (a.toUInt32 <<< 8) + b.toUInt32).toNat
        = sum.toNat + (a.toNat * 256 + b.toNat) := by
      simp only [wordsOf, List.sum_cons] at h
      simp only [UInt32.toNat_add, UInt32.toNat_shiftLeft, UInt8.toNat_toUInt32,
        Nat.shiftLeft_eq, UInt32.reduceToNat, Nat.reduceMod, Nat.reducePow]
      omega
    simp only [wordsOf, List.sum_cons] at h ⊢
    rw [ih (by omega), hsum]
    omega

theorem sum_wordsOf_packet (h : IcmpHeader) (body : Octets) :
    (wordsOf (h.packet body)).sum
      = h.headerSum.toNat + (wordsOf body).sum + h.checksum.toNat := by
  rw [wordsOf_packet, toNat_headerSum]
  simp only [List.cons_append, List.nil_append, List.sum_cons]
  omega

/-- No carry is lost: an IP packet is too short for it. -/
theorem toNat_accumulated (h : IcmpHeader) {body : Octets} (hbody : body.length ≤ 65527) :
    (bodySum body h.headerSum).toNat = h.headerSum.toNat + (wordsOf body).sum := by
  have hwords := sum_wordsOf_le body
  have ht := h.type.toNat_lt
  have hc := h.code.toNat_lt
  have hi := h.identifier.toNat_lt
  have hs := h.sequenceNumber.toNat_lt
  apply toNat_bodySum
  rw [toNat_headerSum]
  omega

/-- Two folds leave the word of the sum in the low half. -/
theorem foldTwice_mod (sum : UInt32) :
    (foldTwice sum).toNat % 65536 = OnesComplement.residue 0xFFFF sum.toNat := by
  have hsum := sum.toNat_lt
  have hfirst : ((sum >>> 16) + (sum &&& 0xFFFF)).toNat
      = OnesComplement.foldCarries 0xFFFF sum.toNat := by
    have hand : sum.toNat &&& 0xFFFF = sum.toNat % 65536 :=
      Nat.and_two_pow_sub_one_eq_mod sum.toNat 16
    simp only [OnesComplement.foldCarries, UInt32.toNat_add, UInt32.toNat_shiftRight,
      UInt32.toNat_and, UInt32.reduceToNat, Nat.reduceMod, Nat.shiftRight_eq_div_pow,
      Nat.reducePow, Nat.reduceAdd, hand]
    omega
  rw [← OnesComplement.residue_foldCarries, ← hfirst]
  have hle : ((sum >>> 16) + (sum &&& 0xFFFF)).toNat ≤ 131070 := by
    rw [hfirst]
    simp only [OnesComplement.foldCarries]
    omega
  simp only [foldTwice]
  generalize (sum >>> 16) + (sum &&& 0xFFFF) = t at hle ⊢
  simp only [UInt32.toNat_add, UInt32.toNat_shiftRight, UInt32.reduceToNat, Nat.reduceMod,
    Nat.shiftRight_eq_div_pow, Nat.reducePow]
  by_cases hsmall : t.toNat ≤ 0xFFFF
  · rw [OnesComplement.residue_of_le hsmall]
    omega
  · simp only [OnesComplement.residue]
    rw [if_neg (by omega)]
    omega

/-! ## The checksum -/

theorem checksum_computeChecksum (h : IcmpHeader) (body : Octets) :
    (h.computeChecksum body).checksum.toNat = 0xFFFF - OnesComplement.residue 0xFFFF
      (bodySum body (h.setChecksum 0).headerSum).toNat := by
  rw [← foldTwice_mod, computeChecksum, checksum_setChecksum]
  have hlt := (foldTwice (bodySum body (h.setChecksum 0).headerSum)).toNat_lt
  simp only [UInt32.toNat_toUInt16, UInt32.toNat_not, UInt32.size, Nat.reducePow]
  omega

theorem getElem_computeChecksum (h : IcmpHeader) (body : Octets) {i : Nat} (hi : i < 8)
    (h2 : i ≠ 2) (h3 : i ≠ 3) : (h.computeChecksum body).data[i] = h.data[i] := by
  rw [computeChecksum, getElem_setChecksum _ _ hi h2 h3, getElem_setChecksum _ _ hi h2 h3]

theorem headerSum_computeChecksum (h : IcmpHeader) (body : Octets) :
    (h.computeChecksum body).headerSum = (h.setChecksum 0).headerSum := by
  rw [computeChecksum, headerSum_setChecksum]

/-- The accumulator holds the exact sum of the words, the checksum being
zero, and with the checksum stored the one's complement sum of the words of
header and body is all ones. -/
theorem computeChecksum_sum (h : IcmpHeader) (body : Octets) (hbody : body.length ≤ 65527) :
    (bodySum body (h.setChecksum 0).headerSum).toNat
        = (wordsOf ((h.setChecksum 0).packet body)).sum
      ∧ OnesComplement.sum 0xFFFF (wordsOf ((h.computeChecksum body).packet body)) = 0xFFFF
      ∧ ∀ i : Nat, ∀ hi : i < 8, i ≠ 2 → i ≠ 3 →
          (h.computeChecksum body).data[i] = h.data[i] := by
  have hexact := toNat_accumulated (h.setChecksum 0) hbody
  refine ⟨?_, ?_, fun i hi h2 h3 => getElem_computeChecksum h body hi h2 h3⟩
  · rw [hexact, sum_wordsOf_packet, checksum_setChecksum]
    rfl
  · rw [OnesComplement.sum_eq_residue (by decide) (wordsOf_le _), sum_wordsOf_packet,
      headerSum_computeChecksum, ← hexact, checksum_computeChecksum]
    exact OnesComplement.residue_add_complement (by decide) _

/-- An echo request with a body of three octets. -/
def echoRequest : IcmpHeader := ⟨#v[8, 0, 0xAB, 0xCD, 0xFF, 0xFE, 0xFF, 0xFF]⟩

theorem computeChecksum_sum_echoRequest :
    OnesComplement.sum 0xFFFF (wordsOf ((echoRequest.computeChecksum [0xFF, 0xFF, 0x80]).packet
      [0xFF, 0xFF, 0x80])) = 0xFFFF :=
  (computeChecksum_sum echoRequest [0xFF, 0xFF, 0x80] (by decide)).2.1

example : (echoRequest.computeChecksum [0xFF, 0xFF, 0x80]).checksum = 0x7800 := by decide

end IcmpHeader

end Baselib.Core
