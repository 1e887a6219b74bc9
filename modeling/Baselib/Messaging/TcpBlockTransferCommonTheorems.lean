/-
Baselib.Messaging.TcpBlockTransferCommonTheorems — which command blocks come
to the other host as they were.

`blockInfo.flags` and `blockInfo.unused` are converted as one number of four
octets, so between hosts of unlike byte orders each of them takes the place
of the other.
-/
import Baselib.Messaging.TcpBlockTransferCommon

namespace Baselib.Messaging.TcpBlockTransferCommon

open Lib ByteOrder

variable {s r : ByteOrder}

/-! ## The halves of the first number -/

theorem load_reverse_of_ne {n : Nat} (h : s ≠ r) (v : OctetVector n) :
    r.load (reverse v) = s.load v := by
  cases s with
  | littleEndian =>
    cases r with
    | littleEndian => exact absurd rfl h
    | bigEndian => exact (load_reverse v).symm
  | bigEndian =>
    cases r with
    | littleEndian => exact (load_bigEndian v).symm
    | bigEndian => exact absurd rfl h

theorem DataHeader.flags_of_reverse {data data' : DataHeader}
    (h : data'.reserved1 = reverse data.reserved1) : data'.flags = reverse data.unused := by
  apply Subtype.ext
  have hlength := data.reserved1.2
  simp [flags, unused, reverse, h, List.take_reverse, hlength]

theorem DataHeader.unused_of_reverse {data data' : DataHeader}
    (h : data'.reserved1 = reverse data.reserved1) : data'.unused = reverse data.flags := by
  apply Subtype.ext
  have hlength := data.reserved1.2
  simp [flags, unused, reverse, h, List.drop_reverse, hlength]

namespace CommandBlock

/-- The block on the receiver, before the check of its `unused` field. -/
def received (s r : ByteOrder) (block : CommandBlock) : CommandBlock :=
  convertReserved r (convertNumbers r (convertReserved s (convertNumbers s block)))

theorem transfer_eq (s r : ByteOrder) (block : CommandBlock) :
    transfer s r block =
      if s.load block.data.unused = 0 then chkUnused r (received s r block) else none := by
  have hunused : (convertNumbers s block).data.unused = block.data.unused := rfl
  rw [transfer, host2Network, chkUnused, hunused]
  split <;> rfl

theorem reserved1_received_of_ne (h : s ≠ r) (block : CommandBlock) :
    (received s r block).data.reserved1 = reverse block.data.reserved1 :=
  (convert_convert s r block.data.reserved1).trans (if_neg h)

theorem reserved1_received_self (block : CommandBlock) :
    (received s s block).data.reserved1 = block.data.reserved1 :=
  (convert_convert s s block.data.reserved1).trans (if_pos rfl)

/-- The check on the receiver looks at the flags of an unlike sender. -/
theorem load_unused_received (block : CommandBlock) :
    r.load (received s r block).data.unused =
      if s = r then s.load block.data.unused else s.load block.data.flags := by
  obtain rfl | h := eq_or_ne s r
  · rw [if_pos rfl, DataHeader.unused, DataHeader.unused]
    simp only [reserved1_received_self]
  · rw [if_neg h, DataHeader.unused_of_reverse (reserved1_received_of_ne h block),
      load_reverse_of_ne h]

theorem load_flags_received (block : CommandBlock) :
    r.load (received s r block).data.flags =
      if s = r then s.load block.data.flags else s.load block.data.unused := by
  obtain rfl | h := eq_or_ne s r
  · rw [if_pos rfl, DataHeader.flags, DataHeader.flags]
    simp only [reserved1_received_self]
  · rw [if_neg h, DataHeader.flags_of_reverse (reserved1_received_of_ne h block),
      load_reverse_of_ne h]

/-- Every field but the flags always comes to the receiver as it was. -/
theorem sameFields_received {block : CommandBlock}
    (h : r.load (received s r block).data.flags = s.load block.data.flags) :
    SameFields s r block (received s r block) where
  cntrlCode := load_convert_convert s r block.cntrlCode
  flags := load_convert_convert s r block.flags
  errorCode := load_convert_convert s r block.errorCode
  peerId := rfl
  chunkId := rfl
  chunkSize := load_convert_convert s r block.chunkSize
  version := load_convert_convert s r block.data.reserved1
  blockInfoFlags := h
  protocolDataOffset := load_convert_convert s r block.data.reserved2
  blockType := load_convert_convert s r block.data.reserved3

/-- A command block is received with the values it was sent with exactly when
its `unused` field is zero and the hosts are alike or the flags of the block
are zero as well. -/
theorem transfer_sameFields_iff (s r : ByteOrder) (block : CommandBlock) :
    (∃ block', transfer s r block = some block' ∧ SameFields s r block block') ↔
      s.load block.data.unused = 0 ∧ (s = r ∨ s.load block.data.flags = 0) := by
  rw [transfer_eq]
  by_cases hunused : s.load block.data.unused = 0
  · rw [if_pos hunused, chkUnused, load_unused_received]
    by_cases hsame : s = r
    · have hfields := @sameFields_received s r block (by rw [load_flags_received, if_pos hsame])
      rw [if_pos hsame, if_pos hunused]
      exact ⟨fun _ => ⟨hunused, .inl hsame⟩, fun _ => ⟨_, rfl, hfields⟩⟩
    · rw [if_neg hsame]
      by_cases hflags : s.load block.data.flags = 0
      · have hfields := @sameFields_received s r block
          (by rw [load_flags_received, if_neg hsame, hunused, hflags])
        rw [if_pos hflags]
        exact ⟨fun _ => ⟨hunused, .inr hflags⟩, fun _ => ⟨_, rfl, hfields⟩⟩
      · rw [if_neg hflags]
        constructor
        · rintro ⟨_, h, -⟩
          cases h
        · rintro ⟨-, h | h⟩
          · exact absurd h hsame
          · exact absurd h hflags
  · rw [if_neg hunused]
    constructor
    · rintro ⟨_, h, -⟩
      cases h
    · exact fun h => absurd h.1 hunused

/-- A request of a little endian client to remove a block, which is not to
fail when there is none (`IgnoreIfNotFound`). -/
def removeDataBlock : CommandBlock where
  cntrlCode := littleEndian.store 2 6
  flags := littleEndian.store 2 0
  errorCode := littleEndian.store 4 0
  peerId := ⟨List.replicate 16 (.ofNat 1), rfl⟩
  chunkId := ⟨List.replicate 16 (.ofNat 2), rfl⟩
  chunkSize := littleEndian.store 4 0
  data := .ofBlockInfo .littleEndian 1 0 0

/-- The version of the protocol, sent by a big endian server. -/
def getProtocolVersion : CommandBlock where
  cntrlCode := bigEndian.store 2 1
  flags := bigEndian.store 2 1
  errorCode := bigEndian.store 4 0
  peerId := ⟨List.replicate 16 (.ofNat 1), rfl⟩
  chunkId := ⟨List.replicate 16 (.ofNat 2), rfl⟩
  chunkSize := bigEndian.store 4 0
  data := .ofVersion .bigEndian 2

/-- The receiver finds the flags in `unused`, and a version which a big
endian host has written is not sent at all. -/
theorem transfer_unlikeHosts :
    (littleEndian.load removeDataBlock.data.unused = 0 ∧
        littleEndian.load removeDataBlock.data.flags = 1 ∧
        transfer .littleEndian .littleEndian removeDataBlock = some removeDataBlock ∧
        transfer .littleEndian .bigEndian removeDataBlock = none) ∧
      bigEndian.load getProtocolVersion.data.version = 2 ∧
      host2Network .bigEndian getProtocolVersion = none := by
  decide

end CommandBlock

end Baselib.Messaging.TcpBlockTransferCommon
