/-
Baselib.Messaging.TcpBlockTransferCommon — the command block of the block transfer
protocol between hosts of different byte orders, `detail::CommandBlock` of
`messaging/TcpBlockTransferCommon.h`.

The block is its memory: each member is kept as the octets it occupies, and
a host reads a number off them in its own byte order. The union is kept as
the members of `tagReserved`, the largest of its structures, and the other
structures are read off the same octets. Nothing is padded (the sizes are
asserted by the code), so the octets on the wire are the memory.
-/
import Baselib.Lib.ByteOrder

namespace Baselib.Messaging.TcpBlockTransferCommon

open Lib

/-- `tagReserved`. -/
structure DataHeader where
  reserved1 : OctetVector 4
  reserved2 : OctetVector 4
  reserved3 : OctetVector 2
  reserved4 : OctetVector 2
  reservedUuid : OctetVector 16
  deriving DecidableEq

namespace DataHeader

/-- `version.value`. -/
def version (data : DataHeader) : OctetVector 4 := data.reserved1

/-- `blockInfo.flags`, the first half of `reserved1`. -/
def flags (data : DataHeader) : OctetVector 2 :=
  ⟨data.reserved1.1.take 2, by simp [data.reserved1.2]⟩

/-- `blockInfo.unused`, the second half of `reserved1`. -/
def unused (data : DataHeader) : OctetVector 2 :=
  ⟨data.reserved1.1.drop 2, by simp [data.reserved1.2]⟩

/-- `blockInfo.protocolDataOffset`. -/
def protocolDataOffset (data : DataHeader) : OctetVector 4 := data.reserved2

/-- `blockInfo.blockType`. -/
def blockType (data : DataHeader) : OctetVector 2 := data.reserved3

/-- `blockInfo` as a host writes it, `unused` zeroed. -/
def ofBlockInfo (o : ByteOrder) (flags protocolDataOffset blockType : Nat) : DataHeader where
  reserved1 := ⟨(o.store 2 flags).1 ++ (o.store 2 0).1, by
    simp [(o.store 2 flags).2, (o.store 2 0).2]⟩
  reserved2 := o.store 4 protocolDataOffset
  reserved3 := o.store 2 blockType
  reserved4 := o.store 2 0
  reservedUuid := ⟨List.replicate 16 0, rfl⟩

/-- `version` as a host writes it. -/
def ofVersion (o : ByteOrder) (value : Nat) : DataHeader where
  reserved1 := o.store 4 value
  reserved2 := o.store 4 0
  reserved3 := o.store 2 0
  reserved4 := o.store 2 0
  reservedUuid := ⟨List.replicate 16 0, rfl⟩

end DataHeader

structure CommandBlock where
  cntrlCode : OctetVector 2
  flags : OctetVector 2
  errorCode : OctetVector 4
  peerId : OctetVector 16
  chunkId : OctetVector 16
  chunkSize : OctetVector 4
  data : DataHeader
  deriving DecidableEq

namespace CommandBlock

/-- The conversion of the numbers ahead of the union, which is the same in
both directions. -/
def convertNumbers (o : ByteOrder) (block : CommandBlock) : CommandBlock :=
  { block with
    cntrlCode := o.convert block.cntrlCode
    flags := o.convert block.flags
    errorCode := o.convert block.errorCode
    chunkSize := o.convert block.chunkSize }

/-- The conversion of the numbers of `reserved`. -/
def convertReserved (o : ByteOrder) (block : CommandBlock) : CommandBlock :=
  { block with
    data :=
      { block.data with
        reserved1 := o.convert block.data.reserved1
        reserved2 := o.convert block.data.reserved2
        reserved3 := o.convert block.data.reserved3
        reserved4 := o.convert block.data.reserved4 } }

/-- `none` is the exception for the field `data.blockInfo.unused`. -/
def chkUnused (o : ByteOrder) (block : CommandBlock) : Option CommandBlock :=
  if o.load block.data.unused = 0 then some block else none

def network2Host (o : ByteOrder) (block : CommandBlock) : Option CommandBlock :=
  chkUnused o (convertReserved o (convertNumbers o block))

def host2Network (o : ByteOrder) (block : CommandBlock) : Option CommandBlock :=
  (chkUnused o (convertNumbers o block)).map (convertReserved o)

/-- The sender converts the block and writes its octets, which the receiver
reads into a block of its own and converts. -/
def transfer (sender receiver : ByteOrder) (block : CommandBlock) : Option CommandBlock :=
  (host2Network sender block).bind (network2Host receiver)

/-- Every field of the protocol has the same value to both hosts. -/
structure SameFields (sender receiver : ByteOrder) (block block' : CommandBlock) : Prop where
  cntrlCode : receiver.load block'.cntrlCode = sender.load block.cntrlCode
  flags : receiver.load block'.flags = sender.load block.flags
  errorCode : receiver.load block'.errorCode = sender.load block.errorCode
  peerId : block'.peerId = block.peerId
  chunkId : block'.chunkId = block.chunkId
  chunkSize : receiver.load block'.chunkSize = sender.load block.chunkSize
  version : receiver.load block'.data.version = sender.load block.data.version
  blockInfoFlags : receiver.load block'.data.flags = sender.load block.data.flags
  protocolDataOffset :
    receiver.load block'.data.protocolDataOffset = sender.load block.data.protocolDataOffset
  blockType : receiver.load block'.data.blockType = sender.load block.data.blockType

end CommandBlock

end Baselib.Messaging.TcpBlockTransferCommon
