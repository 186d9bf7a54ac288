import ClassAtlas.Bytes

/-!
The cyclic redundancy check of archive entries: the remainder of the message, bits
taken low end first, by the polynomial of Ethernet.
-/
namespace ClassAtlas.Archive

/-- The remainder shifted by one bit. -/
def checksumBit (r : UInt32) : UInt32 :=
  if r &&& 1 = 1 then (r >>> 1) ^^^ 0xEDB88320 else r >>> 1

/-- What eight shifts make of each remainder of eight bits. -/
def checksumTable : Array UInt32 :=
  (Array.range 256).map fun n => Nat.repeat checksumBit 8 (UInt32.ofNat n)

def checksumByte (r : UInt32) (b : UInt8) : UInt32 :=
  checksumTable.getD ((r ^^^ b.toUInt32) &&& 0xFF).toNat 0 ^^^ (r >>> 8)

def checksum (bytes : Bytes) : UInt32 := bytes.foldl checksumByte 0xFFFFFFFF ^^^ 0xFFFFFFFF

end ClassAtlas.Archive
