import RtProxy.Lib.Bytes

/-!
The two checksums of `kcp.rs`: CRC-32 for packets and masked CRC-32C for snappy chunks.
-/

namespace RtProxy
namespace Kcp

/-- One bit of the polynomial division. -/
def crcBit (poly crc : UInt32) : UInt32 :=
  if crc &&& 1 ≠ 0 then (crc >>> 1) ^^^ poly else crc >>> 1

/-- The entries of `crc_table`. -/
def crcTable (poly : UInt32) (i : Fin 256) : UInt32 :=
  (List.range 8).foldl (fun crc _ => crcBit poly crc) (UInt32.ofNat i.val)

def CRC32_IEEE : Fin 256 → UInt32 := crcTable 0xEDB88320

def CRC32_CASTAGNOLI : Fin 256 → UInt32 := crcTable 0x82F63B78

def crc32 (table : Fin 256 → UInt32) (data : Bytes) : UInt32 :=
  ~~~ data.foldl
    (fun crc b => table (Fin.ofNat 256 ((crc ^^^ b.toUInt32) &&& 0xFF).toNat) ^^^ (crc >>> 8))
    (~~~ 0)

def crc32Ieee (data : Bytes) : UInt32 := crc32 CRC32_IEEE data

def rotateRight (x : UInt32) (k : UInt32) : UInt32 := (x >>> k) ||| (x <<< (32 - k))

/-- The checksum is rotated, so that a stream of checksums is not mistaken for the data. -/
def crc32cMasked (data : Bytes) : UInt32 :=
  rotateRight (crc32 CRC32_CASTAGNOLI data) 15 + 0xA282EAD8

/-- The check value of CRC-32. -/
example : crc32Ieee [0x31, 0x32, 0x33, 0x34, 0x35, 0x36, 0x37, 0x38, 0x39] = 0xCBF43926 := by
  decide +kernel

end Kcp
end RtProxy
