import ContractVM.Bytes
import ContractVM.Word.Basic

/-!
# The bytes of a word

`Word.ofBytes` reads bytes as a number, the most significant first, and keeps it modulo
`2 ^ 256`: of more than 32 bytes only the last 32 count.  `Word.toBytes` writes a word as exactly
32 bytes.
-/

namespace ContractVM

namespace Word

/-- The word times 256 plus a byte, modulo `2 ^ 256`. -/
def pushByte (w : Word) (b : UInt8) : Word where
  limb3 := w.limb3 * 256 + w.limb2 / 0x100000000000000
  limb2 := w.limb2 * 256 + w.limb1 / 0x100000000000000
  limb1 := w.limb1 * 256 + w.limb0 / 0x100000000000000
  limb0 := w.limb0 * 256 + b.toUInt64

/-- The number that bytes denote, modulo `2 ^ 256`. -/
def ofBytes (bytes : List UInt8) : Word := bytes.foldl pushByte 0

/-- The eight bytes of a limb, the most significant first. -/
def limbBytes (limb : UInt64) : Vector UInt8 8 :=
  #v[(limb >>> 56).toUInt8, (limb >>> 48).toUInt8, (limb >>> 40).toUInt8, (limb >>> 32).toUInt8,
    (limb >>> 24).toUInt8, (limb >>> 16).toUInt8, (limb >>> 8).toUInt8, limb.toUInt8]

/-- The 32 bytes of a word, the most significant first. -/
def toBytes (w : Word) : Vector UInt8 32 :=
  limbBytes w.limb3 ++ limbBytes w.limb2 ++ limbBytes w.limb1 ++ limbBytes w.limb0

end Word

end ContractVM
