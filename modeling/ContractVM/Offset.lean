/-!
# Offsets

Positions in code, data and memory are offsets: natural numbers below `Offset.bound`.  A sum that
would not be an offset is refused, never wrapped.  Memory is measured in words of 32 bytes:
`Offset.ceil32` rounds a size up to whole words, and `Offset.ceil32?` does so among offsets.
-/

namespace ContractVM

namespace Offset

/-- Offsets and sizes lie below this number. -/
def bound : Nat := UInt64.size

/-- A sum of offsets, if it is an offset. -/
def add? (a b : Nat) : Option Nat :=
  if a + b < bound then some (a + b) else none

/-- The least multiple of 32 that is not below `n`. -/
def ceil32 (n : Nat) : Nat := (n + 31) / 32 * 32

/-- The least multiple of 32 that is not below `n`, if it is an offset. -/
def ceil32? (n : Nat) : Option Nat :=
  if n % 32 = 0 then some n else add? n (32 - n % 32)

end Offset

end ContractVM
