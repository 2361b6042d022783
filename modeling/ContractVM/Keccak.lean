import ContractVM.Bytes

/-!
# The Keccak-256 hash

`Keccak.hash` is the sponge over the permutation of 1600 bits with a rate of 136 bytes and an
output of 32.  The state is five planes of five 64-bit lanes.  The message is followed by a one
bit, zeros, and a one bit at the end of its last block, where the bits of a byte count from the
least significant one.
-/

namespace ContractVM

namespace Keccak

/-- Five lanes of 64 bits. -/
structure Plane where
  x0 : UInt64
  x1 : UInt64
  x2 : UInt64
  x3 : UInt64
  x4 : UInt64

/-- Five planes. -/
structure State where
  y0 : Plane
  y1 : Plane
  y2 : Plane
  y3 : Plane
  y4 : Plane

/-- Rotates a lane to the left. -/
def rotate (lane n : UInt64) : UInt64 := lane <<< n ||| lane >>> (64 - n)

namespace Plane

def zero : Plane := ⟨0, 0, 0, 0, 0⟩

/-- Lane by lane exclusive or. -/
def xor (a b : Plane) : Plane :=
  ⟨a.x0 ^^^ b.x0, a.x1 ^^^ b.x1, a.x2 ^^^ b.x2, a.x3 ^^^ b.x3, a.x4 ^^^ b.x4⟩

/-- What each column adds to its neighbours, given the parities of the columns. -/
def spread (c : Plane) : Plane :=
  ⟨c.x4 ^^^ rotate c.x1 1, c.x0 ^^^ rotate c.x2 1, c.x1 ^^^ rotate c.x3 1,
    c.x2 ^^^ rotate c.x4 1, c.x3 ^^^ rotate c.x0 1⟩

/-- Mixes every lane with the two lanes after it. -/
def chi (b : Plane) : Plane :=
  ⟨b.x0 ^^^ (~~~b.x1 &&& b.x2), b.x1 ^^^ (~~~b.x2 &&& b.x3), b.x2 ^^^ (~~~b.x3 &&& b.x4),
    b.x3 ^^^ (~~~b.x4 &&& b.x0), b.x4 ^^^ (~~~b.x0 &&& b.x1)⟩

end Plane

namespace State

def zero : State := ⟨.zero, .zero, .zero, .zero, .zero⟩

/-- Adds to every lane the parities of the two columns beside it. -/
def theta (s : State) : State :=
  let d := ((((s.y0.xor s.y1).xor s.y2).xor s.y3).xor s.y4).spread
  ⟨s.y0.xor d, s.y1.xor d, s.y2.xor d, s.y3.xor d, s.y4.xor d⟩

/-- Rotates every lane by its own amount and moves it to its new place. -/
def rhoPi (s : State) : State where
  y0 := ⟨s.y0.x0, rotate s.y1.x1 44, rotate s.y2.x2 43, rotate s.y3.x3 21, rotate s.y4.x4 14⟩
  y1 := ⟨rotate s.y0.x3 28, rotate s.y1.x4 20, rotate s.y2.x0 3, rotate s.y3.x1 45,
    rotate s.y4.x2 61⟩
  y2 := ⟨rotate s.y0.x1 1, rotate s.y1.x2 6, rotate s.y2.x3 25, rotate s.y3.x4 8,
    rotate s.y4.x0 18⟩
  y3 := ⟨rotate s.y0.x4 27, rotate s.y1.x0 36, rotate s.y2.x1 10, rotate s.y3.x2 15,
    rotate s.y4.x3 56⟩
  y4 := ⟨rotate s.y0.x2 62, rotate s.y1.x3 55, rotate s.y2.x4 39, rotate s.y3.x0 41,
    rotate s.y4.x1 2⟩

def chi (s : State) : State := ⟨s.y0.chi, s.y1.chi, s.y2.chi, s.y3.chi, s.y4.chi⟩

/-- Adds a round constant to the first lane. -/
def iota (s : State) (constant : UInt64) : State :=
  { s with y0 := { s.y0 with x0 := s.y0.x0 ^^^ constant } }

/-- One round of the permutation. -/
def round (s : State) (constant : UInt64) : State := s.theta.rhoPi.chi.iota constant

/-- The constants of the 24 rounds. -/
def constants : List UInt64 := [
  0x0000000000000001, 0x0000000000008082, 0x800000000000808a, 0x8000000080008000,
  0x000000000000808b, 0x0000000080000001, 0x8000000080008081, 0x8000000000008009,
  0x000000000000008a, 0x0000000000000088, 0x0000000080008009, 0x000000008000000a,
  0x000000008000808b, 0x800000000000008b, 0x8000000000008089, 0x8000000000008003,
  0x8000000000008002, 0x8000000000000080, 0x000000000000800a, 0x800000008000000a,
  0x8000000080008081, 0x8000000000008080, 0x0000000080000001, 0x8000000080008008]

/-- The permutation of 1600 bits. -/
def permute (s : State) : State := constants.foldl round s

end State

/-! ### The sponge -/

/-- Bytes taken in before each permutation. -/
def rate : Nat := 136

/-- The message filled up to whole blocks. -/
def pad (b : Bytes) : Bytes :=
  if b.size % rate = rate - 1 then b.push 0x81
  else (Bytes.appendZeros (b.push 0x01) (rate - 2 - b.size % rate)).push 0x80

/-- The lane of the eight bytes from a position, the least significant first. -/
def laneAt (b : Bytes) (i : Nat) : UInt64 :=
  let byte (k : Nat) : UInt64 := (b.byteAt (i + k)).toUInt64
  byte 0 ||| byte 1 <<< 8 ||| byte 2 <<< 16 ||| byte 3 <<< 24 |||
    byte 4 <<< 32 ||| byte 5 <<< 40 ||| byte 6 <<< 48 ||| byte 7 <<< 56

/-- Takes in the block that starts at a position. -/
def absorb (s : State) (b : Bytes) (i : Nat) : State :=
  let lane (k : Nat) : UInt64 := laneAt b (i + 8 * k)
  State.permute
    { s with
      y0 := s.y0.xor ⟨lane 0, lane 1, lane 2, lane 3, lane 4⟩
      y1 := s.y1.xor ⟨lane 5, lane 6, lane 7, lane 8, lane 9⟩
      y2 := s.y2.xor ⟨lane 10, lane 11, lane 12, lane 13, lane 14⟩
      y3 := s.y3.xor ⟨lane 15, lane 16, 0, 0, 0⟩ }

/-- The eight bytes of a lane, the least significant first. -/
def laneBytes (lane : UInt64) : Vector UInt8 8 :=
  #v[lane.toUInt8, (lane >>> 8).toUInt8, (lane >>> 16).toUInt8, (lane >>> 24).toUInt8,
    (lane >>> 32).toUInt8, (lane >>> 40).toUInt8, (lane >>> 48).toUInt8, (lane >>> 56).toUInt8]

/-- The hash of a byte string. -/
def hash (b : Bytes) : Vector UInt8 32 :=
  let padded := pad b
  let last := (padded.size / rate).fold (fun k _ s => absorb s padded (rate * k)) State.zero
  laneBytes last.y0.x0 ++ laneBytes last.y0.x1 ++ laneBytes last.y0.x2 ++ laneBytes last.y0.x3

end Keccak

end ContractVM
