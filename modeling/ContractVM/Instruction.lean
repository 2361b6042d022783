/-!
# Instructions

Code is a byte string.  `Instruction.decode` says which instruction a byte stands for; a byte that
stands for none is the instruction `invalid`.  The bytes that follow a `push` are its number.
-/

namespace ContractVM

/-- What the machine can do. -/
inductive Instruction
  /-- Ends the frame. -/
  | stop
  | add
  | sub
  /-- Is the top smaller than the word below it? -/
  | lt
  /-- Is the top greater than the word below it? -/
  | gt
  | eq
  | isZero
  /-- The hash of a range of memory. -/
  | keccak
  /-- The account whose storage the code works on. -/
  | address
  | caller
  /-- Thirty-two bytes of the data of the message. -/
  | callDataLoad
  | callDataSize
  | pop
  /-- A word of memory. -/
  | memLoad
  | memStore
  /-- The value of a cell. -/
  | slotLoad
  | slotStore
  /-- The number that so many bytes of code denote, at most as many as a word has. -/
  | push (size : Fin 33)
  /-- A copy of the operand so many places below the top. -/
  | dup (place : Nat)
  /-- Exchanges the top with the operand so many places below it. -/
  | swap (place : Nat)
  | call
  /-- Ends the frame with an output. -/
  | ret
  /-- A call that allows reading only. -/
  | staticCall
  /-- Ends the frame with an output and undoes its writes. -/
  | revert
  | invalid (byte : UInt8)
  deriving DecidableEq

namespace Instruction

theorem pushSize_lt {byte : UInt8} (h : byte ≤ 0x7f) : byte.toNat - 0x5f < 33 := by
  have h : byte.toNat ≤ 0x7f := h
  omega

/-- The instruction of a byte. -/
def decode (byte : UInt8) : Instruction :=
  match byte with
  | 0x00 => .stop
  | 0x01 => .add
  | 0x03 => .sub
  | 0x10 => .lt
  | 0x11 => .gt
  | 0x14 => .eq
  | 0x15 => .isZero
  | 0x20 => .keccak
  | 0x30 => .address
  | 0x33 => .caller
  | 0x35 => .callDataLoad
  | 0x36 => .callDataSize
  | 0x50 => .pop
  | 0x51 => .memLoad
  | 0x52 => .memStore
  | 0x54 => .slotLoad
  | 0x55 => .slotStore
  | 0xf1 => .call
  | 0xf3 => .ret
  | 0xfa => .staticCall
  | 0xfd => .revert
  | _ =>
    if h : 0x5f ≤ byte ∧ byte ≤ 0x7f then .push ⟨byte.toNat - 0x5f, pushSize_lt h.2⟩
    else if 0x80 ≤ byte ∧ byte ≤ 0x8f then .dup (byte.toNat - 0x80)
    else if 0x90 ≤ byte ∧ byte ≤ 0x9f then .swap (byte.toNat - 0x8f)
    else .invalid byte

/-- The names of some bytes; of `push`, `dup` and `swap` the ends of their ranges. -/
def names : List (String × UInt8) := [
  ("STOP", 0x00), ("ADD", 0x01), ("SUB", 0x03), ("LT", 0x10), ("GT", 0x11), ("EQ", 0x14),
  ("ISZERO", 0x15), ("KECCAK256", 0x20), ("ADDRESS", 0x30), ("CALLER", 0x33),
  ("CALLDATALOAD", 0x35), ("CALLDATASIZE", 0x36), ("POP", 0x50), ("MLOAD", 0x51),
  ("MSTORE", 0x52), ("SLOAD", 0x54), ("SSTORE", 0x55), ("PUSH0", 0x5f), ("PUSH1", 0x60),
  ("PUSH32", 0x7f), ("DUP1", 0x80), ("DUP16", 0x8f), ("SWAP1", 0x90), ("SWAP16", 0x9f),
  ("CALL", 0xf1), ("RETURN", 0xf3), ("STATICCALL", 0xfa), ("REVERT", 0xfd), ("INVALID", 0xfe)]

end Instruction

end ContractVM
