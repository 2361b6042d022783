import ContractVM.Memory
import ContractVM.Message
import ContractVM.Stack

/-!
# Frames

A `Frame` is one message in execution.  It is `ready` for its next instruction while it runs,
has code left, and waits for no call.  A frame that made a call holds it as `pending` until the
machine takes it up; one that has ended holds its `output`, and why it was `halted`, if it was.
-/

namespace ContractVM

/-- A call that a frame has made and that has not begun. -/
structure PendingCall where
  message : Message
  /-- Where the caller wants the output. -/
  output : Range

/-- A message in execution. -/
structure Frame where
  message : Message
  /-- The position of the next instruction in the code. -/
  pc : Nat
  stack : Stack
  memory : Memory
  /-- The size up to which memory may grow. -/
  memoryLimit : Nat
  running : Bool
  output : Bytes
  /-- The output of the last call. -/
  returnData : Bytes
  halted : Option Halt
  pending : Option PendingCall

namespace Frame

/-- A frame at the beginning of its code. -/
def new (message : Message) (memoryLimit : Nat) : Frame where
  message
  pc := 0
  stack := []
  memory := .empty
  memoryLimit
  running := true
  output := .empty
  returnData := .empty
  halted := none
  pending := none

/-- The code that the frame runs. -/
def code (f : Frame) : Bytes := f.message.code

/-- The byte at the position of the next instruction. -/
def opcode? (f : Frame) : Option UInt8 := f.code[f.pc]?

/-- The next instruction of a frame that can execute one: it runs, is inside of its code, and
waits for no call. -/
def ready? (f : Frame) : Option UInt8 :=
  if h : f.running ∧ f.pc < f.code.size ∧ f.pending.isNone then some (f.code.get f.pc h.2.1)
  else none

/-- Ends the frame with an error.  Only a revert keeps its output. -/
def halt (f : Frame) (reason : Halt) : Frame :=
  { f with
    output := if reason = .revert then f.output else .empty
    halted := some reason
    running := false }

end Frame

end ContractVM
