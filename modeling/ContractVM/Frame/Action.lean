import ContractVM.Frame.Basic

/-!
# Actions on a frame

The instructions are put together from small actions on one frame: taking and putting operands,
making memory fit, reading and writing it, moving on in the code.  An action that fails leaves
the frame as it is at that moment, so what was done before it stays done.

Beside the halts of the machine there is one more `Fault`: touching bytes outside a byte string.
Instructions within bounds fail with it, too, when they ask for bytes or depths that there are not
(`Frame.executeChecked`).
-/

namespace ContractVM

/-- Why an action fails. -/
inductive Fault
  /-- A rule of the machine. -/
  | halt (reason : Halt)
  /-- Bytes outside a byte string were to be read or written, or a bound was to be passed. -/
  | outOfBounds
  deriving DecidableEq

/-- An action on a frame, which is kept when the action fails. -/
abbrev Action (α : Type) := EStateM Fault Frame α

namespace Action

/-- Fails with a halt. -/
def fail {α : Type} (reason : Halt) : Action α := throw (.halt reason)

/-! ### Operands -/

/-- Takes the top operand. -/
def pop : Action Word := fun f =>
  match f.stack.pop with
  | .ok (w, stack) => .ok w { f with stack }
  | .error reason => .error (.halt reason) f

/-- Puts an operand on top. -/
def push (w : Word) : Action Unit := fun f =>
  match f.stack.push w with
  | .ok stack => .ok () { f with stack }
  | .error reason => .error (.halt reason) f

/-- Puts a copy of the operand `n` places below the top on top. -/
def dup (n : Nat) : Action Unit := fun f =>
  match f.stack.peek n with
  | .ok w => push w f
  | .error reason => .error (.halt reason) f

/-- Exchanges the top operand with the one `n` places below it. -/
def swap (n : Nat) : Action Unit := fun f =>
  match f.stack.swap n with
  | .ok stack => .ok () { f with stack }
  | .error reason => .error (.halt reason) f

/-! ### Bytes -/

/-- Bytes of a byte string, all of which lie inside. -/
def slice (b : Bytes) (start size : Nat) : Action Bytes := fun f =>
  match b.slice? start size with
  | some part => .ok part f
  | none => .error .outOfBounds f

/-- A word of bytes that begins with these, which have room in it, and goes on with zeros. -/
def padded (v : Bytes) : Action Bytes := fun f =>
  match (Bytes.zeroExtend .empty 32).overwrite? 0 v with
  | some word => .ok word f
  | none => .error .outOfBounds f

/-- The `n` bytes from `start`, where bytes past the end are zeros.  A word has room for them. -/
def window (b : Bytes) (start n : Nat) : Action Bytes := do
  let first := min start b.size
  let stop := min (start + n) b.size
  let word ← padded (← slice b first (stop - first))
  slice word 0 n

/-- Makes a range of memory fit, with room for strings of any length. -/
def extend (start size : Word) : Action Range := fun f =>
  match f.memory.extend f.memoryLimit start size with
  | .ok (range, memory) => .ok range { f with memory }
  | .error reason => .error (.halt reason) f

/-- The bytes of a range of memory. -/
def read (range : Range) : Action Bytes := fun f => slice f.memory range.start range.size f

/-- Writes bytes to memory. -/
def write (start : Nat) (v : Bytes) : Action Unit := fun f =>
  match f.memory.overwrite? start v with
  | some memory => .ok () { f with memory }
  | none => .error .outOfBounds f

/-! ### Progress -/

/-- Moves on in the code. -/
def advance (n : Nat) : Action Unit := modify fun f => { f with pc := f.pc + n }

/-- Stops the frame without an error. -/
def stop : Action Unit := modify fun f => { f with running := false }

/-- Sets the output of the frame. -/
def setOutput (output : Bytes) : Action Unit := modify fun f => { f with output }

/-- Sets the output of the last call. -/
def setReturnData (returnData : Bytes) : Action Unit := modify fun f => { f with returnData }

end Action

end ContractVM
