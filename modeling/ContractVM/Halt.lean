import ContractVM.Cell
import ContractVM.Text.Quoted

/-!
# What can go wrong

A backend that holds the accounts may fail to answer (`BackendError`).  A frame of the machine
stops with a `Halt` when it reverts, breaks a rule, or asks a backend that fails.  A `Failure` is
what a caller of the library sees when a whole operation is refused.

Every error has a `message` for people, and a text as a value (`describe`).
-/

namespace ContractVM

/-! ### Backends -/

/-- Why a backend does not answer. -/
inductive BackendError
  /-- It cannot be reached. -/
  | unavailable (reason : String)
  /-- It refuses a write to the cell. -/
  | rejected (cell : Cell)
  deriving DecidableEq

namespace BackendError

/-- What the error is called in reports. -/
def message : BackendError → String
  | .unavailable reason => "storage backend unavailable: " ++ reason
  | .rejected cell =>
    "write to slot " ++ describe cell.key ++ " of " ++ describe cell.address ++ " rejected"

instance : Describe BackendError where
  describe
    | .unavailable reason => Text.variant "Unavailable" (Text.quoted reason)
    | .rejected cell => Text.record "Rejected"
        [("address", describe cell.address), ("key", describe cell.key)]

end BackendError

/-! ### Frames -/

/-- Why a frame stops before its end. -/
inductive Halt
  /-- The code asked for it: its output stands, its writes do not. -/
  | revert
  /-- An operand is missing. -/
  | stackUnderflow
  /-- There is no room for a result. -/
  | stackOverflow
  /-- The byte is no instruction. -/
  | invalidOpcode (byte : UInt8)
  /-- The message lies deeper than calls may nest. -/
  | depthLimit
  /-- A write where only reading is allowed. -/
  | staticWrite
  /-- A memory range that does not fit. -/
  | memoryLimit
  /-- The backend failed. -/
  | backend (error : BackendError)
  deriving DecidableEq

namespace Halt

/-- What the error is called in reports. -/
def message : Halt → String
  | .revert => "execution reverted"
  | .stackUnderflow => "stack underflow"
  | .stackOverflow => "stack overflow"
  | .invalidOpcode byte => Hex.append "invalid opcode 0x" [byte]
  | .depthLimit => "stack depth limit reached"
  | .staticWrite => "write in static context"
  | .memoryLimit => "memory limit exceeded"
  | .backend error => error.message

instance : Describe Halt where
  describe
    | .revert => "Revert"
    | .stackUnderflow => "StackUnderflowError"
    | .stackOverflow => "StackOverflowError"
    | .invalidOpcode byte => Text.variant "InvalidOpcode" (describe byte.toNat)
    | .depthLimit => "StackDepthLimitError"
    | .staticWrite => "WriteInStaticContext"
    | .memoryLimit => "MemoryLimitExceeded"
    | .backend error => Text.variant "Backend" (describe error)

end Halt

/-! ### Whole operations -/

/-- Why an operation of the library is refused. -/
inductive Failure
  /-- A text is no hexadecimal number of the wanted size. -/
  | hex (error : HexError)
  /-- A number does not fit the wanted width. -/
  | overflow
  /-- The backend failed. -/
  | backend (error : BackendError)
  deriving DecidableEq

namespace Failure

/-- What the error is called in reports. -/
def message : Failure → String
  | .hex error => error.message
  | .overflow => "numeric overflow"
  | .backend error => "state backend failure: " ++ error.message

instance : Describe Failure where
  describe
    | .hex error => Text.variant "EthereumException" (Text.quoted error.message)
    | .overflow => "NumericOverflow"
    | .backend error => Text.variant "State" (describe error)

end Failure

/-- The number of a word, if it has at most 64 bits. -/
def Word.narrow (w : Word) : Except Failure Nat :=
  match w.toOffset? with
  | some n => .ok n
  | none => .error .overflow

end ContractVM
