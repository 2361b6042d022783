import ContractVM.Halt
import ContractVM.Keccak

/-!
# Events

The library reports what happens in a run as events.  An `Event` has a `level`, a `title` and
`fields`; one that `isSpan` opens a stretch of the run, all others mark a moment.  Events never
change what a run does.
-/

namespace ContractVM

/-- Something worth reporting. -/
inductive Event
  /-- A top-level call begins. -/
  | callStarted (target : Address) (code : Bytes)
  /-- A top-level call has ended. -/
  | callFinished (halt : Option Halt) (output : Bytes)
  /-- A top-level call was given up because the backend failed. -/
  | callAborted (error : BackendError)
  /-- A cache that an earlier call left is thrown away. -/
  | cacheDropped (size : Nat)
  /-- A top-level call has a fresh cache. -/
  | cacheActivated
  /-- A cache is taken away at the end of its call. -/
  | cacheDiscarded (size : Nat)
  /-- A rollback empties the cache. -/
  | cacheCleared (size : Nat)
  /-- A read was answered from the cache. -/
  | cacheHit (cell : Cell)
  /-- A read went to the backend and into the cache. -/
  | cacheMiss (cell : Cell)
  /-- A write took the cell out of the cache. -/
  | cacheInvalidated (cell : Cell)
  /-- A frame broke a rule at this byte of its code. -/
  | frameHalted (pc : Nat) (op : Option UInt8) (halt : Halt)
  /-- A call by a frame failed. -/
  | subCallFailed (target : Address) (halt : Halt)

namespace Event

/-- How much an event matters. -/
inductive Level
  | trace
  | debug
  | warn

/-- The name of a level. -/
def Level.name : Level → String
  | .trace => "TRACE"
  | .debug => "DEBUG"
  | .warn => "WARN"

/-- The value of a field. -/
inductive Field
  | number (n : Nat)
  | text (s : String)

def level : Event → Level
  | .cacheHit _ | .cacheMiss _ | .cacheInvalidated _ => .trace
  | .callAborted _ => .warn
  | _ => .debug

/-- Whether the event opens a stretch of the run. -/
def isSpan : Event → Bool
  | .callStarted _ _ => true
  | _ => false

def title : Event → String
  | .callStarted _ _ => "message_call"
  | .callFinished _ _ => "message call finished"
  | .callAborted _ => "message call aborted by state backend"
  | .cacheDropped _ => "dropping sload cache left by an earlier call"
  | .cacheActivated => "sload cache activated"
  | .cacheDiscarded _ => "sload cache discarded"
  | .cacheCleared _ => "sload cache cleared on rollback"
  | .cacheHit _ => "sload cache hit"
  | .cacheMiss _ => "sload cache miss"
  | .cacheInvalidated _ => "sload cache invalidated"
  | .frameHalted _ _ _ => "exceptional halt"
  | .subCallFailed _ _ => "sub-call failed"

/-- The fields of an event about a cell. -/
def cellFields (cell : Cell) : List (String × Field) :=
  [("address", .text (describe cell.address)), ("key", .text (describe cell.key))]

def fields : Event → List (String × Field)
  | .callStarted target code =>
    [("target", .text (describe target)),
      ("code_hash", .text (Hex.text (Keccak.hash code).toList))]
  | .callFinished halt output =>
    [("error", .text (describe halt)), ("output", .text (describe output))]
  | .callAborted error => [("error", .text error.message)]
  | .cacheActivated => []
  | .cacheDropped size | .cacheDiscarded size | .cacheCleared size => [("entries", .number size)]
  | .cacheHit cell | .cacheMiss cell | .cacheInvalidated cell => cellFields cell
  | .frameHalted pc op halt =>
    [("pc", .number pc), ("op", .text (describe (op.map UInt8.toNat))),
      ("error", .text halt.message)]
  | .subCallFailed target halt =>
    [("to", .text (describe target)), ("error", .text halt.message)]

end Event

end ContractVM
