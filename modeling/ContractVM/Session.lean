import ContractVM.Backend.Counted
import ContractVM.Backend.Faulty
import ContractVM.Backend.Logged
import ContractVM.Ledger.Basic
import ContractVM.Machine.Checked

/-!
# Sessions

A `Session` is a bench for the machine: one ledger behind rules, a log and counts, settings, a
cache, and one frame at hand.  `Session.perform` carries out one `Command` and gives its `Reply`.
Messages can be run as a whole, or instructions one by one on the frame at hand, both within bounds;
cells, the cache and the transactions can also be worked on directly.  The log and the events in a
session are those of its last command.
-/

namespace ContractVM

/-- A ledger behind rules, a log and counts. -/
abbrev Store := Counted (Logged (Faulty Ledger))

namespace Store

/-- The ledger inside. -/
def ledger (s : Store) : Ledger := s.inner.inner.inner

/-- Changes the ledger, past the rules, the log and the counts. -/
def modifyLedger (s : Store) (f : Ledger → Ledger) : Store :=
  Counted.modify s (Logged.modify · (Faulty.modify · f))

/-- Replaces the rules. -/
def setRules (s : Store) (rules : List Rule) : Store :=
  Counted.modify s (Logged.modify · ({ · with rules }))

/-- Forgets the log. -/
def clearLog (s : Store) : Store := Counted.modify s Logged.clear

/-- A store of an empty ledger, without rules. -/
def empty : Store := .new (.new (.new ∅))

end Store

namespace Session

/-! ### Commands -/

/-- A message as a command gives it. -/
structure MessageSpec where
  caller : Address
  target : Address
  /-- Absent, it is the code that the ledger holds for the target. -/
  code : Option Bytes
  data : Bytes
  /-- Absent, it is the target. -/
  self : Option Address
  depth : Nat
  isStatic : Bool

/-- The message, given the ledger. -/
def MessageSpec.message (m : MessageSpec) (l : Ledger) : Message where
  caller := m.caller
  target := m.target
  self := m.self.getD m.target
  data := m.data
  code := m.code.getD (l.account m.target).code
  depth := m.depth
  isStatic := m.isStatic

/-- What can be asked of a session. -/
inductive Command
  | call (m : MessageSpec)
  | transact (m : MessageSpec)
  | execute (m : MessageSpec)
  /-- Takes a frame to hand. -/
  | begin (m : MessageSpec) (pc : Nat) (stack : Stack) (memory : Memory) (memoryLimit : Nat)
    (returnData : Bytes)
  /-- Executes the instruction of a byte, whatever the code holds. -/
  | instruction (byte : UInt8)
  /-- Executes up to `count` instructions of the code. -/
  | next (count : Nat)
  /-- Goes on with the frame at hand as after a call with this outcome. -/
  | resume (output : Range) (callee : Address) (result : Bytes) (halted : Option Halt)
  | load (cell : Cell)
  | store (cell : Cell) (value : Word)
  | setValue (cell : Cell) (value : Word)
  | setCode (address : Address) (code : Bytes)
  | configure (cfg : Config)
  | setRules (rules : List Rule)
  | attach (entries : List (Cell × Word))
  | activate
  | discard
  | checkpoint
  | commit
  | rollback
  /-- Sets the counts to zero. -/
  | reset
  /-- Asks for all cells that are not zero. -/
  | cells

/-- What a session answers. -/
inductive Reply
  | done
  | called (result : Except Abort CallResult)
  | ran (result : Except Abort Frame)
  | frame (f : Frame)
  | executed (fault : Option Fault) (f : Frame)
  /-- The instructions that were executed, in order. -/
  | stepped (steps : List (Option Fault × Frame))
  | loaded (result : Except BackendError Word)
  | stored (result : Except BackendError Unit)
  /-- Whether there was a cache. -/
  | discarded (active : Bool)
  | cells (cells : List (Cell × Word))

end Session

/-- A bench for the machine. -/
structure Session where
  cfg : Config
  env : Env Store
  frame : Frame

namespace Session

/-- A session with an empty ledger and nothing at hand. -/
def new (cfg : Config) : Session where
  cfg
  env := .new .empty
  frame := .new (.new default default .empty) Memory.defaultLimit

/-- The ledger of the session. -/
def ledger (s : Session) : Ledger := s.env.backend.ledger

/-- Works on the backend of the session. -/
def modifyStore (s : Session) (f : Store → Store) : Session :=
  { s with env := { s.env with backend := f s.env.backend } }

/-- The session without the log and the events of earlier commands. -/
def fresh (s : Session) : Session :=
  { s with env := { s.env with backend := s.env.backend.clearLog, events := [] } }

/-- Takes over what an instruction has done. -/
def take (s : Session) (x : Executed Store) : Session := { s with frame := x.frame, env := x.env }

/-- Executes up to `count` instructions of the frame at hand, and no further than the first one
that fails. -/
def stepFrame (s : Session) : Nat → List (Option Fault × Frame) × Session
  | 0 => ([], s)
  | count + 1 =>
    match s.frame.ready? with
    | none => ([], s)
    | some byte =>
      let x := s.frame.executeChecked s.cfg (.decode byte) s.env
      if x.fault.isSome then ([(x.fault, x.frame)], s.take x)
      else
        let (steps, s) := stepFrame (s.take x) count
        ((x.fault, x.frame) :: steps, s)

/-- Carries out a command on a session without log and events. -/
def carryOut (s : Session) : Command → Reply × Session
  | .call m =>
    let (result, env) := (m.message s.ledger).callChecked s.cfg s.env
    (.called result, { s with env })
  | .transact m =>
    let (result, env) := (m.message s.ledger).transactChecked s.cfg s.env
    (.ran result, { s with env })
  | .execute m =>
    let (result, env) := (m.message s.ledger).executeChecked s.cfg s.env
    (.ran result, { s with env })
  | .begin m pc stack memory memoryLimit returnData =>
    let frame := { Frame.new (m.message s.ledger) memoryLimit with pc, stack, memory, returnData }
    (.frame frame, { s with frame })
  | .instruction byte =>
    let x := s.frame.executeChecked s.cfg (.decode byte) s.env
    (.executed x.fault x.frame, s.take x)
  | .next count =>
    let (steps, s) := s.stepFrame count
    (.stepped steps, s)
  | .resume output target result halted =>
    let callee := { Frame.new (.new default target .empty) Memory.defaultLimit with
      output := result, halted }
    let x := { s.frame with pending := none }.resume output callee s.env
    (.executed x.fault x.frame, s.take x)
  | .load cell =>
    let (result, env) := s.env.load cell
    (.loaded result, { s with env })
  | .store cell value =>
    let (result, env) := s.env.store cell value
    (.stored result, { s with env })
  | .setValue cell value => (.done, s.modifyStore (·.modifyLedger (·.setValue cell value)))
  | .setCode address code => (.done, s.modifyStore (·.modifyLedger (·.setCode address code)))
  | .configure cfg => (.done, { s with cfg })
  | .setRules rules => (.done, s.modifyStore (·.setRules rules))
  | .attach entries =>
    (.done, { s with env := { s.env with cache := .active (SlotCache.ofList entries) } })
  | .activate => (.done, { s with env := s.env.updateCache Attachment.activate })
  | .discard =>
    (.discarded s.env.cache.cache?.isSome,
      { s with env := s.env.updateCache Attachment.discard })
  | .checkpoint => (.done, s.modifyStore Backend.checkpoint)
  | .commit => (.done, s.modifyStore Backend.commit)
  | .rollback => (.done, s.modifyStore Backend.rollback)
  | .reset => (.done, s.modifyStore Counted.reset)
  | .cells => (.cells s.ledger.cells, s)

/-- Carries out a command. -/
def perform (s : Session) (c : Command) : Reply × Session := s.fresh.carryOut c

/-- The calls that reached the backend during the last command. -/
def calls (s : Session) : List Call := s.env.backend.inner.calls

/-- What happened during the last command. -/
def events (s : Session) : List Event := s.env.events.reverse

end Session

end ContractVM
