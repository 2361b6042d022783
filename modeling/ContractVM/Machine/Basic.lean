import ContractVM.Env

/-!
# The machine

A `Machine` is a frame in execution, the frames that wait for it, and their environment.  Frames
that wait stand in a list, the innermost first, and each has a transaction open for the frame that
it waits for.

`Machine.step` does one thing: it executes the next instruction of the frame, or begins the call
that the frame has made, or ends the frame and goes on with the one that waits for it.  A failing
backend ends the whole run: one transaction is rolled back for every frame that waits.
-/

namespace ContractVM

/-- A frame that waits for a call. -/
structure Suspended where
  frame : Frame
  /-- Where it wants the output. -/
  output : Range

/-- A run of code. -/
structure Machine (σ : Type) where
  frame : Frame
  /-- The frames that wait, the innermost first. -/
  callers : List Suspended
  env : Env σ

/-- Why a run has no last frame. -/
inductive Abort
  /-- The backend failed. -/
  | backend (error : BackendError)
  /-- Bytes outside a byte string were to be read or written, or a bound was to be passed. -/
  | outOfBounds
  deriving DecidableEq

/-- Where a step leads. -/
inductive Progress (σ : Type)
  | running (m : Machine σ)
  | finished (f : Frame) (env : Env σ)
  | aborted (reason : Abort) (env : Env σ)

namespace Machine

variable {σ : Type}

/-- A run of a message from its beginning. -/
def start (cfg : Config) (message : Message) (env : Env σ) : Machine σ :=
  ⟨.new message cfg.maxMemory, [], env⟩

variable [Backend σ]

/-- Rolls one transaction back for every frame that waits. -/
def unwind (env : Env σ) : List Suspended → Env σ
  | [] => env
  | _ :: callers => unwind env.rollback callers

/-- What a halt is reported as.  A revert is not reported. -/
def haltEvents (f : Frame) (reason : Halt) : List Event :=
  if reason = .revert then [] else [.frameHalted f.pc f.opcode? reason]

/-- Goes on with a frame that has executed something.  An error of its own halts it. -/
def proceed (callers : List Suspended) (x : Executed σ) : Progress σ :=
  match x.fault with
  | none => .running ⟨x.frame, callers, x.env⟩
  | some (.halt (.backend error)) => .aborted (.backend error) (unwind x.env callers)
  | some (.halt reason) =>
    .running ⟨x.frame.halt reason, callers, x.env.report (haltEvents x.frame reason)⟩
  | some .outOfBounds => .aborted .outOfBounds x.env

/-- Begins the call that the frame has made.  The callee may use the memory that is left. -/
def enter (m : Machine σ) (call : PendingCall) : Machine σ where
  frame := .new call.message (m.frame.memoryLimit - m.frame.memory.size)
  callers := ⟨{ m.frame with pending := none }, call.output⟩ :: m.callers
  env := m.env.checkpoint

/-- Ends the frame and goes on with the one that waits for it. -/
def leave (m : Machine σ) (caller : Suspended) (callers : List Suspended) : Progress σ :=
  proceed callers (caller.frame.resume caller.output m.frame (m.env.settle m.frame))

/-- Does the next thing. -/
def step (cfg : Config) (m : Machine σ) : Progress σ :=
  match m.frame.ready? with
  | some byte => proceed m.callers (m.frame.execute cfg (.decode byte) m.env)
  | none =>
    match m.frame.pending, m.callers with
    | some call, _ => .running (m.enter call)
    | none, caller :: callers => m.leave caller callers
    | none, [] => .finished m.frame m.env

end Machine

end ContractVM
