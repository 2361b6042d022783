import ContractVM.Backend.Basic
import ContractVM.Frame.Exec
import ContractVM.SlotCache

/-!
# The environment of a run

An `Env` is what all frames of a run share: the backend, the cache of the top-level call, and the
events so far.  `Env.answer` answers the queries of instructions.  A read asks the backend only if
the cache does not hold the cell (`Env.load`), and a write goes to the backend first and then takes
the cell out of the cache (`Env.store`); an access that fails leaves the cache as it was.
-/

namespace ContractVM

/-- What the frames of a run share. -/
structure Env (σ : Type) where
  backend : σ
  cache : Attachment
  /-- What happened, the latest first. -/
  events : List Event

namespace Env

variable {σ : Type}

/-- An environment without a cache. -/
def new (backend : σ) : Env σ := ⟨backend, .absent, []⟩

/-- Adds events, given in the order in which they happened. -/
def report (e : Env σ) (events : List Event) : Env σ :=
  { e with events := events.reverse ++ e.events }

/-- Changes the cache and reports it. -/
def updateCache (e : Env σ) (f : Attachment → Attachment × List Event) : Env σ :=
  let (cache, events) := f e.cache
  { e with cache }.report events

/-- Changes the cache if there is one, and reports this event. -/
def touchCache (e : Env σ) (f : SlotCache → SlotCache) (event : Event) : Env σ :=
  e.updateCache fun
    | .absent => (.absent, [])
    | .active cache => (.active (f cache), [event])

variable [Backend σ]

/-! ### Cells -/

/-- The value of a cell, from the cache if it is held there. -/
def load (e : Env σ) (cell : Cell) : Except BackendError Word × Env σ :=
  match e.cache.cache?.bind (·.lookup cell) with
  | some value => (.ok value, e.report [.cacheHit cell])
  | none =>
    let (answer, backend) := Backend.load e.backend cell
    match answer with
    | .ok value =>
      (.ok value, { e with backend }.touchCache (·.install cell value) (.cacheMiss cell))
    | .error error => (.error error, { e with backend })

/-- Sets the value of a cell. -/
def store (e : Env σ) (cell : Cell) (value : Word) : Except BackendError Unit × Env σ :=
  let (answer, backend) := Backend.store e.backend cell value
  match answer with
  | .ok () => (.ok (), { e with backend }.touchCache (·.invalidate cell) (.cacheInvalidated cell))
  | .error error => (.error error, { e with backend })

/-- The code of an account. -/
def code (e : Env σ) (address : Address) : Except BackendError Bytes × Env σ :=
  let (answer, backend) := Backend.code e.backend address
  (answer, { e with backend })

/-- The answer to a query. -/
def answer (e : Env σ) : (q : Query) → Except BackendError q.Answer × Env σ
  | .load cell => e.load cell
  | .store cell value => e.store cell value
  | .code order => e.code order.target

/-! ### Transactions -/

/-- Opens a transaction. -/
def checkpoint (e : Env σ) : Env σ := { e with backend := Backend.checkpoint e.backend }

/-- Closes the innermost transaction and keeps its writes. -/
def commit (e : Env σ) : Env σ := { e with backend := Backend.commit e.backend }

/-- Closes the innermost transaction, undoes its writes, and empties the cache. -/
def rollback (e : Env σ) : Env σ :=
  { e with backend := Backend.rollback e.backend }.updateCache Attachment.onRollback

/-- Closes the innermost transaction: a frame that was halted loses its writes. -/
def settle (e : Env σ) (f : Frame) : Env σ := if f.halted.isNone then e.commit else e.rollback

end Env

/-- A frame and its environment after one instruction, and how the instruction failed, if it
did. -/
structure Executed (σ : Type) where
  frame : Frame
  env : Env σ
  fault : Option Fault

namespace Frame

variable {σ : Type}

/-- A frame and its environment after an action on the frame. -/
def after {α : Type} (env : Env σ) : EStateM.Result Fault Frame α → Executed σ
  | .ok _ frame => ⟨frame, env, none⟩
  | .error fault frame => ⟨frame, env, some fault⟩

/-- Executes an instruction. -/
def execute [Backend σ] (cfg : Config) (f : Frame) (i : Instruction) (env : Env σ) : Executed σ :=
  match Action.exec cfg i f with
  | .error fault f => ⟨f, env, some fault⟩
  | .ok none f => ⟨f, env, none⟩
  | .ok (some query) f =>
    match env.answer query with
    | (.ok answer, env) => after env (Action.complete query answer f)
    | (.error error, env) => ⟨f, env, some (.halt (.backend error))⟩

/-- Goes on after a call has ended, and reports it if it failed. -/
def resume (f : Frame) (range : Range) (callee : Frame) (env : Env σ) : Executed σ :=
  let events := match callee.halted with
    | some reason => [Event.subCallFailed callee.message.target reason]
    | none => []
  after (env.report events) (Action.resume range callee f)

end Frame

end ContractVM
