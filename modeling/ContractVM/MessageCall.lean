import ContractVM.Machine.Run

/-!
# Message calls

A message is run in one of three ways.

* `Message.execute` runs its code, with a transaction for every call that the code makes but none
  of its own.
* `Message.transact` runs it in a transaction of its own, which is kept if no error halts the
  frame.  A message that lies too deep is refused, and the backend is not asked.
* `Message.call` is the top-level call: `Message.transact` with a cache from the beginning to the
  end, if the settings ask for one, and without any cache left afterwards.
-/

namespace ContractVM

/-- What a top-level call leaves. -/
structure CallResult where
  output : Bytes
  stack : Stack
  halted : Option Halt

namespace Message

variable {σ : Type} [Backend σ]

/-- Runs the code of a message, and all calls that it makes. -/
def execute (cfg : Config) (m : Message) (env : Env σ) : Except Abort Frame × Env σ :=
  (Machine.start cfg m env).run cfg

/-- Closes the transaction of a run: an error loses its writes. -/
def close : Except Abort Frame × Env σ → Except Abort Frame × Env σ
  | (.ok f, env) => (.ok f, env.settle f)
  | (.error (.backend error), env) => (.error (.backend error), env.rollback)
  | (.error .outOfBounds, env) => (.error .outOfBounds, env)

/-- Runs a message in its own transaction. -/
def transact (cfg : Config) (m : Message) (env : Env σ) : Except Abort Frame × Env σ :=
  if m.depth > cfg.maxDepth then
    (.ok { Frame.new m Memory.defaultLimit with halted := some .depthLimit }, env)
  else close (m.execute cfg env.checkpoint)

/-- Begins a top-level call. -/
def openCall (cfg : Config) (m : Message) (env : Env σ) : Env σ :=
  (env.report [.callStarted m.target m.code]).updateCache
    (if cfg.slotCache then Attachment.activate else Attachment.discard)

/-- Ends a top-level call. -/
def closeCall : Except Abort Frame × Env σ → Except Abort CallResult × Env σ
  | (.ok f, env) =>
    (.ok ⟨f.output, f.stack, f.halted⟩,
      (env.updateCache Attachment.discard).report [.callFinished f.halted f.output])
  | (.error (.backend error), env) =>
    (.error (.backend error), (env.updateCache Attachment.discard).report [.callAborted error])
  | (.error .outOfBounds, env) => (.error .outOfBounds, env)

/-- Runs a message as a top-level call. -/
def call (cfg : Config) (m : Message) (env : Env σ) : Except Abort CallResult × Env σ :=
  closeCall (m.transact cfg (m.openCall cfg env))

end Message

end ContractVM
