import ContractVM.Frame.Checked
import ContractVM.MessageCall

/-!
# Runs within bounds

`Machine.runChecked` is `Machine.run` with instructions that are given up when they pass a bound
(`Frame.executeChecked`).  Such an instruction ends the whole run, and nothing is cleaned up: the
environment stays as it is at that moment, with the cache and with all transactions that are open.
Any other run within bounds is a run.

`Message.executeChecked`, `Message.transactChecked` and `Message.callChecked` run a message within
bounds, in the three ways in which it can be run.
-/

namespace ContractVM

namespace Machine

variable {σ : Type}

/-- Whether the next instruction passes a bound. -/
def overflows (m : Machine σ) : Bool :=
  m.frame.ready?.any fun byte => m.frame.overflows (.decode byte)

variable [Backend σ] {cfg : Config} {m m' : Machine σ}

/-- Does the next thing, within bounds. -/
def stepChecked (cfg : Config) (m : Machine σ) : Progress σ :=
  match m.frame.ready? with
  | some byte => proceed m.callers (m.frame.executeChecked cfg (.decode byte) m.env)
  | none => m.step cfg

/-- The run is given up when a bound is passed. -/
theorem stepChecked_of_overflows (h : m.overflows = true) :
    m.stepChecked cfg = .aborted .outOfBounds m.env := by
  unfold overflows at h
  unfold stepChecked Frame.executeChecked
  cases hr : m.frame.ready? with
  | none =>
    rw [hr] at h
    cases h
  | some byte =>
    rw [hr] at h
    have hf : m.frame.overflows (.decode byte) = true := h
    simp only [hf, ↓reduceIte]
    rfl

/-- Within bounds the run goes on as any run does. -/
theorem stepChecked_of_not_overflows (h : m.overflows = false) :
    m.stepChecked cfg = m.step cfg := by
  unfold overflows at h
  unfold stepChecked step Frame.executeChecked
  cases hr : m.frame.ready? with
  | none => rfl
  | some byte =>
    rw [hr] at h
    have hf : m.frame.overflows (.decode byte) = false := h
    simp only [hf, Bool.false_eq_true, ↓reduceIte]

theorem step_of_stepChecked (h : m.stepChecked cfg = .running m') : m.step cfg = .running m' := by
  cases ho : m.overflows with
  | true =>
    rw [stepChecked_of_overflows ho] at h
    cases h
  | false => rwa [stepChecked_of_not_overflows ho] at h

/-- Steps until the end, within bounds. -/
def runChecked (cfg : Config) (m : Machine σ) : Result σ :=
  match _h : m.stepChecked cfg with
  | .running m' => runChecked cfg m'
  | .finished f env => (.ok f, env)
  | .aborted reason env => (.error reason, env)
termination_by (⟨m⟩ : Under cfg σ)
decreasing_by exact step_of_stepChecked _h

end Machine

namespace Message

variable {σ : Type} [Backend σ]

/-- Runs the code of a message, and all calls that it makes, within bounds. -/
def executeChecked (cfg : Config) (m : Message) (env : Env σ) : Except Abort Frame × Env σ :=
  (Machine.start cfg m env).runChecked cfg

/-- Runs a message in its own transaction, within bounds. -/
def transactChecked (cfg : Config) (m : Message) (env : Env σ) : Except Abort Frame × Env σ :=
  if m.depth > cfg.maxDepth then
    (.ok { Frame.new m Memory.defaultLimit with halted := some .depthLimit }, env)
  else close (m.executeChecked cfg env.checkpoint)

/-- Runs a message as a top-level call, within bounds. -/
def callChecked (cfg : Config) (m : Message) (env : Env σ) : Except Abort CallResult × Env σ :=
  closeCall (m.transactChecked cfg (m.openCall cfg env))

end Message

end ContractVM
