import Mathlib.Logic.Relation
import ContractVM.MessageCall

/-!
# The machines of a run

A run is a sequence of machines, each of which is what a step of the one before leads to.

* `Machine.Reaches cfg m m'` : steps lead from `m` to `m'`.
* `Machine.Reaches.invariant`, `Machine.run_of_invariant` : what every step keeps holds at every
  machine of a run, and what the last step makes of it holds of the result.
* `Env.Kept P` : whatever a run does to its environment keeps the property `P`.
-/

namespace ContractVM

namespace Progress

variable {σ : Type}

/-- The step leads to a machine with the first property, or ends the run with a result that has
the second. -/
def Holds (I : Machine σ → Prop) (Q : Machine.Result σ → Prop) : Progress σ → Prop
  | .running m => I m
  | .finished f env => Q (.ok f, env)
  | .aborted reason env => Q (.error reason, env)

/-- The environment after a step. -/
def env : Progress σ → Env σ
  | .running m => m.env
  | .finished _ e => e
  | .aborted _ e => e

end Progress

namespace Machine

variable {σ : Type} [Backend σ] {cfg : Config}

/-! ### Single steps -/

theorem proceed_of_ok {callers : List Suspended} {x : Executed σ} (h : x.fault = none) :
    proceed callers x = .running ⟨x.frame, callers, x.env⟩ := by
  unfold proceed
  rw [h]

theorem step_of_ready (cfg : Config) (m : Machine σ) {byte : UInt8}
    (h : m.frame.ready? = some byte) :
    m.step cfg = proceed m.callers (m.frame.execute cfg (.decode byte) m.env) := by
  unfold step
  rw [h]

/-- An instruction that concerns its frame alone and does not fail. -/
theorem step_of_execute {cfg : Config} {m : Machine σ} {byte : UInt8} {g : Frame}
    (h : m.frame.ready? = some byte)
    (hx : m.frame.execute cfg (.decode byte) m.env = ⟨g, m.env, none⟩) :
    m.step cfg = .running { m with frame := g } := by
  rw [step_of_ready cfg m h, hx]
  exact proceed_of_ok rfl

theorem step_of_pending (cfg : Config) (m : Machine σ) {call : PendingCall}
    (h : m.frame.pending = some call) :
    m.step cfg = .running (m.enter call) := by
  unfold step
  rw [Frame.ready?_of_pending h, h]

theorem step_of_ended_nil (cfg : Config) (f : Frame) (env : Env σ) (hr : f.ready? = none)
    (hp : f.pending = none) : step cfg ⟨f, [], env⟩ = .finished f env := by
  simp only [step, hr, hp]

theorem step_of_ended_cons (cfg : Config) (f : Frame) (caller : Suspended)
    (callers : List Suspended) (env : Env σ) (hr : f.ready? = none) (hp : f.pending = none) :
    step cfg ⟨f, caller :: callers, env⟩ =
      proceed callers (caller.frame.resume caller.output f (env.settle f)) := by
  simp only [step, hr, hp, leave]

/-! ### Runs as sequences of machines -/

/-- Steps lead from the first machine to the second. -/
def Reaches (cfg : Config) : Machine σ → Machine σ → Prop :=
  Relation.ReflTransGen fun m m' => m.step cfg = .running m'

/-! ### Invariants -/

variable {I : Machine σ → Prop} {Q : Result σ → Prop}

/-- What holds at the beginning and is kept by every step holds at every machine of a run. -/
theorem Reaches.invariant {m m' : Machine σ} (h : Reaches cfg m m') (hm : I m)
    (hstep : ∀ m, I m → (m.step cfg).Holds I Q) : I m' := by
  induction h with
  | refl => exact hm
  | tail _ hs ih =>
    have hp := hstep _ ih
    rwa [hs] at hp

/-- What the last step makes of the invariant holds of the result of a run. -/
theorem run_of_invariant {m : Machine σ} (hm : I m)
    (hstep : ∀ m, I m → (m.step cfg).Holds I Q) : Q (m.run cfg) := by
  -- along the run itself, which is never endless
  induction m using (wellFounded_follows (σ := σ) cfg).induction with
  | _ m ih =>
    have hp := hstep m hm
    cases hs : m.step cfg with
    | running m' =>
      rw [hs] at hp
      rw [run_of_running hs]
      exact ih m' hs hp
    | finished f env =>
      rw [hs] at hp
      rw [run_of_finished hs]
      exact hp
    | aborted reason env =>
      rw [hs] at hp
      rw [run_of_aborted hs]
      exact hp

/-- It is enough to look at the machines that the run comes to. -/
theorem run_of_reaches {m : Machine σ} (hm : I m)
    (hstep : ∀ m', Reaches cfg m m' → I m' → (m'.step cfg).Holds I Q) : Q (m.run cfg) := by
  refine run_of_invariant (I := fun m' => Reaches cfg m m' ∧ I m') ⟨.refl, hm⟩ fun m' h => ?_
  have hp := hstep m' h.1 h.2
  cases hs : m'.step cfg with
  | running next =>
    rw [hs] at hp
    exact ⟨h.1.tail hs, hp⟩
  | finished f env =>
    rw [hs] at hp
    exact hp
  | aborted reason env =>
    rw [hs] at hp
    exact hp

end Machine

/-! ### What a run keeps of its environment -/

/-- Whatever a run does to its environment keeps the property. -/
structure Env.Kept {σ : Type} [Backend σ] (P : Env σ → Prop) : Prop where
  report : ∀ {e} (events : List Event), P e → P (e.report events)
  answer : ∀ {e} (q : Query), P e → P (e.answer q).2
  checkpoint : ∀ {e}, P e → P e.checkpoint
  commit : ∀ {e}, P e → P e.commit
  rollback : ∀ {e}, P e → P e.rollback

end ContractVM
