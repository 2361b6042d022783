import ContractVM.Machine.Termination

/-!
# Runs

`Machine.run` steps a machine to its end, which it always reaches.  `Machine.Result` is what is
there at the end: the last frame, or why there is none, and the environment.
-/

namespace ContractVM

namespace Machine

variable {σ : Type} [Backend σ]

/-- The last frame of a run, or why there is none, and the environment at the end. -/
abbrev Result (σ : Type) := Except Abort Frame × Env σ

/-- A machine under fixed settings. -/
structure Under (cfg : Config) (σ : Type) where
  machine : Machine σ

instance (cfg : Config) : WellFoundedRelation (Under cfg σ) where
  rel a b := Follows cfg a.machine b.machine
  wf := InvImage.wf Under.machine (wellFounded_follows cfg)

/-- Steps until the end. -/
def run (cfg : Config) (m : Machine σ) : Result σ :=
  match _h : m.step cfg with
  | .running m' => run cfg m'
  | .finished f env => (.ok f, env)
  | .aborted reason env => (.error reason, env)
termination_by (⟨m⟩ : Under cfg σ)
decreasing_by exact _h

theorem run_of_running {cfg : Config} {m m' : Machine σ} (h : m.step cfg = .running m') :
    m.run cfg = m'.run cfg := by
  rw [run]
  split <;> simp_all

theorem run_of_finished {cfg : Config} {m : Machine σ} {f : Frame} {env : Env σ}
    (h : m.step cfg = .finished f env) : m.run cfg = (.ok f, env) := by
  rw [run]
  split <;> simp_all

theorem run_of_aborted {cfg : Config} {m : Machine σ} {reason : Abort} {env : Env σ}
    (h : m.step cfg = .aborted reason env) : m.run cfg = (.error reason, env) := by
  rw [run]
  split <;> simp_all

end Machine

end ContractVM
