import ContractVM.Proofs.Machine.Checked

/-!
# Every run is finite

`Machine.run` and `Machine.runChecked` give the result of a run; `Machine.advance cfg n` and
`Machine.advanceChecked cfg n` do its first `n` steps.  Every run has a number of steps after which
it has come to its result, and before which it has not (`Machine.RunsBy.exists_advanceBy`).

`Message.execute_ends` is the statement about messages, with what makes their runs end: an
instruction that succeeds moves its frame on or makes a call, a frame whose call has ended has moved
on or is halted, and only so many frames can wait.
-/

namespace ContractVM

variable {σ : Type}

/-- The result of a run that has ended. -/
def Progress.result? : Progress σ → Option (Machine.Result σ)
  | .running _ => none
  | .finished f env => some (.ok f, env)
  | .aborted reason env => some (.error reason, env)

/-- The machine of a run that goes on. -/
def Progress.machine? : Progress σ → Option (Machine σ)
  | .running m => some m
  | .finished _ _ | .aborted _ _ => none

theorem Progress.exists_running {p : Progress σ} (h : p.result? = none) : ∃ m, p = .running m := by
  cases p with
  | running m => exact ⟨m, rfl⟩
  | finished f env => cases h
  | aborted reason env => cases h

namespace Machine

/-- The first steps of a run whose steps are these. -/
def advanceBy (next : Machine σ → Progress σ) : Nat → Machine σ → Progress σ
  | 0, m => .running m
  | n + 1, m =>
    match next m with
    | .running m' => advanceBy next n m'
    | p => p

variable {next : Machine σ → Progress σ} {m m' : Machine σ} {r : Result σ}

theorem advanceBy_succ_of_running (h : next m = .running m') (n : Nat) :
    advanceBy next (n + 1) m = advanceBy next n m' := by
  simp only [advanceBy, h]

/-- A step that ends the run is the last one. -/
theorem advanceBy_succ_of_result (h : (next m).result? = some r) (n : Nat) :
    advanceBy next (n + 1) m = next m := by
  unfold advanceBy
  cases hs : next m with
  | running m' =>
    rw [hs] at h
    cases h
  | finished f env => rfl
  | aborted reason env => rfl

/-- Steps lead to the machine that the first ones come to. -/
theorem reflTransGen_of_advanceBy {n : Nat} (h : advanceBy next n m = .running m') :
    Relation.ReflTransGen (fun m m' => next m = .running m') m m' := by
  induction n generalizing m with
  | zero =>
    obtain rfl := Progress.running.inj h
    exact .refl
  | succ n ih =>
    cases hr : (next m).result? with
    | some r =>
      rw [advanceBy_succ_of_result hr] at h
      rw [h] at hr
      cases hr
    | none =>
      obtain ⟨m₁, hs⟩ := Progress.exists_running hr
      rw [advanceBy_succ_of_running hs] at h
      exact .head hs (ih h)

/-- What can be seen of the machine after some steps holds of a machine that steps lead to. -/
theorem exists_of_advanceBy {n : Nat} {p : Machine σ → Bool}
    (h : (advanceBy next n m).machine?.any p = true) :
    ∃ m', Relation.ReflTransGen (fun m m' => next m = .running m') m m' ∧ p m' = true := by
  cases ha : advanceBy next n m with
  | running m' =>
    rw [ha] at h
    exact ⟨m', reflTransGen_of_advanceBy ha, h⟩
  | finished f env =>
    rw [ha] at h
    cases h
  | aborted reason env =>
    rw [ha] at h
    cases h

variable [Backend σ]

/-- The steps are steps of machines, as far as they lead, and the run is what they come to. -/
structure RunsBy (cfg : Config) (next : Machine σ → Progress σ) (run : Machine σ → Result σ) :
    Prop where
  step {m m' : Machine σ} : next m = .running m' → m.step cfg = .running m'
  running {m m' : Machine σ} : next m = .running m' → run m = run m'
  finished {m : Machine σ} {f : Frame} {e : Env σ} : next m = .finished f e → run m = (.ok f, e)
  aborted {m : Machine σ} {reason : Abort} {e : Env σ} :
    next m = .aborted reason e → run m = (.error reason, e)

namespace RunsBy

variable {cfg : Config} {run : Machine σ → Result σ}

theorem ended (h : RunsBy cfg next run) (hr : (next m).result? = some r) : run m = r := by
  cases hs : next m with
  | running m' =>
    rw [hs] at hr
    cases hr
  | finished f e =>
    rw [hs] at hr
    exact (h.finished hs).trans (Option.some.inj hr)
  | aborted reason e =>
    rw [hs] at hr
    exact (h.aborted hs).trans (Option.some.inj hr)

/-- What the first steps come to is the result of the run. -/
theorem eq_of_advanceBy (h : RunsBy cfg next run) {n : Nat}
    (hr : (advanceBy next n m).result? = some r) : run m = r := by
  induction n generalizing m with
  | zero => cases hr
  | succ n ih =>
    cases hlast : (next m).result? with
    | some r' =>
      rw [advanceBy_succ_of_result hlast] at hr
      exact h.ended hr
    | none =>
      obtain ⟨m', hs⟩ := Progress.exists_running hlast
      rw [advanceBy_succ_of_running hs] at hr
      exact (h.running hs).trans (ih hr)

/-- A run has a number of steps: it has come to its result after them, and not before. -/
theorem exists_advanceBy (h : RunsBy cfg next run) (m : Machine σ) :
    ∃ n, ∀ k, (advanceBy next k m).result? = if k < n then none else some (run m) := by
  -- no sequence of steps is endless
  induction m using (wellFounded_follows (σ := σ) cfg).induction with
  | _ m ih =>
    cases hr : (next m).result? with
    | some r =>
      refine ⟨1, fun k => ?_⟩
      cases k with
      | zero => rfl
      | succ k =>
        rw [advanceBy_succ_of_result hr, hr, h.ended hr]
        rfl
    | none =>
      obtain ⟨m', hs⟩ := Progress.exists_running hr
      obtain ⟨n, hn⟩ := ih m' (h.step hs)
      refine ⟨n + 1, fun k => ?_⟩
      cases k with
      | zero => rfl
      | succ k =>
        rw [advanceBy_succ_of_running hs, h.running hs, hn k]
        simp only [Nat.add_lt_add_iff_right]

end RunsBy

/-! ### The two kinds of runs -/

variable {cfg : Config}

/-- The first steps of a run. -/
def advance (cfg : Config) (n : Nat) (m : Machine σ) : Progress σ := advanceBy (step cfg) n m

/-- The first steps of a run within bounds. -/
def advanceChecked (cfg : Config) (n : Nat) (m : Machine σ) : Progress σ :=
  advanceBy (stepChecked cfg) n m

theorem runsBy_step (cfg : Config) : RunsBy (σ := σ) cfg (step cfg) (run cfg) :=
  ⟨id, run_of_running, run_of_finished, run_of_aborted⟩

theorem runsBy_stepChecked (cfg : Config) :
    RunsBy (σ := σ) cfg (stepChecked cfg) (runChecked cfg) :=
  ⟨step_of_stepChecked, runChecked_of_running, runChecked_of_finished, runChecked_of_aborted⟩

/-- What can be seen of the result after some steps holds of the run. -/
theorem run_of_any_advance {n : Nat} {p : Result σ → Bool}
    (h : (m.advance cfg n).result?.any p = true) : p (m.run cfg) = true := by
  cases hr : (m.advance cfg n).result? with
  | none =>
    rw [hr] at h
    cases h
  | some r =>
    rw [hr] at h
    rw [(runsBy_step cfg).eq_of_advanceBy hr]
    exact h

/-- What can be seen of the machine after some steps holds of a machine of the run. -/
theorem exists_reaches_of_advance {n : Nat} {p : Machine σ → Bool}
    (h : (m.advance cfg n).machine?.any p = true) : ∃ m', Reaches cfg m m' ∧ p m' = true :=
  exists_of_advanceBy h

theorem exists_reachesChecked_of_advance {n : Nat} {p : Machine σ → Bool}
    (h : (m.advanceChecked cfg n).machine?.any p = true) :
    ∃ m', ReachesChecked cfg m m' ∧ p m' = true :=
  exists_of_advanceBy h

end Machine

namespace Message

variable [Backend σ]

/-- **Every run ends.**  Whatever the code, the settings and the backend are, a message runs for
a number of steps, and these give its result.  At every machine of its run, no more frames wait
than calls may nest; an instruction that succeeds moves its frame on in the code, or makes a call,
at a depth that there is; and when that call has ended, the frame has moved on or executes nothing
any more. -/
theorem execute_ends (cfg : Config) (m : Message) (e : Env σ) :
    (∃ n, ∀ k, ((Machine.start cfg m e).advanceChecked cfg k).result? =
      if k < n then none else some (m.executeChecked cfg e)) ∧
    ∀ m₁, Machine.ReachesChecked cfg (Machine.start cfg m e) m₁ →
      m₁.callers.length ≤ cfg.maxDepth - m.depth ∧
      (∀ byte, m₁.frame.ready? = some byte →
        let x := m₁.frame.executeChecked cfg (.decode byte) m₁.env
        x.fault = none → m₁.frame.Ahead x.frame ∨
          ∃ call, m₁.frame.Calls cfg x call ∧ call.message.depth < Offset.bound) ∧
      ∀ call m₂, Machine.Returns cfg m₁ call m₂ → Machine.ReachesChecked cfg m₁ m₂ →
        ∃ next, m₂.stepChecked cfg = .running next ∧ Machine.GoesOn m₁ call m₂ next ∧
          (m₁.frame.pc < next.frame.pc ∨ next.frame.running = false) := by
  refine ⟨(Machine.runsBy_stepChecked cfg).exists_advanceBy _, fun m₁ hr => ⟨?_, ?_, ?_⟩⟩
  · exact ((Machine.Nested.start cfg m e).reaches hr.reaches).length_le
  · intro byte ready x hx
    have ho := Frame.not_overflows_of_fault hx
    have hsame : x = m₁.frame.execute cfg (.decode byte) m₁.env :=
      Frame.executeChecked_of_not_overflows ho
    rw [hsame] at hx ⊢
    obtain h | ⟨call, h⟩ := Frame.advanced_or_calls_execute cfg m₁.frame (.decode byte) m₁.env
    · cases h with
      | ahead _ ahead => exact .inl ahead
      | fails failed => exact absurd hx failed
    · exact .inr ⟨call, h, Frame.depth_lt_of_not_overflows ho
        (Frame.lt_size_of_ready? ready).2 h.pending⟩
  · intro call m₂ h hchecked
    have hr₂ : Machine.ReachesChecked cfg (Machine.start cfg m e) m₂ := hr.trans hchecked
    obtain ⟨next, hs, hnext⟩ := h.resumes hr₂.reaches.inBounds
    refine ⟨next, ?_, hnext, hnext.moves⟩
    rwa [Machine.stepChecked_of_ready?_none h.ended.ready]

end Message

end ContractVM
