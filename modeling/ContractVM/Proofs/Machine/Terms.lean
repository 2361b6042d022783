import ContractVM.Proofs.Frame.Terms
import ContractVM.Proofs.Machine.Budget
import ContractVM.Proofs.Machine.Trail

/-!
# Runs on other terms

All frames of a run may be put on other terms: `Terms.machine`.  The run stays the same, step by
step, as long as the terms have nothing to do with what its instructions come to
(`Machine.Untouched`).  Its callees are on the other terms then, too: each may use the memory that
its caller has left, so each has as much more as the caller.

Main statement: `Message.call_terms`.  A message that is run on the other terms has the same result
and leaves the same environment.
-/

namespace ContractVM

variable {σ : Type} (t : Terms)

namespace Terms

/-- The same frame waits, on the other terms. -/
def suspended (c : Suspended) : Suspended := { c with frame := t.frame c.frame }

/-- The same machine, with all its frames on the other terms. -/
def machine (m : Machine σ) : Machine σ := ⟨t.frame m.frame, m.callers.map t.suspended, m.env⟩

/-- The same progress, with all frames on the other terms. -/
def progress : Progress σ → Progress σ
  | .running m => .running (t.machine m)
  | .finished f e => .finished (t.frame f) e
  | .aborted reason e => .aborted reason e

/-- The same result, with its frame on the other terms. -/
def result (r : Machine.Result σ) : Machine.Result σ := (r.1.map t.frame, r.2)

end Terms

namespace Machine

/-- The terms have nothing to do with the next step: not with the instruction that is next, and
there is memory left for a call. -/
structure Untouched (cfg cfg' : Config) (m : Machine σ) : Prop where
  spares : ∀ byte, m.frame.ready? = some byte →
    t.Spares (Action.exec cfg (.decode byte) m.frame)
  deep : ∀ byte, m.frame.ready? = some byte →
    Action.AgreeOnDepth cfg cfg' m.frame (.decode byte)
  memory : m.frame.memory.size ≤ m.frame.memoryLimit

variable {t} [Backend σ] {cfg cfg' : Config} {m : Machine σ}

theorem unwind_suspended (e : Env σ) (callers : List Suspended) :
    unwind e (callers.map t.suspended) = unwind e callers := by
  induction callers generalizing e with
  | nil => rfl
  | cons caller callers ih => exact ih e.rollback

theorem proceed_terms (callers : List Suspended) (x : Executed σ) :
    proceed (callers.map t.suspended) (t.executed x) = t.progress (proceed callers x) := by
  obtain ⟨f, e, _ | reason | _⟩ := x
  · rfl
  · cases reason with
    | backend error =>
      simp only [proceed, Terms.executed, unwind_suspended]
      rfl
    | _ => rfl
  · rfl

/-- A callee may use the memory that is left, so it has as much more. -/
theorem enter_terms (call : PendingCall) (memory : m.frame.memory.size ≤ m.frame.memoryLimit) :
    (t.machine m).enter (t.call call) = t.machine (m.enter call) := by
  have hlimit : m.frame.memoryLimit + t.more - m.frame.memory.size =
      m.frame.memoryLimit - m.frame.memory.size + t.more := by omega
  have hcallee : Frame.new (t.message call.message)
      (m.frame.memoryLimit + t.more - m.frame.memory.size) =
      t.frame (.new call.message (m.frame.memoryLimit - m.frame.memory.size)) := by
    rw [hlimit]
    rfl
  exact Machine.mk.injEq .. |>.mpr ⟨hcallee, rfl, rfl⟩

/-- **A step on other terms** is the same step, if the terms have nothing to do with it. -/
theorem step_terms (h : m.Untouched t cfg cfg') :
    (t.machine m).step cfg' = t.progress (m.step cfg) := by
  obtain ⟨f, callers, e⟩ := m
  cases ready : f.ready? with
  | some byte =>
    have hx := Frame.execute_terms (h.spares byte ready) (h.deep byte ready) e
    have ready' : (t.frame f).ready? = some byte := (t.ready?_frame f).trans ready
    rw [step_of_ready cfg _ ready, ← proceed_terms, ← hx]
    exact step_of_ready cfg' _ ready'
  | none =>
    have ready' : (t.frame f).ready? = none := (t.ready?_frame f).trans ready
    cases pending : f.pending with
    | some call =>
      have pending' : (t.frame f).pending = some (t.call call) := congrArg (·.map t.call) pending
      rw [step_of_pending cfg _ pending]
      refine (step_of_pending cfg' _ pending').trans ?_
      exact congrArg Progress.running (enter_terms call h.memory)
    | none =>
      have pending' : (t.frame f).pending = none := congrArg (·.map t.call) pending
      cases callers with
      | nil =>
        rw [step_of_ended_nil cfg f e ready pending]
        exact step_of_ended_nil cfg' _ e ready' pending'
      | cons caller callers =>
        rw [step_of_ended_cons cfg f caller callers e ready pending]
        refine (step_of_ended_cons cfg' _ _ _ e ready' pending').trans ?_
        exact (congrArg (proceed _) (Frame.resume_terms caller.frame caller.output f
          (e.settle f))).trans (proceed_terms callers _)

/-- **A run on other terms** is the same run, if the terms have nothing to do with any of its
steps. -/
theorem run_terms (h : ∀ m₁ ∈ m.trail cfg, m₁.Untouched t cfg cfg') :
    (t.machine m).run cfg' = t.result (m.run cfg) := by
  induction m using (wellFounded_follows (σ := σ) cfg).induction with
  | _ m ih =>
    cases hs : m.step cfg with
    | running next =>
      rw [trail_of_running hs] at h
      have hstep := step_terms (h m List.mem_cons_self)
      rw [hs] at hstep
      rw [run_of_running hs, run_of_running hstep]
      exact ih next hs fun m₁ hm => h m₁ (List.mem_cons_of_mem _ hm)
    | finished f e =>
      rw [trail_of_finished hs] at h
      have hstep := step_terms (h m List.mem_cons_self)
      rw [hs] at hstep
      rw [run_of_finished hs, run_of_finished hstep]
      rfl
    | aborted reason e =>
      rw [trail_of_aborted hs] at h
      have hstep := step_terms (h m List.mem_cons_self)
      rw [hs] at hstep
      rw [run_of_aborted hs, run_of_aborted hstep]
      rfl

end Machine

namespace Message

variable {t} [Backend σ] {cfg cfg' : Config} {m : Message} {e : Env σ}

theorem close_terms (r : Machine.Result σ) : close (t.result r) = t.result (close r) := by
  obtain ⟨(error | _) | f, e⟩ := r <;> rfl

omit [Backend σ] in
/-- What a top-level call tells of its last frame has nothing to do with the terms. -/
theorem closeCall_terms (r : Machine.Result σ) : closeCall (t.result r) = closeCall r := by
  obtain ⟨(error | _) | f, e⟩ := r <;> rfl

/-- **A call on other terms** has the same result and leaves the same environment, if the terms have
nothing to do with any step of its run. -/
theorem call_terms (slotCache : cfg'.slotCache = cfg.slotCache)
    (maxMemory : cfg'.maxMemory = cfg.maxMemory + t.more)
    (deep : m.depth > cfg.maxDepth ↔ m.depth > cfg'.maxDepth)
    (h : ∀ m₁ ∈ m.trail cfg (m.openCall cfg e), m₁.Untouched t cfg cfg') :
    (t.message m).call cfg' e = m.call cfg e := by
  have hopen : (t.message m).openCall cfg' e = m.openCall cfg e := by
    simp only [openCall, slotCache]
    rfl
  unfold call
  rw [hopen]
  by_cases hd : m.depth > cfg.maxDepth
  · have hd' : (t.message m).depth > cfg'.maxDepth := deep.1 hd
    simp only [transact, hd, hd', ↓reduceIte]
    rfl
  · have hd' : ¬ (t.message m).depth > cfg'.maxDepth := mt deep.2 hd
    simp only [trail, hd, ↓reduceIte] at h
    have hstart : Machine.start cfg' (t.message m) (m.openCall cfg e).checkpoint =
        t.machine (Machine.start cfg m (m.openCall cfg e).checkpoint) := by
      simp only [Machine.start, maxMemory]
      rfl
    simp only [transact, hd, hd', ↓reduceIte, execute, hstart, Machine.run_terms h, close_terms,
      closeCall_terms]

end Message

end ContractVM
