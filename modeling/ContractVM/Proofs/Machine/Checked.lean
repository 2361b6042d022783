import Mathlib.Order.WellFounded
import ContractVM.Machine.Checked
import ContractVM.Proofs.Frame.Growth
import ContractVM.Proofs.Machine.Depth

/-!
# Runs within bounds

A step within bounds is a step, unless it is given up.  So the machines that a run within bounds
comes to are machines of the run as such (`Machine.ReachesChecked.reaches`), and what holds of all
of those holds here.

* `Machine.fst_runChecked_eq_outOfBounds_iff` : a run is given up if and only if it comes to a
  machine whose next instruction passes a bound.
* `Message.executeChecked_eq`, `Message.transactChecked_eq`, `Message.callChecked_eq` : if it is not
  given up, it is the run that knows no bounds.
* `Machine.HasRoom` : there is room for the memories of all live frames, and each of them has a
  depth.  Every step within bounds keeps that (`Machine.HasRoom.stepChecked`).
-/

namespace ContractVM

namespace Machine

variable {σ : Type} {cfg : Config} {m m' m₁ : Machine σ}

/-! ### Steps -/

/-- What a machine does when it is ready is an instruction. -/
theorem overflows_of_ready {byte : UInt8} (ready : m.frame.ready? = some byte) :
    m.overflows = m.frame.overflows (.decode byte) := by
  rw [overflows, ready]
  rfl

theorem exists_ready_of_overflows (h : m.overflows = true) :
    ∃ byte, m.frame.ready? = some byte ∧ m.frame.overflows (.decode byte) = true := by
  cases hr : m.frame.ready? with
  | none =>
    rw [overflows, hr] at h
    cases h
  | some byte => exact ⟨byte, rfl, (overflows_of_ready hr).symm.trans h⟩

variable [Backend σ]

/-- Steps within bounds lead from the first machine to the second. -/
def ReachesChecked (cfg : Config) : Machine σ → Machine σ → Prop :=
  Relation.ReflTransGen fun m m' => m.stepChecked cfg = .running m'

theorem ReachesChecked.reaches (h : ReachesChecked cfg m m') : Reaches cfg m m' :=
  Relation.ReflTransGen.mono (fun _ _ => step_of_stepChecked) _ _ h

/-- A machine that goes on within bounds does not pass one. -/
theorem not_overflows_of_running (h : m.stepChecked cfg = .running m') : m.overflows = false := by
  cases ho : m.overflows with
  | true =>
    rw [stepChecked_of_overflows ho] at h
    cases h
  | false => rfl

/-- Only instructions pass bounds. -/
theorem stepChecked_of_ready?_none (h : m.frame.ready? = none) :
    m.stepChecked cfg = m.step cfg := by
  refine stepChecked_of_not_overflows ?_
  rw [overflows, h]
  rfl

/-! ### Runs -/

theorem runChecked_of_running (h : m.stepChecked cfg = .running m') :
    m.runChecked cfg = m'.runChecked cfg := by
  rw [runChecked]
  split <;> simp_all

theorem runChecked_of_finished {f : Frame} {env : Env σ} (h : m.stepChecked cfg = .finished f env) :
    m.runChecked cfg = (.ok f, env) := by
  rw [runChecked]
  split <;> simp_all

theorem runChecked_of_aborted {reason : Abort} {env : Env σ}
    (h : m.stepChecked cfg = .aborted reason env) : m.runChecked cfg = (.error reason, env) := by
  rw [runChecked]
  split <;> simp_all

/-- A run that comes to a machine whose next instruction passes a bound ends there. -/
theorem ReachesChecked.runChecked_of_overflows (hr : ReachesChecked cfg m m₁)
    (h : m₁.overflows = true) : m.runChecked cfg = (.error .outOfBounds, m₁.env) := by
  induction hr using Relation.ReflTransGen.head_induction_on with
  | refl => exact runChecked_of_aborted (stepChecked_of_overflows h)
  | head hs _ ih => exact (runChecked_of_running hs).trans ih

/-- A run that comes to no such machine is a run. -/
theorem runChecked_eq_run (h : ∀ m₁, ReachesChecked cfg m m₁ → m₁.overflows = false) :
    m.runChecked cfg = m.run cfg := by
  induction m using (wellFounded_follows (σ := σ) cfg).induction with
  | _ m ih =>
    have hsame : m.stepChecked cfg = m.step cfg := stepChecked_of_not_overflows (h m .refl)
    cases hs : m.step cfg with
    | running m' =>
      have hs' := hsame.trans hs
      rw [runChecked_of_running hs', run_of_running hs]
      exact ih m' hs fun m₁ hr => h m₁ (.head hs' hr)
    | finished f env => rw [runChecked_of_finished (hsame.trans hs), run_of_finished hs]
    | aborted reason env => rw [runChecked_of_aborted (hsame.trans hs), run_of_aborted hs]

/-- A run comes to a machine whose next instruction passes a bound, or is a run. -/
theorem exists_overflows_or_runChecked_eq (cfg : Config) (m : Machine σ) :
    (∃ m₁, ReachesChecked cfg m m₁ ∧ m₁.overflows = true) ∨ m.runChecked cfg = m.run cfg := by
  by_cases h : ∃ m₁, ReachesChecked cfg m m₁ ∧ m₁.overflows = true
  · exact .inl h
  · refine .inr (runChecked_eq_run fun m₁ hr => ?_)
    exact Bool.eq_false_iff.2 fun ho => h ⟨m₁, hr, ho⟩

/-- A run is given up if and only if it comes to a machine whose next instruction passes a bound. -/
theorem fst_runChecked_eq_outOfBounds_iff (h : m.InBounds) :
    (m.runChecked cfg).1 = .error .outOfBounds ↔
      ∃ m₁, ReachesChecked cfg m m₁ ∧ m₁.overflows = true := by
  refine ⟨fun hgiven => ?_, fun ⟨m₁, hr, ho⟩ => ?_⟩
  · rcases exists_overflows_or_runChecked_eq cfg m with hpast | hsame
    · exact hpast
    · rw [hsame] at hgiven
      exact absurd hgiven (run_ne_outOfBounds h)
  · rw [hr.runChecked_of_overflows ho]

/-! ### Machines on the way -/

/-- No run comes back to a machine. -/
theorem not_reaches_of_step (h : m.step cfg = .running m') : ¬ Reaches cfg m' m := by
  intro hback
  have hcycle : Relation.TransGen (Function.swap (Follows cfg)) m' m' := .tail' hback h
  rw [Relation.transGen_swap] at hcycle
  exact (wellFounded_follows cfg).transGen.irrefl.irrefl m' hcycle

/-- Steps are determined, so a run that comes to a machine within bounds was within bounds all the
way. -/
theorem ReachesChecked.between {between : Machine σ} (h : ReachesChecked cfg m m')
    (hb : Reaches cfg m between) (hl : Reaches cfg between m') :
    ReachesChecked cfg m between ∧ ReachesChecked cfg between m' := by
  induction h using Relation.ReflTransGen.head_induction_on with
  | refl =>
    rcases Relation.ReflTransGen.cases_tail hb with rfl | ⟨last, hlast, hs⟩
    · exact ⟨.refl, .refl⟩
    · exact absurd (hl.trans hlast) (not_reaches_of_step hs)
  | @head m next hstep hrest ih =>
    rcases Relation.ReflTransGen.cases_head hb with rfl | ⟨next', hstep', hb'⟩
    · exact ⟨.refl, .head hstep hrest⟩
    · obtain rfl : next = next' :=
        Progress.running.inj ((step_of_stepChecked hstep).symm.trans hstep')
      obtain ⟨hbefore, hafter⟩ := ih hb'
      exact ⟨.head hstep hbefore, hafter⟩

/-- The last step to a machine that is come to within bounds. -/
theorem ReachesChecked.stepChecked_of_step {before : Machine σ} (h : ReachesChecked cfg m m')
    (hb : Reaches cfg m before) (hs : before.step cfg = .running m') :
    before.stepChecked cfg = .running m' := by
  obtain ⟨-, hafter⟩ := h.between hb (.single hs)
  rcases Relation.ReflTransGen.cases_head hafter with rfl | ⟨next, hstep, -⟩
  · exact absurd .refl (not_reaches_of_step hs)
  · rwa [stepChecked_of_not_overflows (not_overflows_of_running hstep)]

end Machine

/-! ### Room -/

/-- There is room for the memory of the frame, and it has a depth. -/
structure Frame.HasRoom (f : Frame) : Prop where
  size : f.memory.size ≤ Bytes.maxSize
  depth : f.message.depth < Offset.bound

namespace Machine

variable {σ : Type}

/-- All live frames have room, and the callee will have a depth. -/
structure HasRoom (m : Machine σ) : Prop where
  frame : m.frame.HasRoom
  call : ∀ call, m.frame.pending = some call → call.message.depth < Offset.bound
  callers : ∀ caller ∈ m.callers, caller.frame.HasRoom

theorem hasRoom_start (cfg : Config) {message : Message} (e : Env σ)
    (h : message.depth < Offset.bound) : (start cfg message e).HasRoom := by
  refine ⟨⟨Nat.zero_le _, h⟩, nofun, ?_⟩
  rintro caller hc
  cases hc

variable [Backend σ] {cfg : Config} {m m' : Machine σ}

/-- A frame that has executed something and has room goes on with room. -/
theorem hasRoom_of_proceedsTo {callers : List Suspended} {x : Executed σ}
    (hx : ProceedsTo callers x (.running m')) (hframe : x.frame.HasRoom)
    (hcall : ∀ call, x.frame.pending = some call → call.message.depth < Offset.bound)
    (hcallers : ∀ caller ∈ callers, caller.frame.HasRoom) : m'.HasRoom := by
  cases hx with
  | onward => exact ⟨hframe, hcall, hcallers⟩
  | halted => exact ⟨⟨hframe.size, hframe.depth⟩, hcall, hcallers⟩

/-- A step within bounds leaves room. -/
theorem HasRoom.stepChecked (h : m.HasRoom) (hin : m.InBounds)
    (hs : m.stepChecked cfg = .running m') : m'.HasRoom := by
  have ho := not_overflows_of_running hs
  have hto := stepsTo_step cfg m
  rw [step_of_stepChecked hs] at hto
  cases hto with
  | @execute byte _ ready hx =>
    rw [overflows_of_ready ready] at ho
    have hnone := (Frame.lt_size_of_ready? ready).2
    obtain ⟨hmessage, -⟩ := Frame.callFits_execute cfg (.decode byte) m.env hnone
    refine hasRoom_of_proceedsTo hx ⟨?_, ?_⟩ (fun call hc => ?_) h.callers
    · exact (Frame.size_le_of_not_overflows ho).trans (Nat.max_le.2 ⟨h.frame.size, Nat.le_refl _⟩)
    · rw [hmessage]
      exact h.frame.depth
    · exact Frame.depth_lt_of_not_overflows ho hnone hc
  | @enter call pending =>
    refine ⟨⟨Nat.zero_le _, h.call call pending⟩, nofun, fun caller hc => ?_⟩
    rcases List.mem_cons.1 hc with rfl | hc
    · exact ⟨h.frame.size, h.frame.depth⟩
    · exact h.callers caller hc
  | @leave caller callers _ ended waits hx =>
    have hcaller := h.callers caller (waits ▸ List.mem_cons_self)
    have hnone := (hin.callers caller (waits ▸ List.mem_cons_self)).pending
    obtain ⟨hmessage, hpending⟩ := (Frame.advanced_resume caller.frame caller.output m.frame
      (m.env.settle m.frame)).message_pending
    refine hasRoom_of_proceedsTo hx ⟨?_, ?_⟩ (fun call hc => ?_) fun other hother =>
      h.callers other (waits ▸ List.mem_cons_of_mem _ hother)
    · rw [Frame.size_resume]
      exact hcaller.size
    · rw [hmessage]
      exact hcaller.depth
    · rw [hpending, hnone] at hc
      cases hc

/-- All machines of a run within bounds have room. -/
theorem ReachesChecked.hasRoom {message : Message} {e : Env σ}
    (h : ReachesChecked cfg (start cfg message e) m) (hdepth : message.depth < Offset.bound) :
    m.HasRoom := by
  induction h with
  | refl => exact hasRoom_start cfg e hdepth
  | tail hr hs ih => exact ih.stepChecked (ReachesChecked.reaches hr).inBounds hs

end Machine

/-! ### Messages -/

namespace Message

variable {σ : Type}

theorem fst_close_eq_outOfBounds_iff {r : Except Abort Frame × Env σ} [Backend σ] :
    (close r).1 = .error .outOfBounds ↔ r.1 = .error .outOfBounds := by
  obtain ⟨(error | _) | f, e⟩ := r <;> simp [close]

theorem fst_closeCall_eq_outOfBounds_iff {r : Except Abort Frame × Env σ} :
    (closeCall r).1 = .error .outOfBounds ↔ r.1 = .error .outOfBounds := by
  obtain ⟨(error | _) | f, e⟩ := r <;> simp [closeCall]

variable [Backend σ] {cfg : Config} {m : Message} {e : Env σ}

theorem executeChecked_eq_outOfBounds_iff :
    (m.executeChecked cfg e).1 = .error .outOfBounds ↔
      ∃ m₁, Machine.ReachesChecked cfg (Machine.start cfg m e) m₁ ∧ m₁.overflows = true :=
  Machine.fst_runChecked_eq_outOfBounds_iff (Machine.inBounds_start cfg m e)

/-- A message that lies too deep is not run. -/
theorem transactChecked_eq_outOfBounds_iff :
    (m.transactChecked cfg e).1 = .error .outOfBounds ↔ m.depth ≤ cfg.maxDepth ∧
      (m.executeChecked cfg e.checkpoint).1 = .error .outOfBounds := by
  unfold transactChecked
  split
  · simp only [reduceCtorEq, false_iff]
    omega
  · rw [fst_close_eq_outOfBounds_iff]
    exact ⟨fun h => ⟨Nat.le_of_not_lt ‹_›, h⟩, And.right⟩

theorem callChecked_eq_outOfBounds_iff :
    (m.callChecked cfg e).1 = .error .outOfBounds ↔ m.depth ≤ cfg.maxDepth ∧
      (m.executeChecked cfg (m.openCall cfg e).checkpoint).1 = .error .outOfBounds :=
  fst_closeCall_eq_outOfBounds_iff.trans transactChecked_eq_outOfBounds_iff

/-- A run that is not given up is the run that knows no bounds. -/
theorem executeChecked_eq (h : (m.executeChecked cfg e).1 ≠ .error .outOfBounds) :
    m.executeChecked cfg e = m.execute cfg e := by
  rcases Machine.exists_overflows_or_runChecked_eq cfg (Machine.start cfg m e) with hpast | hsame
  · exact absurd (executeChecked_eq_outOfBounds_iff.2 hpast) h
  · exact hsame

theorem transactChecked_eq (h : (m.transactChecked cfg e).1 ≠ .error .outOfBounds) :
    m.transactChecked cfg e = m.transact cfg e := by
  unfold transactChecked transact at *
  split at h
  · rw [if_pos ‹_›, if_pos ‹_›]
  · rw [if_neg ‹_›, if_neg ‹_›, executeChecked_eq (mt fst_close_eq_outOfBounds_iff.2 h)]

theorem callChecked_eq (h : (m.callChecked cfg e).1 ≠ .error .outOfBounds) :
    m.callChecked cfg e = m.call cfg e := by
  unfold callChecked call at *
  rw [transactChecked_eq (mt fst_closeCall_eq_outOfBounds_iff.2 h)]

end Message

end ContractVM
