import ContractVM.Proofs.Machine.Reaches

/-!
# Runs in step

Two environments may differ in what frames never see: how a read is answered, what is reported,
what kind of backend stands behind.  `Env.Simulation R` says that environments related by `R`
answer every query alike and stay related.  Machines with the same frames in such environments
then go step by step together (`Env.Simulation.step`), and their runs have the same outcome
(`Env.Simulation.run`).

The settings may differ too, in all but the depth that calls may have: an instruction reads no
other setting (`Action.exec_eq_of_maxDepth`).
-/

namespace ContractVM

theorem Action.exec_eq_of_maxDepth {cfg cfg' : Config} (h : cfg.maxDepth = cfg'.maxDepth)
    (i : Instruction) : exec cfg i = exec cfg' i := by
  have ho : order cfg = order cfg' := by
    funext isStatic target
    simp only [order, h]
  cases i <;> simp only [exec, ho]

/-- Related environments answer alike and stay related in all that a run does to them. -/
structure Env.Simulation {σ τ : Type} [Backend σ] [Backend τ] (R : Env σ → Env τ → Prop) :
    Prop where
  report : ∀ {e e'} (events : List Event), R e e' → R (e.report events) (e'.report events)
  answer : ∀ {e e'} (q : Query), R e e' →
    (e.answer q).1 = (e'.answer q).1 ∧ R (e.answer q).2 (e'.answer q).2
  checkpoint : ∀ {e e'}, R e e' → R e.checkpoint e'.checkpoint
  commit : ∀ {e e'}, R e e' → R e.commit e'.commit
  rollback : ∀ {e e'}, R e e' → R e.rollback e'.rollback

variable {σ τ : Type}

/-- The same frame has done the same, in related environments. -/
structure Executed.Alike (R : Env σ → Env τ → Prop) (x : Executed σ) (y : Executed τ) : Prop where
  frame : x.frame = y.frame
  fault : x.fault = y.fault
  env : R x.env y.env

/-- Both steps lead to the same frames, in related environments. -/
inductive Progress.Alike (R : Env σ → Env τ → Prop) : Progress σ → Progress τ → Prop
  | running (f : Frame) (callers : List Suspended) {e : Env σ} {e' : Env τ} (h : R e e') :
    Alike R (.running ⟨f, callers, e⟩) (.running ⟨f, callers, e'⟩)
  | finished (f : Frame) {e : Env σ} {e' : Env τ} (h : R e e') :
    Alike R (.finished f e) (.finished f e')
  | aborted (reason : Abort) {e : Env σ} {e' : Env τ} (h : R e e') :
    Alike R (.aborted reason e) (.aborted reason e')

theorem Executed.Alike.after {α : Type} {R : Env σ → Env τ → Prop}
    (r : EStateM.Result Fault Frame α) {e : Env σ} {e' : Env τ} (he : R e e') :
    Executed.Alike R (Frame.after e r) (Frame.after e' r) := by
  cases r <;> exact ⟨rfl, rfl, he⟩

namespace Env.Simulation

variable [Backend σ] [Backend τ] {R : Env σ → Env τ → Prop} {cfg cfg' : Config}
  {e : Env σ} {e' : Env τ}

theorem settle (h : Simulation R) (f : Frame) (he : R e e') : R (e.settle f) (e'.settle f) := by
  unfold Env.settle
  split
  · exact h.commit he
  · exact h.rollback he

theorem unwind (h : Simulation R) (callers : List Suspended) (he : R e e') :
    R (Machine.unwind e callers) (Machine.unwind e' callers) := by
  induction callers generalizing e e' with
  | nil => exact he
  | cons caller callers ih => exact ih (h.rollback he)

theorem frameExecute (h : Simulation R) (hd : cfg.maxDepth = cfg'.maxDepth) (f : Frame)
    (i : Instruction) (he : R e e') :
    Executed.Alike R (f.execute cfg i e) (f.execute cfg' i e') := by
  unfold Frame.execute
  rw [Action.exec_eq_of_maxDepth hd]
  cases Action.exec cfg' i f with
  | error fault g => exact ⟨rfl, rfl, he⟩
  | ok q g =>
    cases q with
    | none => exact ⟨rfl, rfl, he⟩
    | some q =>
      obtain ⟨ha, hr⟩ := h.answer q he
      dsimp only
      generalize e.answer q = x at ha hr ⊢
      generalize e'.answer q = y at ha hr ⊢
      obtain ⟨answer, e₁⟩ := x
      obtain ⟨answer', e₁'⟩ := y
      obtain rfl : answer = answer' := ha
      cases answer with
      | ok answer => exact .after _ hr
      | error error => exact ⟨rfl, rfl, hr⟩

theorem frameResume (h : Simulation R) (f : Frame) (range : Range) (callee : Frame)
    (he : R e e') : Executed.Alike R (f.resume range callee e) (f.resume range callee e') :=
  .after _ (h.report _ he)

theorem proceed (h : Simulation R) (callers : List Suspended) {x : Executed σ} {y : Executed τ}
    (hx : Executed.Alike R x y) :
    Progress.Alike R (Machine.proceed callers x) (Machine.proceed callers y) := by
  obtain ⟨f, e, fault⟩ := x
  obtain ⟨f', e', fault'⟩ := y
  obtain ⟨rfl, rfl, he⟩ := hx
  rcases fault with _ | reason | _
  · exact .running _ _ he
  · cases reason with
    | backend error => exact .aborted _ (h.unwind callers he)
    | _ => exact .running _ _ (h.report _ he)
  · exact .aborted _ he

/-- Machines with the same frames in related environments step together. -/
theorem step (h : Simulation R) (hd : cfg.maxDepth = cfg'.maxDepth) (f : Frame)
    (callers : List Suspended) (he : R e e') :
    Progress.Alike R (Machine.step cfg ⟨f, callers, e⟩) (Machine.step cfg' ⟨f, callers, e'⟩) := by
  unfold Machine.step
  cases f.ready? with
  | some byte => exact h.proceed _ (h.frameExecute hd f _ he)
  | none =>
    dsimp only
    split
    · exact .running _ _ (h.checkpoint he)
    · exact h.proceed _ (h.frameResume _ _ _ (h.settle f he))
    · exact .finished _ he

/-- Machines with the same frames in related environments come to the same end. -/
theorem run (h : Simulation R) (hd : cfg.maxDepth = cfg'.maxDepth) (f : Frame)
    (callers : List Suspended) (he : R e e') :
    (Machine.run cfg ⟨f, callers, e⟩).1 = (Machine.run cfg' ⟨f, callers, e'⟩).1 ∧
      R (Machine.run cfg ⟨f, callers, e⟩).2 (Machine.run cfg' ⟨f, callers, e'⟩).2 := by
  generalize hm : (⟨f, callers, e⟩ : Machine σ) = m
  -- along the first run; the second one keeps step with it
  induction m using (Machine.wellFounded_follows (σ := σ) cfg).induction generalizing
    f callers e e' with
  | _ m ih =>
    subst hm
    have hs := h.step hd f callers he
    generalize hx : Machine.step cfg ⟨f, callers, e⟩ = x at hs
    generalize hy : Machine.step cfg' ⟨f, callers, e'⟩ = y at hs
    cases hs with
    | running g callers' hr =>
      rw [Machine.run_of_running hx, Machine.run_of_running hy]
      exact ih _ hx g callers' hr rfl
    | finished g hr =>
      rw [Machine.run_of_finished hx, Machine.run_of_finished hy]
      exact ⟨rfl, hr⟩
    | aborted reason hr =>
      rw [Machine.run_of_aborted hx, Machine.run_of_aborted hy]
      exact ⟨rfl, hr⟩

/-- A message that runs its code under the same limits comes to the same end. -/
theorem execute (h : Simulation R) (hd : cfg.maxDepth = cfg'.maxDepth)
    (hm : cfg.maxMemory = cfg'.maxMemory) (m : Message) (he : R e e') :
    (m.execute cfg e).1 = (m.execute cfg' e').1 ∧ R (m.execute cfg e).2 (m.execute cfg' e').2 := by
  unfold Message.execute Machine.start
  rw [hm]
  exact h.run hd _ _ he

theorem close (h : Simulation R) {r : Machine.Result σ} {r' : Machine.Result τ} (hr : r.1 = r'.1)
    (he : R r.2 r'.2) :
    (Message.close r).1 = (Message.close r').1 ∧ R (Message.close r).2 (Message.close r').2 := by
  obtain ⟨outcome, e⟩ := r
  obtain ⟨outcome', e'⟩ := r'
  obtain rfl : outcome = outcome' := hr
  rcases outcome with (error | _) | f
  · exact ⟨rfl, h.rollback he⟩
  · exact ⟨rfl, he⟩
  · exact ⟨rfl, h.settle f he⟩

/-- A message in its own transaction comes to the same end. -/
theorem transact (h : Simulation R) (hd : cfg.maxDepth = cfg'.maxDepth)
    (hm : cfg.maxMemory = cfg'.maxMemory) (m : Message) (he : R e e') :
    (m.transact cfg e).1 = (m.transact cfg' e').1 ∧
      R (m.transact cfg e).2 (m.transact cfg' e').2 := by
  unfold Message.transact
  rw [hd]
  split
  · exact ⟨rfl, he⟩
  · obtain ⟨ho, hr⟩ := h.execute hd hm m (h.checkpoint he)
    exact h.close ho hr

end Env.Simulation

end ContractVM
