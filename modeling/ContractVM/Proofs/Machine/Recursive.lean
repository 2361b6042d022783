import ContractVM.Proofs.Backend.Alike
import ContractVM.Proofs.Machine.Checked

/-!
# The machine and a recursive interpreter

`Frame.evaluate` is an interpreter without a list of frames that wait: when an instruction has made
a call, it asks the backend for a transaction, runs the callee by calling itself, ends the
transaction, and goes on with the frame.  A callee that was halted by an error, or a backend that
failed, has its transaction rolled back and leaves a cache without entries (`Env.undone`); any other
callee has it committed.  The interpreter ends because calls nest no deeper than the settings allow,
and because a frame only moves forward in its code.

A machine does the same with its list of callers (`Machine.run_eq_evaluate`).  What the list
stands for is `Machine.evaluate`: each caller goes on with what the frame it waits for came to
(`Suspended.goOn`), the innermost first.  A failing backend goes through all of them, and each
rolls back one transaction.

`Message.execute_refines_evaluate` is the statement about messages.
-/

namespace ContractVM

/-! ### The recursive interpreter -/

variable {σ : Type}

/-- What a frame comes to that has failed: a rule of the machine halts it, and a backend that
fails ends everything. -/
def Executed.stop (x : Executed σ) : Fault → Machine.Result σ
  | .halt (.backend error) => (.error (.backend error), x.env)
  | .halt reason =>
    (.ok (x.frame.halt reason), x.env.report (Machine.haltEvents x.frame reason))
  | .outOfBounds => (.error .outOfBounds, x.env)

section

variable [Backend σ]

/-- The backend rolls its innermost transaction back, and if there is a cache, it has no entries
any more. -/
def Env.undone (e : Env σ) : Env σ :=
  match e.cache with
  | .absent => { e with backend := Backend.rollback e.backend }
  | .active cache =>
    { backend := Backend.rollback e.backend
      cache := .active ∅
      events := .cacheCleared cache.size :: e.events }

/-- The transaction of a callee has ended: without an error its writes are kept, otherwise they are
undone. -/
def Env.concluded (e : Env σ) (callee : Frame) : Env σ :=
  match callee.halted with
  | none => { e with backend := Backend.commit e.backend }
  | some _ => e.undone

end

namespace Frame

/-- How many more calls may lie inside one another, and how much of the code is left. -/
def remaining (cfg : Config) (f : Frame) : Nat × Nat :=
  (cfg.maxDepth - f.message.depth, f.code.size - f.pc)

variable {cfg : Config} {f : Frame} {env : Env σ} {byte : UInt8}

/-- A frame that moves on leaves less code. -/
theorem remaining_of_ahead {g : Frame} (hr : f.ready? = some byte) (h : f.Ahead g) :
    Prod.Lex (· < ·) (· < ·) (g.remaining cfg) (f.remaining cfg) := by
  have hsize : g.code.size = f.code.size := congrArg (fun m => m.code.size) h.message
  have hpc := h.pc
  have hlt := (lt_size_of_ready? hr).1
  unfold remaining
  rw [h.message]
  refine .right _ ?_
  omega

/-- A frame that goes on after a call, and has not failed, has moved on. -/
theorem ahead_of_resume {range : Range} {callee : Frame}
    (hf : (f.resume range callee env).fault = none) :
    f.Ahead (f.resume range callee env).frame := by
  cases advanced_resume f range callee env with
  | ahead _ ahead => exact ahead
  | fails failed _ => exact absurd hf failed

/-- A callee may make fewer calls inside one another than its caller. -/
theorem remaining_of_calls {x : Executed σ} {call : PendingCall} (h : Calls cfg f x call)
    (limit : Nat) :
    Prod.Lex (· < ·) (· < ·) ((Frame.new call.message limit).remaining cfg) (f.remaining cfg) := by
  have hdepth := h.depth
  have hdeep := h.deep
  refine .left _ _ ?_
  change cfg.maxDepth - call.message.depth < cfg.maxDepth - f.message.depth
  omega

/-- A caller that goes on after its call is ahead of where it made the call. -/
theorem ahead_of_calls {x : Executed σ} {call : PendingCall} {g : Frame}
    (hr : f.ready? = some byte) (h : Calls cfg f x call)
    (hg : Frame.Ahead { x.frame with pending := none } g) : f.Ahead g :=
  ⟨hg.message.trans h.message, hg.pending.trans (lt_size_of_ready? hr).2.symm, h.pc ▸ hg.pc⟩

variable [Backend σ]

/-- An instruction that has not failed and makes no call moves its frame on. -/
theorem ahead_of_execute (hf : (f.execute cfg (.decode byte) env).fault = none)
    (hp : (f.execute cfg (.decode byte) env).frame.pending = none) :
    f.Ahead (f.execute cfg (.decode byte) env).frame := by
  rcases advanced_or_calls_execute cfg f (.decode byte) env with ha | ⟨call, hc⟩
  · cases ha with
    | ahead _ ahead => exact ahead
    | fails failed _ => exact absurd hf failed
  · rw [hc.pending] at hp
    cases hp

/-- A call that an instruction has left lies one level deeper. -/
theorem calls_of_execute {call : PendingCall} (hr : f.ready? = some byte)
    (hp : (f.execute cfg (.decode byte) env).frame.pending = some call) :
    Calls cfg f (f.execute cfg (.decode byte) env) call := by
  have hn : f.pending = none := (lt_size_of_ready? hr).2
  rcases advanced_or_calls_execute cfg f (.decode byte) env with ha | ⟨call', hc⟩
  · cases ha with
    | ahead _ ahead => rw [ahead.pending, hn] at hp; cases hp
    | fails _ same => rw [same.pending, hn] at hp; cases hp
  · obtain rfl : call = call' := Option.some.inj (hp.symm.trans hc.pending)
    exact hc

/-- Runs a frame to its end, and the calls that it makes as parts of it. -/
def evaluate (cfg : Config) (f : Frame) (env : Env σ) : Machine.Result σ :=
  match _hr : f.ready? with
  | none => (.ok f, env)
  | some byte =>
    let x := f.execute cfg (.decode byte) env
    match _hx : x.fault, _hp : x.frame.pending with
    | some fault, _ => x.stop fault
    | none, none => evaluate cfg x.frame x.env
    | none, some call =>
      let caller := { x.frame with pending := none }
      let limit := x.frame.memoryLimit - x.frame.memory.size
      let opened := { x.env with backend := Backend.checkpoint x.env.backend }
      match evaluate cfg (.new call.message limit) opened with
      | (.error .outOfBounds, env) => (.error .outOfBounds, env)
      | (.error (.backend error), env) => (.error (.backend error), env.undone)
      | (.ok callee, env) =>
        let y := caller.resume call.output callee (env.concluded callee)
        match _hy : y.fault with
        | some fault => y.stop fault
        | none => evaluate cfg y.frame y.env
termination_by f.remaining cfg
decreasing_by
  · exact remaining_of_ahead _hr (ahead_of_execute _hx _hp)
  · exact remaining_of_calls (calls_of_execute _hr _hp) _
  · exact remaining_of_ahead _hr
      (ahead_of_calls _hr (calls_of_execute _hr _hp) (ahead_of_resume _hy))

end Frame

variable [Backend σ] {cfg : Config}

/-! ### Transactions of callees -/

theorem Env.undone_eq_rollback (e : Env σ) : e.undone = e.rollback := by
  unfold undone rollback updateCache
  cases e.cache <;> rfl

theorem Env.concluded_eq_settle (e : Env σ) (callee : Frame) :
    e.concluded callee = e.settle callee := by
  unfold concluded settle
  cases callee.halted with
  | none => rfl
  | some reason => exact e.undone_eq_rollback

/-! ### What frames come to -/

/-- What a frame comes to that has executed something. -/
def Executed.evaluate (cfg : Config) (x : Executed σ) : Machine.Result σ :=
  match x.fault with
  | some fault => x.stop fault
  | none => x.frame.evaluate cfg x.env

/-- What a frame that waits comes to, from what the frame it waits for came to. -/
def Suspended.goOn (cfg : Config) (caller : Suspended) (r : Machine.Result σ) : Machine.Result σ :=
  match Message.close r with
  | (.error reason, env) => (.error reason, env)
  | (.ok callee, env) => (caller.frame.resume caller.output callee env).evaluate cfg

namespace Frame

variable {f : Frame} {env : Env σ} {byte : UInt8}

theorem evaluate_of_ended (h : f.ready? = none) : f.evaluate cfg env = (.ok f, env) := by
  rw [evaluate]
  split
  · rfl
  · rename_i hr
    rw [h] at hr
    cases hr

theorem evaluate_of_not_pending (hr : f.ready? = some byte)
    (hp : (f.execute cfg (.decode byte) env).frame.pending = none) :
    f.evaluate cfg env = (f.execute cfg (.decode byte) env).evaluate cfg := by
  rw [evaluate]
  split
  · rename_i hn
    rw [hr] at hn
    cases hn
  · rename_i byte' hb
    obtain rfl : byte = byte' := Option.some.inj (hr.symm.trans hb)
    unfold Executed.evaluate
    dsimp only
    split
    · rename_i hx
      rw [hx]
    · rename_i hx _
      rw [hx]
    · rename_i hp'
      rw [hp] at hp'
      cases hp'

theorem evaluate_of_pending {call : PendingCall} (hr : f.ready? = some byte)
    (hx : (f.execute cfg (.decode byte) env).fault = none)
    (hp : (f.execute cfg (.decode byte) env).frame.pending = some call) :
    let x := f.execute cfg (.decode byte) env
    let callee : Frame := .new call.message (x.frame.memoryLimit - x.frame.memory.size)
    f.evaluate cfg env = Suspended.goOn cfg ⟨{ x.frame with pending := none }, call.output⟩
      (callee.evaluate cfg x.env.checkpoint) := by
  intro x callee
  rw [evaluate]
  split
  · rename_i hn
    rw [hr] at hn
    cases hn
  · rename_i byte' hb
    obtain rfl : byte = byte' := Option.some.inj (hr.symm.trans hb)
    unfold Suspended.goOn Executed.evaluate
    dsimp only
    split
    · rename_i hx'
      rw [hx] at hx'
      cases hx'
    · rename_i hp'
      rw [hp] at hp'
      cases hp'
    · rename_i hp'
      obtain rfl := Option.some.inj (hp.symm.trans hp')
      have hopened : { x.env with backend := Backend.checkpoint x.env.backend } =
          x.env.checkpoint := rfl
      rw [hopened]
      obtain ⟨(error | _) | ended, env'⟩ := callee.evaluate cfg x.env.checkpoint
      · simp only [Message.close, Env.undone_eq_rollback]
      · rfl
      · simp only [Message.close, ← Env.concluded_eq_settle]
        split
        · rename_i hy
          rw [hy]
        · rename_i hy
          rw [hy]

end Frame

/-! ### The machine -/

/-- What the result of a run is after this step. -/
def Progress.finish (cfg : Config) : Progress σ → Machine.Result σ
  | .running m => m.run cfg
  | .finished f env => (.ok f, env)
  | .aborted reason env => (.error reason, env)

namespace Machine

/-- What the frames that wait come to, the innermost first. -/
def goOn (cfg : Config) (callers : List Suspended) (r : Result σ) : Result σ :=
  callers.foldl (fun r caller => caller.goOn cfg r) r

/-- What a machine comes to: first its frame, and then the frames that wait. -/
def evaluate (cfg : Config) (m : Machine σ) : Result σ :=
  goOn cfg m.callers (m.frame.evaluate cfg m.env)

/-- A failing backend goes through all frames that wait, and each rolls back one transaction. -/
theorem goOn_backend (callers : List Suspended) (error : BackendError) (env : Env σ) :
    goOn cfg callers (.error (.backend error), env) =
      (.error (.backend error), unwind env callers) := by
  induction callers generalizing env with
  | nil => rfl
  | cons caller callers ih => exact ih env.rollback

theorem goOn_outOfBounds (callers : List Suspended) (env : Env σ) :
    goOn cfg callers (.error .outOfBounds, env) = (.error .outOfBounds, env) := by
  induction callers with
  | nil => rfl
  | cons caller callers ih => exact ih

theorem run_eq_finish (m : Machine σ) : m.run cfg = (m.step cfg).finish cfg := by
  cases h : m.step cfg with
  | running m' => exact run_of_running h
  | finished f env => exact run_of_finished h
  | aborted reason env => exact run_of_aborted h

/-- A frame that goes on keeps its callers, and its pending call. -/
theorem of_proceed_running {callers : List Suspended} {x : Executed σ} {m : Machine σ}
    (h : proceed callers x = .running m) :
    m.callers = callers ∧ m.frame.pending = x.frame.pending := by
  unfold proceed at h
  split at h <;> cases h <;> exact ⟨rfl, rfl⟩

/-- What has been executed comes to what the recursive interpreter makes of it, if the machine
that it leads to does. -/
theorem finish_proceed {callers : List Suspended} {x : Executed σ}
    (h : ∀ m, proceed callers x = .running m → m.run cfg = m.evaluate cfg) :
    (proceed callers x).finish cfg = goOn cfg callers (x.evaluate cfg) := by
  obtain ⟨f, env, fault⟩ := x
  rcases fault with _ | reason | _
  · exact h _ rfl
  · cases reason with
    | backend error => exact (goOn_backend callers error env).symm
    | _ =>
      refine (h _ rfl).trans (congrArg (goOn cfg callers) ?_)
      exact Frame.evaluate_of_ended (Frame.ready?_halt _ _)
  · exact (goOn_outOfBounds callers env).symm

/-- Two steps lead from a frame that makes a call to its callee. -/
theorem run_of_calls {f : Frame} (callers : List Suspended) {env : Env σ} {byte : UInt8}
    {call : PendingCall} (hr : f.ready? = some byte)
    (hc : Frame.Calls cfg f (f.execute cfg (.decode byte) env) call) :
    let x := f.execute cfg (.decode byte) env
    let next := enter ⟨x.frame, callers, x.env⟩ call
    Relation.TransGen (Follows cfg) next ⟨f, callers, env⟩ ∧
      run cfg ⟨f, callers, env⟩ = next.run cfg := by
  intro x next
  have h₁ : step cfg ⟨f, callers, env⟩ = .running ⟨x.frame, callers, x.env⟩ := by
    rw [step_of_ready cfg _ hr]
    exact proceed_of_ok hc.ok
  have h₂ : step cfg ⟨x.frame, callers, x.env⟩ = .running next := step_of_pending cfg _ hc.pending
  refine ⟨.tail (.single h₂) h₁, ?_⟩
  rw [run_of_running h₁, run_of_running h₂]

/-- **A machine comes to what the recursive interpreter comes to**, with any frames waiting. -/
theorem run_eq_evaluate (m : Machine σ) (hf : m.frame.pending = none)
    (hc : ∀ caller ∈ m.callers, caller.frame.pending = none) : m.run cfg = m.evaluate cfg := by
  -- on all later machines, since a call takes two steps to begin
  induction m using (wellFounded_follows (σ := σ) cfg).transGen.induction with
  | _ m ih =>
  obtain ⟨f, callers, env⟩ := m
  change f.pending = none at hf
  change ∀ caller ∈ callers, caller.frame.pending = none at hc
  cases hr : f.ready? with
  | some byte =>
    cases hp : (f.execute cfg (.decode byte) env).frame.pending with
    | none =>
      have hs := step_of_ready cfg ⟨f, callers, env⟩ hr
      rw [run_eq_finish, hs, evaluate, Frame.evaluate_of_not_pending hr hp]
      refine finish_proceed fun m' hm => ?_
      obtain ⟨hcallers, hpending⟩ := of_proceed_running hm
      exact ih m' (.single (hs.trans hm)) (hpending.trans hp) (hcallers ▸ hc)
    | some call =>
      have hcall := Frame.calls_of_execute hr hp
      obtain ⟨hfollows, hrun⟩ := run_of_calls callers hr hcall
      rw [hrun]
      refine (ih _ hfollows rfl fun caller hm => ?_).trans ?_
      · rcases List.mem_cons.1 hm with rfl | hm
        · rfl
        · exact hc caller hm
      · exact congrArg (goOn cfg callers) (Frame.evaluate_of_pending hr hcall.ok hp).symm
  | none =>
    -- the frame has ended, and its caller goes on, if there is one
    have he : f.evaluate cfg env = (.ok f, env) := Frame.evaluate_of_ended hr
    cases callers with
    | nil =>
      rw [run_of_finished (step_of_ended_nil cfg f env hr hf)]
      exact he.symm
    | cons caller callers =>
      have hs := step_of_ended_cons cfg f caller callers env hr hf
      have hcaller : caller.frame.pending = none := hc caller List.mem_cons_self
      rw [run_eq_finish, hs, evaluate]
      change _ = goOn cfg callers (caller.goOn cfg (f.evaluate cfg env))
      rw [he]
      refine finish_proceed fun m' hm => ?_
      obtain ⟨hcallers, hpending⟩ := of_proceed_running hm
      refine ih m' (.single (hs.trans hm)) ?_ fun other ho => ?_
      · cases Frame.advanced_resume caller.frame caller.output f (env.settle f) with
        | ahead _ ahead => exact hpending.trans (ahead.pending.trans hcaller)
        | fails _ same => exact hpending.trans (same.pending.trans hcaller)
      · exact hc other (List.mem_cons_of_mem _ (hcallers ▸ ho))

end Machine

/-! ### Messages -/

namespace Message

/-- Runs the code of a message in a frame that may use this much memory, by recursion. -/
def evaluate (cfg : Config) (limit : Nat) (m : Message) (env : Env σ) : Machine.Result σ :=
  (Frame.new m limit).evaluate cfg env

theorem execute_eq_evaluate (cfg : Config) (m : Message) (env : Env σ) :
    m.execute cfg env = m.evaluate cfg cfg.maxMemory env := by
  have hcallers : ∀ caller ∈ (Machine.start cfg m env).callers, caller.frame.pending = none :=
    fun _ hm => absurd hm List.not_mem_nil
  exact Machine.run_eq_evaluate (Machine.start cfg m env) rfl hcallers

/-- **The machine refines the recursive interpreter.**  Both end with the same frame or the same
error of the backend, in the same environment, and so does the machine within bounds unless it is
given up.  They have asked the backend the same, as a backend shows that writes down its calls and
answers like the one behind it. -/
theorem execute_refines_evaluate (cfg : Config) (m : Message) (env : Env σ) :
    m.execute cfg env = m.evaluate cfg cfg.maxMemory env ∧
      ((m.executeChecked cfg env).1 ≠ .error .outOfBounds →
        m.executeChecked cfg env = m.evaluate cfg cfg.maxMemory env) ∧
      (m.execute cfg env).1 ≠ .error .outOfBounds ∧
      (m.execute cfg env.logged).1 = (m.execute cfg env).1 ∧
      (m.execute cfg env.logged).2.backend.inner = (m.execute cfg env).2.backend ∧
      (m.execute cfg env.logged).2.backend.calls =
        (m.evaluate cfg cfg.maxMemory env.logged).2.backend.calls := by
  obtain ⟨hr, hb, -⟩ := execute_logged cfg m env
  refine ⟨execute_eq_evaluate cfg m env, fun h => ?_, execute_ne_outOfBounds m env, hr.symm, hb, ?_⟩
  · rw [executeChecked_eq h, execute_eq_evaluate]
  · rw [execute_eq_evaluate cfg m env.logged]

end Message

end ContractVM
