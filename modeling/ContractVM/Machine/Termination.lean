import ContractVM.Frame.Moves
import ContractVM.Machine.Basic

/-!
# Every run ends

No sequence of steps is endless, whatever the code, the settings and the backend are
(`Machine.wellFounded_follows`).  An instruction that succeeds moves its frame on in its code, or
leaves a call one level deeper, where levels are bounded; a frame that goes on after a call has
moved on; and a frame that halts executes nothing any more.

The proof follows the nesting.  `Ends callers` says that once the innermost frame has ended, the
frames that wait go on and come to an end.  A frame that has made no call yet comes to an end
under such callers (`Machine.acc_of_ends`), by induction first on the levels that are left and then
on the code that is left; and all callers are such (`Machine.ends`), by induction on their list.
-/

namespace ContractVM

/-! ### One instruction -/

namespace Frame

variable {σ : Type}

/-- The frame has moved on, or what it did has failed. -/
inductive Advanced (f : Frame) (x : Executed σ) : Prop
  | ahead (ok : x.fault = none) (ahead : f.Ahead x.frame)
  | fails (failed : x.fault ≠ none) (same : f.SamePlace x.frame)

/-- The frame has made a call, one level deeper. -/
structure Calls (cfg : Config) (f : Frame) (x : Executed σ) (call : PendingCall) : Prop where
  ok : x.fault = none
  pending : x.frame.pending = some call
  message : x.frame.message = f.message
  pc : x.frame.pc = f.pc
  depth : call.message.depth = f.message.depth + 1
  deep : f.message.depth + 1 ≤ cfg.maxDepth

theorem advanced_after {α : Type} {a : Action α} {f g : Frame} {env : Env σ}
    (same : f.SamePlace g) (h : Action.Advances a g) : Advanced f (after env (a g)) := by
  have h := h.run
  cases e : a g with
  | ok x g' =>
    rw [e] at h
    exact .ahead rfl (same.ahead h)
  | error r g' =>
    rw [e] at h
    exact .fails (by simp [after]) (same.trans h)

/-- An instruction moves on, fails, or makes a call. -/
theorem advanced_or_calls_execute [Backend σ] (cfg : Config) (f : Frame) (i : Instruction)
    (env : Env σ) :
    Advanced f (f.execute cfg i env) ∨ ∃ call, Calls cfg f (f.execute cfg i env) call := by
  have h := (Action.exec_moves cfg i f).run
  unfold execute
  cases e : Action.exec cfg i f with
  | error fault g =>
    rw [e] at h
    exact .inl (.fails (by simp) h)
  | ok q g =>
    rw [e] at h
    match q, h with
    | none, h => exact .inl (.ahead rfl h)
    | some (.load cell), h =>
      dsimp only
      split
      · exact .inl (advanced_after h (Action.advances_complete_load _ _ _))
      · exact .inl (.fails (by simp) h)
    | some (.store cell value), h =>
      dsimp only
      split
      · exact .inl (advanced_after h (Action.advances_complete_store _ _ _))
      · exact .inl (.fails (by simp) h)
    | some (.code order), h =>
      dsimp only
      split
      · exact .inr ⟨_, rfl, rfl, h.1.message, h.1.pc,
          congrArg (· + 1) (congrArg Message.depth h.1.message), h.2⟩
      · exact .inl (.fails (by simp) h.1)

/-- A frame that goes on after a call has moved on, or fails. -/
theorem advanced_resume (f : Frame) (range : Range) (callee : Frame) (env : Env σ) :
    Advanced f (f.resume range callee env) :=
  advanced_after (.refl f) (Action.advances_resume range callee f)

theorem ready?_halt (f : Frame) (reason : Halt) : (f.halt reason).ready? = none := by
  refine dif_neg ?_
  rintro ⟨hr, -⟩
  cases hr

theorem ready?_of_pending {f : Frame} {call : PendingCall} (h : f.pending = some call) :
    f.ready? = none := by
  refine dif_neg ?_
  rintro ⟨-, -, hnone⟩
  rw [h] at hnone
  cases hnone

theorem lt_size_of_ready? {f : Frame} {byte : UInt8} (h : f.ready? = some byte) :
    f.pc < f.code.size ∧ f.pending = none := by
  unfold ready? at h
  by_cases hr : f.running ∧ f.pc < f.code.size ∧ f.pending.isNone
  · exact ⟨hr.2.1, Option.isNone_iff_eq_none.1 hr.2.2⟩
  · rw [dif_neg hr] at h
    cases h

end Frame

/-! ### Steps -/

namespace Machine

variable {σ : Type} [Backend σ] (cfg : Config)

/-- The first machine is what a step of the second one leads to. -/
def Follows (m' m : Machine σ) : Prop := m.step cfg = .running m'

/-- Once the innermost frame has ended, these callers come to an end. -/
def Ends (callers : List Suspended) : Prop :=
  ∀ (f : Frame) (env : Env σ), f.ready? = none → f.pending = none →
    Acc (Follows cfg) (⟨f, callers, env⟩ : Machine σ)

variable {cfg}

/-- What has been executed comes to an end if the frame does, or cannot go on. -/
theorem acc_proceed {callers : List Suspended} {x : Executed σ} {m : Machine σ}
    (ends : Ends (σ := σ) cfg callers) (h : proceed callers x = .running m)
    (goes : x.fault = none → Acc (Follows cfg) (⟨x.frame, callers, x.env⟩ : Machine σ))
    (fails : x.fault ≠ none → x.frame.pending = none) : Acc (Follows cfg) m := by
  unfold proceed at h
  split at h <;> cases h
  · exact goes ‹_›
  · exact ends _ _ (Frame.ready?_halt _ _) (fails (by simp_all))

theorem ends_nil : Ends (σ := σ) cfg [] := fun f env ready pending =>
  ⟨_, fun m h => by simp [Follows, step, ready, pending] at h⟩

/-- Callers come to an end if those further out do, and the innermost one does when it goes on. -/
theorem ends_cons {caller : Suspended} {callers : List Suspended} (ends : Ends (σ := σ) cfg callers)
    (pending : caller.frame.pending = none)
    (goes : ∀ (g : Frame) (env : Env σ), caller.frame.Ahead g →
      Acc (Follows cfg) (⟨g, callers, env⟩ : Machine σ)) :
    Ends (σ := σ) cfg (caller :: callers) := by
  intro f env ready none
  refine ⟨_, fun m h => ?_⟩
  simp only [Follows, step, ready, none, leave] at h
  cases Frame.advanced_resume caller.frame caller.output f (env.settle f) with
  | ahead ok ahead => exact acc_proceed ends h (fun _ => goes _ _ ahead) (absurd ok)
  | fails failed same =>
    exact acc_proceed ends h (absurd · failed) (fun _ => same.pending.trans pending)

/-- A frame with a pending call comes to an end if its callee does. -/
theorem acc_of_pending {f : Frame} {callers : List Suspended} {env : Env σ} {call : PendingCall}
    (pending : f.pending = some call)
    (callee : Acc (Follows cfg) ((⟨f, callers, env⟩ : Machine σ).enter call)) :
    Acc (Follows cfg) (⟨f, callers, env⟩ : Machine σ) := by
  refine ⟨_, fun m h => ?_⟩
  simp only [Follows, step, Frame.ready?_of_pending pending, pending, Progress.running.injEq] at h
  exact h ▸ callee

/-- A frame that has made no call comes to an end if its callers do. -/
theorem acc_of_ends (f : Frame) (callers : List Suspended) (env : Env σ)
    (ends : Ends (σ := σ) cfg callers) (pending : f.pending = none) :
    Acc (Follows cfg) (⟨f, callers, env⟩ : Machine σ) := by
  induction hl : cfg.maxDepth - f.message.depth using Nat.strongRecOn
    generalizing f callers env with
  | ind levels outer =>
  induction hr : f.code.size - f.pc using Nat.strongRecOn generalizing f env with
  | ind left inner =>
  cases ready : f.ready? with
  | none => exact ends f env ready pending
  | some byte =>
    have here := (Frame.lt_size_of_ready? ready).1
    have goes (g : Frame) (env' : Env σ) (a : f.Ahead g) :
        Acc (Follows cfg) (⟨g, callers, env'⟩ : Machine σ) := by
      refine inner (g.code.size - g.pc) ?_ g env' (a.pending.trans pending) ?_ rfl
      · have size : g.code.size = f.code.size := congrArg (fun m => m.code.size) a.message
        have := a.pc
        omega
      · rw [a.message, hl]
    refine ⟨_, fun m h => ?_⟩
    simp only [Follows, step, ready] at h
    cases Frame.advanced_or_calls_execute cfg f (.decode byte) env with
    | inl advanced =>
      cases advanced with
      | ahead ok ahead => exact acc_proceed ends h (fun _ => goes _ _ ahead) (absurd ok)
      | fails failed same =>
        exact acc_proceed ends h (absurd · failed) fun _ => same.pending.trans pending
    | inr calls =>
      obtain ⟨call, calls⟩ := calls
      refine acc_proceed ends h (fun _ => acc_of_pending calls.pending ?_) (absurd calls.ok)
      refine outer _ ?_ _ _ _ (ends_cons ends rfl fun g env' a => goes g env' ?_) rfl rfl
      · have := calls.depth
        have := calls.deep
        simp only [Frame.new]
        omega
      · exact ⟨a.message.trans calls.message, a.pending.trans pending.symm, calls.pc ▸ a.pc⟩

/-- A frame comes to an end if its callers do. -/
theorem acc_of_callers (f : Frame) (callers : List Suspended) (env : Env σ)
    (ends : Ends (σ := σ) cfg callers) : Acc (Follows cfg) (⟨f, callers, env⟩ : Machine σ) := by
  cases pending : f.pending with
  | none => exact acc_of_ends f callers env ends pending
  | some call =>
    refine acc_of_pending pending (acc_of_ends _ _ _ (ends_cons ends rfl fun g env' a => ?_) rfl)
    exact acc_of_ends g callers env' ends a.pending

/-- All callers come to an end. -/
theorem ends (callers : List Suspended) : Ends (σ := σ) cfg callers := by
  induction callers with
  | nil => exact ends_nil
  | cons caller callers ih =>
    intro f env ready none
    refine ⟨_, fun m h => ?_⟩
    simp only [Follows, step, ready, none, leave, proceed] at h
    split at h <;> cases h <;> exact acc_of_callers _ _ _ ih

/-- No sequence of steps is endless. -/
theorem wellFounded_follows (cfg : Config) : WellFounded (Follows (σ := σ) cfg) :=
  ⟨fun m => acc_of_callers m.frame m.callers m.env (ends m.callers)⟩

end Machine

end ContractVM
