import ContractVM.Proofs.Frame.Bounds
import ContractVM.Proofs.Machine.Steps
import ContractVM.Proofs.MessageCall

/-!
# Runs stay inside of byte strings

The place for the output of a call is looked at when the call is made, and used when the call has
ended, after any other code has run.  `Machine.InBounds` says that the places of all calls that
have not ended lie inside of the memories of their callers.  Every step keeps that
(`Machine.InBounds.step`), and so no run of a message is given up because bytes are missing
(`Message.execute_ne_outOfBounds`, `Message.transact_ne_outOfBounds`).
-/

namespace ContractVM

namespace Frame

variable {σ : Type}

/-- The frame has not gone outside of its bytes, and the output of its call lies inside. -/
structure StaysInside (x : Executed σ) : Prop where
  fault : x.fault ≠ some .outOfBounds
  pending : ∀ call, x.frame.pending = some call → x.frame.Covers call.output

theorem staysInside_of_pending {x : Executed σ} (fault : x.fault ≠ some .outOfBounds)
    (h : x.frame.pending = none) : StaysInside x :=
  ⟨fault, fun call hc => by rw [h] at hc; cases hc⟩

/-- A frame that has moved on, or failed, is at the same message and has made no call. -/
theorem Advanced.message_pending {f : Frame} {x : Executed σ} (h : f.Advanced x) :
    x.frame.message = f.message ∧ x.frame.pending = f.pending := by
  cases h with
  | ahead _ ahead => exact ⟨ahead.message, ahead.pending⟩
  | fails _ same => exact ⟨same.message, same.pending⟩

/-- What goes on after an answer stays inside, and makes no call. -/
theorem staysInside_after {α : Type} {a : Action α} {f g : Frame} (env : Env σ)
    (ha : Advanced f (after env (a g))) (hf : f.pending = none)
    (hw : Action.Ensures a g (fun _ _ => True) Action.Within) : StaysInside (after env (a g)) := by
  refine staysInside_of_pending ?_ (ha.message_pending.2.trans hf)
  have h := hw.run
  cases hr : a g with
  | ok x g' => exact nofun
  | error e g' =>
    rw [hr] at h
    exact fun he => h (Option.some.inj he)

theorem staysInside_execute [Backend σ] (cfg : Config) {f : Frame} (i : Instruction) (env : Env σ)
    (hf : f.pending = none) : StaysInside (f.execute cfg i env) := by
  have hw := (Action.exec_within cfg i f).run
  have hm := (Action.exec_moves cfg i f).run
  have hx := executesTo_execute cfg f i env
  generalize f.execute cfg i env = x at hx
  cases hx with
  | fails h =>
    rw [h] at hw hm
    exact staysInside_of_pending (fun hfault => hw (Option.some.inj hfault)) (hm.pending.trans hf)
  | alone h =>
    rw [h] at hm
    exact staysInside_of_pending nofun (hm.pending.trans hf)
  | @answered q _ answer h ha =>
    rw [h] at hw hm
    cases q with
    | load cell =>
      exact staysInside_after _ (advanced_after hm (Action.advances_complete_load _ _ _)) hf
        (Action.complete_load_within _ _ _)
    | store cell value =>
      exact staysInside_after _ (advanced_after hm (Action.advances_complete_store _ _ _)) hf
        (.change trivial)
    | code order =>
      refine ⟨nofun, fun call hc => ?_⟩
      obtain rfl := Option.some.inj hc
      exact hw order rfl
  | @refused q _ error h ha =>
    rw [h] at hm
    cases q with
    | load cell => exact staysInside_of_pending nofun (hm.pending.trans hf)
    | store cell value => exact staysInside_of_pending nofun (hm.pending.trans hf)
    | code order => exact staysInside_of_pending nofun (hm.1.pending.trans hf)

/-- A frame that has too few operands to copy one of them does not look for it. -/
theorem fault_execute_dup [Backend σ] (cfg : Config) {f : Frame} {place : Nat} (e : Env σ)
    (h : f.stack.length ≤ place) :
    (f.execute cfg (.dup place) e).fault = some (.halt .stackUnderflow) := by
  have hdup : Action.dup place f = .error (.halt .stackUnderflow) f := by
    unfold Action.dup Stack.peek
    rw [dif_neg (Nat.not_lt.2 h)]
  have hexec : Action.exec cfg (.dup place) f = .error (.halt .stackUnderflow) f :=
    Action.bind_error hdup _
  unfold execute
  rw [hexec]

/-- A frame that has too few operands to exchange two of them does not look for them. -/
theorem fault_execute_swap [Backend σ] (cfg : Config) {f : Frame} {place : Nat} (e : Env σ)
    (h : f.stack.length ≤ place) :
    (f.execute cfg (.swap place) e).fault = some (.halt .stackUnderflow) := by
  have hswap : Action.swap place f = .error (.halt .stackUnderflow) f := by
    unfold Action.swap Stack.swap
    rw [dif_neg (Nat.not_lt.2 h)]
  have hexec : Action.exec cfg (.swap place) f = .error (.halt .stackUnderflow) f :=
    Action.bind_error hswap _
  unfold execute
  rw [hexec]

theorem staysInside_resume {f : Frame} {range : Range} (callee : Frame) (env : Env σ)
    (hf : f.pending = none) (hr : f.Covers range) : StaysInside (f.resume range callee env) :=
  staysInside_after _ (advanced_resume f range callee env) hf (Action.resume_within callee hr)

end Frame

/-- The call of the waiting frame has been taken up, and its output lies inside of the memory. -/
structure Suspended.InBounds (caller : Suspended) : Prop where
  pending : caller.frame.pending = none
  output : caller.frame.Covers caller.output

/-- The outputs of all calls lie inside of the memories of their callers. -/
structure Machine.InBounds {σ : Type} (m : Machine σ) : Prop where
  pending : ∀ call, m.frame.pending = some call → m.frame.Covers call.output
  callers : ∀ caller ∈ m.callers, caller.InBounds

/-- The step leads to a machine that is in bounds, or ends the run for another reason. -/
def Progress.InBounds {σ : Type} (p : Progress σ) : Prop :=
  p.Holds Machine.InBounds (·.1 ≠ .error .outOfBounds)

namespace Machine

variable {σ : Type}

theorem inBounds_start (cfg : Config) (message : Message) (env : Env σ) :
    (start cfg message env).InBounds :=
  ⟨nofun, fun _ hm => absurd hm List.not_mem_nil⟩

variable [Backend σ] {cfg : Config}

theorem inBounds_of_proceedsTo {callers : List Suspended} {x : Executed σ} {p : Progress σ}
    (hp : ProceedsTo callers x p) (hx : Frame.StaysInside x)
    (hc : ∀ caller ∈ callers, caller.InBounds) : p.InBounds := by
  cases hp with
  | onward => exact ⟨hx.pending, hc⟩
  | halted => exact ⟨hx.pending, hc⟩
  | refused => exact nofun
  | outside failed => exact absurd failed hx.fault

/-- A step stays in bounds. -/
theorem InBounds.step {m : Machine σ} (h : m.InBounds) : (m.step cfg).InBounds := by
  have hto := stepsTo_step cfg m
  generalize m.step cfg = p at hto
  cases hto with
  | @execute byte _ ready hp =>
    have hx := Frame.staysInside_execute cfg (.decode byte) m.env
      (Frame.lt_size_of_ready? ready).2
    exact inBounds_of_proceedsTo hp hx h.callers
  | @enter call pending =>
    -- from now on the frame waits, and its memory stays as it is
    refine ⟨nofun, fun caller hc => ?_⟩
    rcases List.mem_cons.1 hc with rfl | hc
    · exact ⟨rfl, h.pending call pending⟩
    · exact h.callers caller hc
  | @leave caller callers _ ended waits hp =>
    have hc := h.callers caller (waits ▸ List.mem_cons_self)
    have hx := Frame.staysInside_resume m.frame (m.env.settle m.frame) hc.pending hc.output
    refine inBounds_of_proceedsTo hp hx fun other ho => ?_
    exact h.callers other (waits ▸ List.mem_cons_of_mem _ ho)
  | finish => exact nofun

/-- A frame that goes on behind its call is at its message and has made no other call. -/
theorem InBounds.leave {m m' : Machine σ} (h : m.InBounds) {caller : Suspended}
    {callers : List Suspended} (waits : m.callers = caller :: callers)
    (hp : ProceedsTo callers
      (caller.frame.resume caller.output m.frame (m.env.settle m.frame)) (.running m')) :
    m'.callers = callers ∧ m'.frame.message = caller.frame.message ∧ m'.frame.pending = none := by
  have hnone := (h.callers caller (waits ▸ List.mem_cons_self)).pending
  obtain ⟨hmessage, hpending⟩ := (Frame.advanced_resume caller.frame caller.output m.frame
    (m.env.settle m.frame)).message_pending
  obtain ⟨hcallers, hplace, hkeeps⟩ := hp.place
  exact ⟨hcallers, hplace.trans hmessage, hkeeps.trans (hpending.trans hnone)⟩

/-- Every machine of a run is in bounds. -/
theorem Reaches.inBounds {message : Message} {env : Env σ} {m : Machine σ}
    (h : Reaches cfg (start cfg message env) m) : m.InBounds :=
  h.invariant (inBounds_start cfg message env) fun _ hm => hm.step

/-- What every step of a machine in bounds keeps, and what its last step makes of it, holds of the
result of a run. -/
theorem InBounds.run_of_invariant {I : Machine σ → Prop} {Q : Result σ → Prop} {m : Machine σ}
    (h : m.InBounds) (hm : I m)
    (hstep : ∀ m : Machine σ, m.InBounds → I m → (m.step cfg).Holds I Q) : Q (m.run cfg) := by
  refine Machine.run_of_invariant (I := fun m => m.InBounds ∧ I m) ⟨h, hm⟩ fun m hm => ?_
  have hin : (m.step cfg).InBounds := hm.1.step
  have hp := hstep m hm.1 hm.2
  cases hs : m.step cfg with
  | running m' =>
    rw [hs] at hin hp
    exact ⟨hin, hp⟩
  | finished f env =>
    rw [hs] at hp
    exact hp
  | aborted reason env =>
    rw [hs] at hp
    exact hp

theorem run_ne_outOfBounds {m : Machine σ} (h : m.InBounds) :
    (m.run cfg).1 ≠ .error .outOfBounds :=
  run_of_invariant h fun _ hm => hm.step

end Machine

namespace Message

variable {σ : Type} [Backend σ] {cfg : Config}

theorem execute_ne_outOfBounds (m : Message) (env : Env σ) :
    (m.execute cfg env).1 ≠ .error .outOfBounds := by
  have h : (Machine.start cfg m env).InBounds := Machine.inBounds_start cfg m env
  unfold execute
  exact Machine.run_ne_outOfBounds h

theorem close_ne_outOfBounds {r : Machine.Result σ} (h : r.1 ≠ .error .outOfBounds) :
    (close r).1 ≠ .error .outOfBounds := by
  unfold close
  split
  · exact nofun
  · exact nofun
  · exact absurd rfl h

theorem transact_ne_outOfBounds (m : Message) (env : Env σ) :
    (m.transact cfg env).1 ≠ .error .outOfBounds := by
  unfold transact
  split
  · exact nofun
  · exact close_ne_outOfBounds (execute_ne_outOfBounds m _)

end Message

end ContractVM
