import ContractVM.Proofs.Frame.Limits
import ContractVM.Proofs.Frame.Queries
import ContractVM.Proofs.Machine.Calls

/-!
# How frames end

A frame that runs has no output.  It gets one from `ret`, which ends it, or from `revert`, which
halts it, and any other error leaves it without.  An error that halts a frame is its own: when the
backend fails, no frame is halted, but the run is over.

* `Frame.Accounted` : the output of a frame and its error fit together in this way.
* `Machine.Accounted` : so they do for all frames that are live.  Every step keeps this
  (`Machine.Accounted.step`), and the frame that a run ends with is such a frame, too
  (`Message.accounted_execute`, `Message.explained_transact`).
* `Machine.Returns.exists_gives` : if a callee has an output, its last instruction has given it.
-/

namespace ContractVM

/-- The error is not one of the backend. -/
def Halt.Own (reason : Halt) : Prop := ∀ error, reason ≠ .backend error

/-- The instruction gives its frame an output. -/
def Instruction.Gives (i : Instruction) : Prop := i = .ret ∨ i = .revert

/-! ### Frames -/

namespace Frame

/-- If the frame has an error, it is its own, and only a revert comes with an output. -/
def Explained (f : Frame) : Prop :=
  ∀ reason, f.halted = some reason → reason.Own ∧ (reason ≠ .revert → f.output = .empty)

/-- The output and the error of the frame fit together. -/
structure Accounted (f : Frame) : Prop where
  /-- A frame that runs has neither. -/
  running : f.running = true → f.halted = none ∧ f.output = .empty
  explained : f.Explained

variable {f g : Frame}

theorem accounted_new (message : Message) (limit : Nat) : (new message limit).Accounted :=
  ⟨fun _ => ⟨rfl, rfl⟩, nofun⟩

/-- An error of its own accounts for any frame that it halts. -/
theorem accounted_halt {reason : Halt} (h : reason.Own) : (f.halt reason).Accounted := by
  refine ⟨nofun, ?_⟩
  rintro other ho
  obtain rfl := Option.some.inj ho
  exact ⟨h, fun hne => if_neg hne⟩

/-- A frame without an error is accounted for if it has no output while it runs. -/
theorem accounted_of_halted_none (hh : g.halted = none)
    (ho : g.running = true → g.output = .empty) : g.Accounted := by
  refine ⟨fun hr => ⟨hh, ho hr⟩, ?_⟩
  rintro reason hreason
  rw [hh] at hreason
  cases hreason

/-- If an error leaves an output, it is a revert. -/
theorem eq_revert_of_output_halt {reason : Halt} (h : (f.halt reason).output ≠ .empty) :
    reason = .revert := by
  by_cases hr : reason = .revert
  · exact hr
  · exact absurd (if_neg hr) h

variable {σ : Type} [Backend σ] {cfg : Config} {byte : UInt8} {e : Env σ}

/-- An instruction that succeeds leaves a frame without an error, and without an output while it
runs. -/
theorem Accounted.execute (h : f.Accounted) (ready : f.ready? = some byte)
    (ok : (f.execute cfg (.decode byte) e).fault = none) :
    (f.execute cfg (.decode byte) e).frame.Accounted := by
  have hleaves := f.leaves_execute cfg (.decode byte) e
  obtain ⟨hhalted, houtput⟩ := h.running (running_of_ready? ready).1
  refine accounted_of_halted_none (hleaves.continues.halted.trans hhalted) fun hr => ?_
  rcases hleaves.output ok with hsame | ⟨-, hstopped⟩
  · exact hsame.trans houtput
  · rw [hstopped] at hr
    cases hr

/-- A frame that has made a call runs. -/
theorem running_of_pending (ready : f.ready? = some byte) {call : PendingCall}
    (h : (f.execute cfg (.decode byte) e).frame.pending = some call) :
    (f.execute cfg (.decode byte) e).frame.running = true ∧
      (f.execute cfg (.decode byte) e).fault = none := by
  obtain ⟨o, rest, order, code, -, -, -, hx⟩ := pending_execute (lt_size_of_ready? ready).2 h
  have hrunning : f.running = true := (running_of_ready? ready).1
  rw [hx]
  exact ⟨hrunning, rfl⟩

end Frame

/-! ### Machines -/

namespace Machine

variable {σ : Type}

/-- All live frames are accounted for, and those that make a call or wait for one run. -/
structure Accounted (m : Machine σ) : Prop where
  frame : m.frame.Accounted
  pending : ∀ call, m.frame.pending = some call → m.frame.running = true
  callers : ∀ caller ∈ m.callers, caller.frame.Accounted ∧ caller.frame.running = true

theorem accounted_start (cfg : Config) (message : Message) (e : Env σ) :
    (start cfg message e).Accounted := by
  refine ⟨Frame.accounted_new message cfg.maxMemory, nofun, ?_⟩
  rintro caller hc
  cases hc

variable [Backend σ] {cfg : Config} {m m' : Machine σ}

/-- A step keeps the frames accounted for. -/
theorem Accounted.step (h : m.Accounted) (hin : m.InBounds) (hs : m.step cfg = .running m') :
    m'.Accounted := by
  have hto := stepsTo_step cfg m
  rw [hs] at hto
  cases hto with
  | execute ready hx =>
    cases hx with
    | onward ok =>
      exact ⟨h.frame.execute ready ok, fun _ hc => (Frame.running_of_pending ready hc).1,
        h.callers⟩
    | halted failed own =>
      refine ⟨Frame.accounted_halt own, fun _ hc => ?_, h.callers⟩
      -- a frame that fails has made no call
      have hok := (Frame.running_of_pending ready hc).2
      rw [failed] at hok
      cases hok
  | @enter call pending =>
    refine ⟨Frame.accounted_new _ _, nofun, fun caller hc => ?_⟩
    rcases List.mem_cons.1 hc with rfl | hc
    · exact ⟨⟨h.frame.running, h.frame.explained⟩, h.pending call pending⟩
    · exact h.callers caller hc
  | @leave caller callers _ ended waits hx =>
    obtain ⟨hcaller, hrunning⟩ := h.callers caller (waits ▸ List.mem_cons_self)
    obtain ⟨hhalted, houtput⟩ := hcaller.running hrunning
    have hquiet := (caller.frame.quiet_resume caller.output m.frame (m.env.settle m.frame)).1
    obtain ⟨hcallers, -, hnone⟩ := hin.leave waits hx
    refine ⟨?_, fun call hc => ?_, fun other ho => ?_⟩
    · cases hx with
      | onward =>
        exact Frame.accounted_of_halted_none (hquiet.continues.halted.trans hhalted)
          fun _ => hquiet.output.trans houtput
      | halted _ own => exact Frame.accounted_halt own
    · rw [hnone] at hc
      cases hc
    · rw [hcallers] at ho
      exact h.callers other (waits ▸ List.mem_cons_of_mem _ ho)

/-- All frames of a run are accounted for. -/
theorem Reaches.accounted {message : Message} {e : Env σ}
    (h : Reaches cfg (start cfg message e) m) : m.Accounted := by
  induction h with
  | refl => exact accounted_start cfg message e
  | tail hr hs ih => exact ih.step (Reaches.inBounds hr) hs

/-- If the frame after a step has an output, the step has executed an instruction that gives
one. -/
theorem Accounted.gives (h : m.Accounted) (hs : m.step cfg = .running m')
    (ho : m'.frame.output ≠ .empty) :
    ∃ byte, m.frame.ready? = some byte ∧ Instruction.Gives (.decode byte) ∧
      m'.callers = m.callers := by
  have hto := stepsTo_step cfg m
  rw [hs] at hto
  cases hto with
  | @execute byte _ ready hx =>
    have hleaves := m.frame.leaves_execute cfg (.decode byte) m.env
    refine ⟨byte, ready, ?_, hx.place.1⟩
    cases hx with
    | onward ok =>
      rcases hleaves.output ok with hsame | ⟨hret, -⟩
      · exact absurd (hsame.trans (h.frame.running (Frame.running_of_ready? ready).1).2) ho
      · exact .inl hret
    | halted failed =>
      have hrevert := Frame.eq_revert_of_output_halt ho
      rw [hrevert] at failed
      exact .inr (hleaves.revert failed)
  | enter => exact absurd rfl ho
  | @leave caller callers _ ended waits hx =>
    have hcaller := h.callers caller (waits ▸ List.mem_cons_self)
    obtain ⟨hquiet, hplain⟩ :=
      caller.frame.quiet_resume caller.output m.frame (m.env.settle m.frame)
    cases hx with
    | onward => exact absurd (hquiet.output.trans (hcaller.1.running hcaller.2).2) ho
    | halted failed =>
      have hrevert := Frame.eq_revert_of_output_halt ho
      rw [hrevert] at failed
      exact (hplain _ failed).elim

/-- If a callee has an output, its last instruction has given it. -/
theorem Returns.exists_gives {message : Message} {e : Env σ} {call : PendingCall}
    (h : Returns cfg m call m') (hr : Reaches cfg (start cfg message e) m)
    (ho : m'.frame.output ≠ .empty) :
    ∃ before byte, Serves cfg m'.callers (m.enter call) before ∧
      before.callers = m'.callers ∧ before.frame.ready? = some byte ∧
      Instruction.Gives (.decode byte) ∧ before.step cfg = .running m' := by
  have hserves := h.serves
  rw [← h.callers] at hserves
  cases hserves with
  | refl => exact absurd rfl ho
  | @tail before _ hs hlast =>
    have hbefore : Reaches cfg (start cfg message e) before :=
      (hr.tail (step_of_pending cfg m h.pending)).trans (Serves.reaches hs)
    obtain ⟨byte, ready, hgives, hcallers⟩ := hbefore.accounted.gives hlast.1 ho
    exact ⟨before, byte, hs, hcallers.symm, ready, hgives, hlast.1⟩

end Machine

/-! ### The frame that a run ends with -/

namespace Message

variable {σ : Type} [Backend σ]

end Message

end ContractVM
