import Mathlib.Data.List.Forall2
import ContractVM.Proofs.Frame.Recoded
import ContractVM.Proofs.Machine.Bounds

/-!
# Two runs side by side

Two runs of one message may find different environments, and code that goes on with zeros where the
other one ends.  Frames never see the difference, as long as both environments answer alike.

* `Frame.Recoded C f g` : the frame `g` is `f` with other code, related by `C`.
* `Env.Coupling C R` : environments related by `R` answer alike, and stay related.  `R n` may say
  something of the `n` transactions that the runs have opened: it need not outlast the end of any
  other.
* `Machine.Matches C R m m'` : the live frames match, and the environments are related.

Code that ends stops its frame, and so does a zero behind it, one step later.  So both runs do the
same until a frame of the first one ends; then the second one is at its end, too, or a step before
it (`Machine.run_of_ended`).  Main statement: `Env.Coupling.transact`.
-/

namespace ContractVM

/-- All code is related to itself, and to none but itself with zeros at its end. -/
structure Bytes.Lengthens (C : Bytes → Bytes → Prop) : Prop where
  refl : ∀ code, C code code
  zeros : ∀ {code code'}, C code code' → code.Extends code'

variable {σ τ : Type} {C : Bytes → Bytes → Prop}

/-! ### Related code -/

/-- The same message with related code. -/
def Message.Recoded (C : Bytes → Bytes → Prop) (m m' : Message) : Prop :=
  ∃ code, C m.code code ∧ m' = m.withCode code

/-- The same call of related code. -/
structure PendingCall.Recoded (C : Bytes → Bytes → Prop) (call call' : PendingCall) : Prop where
  message : call.message.Recoded C call'.message
  output : call'.output = call.output

/-- The same frame with related code. -/
def Frame.Recoded (C : Bytes → Bytes → Prop) (f g : Frame) : Prop :=
  ∃ code, C f.code code ∧ g = f.withCode code

/-- The same frame with related code, where also a call that it has made is of related code. -/
def Frame.Matches (C : Bytes → Bytes → Prop) (f g : Frame) : Prop :=
  ∃ code pending, C f.code code ∧ Option.Rel (PendingCall.Recoded C) f.pending pending ∧
    g = { f.withCode code with pending }

/-- The same frame with related code, which waits for the same. -/
structure Suspended.Recoded (C : Bytes → Bytes → Prop) (caller caller' : Suspended) : Prop where
  frame : caller.frame.Recoded C caller'.frame
  output : caller'.output = caller.output

/-- Both frames have come to the same end. -/
structure Frame.SameEnd (f g : Frame) : Prop where
  output : g.output = f.output
  stack : g.stack = f.stack
  halted : g.halted = f.halted

/-- The same has been executed by frames that match, in related environments. -/
structure Executed.Matches (C : Bytes → Bytes → Prop) (S : Env σ → Env τ → Prop) (x : Executed σ)
    (y : Executed τ) : Prop where
  frame : x.frame.Matches C y.frame
  fault : y.fault = x.fault
  env : S x.env y.env

namespace Frame

variable {f g : Frame} {code : Bytes}

theorem Recoded.matches (hC : Bytes.Lengthens C) (h : f.Recoded C g) : f.Matches C g := by
  obtain ⟨code, hcode, rfl⟩ := h
  refine ⟨code, f.pending, hcode, ?_, rfl⟩
  cases f.pending with
  | none => exact .none
  | some call => exact .some ⟨⟨call.message.code, hC.refl _, rfl⟩, rfl⟩

/-- A frame at the message of another one matches itself with code that is related to that one. -/
theorem matches_withCode (hC : Bytes.Lengthens C) (hmessage : g.message = f.message)
    (hcode : C f.code code) : g.Matches C (g.withCode code) := by
  refine Recoded.matches hC ⟨code, ?_, rfl⟩
  unfold Frame.code
  rw [hmessage]
  exact hcode

/-- Frames that have made no call differ in their code only. -/
theorem Matches.recoded (h : f.Matches C g) (hp : f.pending = none) : f.Recoded C g := by
  obtain ⟨code, pending, hcode, hpending, rfl⟩ := h
  rw [hp] at hpending
  cases hpending
  refine ⟨code, hcode, ?_⟩
  unfold withCode
  rw [hp]

theorem Matches.halt (h : f.Matches C g) (reason : Halt) :
    (f.halt reason).Matches C (g.halt reason) := by
  obtain ⟨code, pending, hcode, hpending, rfl⟩ := h
  exact ⟨code, pending, hcode, hpending, rfl⟩

theorem Matches.sameEnd (h : f.Matches C g) : f.SameEnd g := by
  obtain ⟨code, pending, -, -, rfl⟩ := h
  exact ⟨rfl, rfl, rfl⟩

/-- The next byte, in one formula with what lies past the end. -/
theorem ready?_eq (f : Frame) : f.ready? =
    if f.running ∧ f.pc < f.code.size ∧ f.pending.isNone then some (f.code.byteAt f.pc)
    else none := by
  unfold ready?
  by_cases h : f.running ∧ f.pc < f.code.size ∧ f.pending.isNone
  · rw [dif_pos h, if_pos h]
    exact congrArg some (dif_pos h.2.1).symm
  · rw [dif_neg h, if_neg h]

/-- Zeros at the end of the code leave the next byte as it is. -/
theorem ready?_withCode (h : f.code.Extends code) {byte : UInt8} (ready : f.ready? = some byte) :
    (f.withCode code).ready? = some byte := by
  obtain ⟨n, rfl⟩ := h
  rw [ready?_eq] at ready ⊢
  split at ready
  · rename_i hready
    have hready' : f.running ∧ f.pc < (f.code.appendZeros n).size ∧ f.pending.isNone := by
      rw [Bytes.size_appendZeros]
      exact ⟨hready.1, by omega, hready.2.2⟩
    refine (if_pos hready').trans ?_
    rw [← ready]
    exact congrArg some (Bytes.byteAt_appendZeros _ _ _)
  · cases ready

/-- Where the code has ended, zeros at its end are next. -/
theorem eq_zero_of_ready?_withCode (h : f.code.Extends code) (ended : f.Ended) {byte : UInt8}
    (ready : (f.withCode code).ready? = some byte) : byte = 0 := by
  obtain ⟨n, rfl⟩ := h
  have hended := ended.ready
  rw [ready?_eq] at ready hended
  split at ready
  · rename_i hready
    have hpast : f.code.size ≤ f.pc := by
      refine Nat.le_of_not_lt fun hlt => ?_
      rw [if_pos ⟨hready.1, hlt, hready.2.2⟩] at hended
      cases hended
    obtain rfl := Option.some.inj ready
    exact (Bytes.byteAt_appendZeros _ _ _).trans (Bytes.byteAt_of_size_le hpast)
  · cases ready

end Frame

/-! ### Environments that answer alike -/

/-- The same answer, up to related code. -/
inductive Query.SameAnswer (C : Bytes → Bytes → Prop) : (q : Query) →
    Except BackendError q.Answer → Except BackendError q.Answer → Prop
  | load (cell : Cell) (value : Word) : SameAnswer C (.load cell) (.ok value) (.ok value)
  | store (cell : Cell) (value : Word) : SameAnswer C (.store cell value) (.ok ()) (.ok ())
  | code (order : CallOrder) {code code' : Bytes} (h : C code code') :
    SameAnswer C (.code order) (.ok code) (.ok code')
  | refused (q : Query) (error : BackendError) : SameAnswer C q (.error error) (.error error)

variable [Backend σ] [Backend τ]

/-- Related environments answer alike, and stay related.  Of the transactions only those are closed
that are counted.  What is reported may differ. -/
structure Env.Coupling (C : Bytes → Bytes → Prop) (R : Nat → Env σ → Env τ → Prop) : Prop where
  report : ∀ {n e e'} (events events' : List Event), R n e e' →
    R n (e.report events) (e'.report events')
  answer : ∀ {n e e'} (q : Query), R n e e' →
    q.SameAnswer C (e.answer q).1 (e'.answer q).1 ∧ R n (e.answer q).2 (e'.answer q).2
  checkpoint : ∀ {n e e'}, R n e e' → R (n + 1) e.checkpoint e'.checkpoint
  commit : ∀ {n e e'}, R (n + 1) e e' → R n e.commit e'.commit
  rollback : ∀ {n e e'}, R (n + 1) e e' → R n e.rollback e'.rollback

namespace Env.Coupling

variable {R : Nat → Env σ → Env τ → Prop} {cfg : Config} {f g : Frame} {n : Nat} {e : Env σ}
  {e' : Env τ}

/-- One more transaction may be open all the while. -/
theorem shift (h : Coupling C R) : Coupling C fun n => R (n + 1) where
  report events events' he := h.report events events' he
  answer q he := h.answer q he
  checkpoint he := h.checkpoint he
  commit he := h.commit he
  rollback he := h.rollback he

theorem settle (h : Coupling C R) (hend : f.SameEnd g) (he : R (n + 1) e e') :
    R n (e.settle f) (e'.settle g) := by
  unfold Env.settle
  rw [hend.halted]
  split
  · exact h.commit he
  · exact h.rollback he

/-- All transactions that are counted are rolled back. -/
theorem unwind (h : Coupling C R) {callers callers' : List Suspended}
    (hlen : callers'.length = callers.length) (he : R callers.length e e') :
    R 0 (Machine.unwind e callers) (Machine.unwind e' callers') := by
  induction callers generalizing e e' callers' with
  | nil =>
    obtain rfl := List.eq_nil_of_length_eq_zero hlen
    exact he
  | cons caller callers ih =>
    cases callers' with
    | nil => cases hlen
    | cons caller' callers' =>
      have hrest : R 0 (Machine.unwind e.rollback callers) (Machine.unwind e'.rollback callers') :=
        ih (Nat.succ.inj hlen) (h.rollback he)
      exact hrest

end Env.Coupling

/-! ### Instructions -/

namespace Frame

variable {S : Env σ → Env τ → Prop} {cfg : Config} {f g : Frame} {code : Bytes} {e : Env σ}
  {e' : Env τ}

omit [Backend σ] [Backend τ] in
/-- What does not look at the code does the same on a frame with other code. -/
theorem matches_after {α : Type} {a : Action α} (hC : Bytes.Lengthens C) (ha : Action.Blind a)
    (hmessage : (after e (a g)).frame.message = f.message) (hcode : C f.code code) (he : S e e') :
    Executed.Matches C S (after e (a g)) (after e' (a (g.withCode code))) := by
  rw [ha.run g code]
  cases hr : a g with
  | ok x h =>
    rw [hr] at hmessage
    exact ⟨matches_withCode hC hmessage hcode, rfl, he⟩
  | error fault h =>
    rw [hr] at hmessage
    exact ⟨matches_withCode hC hmessage hcode, rfl, he⟩

end Frame

/-- An instruction stays at the message of its frame. -/
theorem Action.exec_message (cfg : Config) (i : Instruction) (f : Frame) :
    Ensures (exec cfg i) f (fun _ g => g.message = f.message) fun _ g => g.message = f.message := by
  have h := (exec_moves cfg i f).run
  refine ⟨?_⟩
  cases hi : exec cfg i f with
  | error fault g =>
    rw [hi] at h
    exact h.message
  | ok q g =>
    rw [hi] at h
    match q, h with
    | none, h => exact h.message
    | some (.load _), h => exact h.message
    | some (.store _ _), h => exact h.message
    | some (.code _), h => exact h.1.message

namespace Env.Coupling

variable {R : Nat → Env σ → Env τ → Prop} {cfg : Config} {f g : Frame} {n : Nat} {e : Env σ}
  {e' : Env τ}

/-- Instructions do the same on frames that differ in related code. -/
theorem frameExecute (h : Coupling C R) (hC : Bytes.Lengthens C) (hf : f.Recoded C g)
    (cfg : Config) (i : Instruction) (he : R n e e') :
    Executed.Matches C (R n) (f.execute cfg i e) (g.execute cfg i e') := by
  obtain ⟨code, hcode, rfl⟩ := hf
  have hmessage := (Action.exec_message cfg i f).run
  have hexec := Action.exec_withCode cfg i (hC.zeros hcode)
  unfold Frame.execute
  rw [hexec]
  cases hi : Action.exec cfg i f with
  | error fault k =>
    rw [hi] at hmessage
    exact ⟨Frame.matches_withCode hC hmessage hcode, rfl, he⟩
  | ok q k =>
    rw [hi] at hmessage
    cases q with
    | none => exact ⟨Frame.matches_withCode hC hmessage hcode, rfl, he⟩
    | some q =>
      obtain ⟨ha, hr⟩ := h.answer q he
      dsimp only [Action.recode]
      generalize e.answer q = x at ha hr ⊢
      generalize e'.answer q = y at ha hr ⊢
      obtain ⟨answer, e₁⟩ := x
      obtain ⟨answer', e₁'⟩ := y
      cases ha with
      | refused error => exact ⟨Frame.matches_withCode hC hmessage hcode, rfl, hr⟩
      | load cell value =>
        have hadvanced : Frame.Advanced k (Frame.after e₁ (Action.complete (.load cell) value k)) :=
          Frame.advanced_after (.refl k) (Action.advances_complete_load cell value k)
        exact Frame.matches_after hC (Action.blind_complete_load cell value)
          (hadvanced.message_pending.1.trans hmessage) hcode hr
      | store cell value =>
        exact Frame.matches_after hC (Action.blind_complete_store cell value) hmessage hcode hr
      | @code order callee callee' hcallee =>
        have hcode' : C k.code code := by
          unfold Frame.code
          rw [hmessage]
          exact hcode
        -- the message of the call does not depend on the code of its caller
        exact ⟨⟨code, some ⟨k.message.child order callee', order.output⟩, hcode',
          .some ⟨⟨callee', hcallee, rfl⟩, rfl⟩, rfl⟩, rfl, hr⟩

/-- A frame goes on in the same way behind calls that have come to the same end. -/
theorem frameResume (h : Coupling C R) (hC : Bytes.Lengthens C) (hf : f.Recoded C g)
    (range : Range) {callee callee' : Frame} (hend : callee.SameEnd callee') (he : R n e e') :
    Executed.Matches C (R n) (f.resume range callee e) (g.resume range callee' e') := by
  obtain ⟨code, hcode, rfl⟩ := hf
  have hsame : Action.resume range callee' = Action.resume range callee := by
    unfold Action.resume
    rw [hend.halted, hend.output]
  unfold Frame.resume
  rw [hsame]
  exact Frame.matches_after hC (Action.blind_resume range callee)
    (Frame.advanced_after (.refl f) (Action.advances_resume range callee f)).message_pending.1
    hcode (h.report _ _ he)

end Env.Coupling

/-! ### Steps -/

/-- The live frames match, and the environments are related, with one transaction for every frame
that waits. -/
structure Machine.Matches (C : Bytes → Bytes → Prop) (R : Nat → Env σ → Env τ → Prop)
    (m : Machine σ) (m' : Machine τ) : Prop where
  frame : m.frame.Matches C m'.frame
  callers : List.Forall₂ (Suspended.Recoded C) m.callers m'.callers
  env : R m.callers.length m.env m'.env

/-- Both steps lead to machines that match, or give up for the same reason, with no transaction left
open. -/
inductive Progress.Matches (C : Bytes → Bytes → Prop) (R : Nat → Env σ → Env τ → Prop) :
    Progress σ → Progress τ → Prop
  | running {m : Machine σ} {m' : Machine τ} (h : m.Matches C R m') :
    Matches C R (.running m) (.running m')
  | aborted (reason : Abort) {e : Env σ} {e' : Env τ} (h : reason ≠ .outOfBounds → R 0 e e') :
    Matches C R (.aborted reason e) (.aborted reason e')

/-- Both runs have the same outcome, with no transaction left open. -/
inductive Machine.SameOutcome (S : Env σ → Env τ → Prop) : Result σ → Result τ → Prop
  | ended {f g : Frame} (h : f.SameEnd g) {e : Env σ} {e' : Env τ} (he : S e e') :
    SameOutcome S (.ok f, e) (.ok g, e')
  | aborted (reason : Abort) {e : Env σ} {e' : Env τ} (h : reason ≠ .outOfBounds → S e e') :
    SameOutcome S (.error reason, e) (.error reason, e')

namespace Machine

/-- A frame that stands at a zero stops, and nothing else happens. -/
theorem step_of_zero (cfg : Config) {m : Machine σ} (h : m.frame.ready? = some 0) :
    m.step cfg = .running
      ⟨{ m.frame with running := false, pc := m.frame.pc + 1 }, m.callers, m.env⟩ := by
  rw [step_of_ready cfg m h]
  rfl

/-- Where a frame has ended, the one that goes on with zeros has ended as well, or stops in its next
step. -/
theorem run_of_ended (hC : Bytes.Lengthens C) (cfg : Config) {f : Frame} (ended : f.Ended)
    {m : Machine τ} (hf : f.Matches C m.frame) : ∃ g, g.Ended ∧ f.SameEnd g ∧
      m.run cfg = run cfg ⟨g, m.callers, m.env⟩ := by
  obtain ⟨code, hcode, hg⟩ := hf.recoded ended.pending
  have hpending : m.frame.pending = none := by
    rw [hg]
    exact ended.pending
  cases hr : m.frame.ready? with
  | none => exact ⟨m.frame, ⟨hr, hpending⟩, hf.sameEnd, rfl⟩
  | some byte =>
    have hbyte : (f.withCode code).ready? = some byte := hg ▸ hr
    obtain rfl := Frame.eq_zero_of_ready?_withCode (hC.zeros hcode) ended hbyte
    have hend := hf.sameEnd
    let stopped : Frame := { m.frame with running := false, pc := m.frame.pc + 1 }
    have hstopped : stopped.ready? = none := by
      refine dif_neg ?_
      rintro ⟨hrunning, -⟩
      cases hrunning
    exact ⟨stopped, ⟨hstopped, hpending⟩, ⟨hend.output, hend.stack, hend.halted⟩,
      run_of_running (step_of_zero cfg hr)⟩

end Machine

namespace Env.Coupling

variable {R : Nat → Env σ → Env τ → Prop} {cfg : Config}

/-- Frames that have done the same go on, or halt, or end the run together. -/
theorem proceed (h : Coupling C R) {callers callers' : List Suspended}
    (hcallers : List.Forall₂ (Suspended.Recoded C) callers callers') {x : Executed σ}
    {y : Executed τ} (hx : Executed.Matches C (R callers.length) x y) :
    Progress.Matches C R (Machine.proceed callers x) (Machine.proceed callers' y) := by
  obtain ⟨f, e, fault⟩ := x
  obtain ⟨g, e', fault'⟩ := y
  obtain ⟨hframe, hfault, henv⟩ := hx
  obtain rfl : fault' = fault := hfault
  rcases fault' with _ | reason | _
  · exact .running ⟨hframe, hcallers, henv⟩
  · cases reason with
    | backend error => exact .aborted _ fun _ => h.unwind hcallers.length_eq.symm henv
    | _ => exact .running ⟨hframe.halt _, hcallers, h.report _ _ henv⟩
  · exact .aborted _ fun hne => absurd rfl hne

/-- As long as the frame of the first machine has not ended, the machines step together. -/
theorem step (h : Coupling C R) (hC : Bytes.Lengthens C) {m : Machine σ} {m' : Machine τ}
    (hm : m.Matches C R m') (hlive : ¬m.frame.Ended) :
    Progress.Matches C R (m.step cfg) (m'.step cfg) := by
  cases hr : m.frame.ready? with
  | some byte =>
    have hf := hm.frame.recoded (Frame.lt_size_of_ready? hr).2
    have hr' : m'.frame.ready? = some byte := by
      obtain ⟨code, hcode, hg⟩ := hf
      rw [hg]
      exact Frame.ready?_withCode (hC.zeros hcode) hr
    rw [Machine.step_of_ready cfg m hr, Machine.step_of_ready cfg m' hr']
    exact h.proceed hm.callers (h.frameExecute hC hf cfg _ hm.env)
  | none =>
    cases hp : m.frame.pending with
    | none => exact absurd ⟨hr, hp⟩ hlive
    | some call =>
      obtain ⟨code, pending, hcode, hpending, hg⟩ := hm.frame
      rw [hp] at hpending
      cases hpending with
      | @some _ call' hcall =>
        have hp' : m'.frame.pending = some call' := by rw [hg]
        rw [Machine.step_of_pending cfg m hp, Machine.step_of_pending cfg m' hp']
        refine .running ⟨?_, .cons ⟨⟨code, hcode, ?_⟩, hcall.output⟩ hm.callers,
          h.checkpoint hm.env⟩
        · obtain ⟨callee, hcallee, hmessage⟩ := hcall.message
          refine Frame.Recoded.matches hC ⟨callee, hcallee, ?_⟩
          unfold Machine.enter
          rw [hmessage, hg]
          rfl
        · rw [hg]
          rfl

/-- Machines that match come to the same outcome. -/
theorem run (h : Coupling C R) (hC : Bytes.Lengthens C) {m : Machine σ} {m' : Machine τ}
    (hm : m.Matches C R m') : Machine.SameOutcome (R 0) (m.run cfg) (m'.run cfg) := by
  -- along the first run; the second one takes one step more where zeros follow the code
  induction m using (Machine.wellFounded_follows (σ := σ) cfg).induction generalizing m' with
  | _ m ih =>
    have hnext {m' : Machine τ} (hs : Progress.Matches C R (m.step cfg) (m'.step cfg)) :
        Machine.SameOutcome (R 0) (m.run cfg) (m'.run cfg) := by
      generalize hx : m.step cfg = x at hs
      generalize hy : m'.step cfg = y at hs
      cases hs with
      | running hm =>
        rw [Machine.run_of_running hx, Machine.run_of_running hy]
        exact ih _ hx hm
      | aborted reason he =>
        rw [Machine.run_of_aborted hx, Machine.run_of_aborted hy]
        exact .aborted reason he
    by_cases hlive : m.frame.Ended
    · obtain ⟨g, hended, hend, hrun⟩ := Machine.run_of_ended hC cfg hlive hm.frame
      obtain ⟨f, callers, e⟩ := m
      obtain ⟨-, hcallers, henv⟩ := hm
      rw [hrun]
      generalize m'.callers = callers' at hcallers ⊢
      cases hcallers with
      | nil =>
        rw [Machine.run_of_finished (Machine.step_of_ended_nil cfg f e hlive.ready hlive.pending),
          Machine.run_of_finished
            (Machine.step_of_ended_nil cfg g m'.env hended.ready hended.pending)]
        exact .ended hend henv
      | @cons caller caller' callers callers' hcaller hcallers =>
        refine hnext ?_
        rw [Machine.step_of_ended_cons cfg f caller callers e hlive.ready hlive.pending,
          Machine.step_of_ended_cons cfg g caller' callers' m'.env hended.ready hended.pending,
          hcaller.output]
        exact h.proceed hcallers (h.frameResume hC hcaller.frame _ hend (h.settle hend henv))
    · exact hnext (h.step hC hm hlive)

/-! ### Messages -/

variable {message message' : Message} {e : Env σ} {e' : Env τ}

theorem execute (h : Coupling C R) (hC : Bytes.Lengthens C) (hm : message.Recoded C message')
    (he : R 0 e e') :
    Machine.SameOutcome (R 0) (message.execute cfg e) (message'.execute cfg e') := by
  obtain ⟨code, hcode, rfl⟩ := hm
  unfold Message.execute
  exact h.run hC ⟨Frame.Recoded.matches hC ⟨code, hcode, rfl⟩, .nil, he⟩

/-- **Related code comes to the same outcome in related environments.** -/
theorem transact (h : Coupling C R) (hC : Bytes.Lengthens C) (hm : message.Recoded C message')
    (he : R 0 e e') :
    Machine.SameOutcome (R 0) (message.transact cfg e) (message'.transact cfg e') := by
  have hdepth : message'.depth = message.depth := by
    obtain ⟨code, -, rfl⟩ := hm
    rfl
  unfold Message.transact
  rw [hdepth]
  split
  · refine .ended ?_ he
    exact ⟨rfl, rfl, rfl⟩
  · have hr : Machine.SameOutcome (R 1) (message.execute cfg e.checkpoint)
        (message'.execute cfg e'.checkpoint) := h.shift.execute hC hm (h.checkpoint he)
    generalize message.execute cfg e.checkpoint = r at hr
    generalize message'.execute cfg e'.checkpoint = r' at hr
    cases hr with
    | ended hend he => exact .ended hend (h.settle hend he)
    | aborted reason he =>
      cases reason with
      | backend error => exact .aborted _ fun hne => h.rollback (he hne)
      | outOfBounds => exact .aborted _ fun hne => absurd rfl hne

end Env.Coupling

omit [Backend σ] [Backend τ] in
theorem Machine.SameOutcome.env {S : Env σ → Env τ → Prop} {r : Result σ} {r' : Result τ}
    (h : SameOutcome S r r') (hne : r.1 ≠ .error .outOfBounds) : S r.2 r'.2 := by
  cases h with
  | ended _ he => exact he
  | aborted reason he => exact he fun heq => hne (congrArg Except.error heq)

omit [Backend σ] [Backend τ] in
/-- Runs with the same outcome end their top-level calls with the same result. -/
theorem Machine.SameOutcome.closeCall {S : Env σ → Env τ → Prop} {r : Result σ} {r' : Result τ}
    (h : SameOutcome S r r') : (Message.closeCall r').1 = (Message.closeCall r).1 := by
  cases h with
  | @ended f g hend e e' =>
    change Except.ok (⟨g.output, g.stack, g.halted⟩ : CallResult) =
      .ok ⟨f.output, f.stack, f.halted⟩
    rw [hend.output, hend.stack, hend.halted]
  | aborted reason => cases reason <;> rfl

end ContractVM
