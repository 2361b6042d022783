import ContractVM.Proofs.Machine.Endings
import ContractVM.Proofs.Machine.Transactions

/-!
# A failing backend ends the run

A backend may fail to answer.  Then the run is over at once, whatever frame has asked and however
many wait, and its outcome is the error of the backend; only transactions are rolled back
afterwards.  An error that halts a frame never is the outcome of a run, and no run fails by itself.

* `AllAnswered calls` : the backend has answered all calls.
* `FailsWith error calls` : it has answered all calls but one, which it gave this error, and after
  that it was only told to roll back.
* `Tells outcome calls` : the outcome of a run says which of the two it was.

`Message.call_tells_failures` is the statement about top-level calls.
-/

namespace ContractVM

/-! ### Calls and outcomes -/

/-- The backend has given no error. -/
def AllAnswered (calls : List Call) : Prop := ∀ call ∈ calls, call.error? = none

/-- The backend has given one error, and was only told to roll back afterwards. -/
def FailsWith (error : BackendError) (calls : List Call) : Prop :=
  ∃ answered failing n, calls = answered ++ failing :: List.replicate n .rollback ∧
    AllAnswered answered ∧ failing.error? = some error

/-- The outcome of a run says whether the backend has failed. -/
def Tells {α : Type} (outcome : Except Abort α) (calls : List Call) : Prop :=
  match outcome with
  | .ok _ => AllAnswered calls
  | .error (.backend error) => FailsWith error calls
  | .error .outOfBounds => False

theorem allAnswered_nil : AllAnswered [] := nofun

/-- The end of a transaction is not refused. -/
theorem error?_closing (outcome : Except Abort Frame) : (closing outcome).error? = none := by
  unfold closing
  split
  · split <;> rfl
  · rfl

namespace AllAnswered

variable {calls calls' : List Call} {call : Call}

theorem append (h : AllAnswered calls) (h' : AllAnswered calls') : AllAnswered (calls ++ calls') := by
  intro call hc
  rcases List.mem_append.1 hc with hc | hc
  · exact h call hc
  · exact h' call hc

theorem snoc (h : AllAnswered calls) (hc : call.error? = none) : AllAnswered (calls ++ [call]) := by
  refine h.append fun other ho => ?_
  rw [List.mem_singleton.1 ho]
  exact hc

end AllAnswered

namespace FailsWith

variable {error error' : BackendError} {calls : List Call}

/-- The error stays the last one while transactions are rolled back. -/
theorem rollback (h : FailsWith error calls) : FailsWith error (calls ++ [.rollback]) := by
  obtain ⟨answered, failing, n, rfl, hanswered, hfailing⟩ := h
  refine ⟨answered, failing, n + 1, ?_, hanswered, hfailing⟩
  rw [List.append_assoc, List.cons_append, ← List.replicate_succ']

end FailsWith

namespace Tells

variable {α : Type} {outcome : Except Abort α} {calls : List Call}

end Tells

/-! ### Frames -/

/-- What was executed asked the backend at most once, and says whether it got an answer. -/
structure Executed.Tells {σ : Type} (e : Env (Logged σ)) (x : Executed (Logged σ)) : Prop where
  failed : ∀ error, x.fault = some (.halt (.backend error)) →
    ∃ failing, x.env.calls = e.calls ++ [failing] ∧ failing.error? = some error
  answered : (∀ error, x.fault ≠ some (.halt (.backend error))) →
    ∃ asked, x.env.calls = e.calls ++ asked ∧ AllAnswered asked

namespace Frame

variable {σ : Type}

/-- What does not fail by the backend has only to say what was asked. -/
theorem tells_of_own {e : Env (Logged σ)} {x : Executed (Logged σ)}
    (own : ∀ error, x.fault ≠ some (.halt (.backend error))) {asked : List Call}
    (hcalls : x.env.calls = e.calls ++ asked) (hasked : AllAnswered asked) : x.Tells e :=
  ⟨fun error hf => absurd hf (own error), fun _ => ⟨asked, hcalls, hasked⟩⟩

/-- A fault of a quiet action is none of the backend. -/
theorem own_of_plain {x : Executed σ} (h : ∀ fault, x.fault = some fault → fault.Plain)
    (error : BackendError) : x.fault ≠ some (.halt (.backend error)) :=
  fun hf => (h _ hf).elim

/-- What goes on after a call asks nothing. -/
theorem tells_resume (f : Frame) (range : Range) (callee : Frame) (e : Env (Logged σ)) :
    (f.resume range callee e).Tells e := by
  have hplain := (f.quiet_resume range callee e).2
  refine tells_of_own (own_of_plain hplain) ?_ allAnswered_nil
  unfold resume
  rw [env_after, List.append_nil]
  rfl

variable [Backend σ]

theorem tells_execute (cfg : Config) (f : Frame) (i : Instruction) (e : Env (Logged σ)) :
    (f.execute cfg i e).Tells e := by
  have hi := (Action.exec_continues cfg i f).run
  have hx := executesTo_execute cfg f i e
  generalize f.execute cfg i e = x at hx
  have hnothing : e.calls = e.calls ++ [] := (List.append_nil _).symm
  cases hx with
  | fails h =>
    rw [h] at hi
    refine tells_of_own (fun error hf => ?_) hnothing allAnswered_nil
    exact hi.2.1 error (Option.some.inj hf)
  | alone => exact tells_of_own nofun hnothing allAnswered_nil
  | @answered q g answer h ha =>
    have hplain := (quiet_after (Action.quiet_complete q answer) g (e.answer q).2).2
    obtain ⟨hsame, -⟩ | hcall := e.calls_answer_eq q
    · refine tells_of_own (own_of_plain hplain) ?_ allAnswered_nil
      rw [env_after, hsame]
      exact hnothing
    · refine tells_of_own (own_of_plain hplain) ?_
        (allAnswered_nil.snoc (q.error?_call_ok answer))
      rw [env_after, hcall, ha]
      rfl
  | @refused q g error h ha =>
    refine ⟨fun error' hf => ?_, fun own => absurd rfl (own error)⟩
    obtain rfl : error = error' := by
      cases hf
      rfl
    obtain ⟨-, answer, hok⟩ | hcall := e.calls_answer_eq q
    · rw [ha] at hok
      cases hok
    · rw [ha] at hcall
      exact ⟨_, hcall, q.error?_call_error error⟩

end Frame

/-! ### Machines -/

namespace Machine

variable {σ : Type} [Backend σ] {cfg : Config}

/-- The backend has given no error so far. -/
def Answered (m : Machine (Logged σ)) : Prop := AllAnswered m.env.calls

/-- The outcome of the run says whether the backend has failed. -/
def Result.Tells (r : Result (Logged σ)) : Prop := ContractVM.Tells r.1 r.2.calls

/-- If what was executed got no answer, the run ends with the error of the backend. -/
theorem tells_of_proceedsTo {callers : List Suspended} {e : Env (Logged σ)}
    {x : Executed (Logged σ)} {p : Progress (Logged σ)} (hp : ProceedsTo callers x p)
    (hx : x.Tells e) (he : AllAnswered e.calls) (hin : p.InBounds) :
    p.Holds Answered Result.Tells := by
  cases hp with
  | onward ok =>
    obtain ⟨asked, hcalls, hasked⟩ := hx.answered (by rw [ok]; exact nofun)
    change AllAnswered x.env.calls
    rw [hcalls]
    exact he.append hasked
  | halted failed own =>
    obtain ⟨asked, hcalls, hasked⟩ := hx.answered fun error hf => by
      rw [failed] at hf
      exact own error (Fault.halt.inj (Option.some.inj hf))
    change AllAnswered x.env.calls
    rw [hcalls]
    exact he.append hasked
  | @refused error failed =>
    obtain ⟨failing, hcalls, hfailing⟩ := hx.failed error failed
    refine ⟨e.calls, failing, callers.length, ?_, he, hfailing⟩
    rw [Env.calls_unwind, hcalls, List.append_assoc]
    rfl
  | outside => exact absurd rfl hin

/-- A step keeps it so, or ends the run with an outcome that tells. -/
theorem Answered.step {m : Machine (Logged σ)} (h : m.Answered) (hm : m.InBounds) :
    (m.step cfg).Holds Answered Result.Tells := by
  have hin : (m.step cfg).InBounds := hm.step
  have hto := stepsTo_step cfg m
  generalize m.step cfg = p at hto hin
  cases hto with
  | execute ready hp => exact tells_of_proceedsTo hp (Frame.tells_execute cfg _ _ _) h hin
  | enter =>
    change AllAnswered m.env.checkpoint.calls
    rw [Env.calls_checkpoint]
    exact AllAnswered.snoc h rfl
  | @leave caller callers _ ended waits hp =>
    have hsettled : AllAnswered (m.env.settle m.frame).calls := by
      rw [Env.calls_settle]
      exact AllAnswered.snoc h (error?_closing _)
    exact tells_of_proceedsTo hp (Frame.tells_resume _ _ _ _) hsettled hin
  | finish => exact h

end Machine

namespace Message

variable {σ : Type}

variable [Backend σ] {cfg : Config}

theorem tells_execute (m : Message) {e : Env (Logged σ)} (he : AllAnswered e.calls) :
    Machine.Result.Tells (m.execute cfg e) := by
  have hstart : (Machine.start cfg m e).Answered := he
  exact (Machine.inBounds_start cfg m e).run_of_invariant hstart fun _ hin h => h.step hin

end Message

end ContractVM
