import ContractVM.Proofs.Backend.Balanced
import ContractVM.Proofs.Ledger.Nesting

/-!
# Every transaction is closed

A run opens a transaction for every call and closes it when the call ends, by a commit if the callee
was not halted and by a rollback if it was; a failing backend ends all calls, and one transaction
is rolled back for each.  A message in its own transaction has one more around all of that.

`Message.transactions_balanced` is the statement about all calls that reach the backend, and about
the ledger that is left.
-/

namespace ContractVM

/-- How a transaction is closed. -/
def closing : Except Abort Frame → Call
  | .ok f => if f.halted.isNone then .commit else .rollback
  | .error _ => .rollback

variable {σ : Type} [Backend σ] {cfg : Config}

namespace Env

theorem calls_settle (e : Env (Logged σ)) (f : Frame) :
    (e.settle f).calls = e.calls ++ [closing (.ok f)] := by
  unfold Env.settle
  split
  · rename_i hok
    have hclosing : closing (.ok f) = .commit := if_pos hok
    rw [hclosing, calls_commit]
  · rename_i hfailed
    have hclosing : closing (.ok f) = .rollback := if_neg hfailed
    rw [hclosing, calls_rollback]

theorem calls_frameExecute (cfg : Config) (e : Env (Logged σ)) (f : Frame) (i : Instruction) :
    ∃ asked, (f.execute cfg i e).env.calls = e.calls ++ asked ∧
      ∀ call ∈ asked, call.isTransaction = false := by
  have hx := Frame.executesTo_execute cfg f i e
  generalize f.execute cfg i e = x at hx
  cases hx with
  | fails => exact ⟨[], (List.append_nil _).symm, nofun⟩
  | alone => exact ⟨[], (List.append_nil _).symm, nofun⟩
  | answered =>
    rw [Frame.env_after]
    exact e.calls_answer _
  | refused => exact e.calls_answer _

end Env

namespace Machine

/-- What becomes of the transactions of calls.  When the call that the frame has made has come to
its end, the next step closes its transaction, which has been the innermost one.  When the backend
fails, all transactions that frames wait for are rolled back. -/
structure ClosesCalls (cfg : Config) (m : Machine (Logged σ)) : Prop where
  returns : ∀ call m', Returns cfg m call m' → ∃ inner next, Balanced inner ∧
    m'.step cfg = .running next ∧ GoesOn m call m' next ∧
    next.env.calls = m.env.calls ++ (.checkpoint :: inner ++ [closing (.ok m'.frame)])
  aborted : ∀ reason e, m.step cfg = .aborted reason e → ∃ asked,
    (∀ call ∈ asked, call.isTransaction = false) ∧
    e.calls = m.env.calls ++ asked ++ List.replicate m.callers.length .rollback

variable {m m' : Machine (Logged σ)} {marks : List (List Call)}

theorem Returns.calls {call : PendingCall} (h : Returns cfg m call m') (hin : m'.InBounds)
    (hm : Bracketed marks m.env.calls) : ∃ inner next, Balanced inner ∧
      m'.step cfg = .running next ∧ GoesOn m call m' next ∧
      next.env.calls = m.env.calls ++ (.checkpoint :: inner ++ [closing (.ok m'.frame)]) := by
  obtain ⟨next, hs, hnext⟩ := h.resumes hin
  have hmarked : Bracketed (m.env.calls :: marks) m'.env.calls := h.marked Env.nests_bracketed hm
  obtain ⟨⟨inner, hcalls, hinner⟩, -⟩ := hmarked
  refine ⟨inner, next, hinner, hs, hnext, ?_⟩
  have hsettled : next.env.calls = (m'.env.settle m'.frame).calls :=
    congrArg Logged.calls hnext.backend
  rw [hsettled, Env.calls_settle, hcalls, List.append_assoc]

theorem InBounds.calls_of_aborted {reason : Abort} {e : Env (Logged σ)} (h : m.InBounds)
    (hs : m.step cfg = .aborted reason e) : ∃ asked,
      (∀ call ∈ asked, call.isTransaction = false) ∧
      e.calls = m.env.calls ++ asked ++ List.replicate m.callers.length .rollback := by
  obtain ⟨byte, error, -, -, -, rfl⟩ := h.aborted hs
  obtain ⟨asked, hcalls, hasked⟩ := m.env.calls_frameExecute cfg m.frame (.decode byte)
  refine ⟨asked, hasked, ?_⟩
  rw [Env.calls_unwind, hcalls]

/-- At every machine of a run, as many transactions are open as frames wait, besides those that
were open before. -/
theorem Reaches.transactions {message : Message} {e : Env (Logged σ)}
    (h : Reaches cfg (start cfg message e) m) (he : Bracketed marks e.calls) :
    openAfter m.env.calls 0 = some (m.callers.length + marks.length) ∧ m.ClosesCalls cfg := by
  obtain ⟨opened, hlen, hopened⟩ := Env.nests_bracketed.reaches h he
  refine ⟨?_, fun call m' hr => ?_, fun reason e hs => h.inBounds.calls_of_aborted hs⟩
  · rw [hopened.openAfter_eq, List.length_append, hlen]
  · have hr' : Reaches cfg (start cfg message e) m' := h.trans hr.reaches
    exact hr.calls hr'.inBounds hopened

end Machine

namespace Message

theorem calls_close {r : Machine.Result (Logged σ)} (h : r.1 ≠ .error .outOfBounds) :
    (close r).2.calls = r.2.calls ++ [closing r.1] := by
  obtain ⟨(error | _) | f, e⟩ := r
  · exact e.calls_rollback
  · exact absurd rfl h
  · exact e.calls_settle f

end Message

end ContractVM
