import ContractVM.Backend.Logged
import ContractVM.Machine.Basic
import ContractVM.Proofs.SlotCache.Lookup

/-!
# The calls that reach a backend

`Env.calls` are the calls that have reached a backend that writes them down.  Opening and closing
a transaction is one call each.  A query is answered from the cache without any call, or by the one
call for it (`Env.calls_answer_eq`).
-/

namespace ContractVM

namespace Call

/-- Whether the call is to set a value. -/
def isStore : Call → Bool
  | .store _ _ _ => true
  | _ => false

/-- The error that the backend gave, if it did not answer. -/
def error? : Call → Option BackendError
  | .load _ (.error error) | .store _ _ (.error error) | .code _ (.error error) => some error
  | _ => none

end Call

namespace Query

/-- The call to the backend for a query, with the answer that it got. -/
def call : (q : Query) → Except BackendError q.Answer → Call
  | .load cell, answer => .load cell answer
  | .store cell value, answer => .store cell value answer
  | .code order, answer => .code order.target answer

theorem error?_call_ok (q : Query) (answer : q.Answer) : (q.call (.ok answer)).error? = none := by
  cases q <;> rfl

theorem error?_call_error (q : Query) (error : BackendError) :
    (q.call (.error error)).error? = some error := by
  cases q <;> rfl

end Query

namespace Env

variable {σ : Type}

/-- The calls that have reached the backend. -/
def calls (e : Env (Logged σ)) : List Call := e.backend.calls

variable [Backend σ]

theorem calls_checkpoint (e : Env (Logged σ)) : e.checkpoint.calls = e.calls ++ [.checkpoint] :=
  List.reverse_cons

theorem calls_commit (e : Env (Logged σ)) : e.commit.calls = e.calls ++ [.commit] :=
  List.reverse_cons

theorem calls_rollback (e : Env (Logged σ)) : e.rollback.calls = e.calls ++ [.rollback] :=
  List.reverse_cons

/-- One transaction is rolled back for every frame that waits. -/
theorem calls_unwind (e : Env (Logged σ)) (callers : List Suspended) :
    (Machine.unwind e callers).calls = e.calls ++ List.replicate callers.length .rollback := by
  induction callers generalizing e with
  | nil => exact (List.append_nil _).symm
  | cons caller callers ih =>
    change (Machine.unwind e.rollback callers).calls = _
    rw [ih, calls_rollback, List.append_assoc]
    rfl

/-- A read is answered without a call, or by one. -/
theorem calls_load (e : Env (Logged σ)) (cell : Cell) :
    ((e.load cell).2.calls = e.calls ∧ ∃ value, (e.load cell).1 = .ok value) ∨
      (e.load cell).2.calls = e.calls ++ [.load cell (e.load cell).1] := by
  cases hh : e.held cell with
  | some value =>
    rw [load_of_held hh]
    exact .inl ⟨rfl, value, rfl⟩
  | none =>
    have hcalls : (Backend.load e.backend cell).2.calls =
        e.calls ++ [.load cell (Backend.load e.backend cell).1] := List.reverse_cons
    cases hl : (Backend.load e.backend cell).1 with
    | error error =>
      rw [load_of_error hh hl]
      exact .inr (hl ▸ hcalls)
    | ok value =>
      rw [load_of_ok hh hl]
      exact .inr (hl ▸ hcalls)

/-- A write is always a call. -/
theorem calls_store (e : Env (Logged σ)) (cell : Cell) (value : Word) :
    (e.store cell value).2.calls = e.calls ++ [.store cell value (e.store cell value).1] := by
  have hcalls : (Backend.store e.backend cell value).2.calls =
      e.calls ++ [.store cell value (Backend.store e.backend cell value).1] := List.reverse_cons
  cases hs : (Backend.store e.backend cell value).1 with
  | error error =>
    rw [store_of_error hs]
    exact hs ▸ hcalls
  | ok =>
    rw [store_of_ok hs]
    exact hs ▸ hcalls

/-- A query is answered without a call, or by the call for it. -/
theorem calls_answer_eq (e : Env (Logged σ)) (q : Query) :
    ((e.answer q).2.calls = e.calls ∧ ∃ answer, (e.answer q).1 = .ok answer) ∨
      (e.answer q).2.calls = e.calls ++ [q.call (e.answer q).1] := by
  cases q with
  | load cell => exact e.calls_load cell
  | store cell value => exact .inr (e.calls_store cell value)
  | code order => exact .inr List.reverse_cons

end Env

end ContractVM
