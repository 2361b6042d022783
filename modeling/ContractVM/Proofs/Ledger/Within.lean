import ContractVM.Proofs.Backend.Calls
import ContractVM.Proofs.Ledger.Copies

/-!
# Runs that set only some cells

What is said of a ledger and its open transactions may outlast writes to some cells only:
`Ledger.NestsWithin allowed P mark` is `Ledger.Nests P mark` for writes to cells that are `allowed`.
Which cells a run sets can be read off the calls that reach its backend (`Env.StoresIn`).  As long
as these are allowed, the run keeps what is said (`Ledger.NestsWithin.env`).

So a run that sets no cell of an account leaves all values of its cells as they were
(`Ledger.nestsWithin_values`), also where it goes back to the contents of a transaction.
-/

namespace ContractVM

/-- If the call sets the value of a cell, it is one of these. -/
def Call.StoresIn (allowed : Cell → Prop) : Call → Prop
  | .store cell _ _ => allowed cell
  | _ => True

/-- All calls that set the value of a cell have been about these cells. -/
def Env.StoresIn {σ : Type} (allowed : Cell → Prop) (e : Env (Logged σ)) : Prop :=
  ∀ call ∈ e.calls, call.StoresIn allowed

/-- Whatever is done to a ledger keeps what is said of it and its open transactions, if only
these cells are set. -/
structure Ledger.NestsWithin {α : Type} (allowed : Cell → Prop) (P : List α → Ledger → Prop)
    (mark : Ledger → α) : Prop where
  setValue : ∀ {marks l} (cell : Cell) (value : Word), allowed cell → P marks l →
    P marks (l.setValue cell value)
  checkpoint : ∀ {marks l}, P marks l → P (mark l :: marks) l.checkpoint
  commit : ∀ {a marks l}, P (a :: marks) l → P marks l.commit
  rollback : ∀ {a marks l}, P (a :: marks) l → P marks l.rollback

namespace Env

variable {σ : Type} {allowed : Cell → Prop} {e e' : Env (Logged σ)}

namespace StoresIn

theorem of_calls_eq (h : e.StoresIn allowed) (hc : e'.calls = e.calls) : e'.StoresIn allowed := by
  unfold StoresIn
  rw [hc]
  exact h

theorem of_call (h : e.StoresIn allowed) {call : Call} (hc : e'.calls = e.calls ++ [call])
    (hcall : call.StoresIn allowed) : e'.StoresIn allowed := by
  intro other ho
  rw [hc] at ho
  rcases List.mem_append.1 ho with ho | ho
  · exact h other ho
  · rw [List.mem_singleton.1 ho]
    exact hcall

/-- What holds of more calls holds of those that came first. -/
theorem of_append {made : List Call} (h : e'.StoresIn allowed)
    (hc : e'.calls = e.calls ++ made) : e.StoresIn allowed := by
  intro call ho
  refine h call ?_
  rw [hc]
  exact List.mem_append_left _ ho

variable [Backend σ]

theorem checkpoint (h : e.StoresIn allowed) : e.checkpoint.StoresIn allowed :=
  h.of_call e.calls_checkpoint trivial

theorem rollback (h : e.StoresIn allowed) : e.rollback.StoresIn allowed :=
  h.of_call e.calls_rollback trivial

theorem settle (h : e.StoresIn allowed) (f : Frame) : (e.settle f).StoresIn allowed := by
  unfold Env.settle
  split
  · exact h.of_call e.calls_commit trivial
  · exact h.rollback

theorem unwind (h : e.StoresIn allowed) (callers : List Suspended) :
    (Machine.unwind e callers).StoresIn allowed := by
  induction callers generalizing e with
  | nil => exact h
  | cons caller callers ih => exact ih h.rollback

/-- An answer is one of these calls, or of none. -/
theorem answer (h : e.StoresIn allowed) (q : Query)
    (hq : ∀ answer, (q.call answer).StoresIn allowed) : (e.answer q).2.StoresIn allowed := by
  obtain ⟨hsame, -⟩ | hmore := e.calls_answer_eq q
  · exact h.of_calls_eq hsame
  · exact h.of_call hmore (hq _)

end StoresIn

end Env

namespace Ledger

variable {α : Type} {allowed : Cell → Prop} {P : List α → Ledger → Prop} {mark : Ledger → α}

/-- As long as a run sets allowed cells only, it keeps what is said of the ledger behind its
backend. -/
theorem NestsWithin.env {σ : Type} [Backend σ] [Front σ] (h : NestsWithin allowed P mark) :
    Env.Nests (fun marks (e : Env (Logged σ)) => e.StoresIn allowed → P marks e.ledger)
      (fun e => mark e.ledger) where
  report _ he hs := he hs
  answer {marks e} q he hs := by
    have hbefore : e.StoresIn allowed := by
      obtain ⟨hsame, -⟩ | hmore := e.calls_answer_eq q
      · exact hs.of_calls_eq hsame.symm
      · exact hs.of_append hmore
    obtain hq | ⟨cell, value, rfl, hq⟩ := e.ledger_answer q
    · rw [hq]
      exact he hbefore
    · have hcalls : (e.answer (.store cell value)).2.calls = _ := e.calls_store cell value
      have hcell : allowed cell := hs (.store cell value (e.store cell value).1)
        (hcalls ▸ List.mem_append_right _ (List.mem_singleton_self _))
      rw [hq]
      exact h.setValue cell value hcell (he hbefore)
  checkpoint {marks e} he hs := by
    rw [Env.ledger_checkpoint]
    exact h.checkpoint (he (hs.of_append e.calls_checkpoint))
  commit {a marks e} he hs := by
    rw [Env.ledger_commit]
    exact h.commit (he (hs.of_append e.calls_commit))
  rollback {a marks e} he hs := by
    rw [Env.ledger_rollback]
    exact h.rollback (he (hs.of_append e.calls_rollback))

/-- If no cell of an account is set, all its cells have the values that they had, and so they have
in all copies that open transactions go back to. -/
theorem nestsWithin_values (address : Address) (values : Cell → Word) :
    NestsWithin (fun cell => cell.address ≠ address)
      (Everywhere fun c => ∀ key, c.values ⟨address, key⟩ = values ⟨address, key⟩) contents where
  setValue cell value hcell hl := by
    refine hl.setValue fun key => ?_
    have hother : cell ≠ ⟨address, key⟩ := fun h => hcell (congrArg Cell.address h)
    exact (Function.update_of_ne hother.symm value _).trans (hl.current key)
  checkpoint hl := hl.checkpoint
  commit hl := hl.commit
  rollback hl := hl.rollback

end Ledger

end ContractVM
