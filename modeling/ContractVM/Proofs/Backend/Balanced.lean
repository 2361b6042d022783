import ContractVM.Proofs.Backend.Alike
import ContractVM.Proofs.Backend.Calls
import ContractVM.Proofs.Machine.Nesting

/-!
# Balanced transactions

Transactions are brackets: a call opens one, and a call closes the innermost one that is open.
`openAfter calls n` counts the transactions that are open after some calls, if there were `n` before
and none is closed that is not open; calls are `Balanced` if they close just what they open.

`Bracketed marks calls` says which transactions some calls have left open: `marks` are the calls
that came before the opening of each, the innermost first, and what came after is balanced.  This is
kept by all that a run does to a backend that writes down its calls (`Env.nests_bracketed`).
-/

namespace ContractVM

/-! ### Calls as brackets -/

namespace Call

/-- Whether the call opens or closes a transaction. -/
def isTransaction : Call → Bool
  | .checkpoint | .commit | .rollback => true
  | .load _ _ | .store _ _ _ | .code _ _ => false

/-- Whether the call closes a transaction. -/
def isClosing : Call → Bool
  | .commit | .rollback => true
  | _ => false

/-- How many transactions are open after the call, unless it closes one where none is open. -/
def openAfter (n : Nat) : Call → Option Nat
  | .checkpoint => some (n + 1)
  | .commit | .rollback => if n = 0 then none else some (n - 1)
  | .load _ _ | .store _ _ _ | .code _ _ => some n

theorem openAfter_add {call : Call} {n k : Nat} (h : call.openAfter n = some k) (d : Nat) :
    call.openAfter (n + d) = some (k + d) := by
  cases call with
  | checkpoint =>
    obtain rfl := Option.some.inj h
    exact congrArg some (by omega)
  | commit | rollback =>
    simp only [openAfter] at h ⊢
    split at h
    · cases h
    · obtain rfl := Option.some.inj h
      rw [if_neg (by omega)]
      exact congrArg some (by omega)
  | load | store | code =>
    obtain rfl := Option.some.inj h
    rfl

theorem openAfter_of_not_isTransaction {call : Call} (h : call.isTransaction = false) (n : Nat) :
    call.openAfter n = some n := by
  cases call with
  | checkpoint | commit | rollback => cases h
  | load | store | code => rfl

theorem openAfter_of_isClosing {call : Call} (h : call.isClosing = true) (n : Nat) :
    call.openAfter (n + 1) = some n := by
  cases call with
  | commit | rollback => rfl
  | checkpoint | load | store | code => cases h

end Call

/-- How many transactions are open after these calls, unless one of them closes one where none is
open. -/
def openAfter (calls : List Call) (n : Nat) : Option Nat := calls.foldlM Call.openAfter n

theorem openAfter_append (calls calls' : List Call) (n : Nat) :
    openAfter (calls ++ calls') n = (openAfter calls n).bind (openAfter calls') :=
  List.foldlM_append

/-- More transactions may be open before, which stay open. -/
theorem openAfter_add {calls : List Call} {n k : Nat} (h : openAfter calls n = some k) (d : Nat) :
    openAfter calls (n + d) = some (k + d) := by
  induction calls generalizing n with
  | nil =>
    obtain rfl := Option.some.inj h
    rfl
  | cons call calls ih =>
    change (call.openAfter n).bind (openAfter calls) = some k at h
    change (call.openAfter (n + d)).bind (openAfter calls) = some (k + d)
    cases hc : call.openAfter n with
    | none =>
      rw [hc] at h
      cases h
    | some n' =>
      rw [hc] at h
      rw [Call.openAfter_add hc]
      exact ih h

/-- The calls close the transactions that they open, and no others. -/
def Balanced (calls : List Call) : Prop := openAfter calls 0 = some 0

namespace Balanced

variable {calls calls' : List Call}

theorem nil : Balanced [] := rfl

/-- Whatever was open before is open afterwards. -/
theorem openAfter_eq (h : Balanced calls) (n : Nat) : openAfter calls n = some n := by
  have hn := openAfter_add h n
  rwa [Nat.zero_add] at hn

theorem append (h : Balanced calls) (h' : Balanced calls') : Balanced (calls ++ calls') := by
  unfold Balanced
  rw [openAfter_append, h]
  exact h'

theorem of_not_isTransaction (h : ∀ call ∈ calls, call.isTransaction = false) :
    Balanced calls := by
  induction calls with
  | nil => exact nil
  | cons call calls ih =>
    have hcall := Call.openAfter_of_not_isTransaction (h call List.mem_cons_self) 0
    change (call.openAfter 0).bind (openAfter calls) = some 0
    rw [hcall]
    exact ih fun other ho => h other (List.mem_cons_of_mem _ ho)

/-- A transaction around balanced calls. -/
theorem bracket (h : Balanced calls) {closing : Call} (hc : closing.isClosing = true) :
    Balanced (.checkpoint :: calls ++ [closing]) := by
  have hopen : openAfter (.checkpoint :: calls) 0 = some 1 := h.openAfter_eq 1
  have hclose : openAfter [closing] 1 = some 0 := by
    change (closing.openAfter 1).bind (openAfter []) = some 0
    rw [Call.openAfter_of_isClosing hc]
    rfl
  unfold Balanced
  rw [openAfter_append, hopen]
  exact hclose

example : Balanced [.checkpoint, .checkpoint, .rollback, .commit] := rfl

end Balanced

/-- Which transactions the calls have left open: what came before the opening of each, the
innermost first. -/
def Bracketed : List (List Call) → List Call → Prop
  | [], calls => Balanced calls
  | before :: marks, calls =>
    (∃ inner, calls = before ++ .checkpoint :: inner ∧ Balanced inner) ∧ Bracketed marks before

namespace Bracketed

variable {marks : List (List Call)} {calls before : List Call}

/-- There are as many transactions open as there are marks. -/
theorem openAfter_eq (h : Bracketed marks calls) : openAfter calls 0 = some marks.length := by
  induction marks generalizing calls with
  | nil => exact h
  | cons before marks ih =>
    obtain ⟨⟨inner, rfl, hinner⟩, hbefore⟩ := h
    rw [openAfter_append, ih hbefore]
    exact hinner.openAfter_eq (marks.length + 1)

/-- Balanced calls leave the same transactions open. -/
theorem append (h : Bracketed marks calls) {calls' : List Call} (h' : Balanced calls') :
    Bracketed marks (calls ++ calls') := by
  cases marks with
  | nil => exact Balanced.append h h'
  | cons before marks =>
    obtain ⟨⟨inner, rfl, hinner⟩, hbefore⟩ := h
    refine ⟨⟨inner ++ calls', ?_, hinner.append h'⟩, hbefore⟩
    rw [List.append_assoc, List.cons_append]

theorem checkpoint (h : Bracketed marks calls) :
    Bracketed (calls :: marks) (calls ++ [.checkpoint]) := ⟨⟨[], rfl, .nil⟩, h⟩

/-- A call that closes a transaction closes the innermost one. -/
theorem close (h : Bracketed (before :: marks) calls) {closing : Call}
    (hc : closing.isClosing = true) : Bracketed marks (calls ++ [closing]) := by
  obtain ⟨⟨inner, rfl, hinner⟩, hbefore⟩ := h
  rw [List.append_assoc]
  exact hbefore.append (hinner.bracket hc)

end Bracketed

/-! ### Calls of a run -/

namespace Env

variable {σ : Type}

variable [Backend σ]

/-- To answer a query, no transaction is opened or closed. -/
theorem calls_answer (e : Env (Logged σ)) (q : Query) :
    ∃ asked, (e.answer q).2.calls = e.calls ++ asked ∧
      ∀ call ∈ asked, call.isTransaction = false := by
  obtain ⟨hcalls, -⟩ | hcalls := e.calls_answer_eq q
  · exact ⟨[], by rw [hcalls, List.append_nil], nofun⟩
  · refine ⟨_, hcalls, fun call hc => ?_⟩
    rw [List.mem_singleton.1 hc]
    cases q <;> rfl

/-- Whatever a run does, its calls leave open what it has opened and not closed. -/
theorem nests_bracketed :
    Nests (fun marks (e : Env (Logged σ)) => Bracketed marks e.calls) calls where
  report _ h := h
  answer {marks e} q h := by
    obtain ⟨asked, hcalls, hasked⟩ := e.calls_answer q
    rw [hcalls]
    exact h.append (.of_not_isTransaction hasked)
  checkpoint {marks e} h := by
    rw [calls_checkpoint]
    exact h.checkpoint
  commit {before marks e} h := by
    rw [calls_commit]
    exact h.close rfl
  rollback {before marks e} h := by
    rw [calls_rollback]
    exact h.close rfl

end Env

/-! ### What was called before -/

end ContractVM
