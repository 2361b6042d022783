import ContractVM.Proofs.Ledger.Within

/-!
# Ledgers that nothing was written to

`Ledger.Unwritten s marks l` says that nothing was written to the ledger `s` until it became `l`.
Transactions may have been opened and closed meanwhile, but they have nothing to undo.

A run that sets no value writes nothing to the ledger behind its backend
(`Env.nests_leavesUnwritten`).
-/

namespace ContractVM

namespace Ledger

/-- The ledgers hold the same accounts and the same storage, whatever transactions are open. -/
structure SameContents (s l : Ledger) : Prop where
  accounts : l.accounts = s.accounts
  storage : l.storage = s.storage

/-- What holds the same as the second ledger holds the same as the first. -/
theorem SameContents.of_eq {s l l' : Ledger} (h : s.SameContents l)
    (accounts : l'.accounts = l.accounts) (storage : l'.storage = l.storage) : s.SameContents l' :=
  ⟨accounts.trans h.accounts, storage.trans h.storage⟩

/-- Nothing was written to the first ledger until it became the second, in which transactions with
these marks are open besides. -/
structure Unwritten (s : Ledger) (marks : List Nat) (l : Ledger) : Prop where
  contents : s.SameContents l
  checkpoints : l.checkpoints = marks ++ s.checkpoints
  /-- The transactions have nothing to undo. -/
  marks : ∀ mark ∈ marks, l.journal.length ≤ mark

namespace Unwritten

variable {s l : Ledger} {mark : Nat} {marks : List Nat}

theorem refl (s : Ledger) : Unwritten s [] s := ⟨⟨rfl, rfl⟩, rfl, nofun⟩

theorem checkpoint (h : Unwritten s marks l) :
    Unwritten s (l.journal.length :: marks) l.checkpoint := by
  refine ⟨h.contents.of_eq rfl rfl, congrArg (List.cons _) h.checkpoints, fun mark hm => ?_⟩
  rcases List.mem_cons.1 hm with rfl | hm
  · exact Nat.le_refl _
  · exact h.marks mark hm

theorem commit (h : Unwritten s (mark :: marks) l) : Unwritten s marks l.commit := by
  have hcheckpoints : l.commit.checkpoints = marks ++ s.checkpoints := by
    rw [checkpoints_commit, h.checkpoints]
    rfl
  unfold Ledger.commit at hcheckpoints ⊢
  split at hcheckpoints
  · exact ⟨h.contents.of_eq rfl rfl, hcheckpoints, fun _ _ => Nat.zero_le _⟩
  · exact ⟨h.contents.of_eq rfl rfl, hcheckpoints, fun other ho =>
      h.marks other (List.mem_cons_of_mem _ ho)⟩

theorem rollback (h : Unwritten s (mark :: marks) l) : Unwritten s marks l.rollback := by
  have hcheckpoints : l.checkpoints = mark :: (marks ++ s.checkpoints) := h.checkpoints
  have hmark : l.journal.length ≤ mark := h.marks mark List.mem_cons_self
  have hnothing : l.journal.length - mark = 0 := Nat.sub_eq_zero_of_le hmark
  unfold Ledger.rollback
  rw [hcheckpoints]
  dsimp only
  rw [hnothing]
  exact ⟨h.contents.of_eq rfl rfl, rfl, fun other ho => h.marks other (List.mem_cons_of_mem _ ho)⟩

end Unwritten

/-- Transactions that are opened and closed write nothing. -/
theorem nestsWithin_unwritten (s : Ledger) :
    NestsWithin (fun _ => False) s.Unwritten (·.journal.length) where
  setValue _ _ h := h.elim
  checkpoint h := h.checkpoint
  commit h := h.commit
  rollback h := h.rollback

end Ledger

namespace Env

variable {σ : Type} [Backend σ] [Front σ]

/-- If no value was set, nothing is written to the ledger. -/
def LeavesUnwritten (s : Ledger) (marks : List Nat) (e : Env (Logged σ)) : Prop :=
  (∀ call ∈ e.calls, call.isStore = false) → s.Unwritten marks e.ledger

omit [Backend σ] [Front σ] in
/-- A run in which no value was set is one that sets no cell. -/
theorem storesIn_false_iff (e : Env (Logged σ)) :
    e.StoresIn (fun _ => False) ↔ ∀ call ∈ e.calls, call.isStore = false := by
  refine forall₂_congr fun call _ => ?_
  cases call with
  | store cell value answer => exact (iff_false_intro Bool.noConfusion).symm
  | load | code | checkpoint | commit | rollback => exact iff_of_true trivial rfl

/-- Whatever a run does, if it sets no value then nothing is written to the ledger. -/
theorem nests_leavesUnwritten (s : Ledger) :
    Nests (LeavesUnwritten (σ := σ) s) fun e => e.ledger.journal.length := by
  have hsame : LeavesUnwritten (σ := σ) s =
      fun marks e => e.StoresIn (fun _ => False) → s.Unwritten marks e.ledger := by
    funext marks e
    rw [storesIn_false_iff]
    rfl
  rw [hsame]
  exact s.nestsWithin_unwritten.env

end Env

end ContractVM
