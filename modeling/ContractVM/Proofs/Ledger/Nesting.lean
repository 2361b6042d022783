import ContractVM.Proofs.Backend.Front
import ContractVM.Proofs.Ledger.Opened
import ContractVM.Proofs.Machine.Nesting
import ContractVM.Proofs.SlotCache.Lookup

/-!
# The ledger in a run

What a run does to the ledger behind its backend: an answer leaves it as it was or sets one value
(`Env.ledger_answer`), and transactions are passed on.  So what is said of a ledger and its open
transactions, and kept by a value that is set and by the beginning and the end of a transaction, is
kept by runs (`Ledger.Nests.env`).

Such are the ledgers that there were when the open transactions began (`Ledger.nests_opened`), and
the checkpoints of transactions that were open before (`Ledger.nests_checkpoints`).
-/

namespace ContractVM

namespace Env

variable {σ : Type} [Backend σ] [Front σ]

/-- The ledger behind the backend. -/
def ledger (e : Env σ) : Ledger := Front.ledger e.backend

theorem ledger_load (e : Env σ) (cell : Cell) : (e.load cell).2.ledger = e.ledger := by
  cases hh : e.held cell with
  | some value =>
    rw [load_of_held hh]
    rfl
  | none =>
    cases hl : (Backend.load e.backend cell).1 with
    | error error =>
      rw [load_of_error hh hl]
      exact Front.ledger_load e.backend cell
    | ok value =>
      rw [load_of_ok hh hl]
      exact Front.ledger_load e.backend cell

/-- An answer leaves the ledger as it was, or sets the value that was asked to be set. -/
theorem ledger_answer (e : Env σ) (q : Query) :
    (e.answer q).2.ledger = e.ledger ∨ ∃ cell value, q = .store cell value ∧
      (e.answer q).2.ledger = e.ledger.setValue cell value := by
  cases q with
  | load cell => exact .inl (ledger_load e cell)
  | store cell value =>
    cases hs : (Backend.store e.backend cell value).1 with
    | error error =>
      refine .inl ?_
      change (e.store cell value).2.ledger = e.ledger
      rw [store_of_error hs]
      exact Front.ledger_store_error e.backend cell value error hs
    | ok =>
      refine .inr ⟨cell, value, rfl, ?_⟩
      change (e.store cell value).2.ledger = e.ledger.setValue cell value
      rw [store_of_ok hs]
      exact Front.ledger_store e.backend cell value hs
  | code order => exact .inl (Front.ledger_code e.backend order.target)

theorem ledger_checkpoint (e : Env σ) : e.checkpoint.ledger = e.ledger.checkpoint :=
  Front.ledger_checkpoint e.backend

theorem ledger_commit (e : Env σ) : e.commit.ledger = e.ledger.commit :=
  Front.ledger_commit e.backend

theorem ledger_rollback (e : Env σ) : e.rollback.ledger = e.ledger.rollback :=
  Front.ledger_rollback e.backend

end Env

namespace Ledger

/-- Whatever is done to a ledger in a run keeps what is said of it and its open transactions. -/
structure Nests {α : Type} (P : List α → Ledger → Prop) (mark : Ledger → α) : Prop where
  setValue : ∀ {marks l} (cell : Cell) (value : Word), P marks l → P marks (l.setValue cell value)
  checkpoint : ∀ {marks l}, P marks l → P (mark l :: marks) l.checkpoint
  commit : ∀ {a marks l}, P (a :: marks) l → P marks l.commit
  rollback : ∀ {a marks l}, P (a :: marks) l → P marks l.rollback

/-- Runs keep it of the ledger behind their backend. -/
theorem Nests.env {σ α : Type} [Backend σ] [Front σ] {P : List α → Ledger → Prop}
    {mark : Ledger → α} (h : Nests P mark) :
    Env.Nests (fun marks (e : Env σ) => P marks e.ledger) (fun e => mark e.ledger) where
  report _ he := he
  answer {marks e} q he := by
    obtain hq | ⟨cell, value, -, hq⟩ := e.ledger_answer q
    · rw [hq]
      exact he
    · rw [hq]
      exact h.setValue cell value he
  checkpoint {marks e} he := by
    rw [Env.ledger_checkpoint]
    exact h.checkpoint he
  commit {a marks e} he := by
    rw [Env.ledger_commit]
    exact h.commit he
  rollback {a marks e} he := by
    rw [Env.ledger_rollback]
    exact h.rollback he

/-- The edges of a top-level call do not concern the ledger. -/
theorem ledger_call {σ : Type} [Backend σ] [Front σ] (cfg : Config) (m : Message) (e : Env σ) :
    (m.call cfg e).2.ledger = (m.transact cfg (m.openCall cfg e)).2.ledger :=
  congrArg Front.ledger (Message.backend_closeCall _)

/-- So do top-level calls. -/
theorem Nests.call {σ α : Type} [Backend σ] [Front σ] {P : List α → Ledger → Prop}
    {mark : Ledger → α} {marks : List α} {e : Env σ} (h : Nests P mark) (cfg : Config)
    (m : Message) (he : P marks e.ledger) : P marks (m.call cfg e).2.ledger := by
  have hopen : P marks (m.openCall cfg e).ledger := he
  rw [ledger_call]
  exact h.env.transact m hopen

theorem nests_opened : Nests Opened id where
  setValue cell value h := h.setValue cell value
  checkpoint h := h.checkpoint
  commit h := h.commit
  rollback h := h.rollback

/-- A top-level call leaves nothing in the storage that is zero. -/
theorem canonical_call {σ : Type} [Backend σ] [Front σ] (cfg : Config) (m : Message) (e : Env σ)
    (h : e.ledger.Canonical) : (m.call cfg e).2.ledger.Canonical := by
  have hbegin : Opened [] e.ledger := h
  exact (nests_opened.call cfg m hbegin).canonical

theorem checkpoints_commit (l : Ledger) : l.commit.checkpoints = l.checkpoints.tail := by
  unfold commit
  split
  · rename_i h
    exact h.symm
  · rfl

theorem checkpoints_rollback (l : Ledger) : l.rollback.checkpoints = l.checkpoints.tail := by
  unfold rollback
  split
  · rename_i h
    rw [h]
    rfl
  · rename_i h
    rw [h]
    rfl

/-- The checkpoints of a ledger are those of its open transactions and those that it had before. -/
theorem nests_checkpoints (before : List Nat) :
    Nests (fun marks l => l.checkpoints = marks ++ before) (·.journal.length) where
  setValue cell value h := (checkpoints_record _ _).trans h
  checkpoint {marks l} h := by
    change l.journal.length :: l.checkpoints = l.journal.length :: (marks ++ before)
    rw [h]
  commit h := by
    rw [checkpoints_commit, h]
    rfl
  rollback h := by
    rw [checkpoints_rollback, h]
    rfl

end Ledger

end ContractVM
