import ContractVM.Proofs.Ledger.Nesting

/-!
# The contents that open transactions go back to

A run closes only transactions that it has opened, whatever was open before.
`Ledger.Copies saved l` says that the innermost open transactions of the ledger `l` stand for the
contents `saved`, the innermost first; of transactions further out nothing is said, and nothing need
be known of how the ledger came about.  A write leaves the copies as they are, and a rollback goes
back to the innermost one (`Ledger.Copies.contents_rollback`).

So what writes keep of some contents is kept by all that a run does, rollbacks included
(`Ledger.nests_everywhere`): it holds of what is there, and of all copies.  A run that writes cells
keeps the accounts as they are (`Machine.Reaches.accounts`, `Message.accounts_call`).
-/

namespace ContractVM

/-! ### Marks of transactions -/

namespace Tracks

variable {journal : List Undo} {mark : Nat} {marks : List Nat} {current copy : Contents}
  {saved : List Contents}

/-- A transaction that is opened stands for what there is. -/
theorem checkpoint (h : Tracks journal marks current saved) :
    Tracks journal (journal.length :: marks) current (current :: saved) := by
  refine ⟨Nat.le_refl _, ?_, ?_⟩
  · rw [Nat.sub_self]
    rfl
  · rw [Nat.sub_self]
    exact h

/-- Where no transaction is open there is no copy, whatever the journal. -/
theorem nil_of (h : Tracks journal [] current saved) (journal' : List Undo) (current' : Contents) :
    Tracks journal' [] current' saved := by
  cases saved with
  | nil => trivial
  | cons copy saved => cases h

end Tracks

namespace Ledger

theorem contents_commit (l : Ledger) : l.commit.contents = l.contents := by
  unfold commit
  split <;> rfl

/-- The innermost open transactions stand for these contents. -/
def Copies (saved : List Contents) (l : Ledger) : Prop :=
  ∃ marks outer, l.checkpoints = marks ++ outer ∧ Tracks l.journal marks l.contents saved

namespace Copies

variable {l : Ledger} {copy : Contents} {saved : List Contents}

theorem nil (l : Ledger) : Copies [] l := ⟨[], l.checkpoints, rfl, trivial⟩

theorem setValue (h : Copies saved l) (cell : Cell) (value : Word) :
    Copies saved (l.setValue cell value) := by
  obtain ⟨marks, outer, hmarks, ht⟩ := h
  refine ⟨marks, outer, (checkpoints_record l _).trans hmarks, ?_⟩
  cases marks with
  | nil => exact ht.nil_of _ _
  | cons mark marks =>
    have hjournal : (l.setValue cell value).journal = .slot cell (l.value cell) :: l.journal :=
      journal_record hmarks _
    have hundo : (l.setValue cell value).contents.undo (.slot cell (l.value cell)) =
        l.contents := by
      rw [contents_setValue]
      exact Contents.undo_setValue l.contents cell value
    rw [hjournal]
    exact ht.record hundo

theorem checkpoint (h : Copies saved l) : Copies (l.contents :: saved) l.checkpoint := by
  obtain ⟨marks, outer, hmarks, ht⟩ := h
  exact ⟨l.journal.length :: marks, outer, congrArg (List.cons _) hmarks, ht.checkpoint⟩

theorem commit (h : Copies (copy :: saved) l) : Copies saved l.commit := by
  obtain ⟨marks, outer, hmarks, ht⟩ := h
  cases marks with
  | nil => cases ht
  | cons mark marks =>
    have hrest : l.commit.checkpoints = marks ++ outer := by
      rw [checkpoints_commit, hmarks]
      rfl
    refine ⟨marks, outer, hrest, ?_⟩
    have ht := ht.merge
    rw [contents_commit]
    unfold Ledger.commit at hrest ⊢
    split at hrest
    · -- no transaction is left, and none has a copy
      obtain ⟨rfl, -⟩ := List.append_eq_nil_iff.1 hrest.symm
      exact ht.nil_of _ _
    · exact ht

/-- A rollback goes back to the copy of the innermost transaction. -/
theorem contents_rollback (h : Copies (copy :: saved) l) :
    l.rollback.contents = copy ∧ Copies saved l.rollback := by
  obtain ⟨marks, outer, hmarks, ht⟩ := h
  cases marks with
  | nil => cases ht
  | cons mark marks =>
    obtain ⟨-, hcopy, ht⟩ := ht
    have hcontents : l.rollback.contents = copy := by
      unfold Ledger.rollback
      rw [hmarks, hcopy]
      exact contents_undoAll _ _
    refine ⟨hcontents, marks, outer, ?_, ?_⟩
    · rw [checkpoints_rollback, hmarks]
      rfl
    · rw [hcontents]
      unfold Ledger.rollback
      rw [hmarks]
      exact ht

end Copies

/-- What is there has the property, and so have the copies of the open transactions. -/
structure Everywhere (P : Contents → Prop) (saved : List Contents) (l : Ledger) : Prop where
  copies : Copies saved l
  current : P l.contents
  saved : ∀ copy ∈ saved, P copy

variable {P : Contents → Prop}

theorem everywhere_nil {l : Ledger} (h : P l.contents) : Everywhere P [] l := ⟨.nil l, h, nofun⟩

namespace Everywhere

variable {l : Ledger} {copy : Contents} {saved : List Contents}

theorem setValue (h : Everywhere P saved l) {cell : Cell} {value : Word}
    (hwrite : P (l.contents.setValue cell value)) :
    Everywhere P saved (l.setValue cell value) := by
  refine ⟨h.copies.setValue cell value, ?_, h.saved⟩
  rw [contents_setValue]
  exact hwrite

theorem checkpoint (h : Everywhere P saved l) :
    Everywhere P (l.contents :: saved) l.checkpoint := by
  refine ⟨h.copies.checkpoint, h.current, fun copy hc => ?_⟩
  rcases List.mem_cons.1 hc with rfl | hc
  · exact h.current
  · exact h.saved copy hc

theorem commit (h : Everywhere P (copy :: saved) l) : Everywhere P saved l.commit := by
  refine ⟨h.copies.commit, ?_, fun other ho => h.saved other (List.mem_cons_of_mem _ ho)⟩
  rw [contents_commit]
  exact h.current

theorem rollback (h : Everywhere P (copy :: saved) l) : Everywhere P saved l.rollback := by
  obtain ⟨hcontents, hcopies⟩ := h.copies.contents_rollback
  refine ⟨hcopies, ?_, fun other ho => h.saved other (List.mem_cons_of_mem _ ho)⟩
  rw [hcontents]
  exact h.saved copy List.mem_cons_self

end Everywhere

/-- What every write keeps is kept by all that a run does to a ledger. -/
theorem nests_everywhere
    (h : ∀ contents cell value, P contents → P (contents.setValue cell value)) :
    Nests (Everywhere P) contents where
  setValue cell value hl := hl.setValue (h _ cell value hl.current)
  checkpoint hl := hl.checkpoint
  commit hl := hl.commit
  rollback hl := hl.rollback

/-- The accounts that can be found are the accounts. -/
theorem accounts_eq_of_contents {l l' : Ledger} (h : l.contents.accounts = l'.contents.accounts) :
    l.accounts = l'.accounts := Std.ExtTreeMap.ext_getElem? fun {address} => congrFun h address

end Ledger

/-! ### Runs keep the accounts -/

variable {σ : Type} [Backend σ] [Front σ] {cfg : Config}

/-- The accounts, there and in all copies, are those of this ledger. -/
theorem Ledger.nests_accounts (l : Ledger) :
    Nests (Everywhere fun c => c.accounts = l.contents.accounts) contents :=
  nests_everywhere fun _ _ _ h => h

/-- No machine of a run has changed an account. -/
theorem Machine.Reaches.accounts {message : Message} {e : Env σ} {m : Machine σ}
    (h : Reaches cfg (start cfg message e) m) : m.env.ledger.accounts = e.ledger.accounts := by
  have hbegin : Ledger.Everywhere (fun c => c.accounts = e.ledger.contents.accounts) [] e.ledger :=
    Ledger.everywhere_nil rfl
  obtain ⟨opened, -, he⟩ := e.ledger.nests_accounts.env.reaches h hbegin
  exact Ledger.accounts_eq_of_contents he.current

/-- No top-level call changes an account. -/
theorem Message.accounts_call (cfg : Config) (m : Message) (e : Env σ) :
    (m.call cfg e).2.ledger.accounts = e.ledger.accounts := by
  have hend := e.ledger.nests_accounts.call cfg m (Ledger.everywhere_nil rfl)
  exact Ledger.accounts_eq_of_contents hend.current

end ContractVM
