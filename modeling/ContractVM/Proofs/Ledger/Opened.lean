import Mathlib.Logic.Function.Iterate
import ContractVM.Proofs.Ledger.Canonical

/-!
# What a rollback goes back to

`Ledger.Since s l` says that the innermost open transaction of the ledger `l` began when it was `s`:
the journal has grown by some records, and undoing these gives the contents of `s`.  A write adds
its record (`Ledger.Since.write`).  When the transaction is kept, its records come before those
of the one around it (`Ledger.Since.commit`).  And when it is rolled back, the ledger is `s` again,
journal and checkpoints included (`Ledger.Since.rollback_eq`): ledgers that hold nothing that is
zero are the same if they show the same.

`Ledger.Opened saved l` says this of several transactions, one inside of the other.  Each of them
can still be rolled back when those inside of it have been kept (`Ledger.Opened.rollback_commit`).
-/

namespace ContractVM

namespace Ledger

/-- The innermost open transaction of the second ledger began when it was the first. -/
structure Since (s l : Ledger) : Prop where
  checkpoints : l.checkpoints = s.journal.length :: s.checkpoints
  records : ∃ records, l.journal = records ++ s.journal ∧ l.contents.undoAll records = s.contents

theorem since_checkpoint (l : Ledger) : Since l l.checkpoint := ⟨rfl, [], rfl, rfl⟩

namespace Since

variable {s s' l : Ledger}

/-- A write adds its record to the journal. -/
theorem write (h : Since s l) {l' : Ledger} (record : Undo)
    (hjournal : l'.journal = (l.record record).journal) (hmarks : l'.checkpoints = l.checkpoints)
    (hundo : l'.contents.undo record = l.contents) : Since s l' := by
  obtain ⟨records, hrecords, hback⟩ := h.records
  refine ⟨hmarks.trans h.checkpoints, record :: records, ?_, ?_⟩
  · rw [hjournal, journal_record h.checkpoints, hrecords]
    rfl
  · change (l'.contents.undo record).undoAll records = s.contents
    rw [hundo]
    exact hback

theorem setValue (h : Since s l) (cell : Cell) (value : Word) :
    Since s (l.setValue cell value) := by
  refine h.write (.slot cell (l.value cell)) rfl (checkpoints_record l _) ?_
  rw [contents_setValue]
  exact l.contents.undo_setValue cell value

theorem setCode (h : Since s l) (address : Address) (code : Bytes) :
    Since s (l.setCode address code) := by
  refine h.write (.account address l.accounts[address]?) rfl (checkpoints_record l _) ?_
  rw [contents_setCode]
  exact l.contents.undo_setAccount address _

/-- The records of a transaction that is kept belong to the one around it. -/
theorem commit (h : Since s l) (h' : Since s' s) : Since s' l.commit := by
  obtain ⟨records, hjournal, hundo⟩ := h.records
  obtain ⟨records', hjournal', hundo'⟩ := h'.records
  have hcommit : l.commit = { l with checkpoints := s'.journal.length :: s'.checkpoints } := by
    unfold Ledger.commit
    rw [h.checkpoints, List.tail_cons, h'.checkpoints]
  rw [hcommit]
  refine ⟨rfl, records ++ records', ?_, ?_⟩
  · change l.journal = _
    rw [hjournal, hjournal', List.append_assoc]
  · change l.contents.undoAll (records ++ records') = s'.contents
    rw [Contents.undoAll_append, hundo, hundo']

/-- A rollback gives back the ledger that there was when the transaction began. -/
theorem rollback_eq (h : Since s l) (hs : s.Canonical) (hl : l.Canonical) : l.rollback = s := by
  obtain ⟨records, hjournal, hundo⟩ := h.records
  have hcount : l.journal.length - s.journal.length = records.length := by
    rw [hjournal, List.length_append, Nat.add_sub_cancel]
  have htake : l.journal.take records.length = records := by rw [hjournal, List.take_left]
  have hdrop : l.journal.drop records.length = s.journal := by rw [hjournal, List.drop_left]
  have hrollback : l.rollback = { records.foldl Ledger.undo l with
      journal := s.journal, checkpoints := s.checkpoints } := by
    unfold Ledger.rollback
    rw [h.checkpoints]
    simp only [hcount, htake, hdrop]
  refine hl.rollback.eq_of_contents hs ?_ ?_ ?_
  · rw [hrollback]
    exact (contents_undoAll l records).trans hundo
  · rw [hrollback]
  · rw [hrollback]

end Since

/-- The innermost open transactions of the ledger began when it was these ledgers.  Nothing is said
of those further out. -/
def Opened : List Ledger → Ledger → Prop
  | [], l => l.Canonical
  | s :: saved, l => l.Canonical ∧ Since s l ∧ Opened saved s

namespace Opened

variable {s l : Ledger} {saved : List Ledger}

theorem canonical (h : Opened saved l) : l.Canonical := by
  cases saved with
  | nil => exact h
  | cons s saved => exact h.1

theorem setValue (h : Opened saved l) (cell : Cell) (value : Word) :
    Opened saved (l.setValue cell value) := by
  cases saved with
  | nil => exact h.canonical.setValue cell value
  | cons s saved => exact ⟨h.canonical.setValue cell value, h.2.1.setValue cell value, h.2.2⟩

theorem setCode (h : Opened saved l) (address : Address) (code : Bytes) :
    Opened saved (l.setCode address code) := by
  cases saved with
  | nil => exact h.canonical.setCode address code
  | cons s saved => exact ⟨h.canonical.setCode address code, h.2.1.setCode address code, h.2.2⟩

theorem checkpoint (h : Opened saved l) : Opened (l :: saved) l.checkpoint :=
  ⟨h.canonical.checkpoint, since_checkpoint l, h⟩

theorem commit (h : Opened (s :: saved) l) : Opened saved l.commit := by
  obtain ⟨hl, hsince, hs⟩ := h
  cases saved with
  | nil => exact hl.commit
  | cons s' saved => exact ⟨hl.commit, hsince.commit hs.2.1, hs.2.2⟩

/-- A rollback goes back to what there was when the innermost transaction began. -/
theorem rollback_eq (h : Opened (s :: saved) l) : l.rollback = s :=
  h.2.1.rollback_eq h.2.2.canonical h.canonical

theorem rollback (h : Opened (s :: saved) l) : Opened saved l.rollback := by
  rw [h.rollback_eq]
  exact h.2.2

/-- If the transactions inside of one are kept, it still goes back to what there was when it
began. -/
theorem rollback_commit (h : Opened saved l) {n : Nat} (hn : n < saved.length) :
    (Ledger.commit^[n] l).rollback = saved[n] := by
  induction n generalizing saved l with
  | zero =>
    cases saved with
    | nil => cases hn
    | cons s saved => exact h.rollback_eq
  | succ n ih =>
    cases saved with
    | nil => cases hn
    | cons s saved =>
      rw [Function.iterate_succ_apply]
      exact ih h.commit (Nat.lt_of_succ_lt_succ hn)

end Opened

end Ledger

end ContractVM
