import Mathlib.Logic.Function.Basic
import ContractVM.Ledger.Lemmas

/-!
# The journal stands for copies

A ledger undoes writes with a journal of what they replaced.  The plain way to do the same is to
keep a full copy of the contents for every open transaction: `Snapshots` does that, with the same
updates as a ledger (`Ledger.apply`, `Snapshots.apply`).

`Tracks` says how a journal stands for copies: undoing the records made since the innermost
transaction began gives its copy, and the records before them stand for the copies further out
from there.  A write that is recorded keeps this (`Tracks.record`).  When a transaction is kept,
its records come to be those of the transaction around it (`Tracks.merge`).

`Ledger.foldl_apply_eq_snapshots` is the statement about all sequences of updates.
-/

namespace ContractVM

/-! ### What a ledger shows -/

/-- The account at every address, if there is one, and the value of every cell. -/
@[ext] structure Contents where
  accounts : Address → Option Account
  values : Cell → Word

namespace Contents

/-- No accounts, and zero in every cell. -/
def empty : Contents := ⟨fun _ => none, fun _ => 0⟩

/-- Sets the value of a cell. -/
def setValue (c : Contents) (cell : Cell) (value : Word) : Contents :=
  { c with values := Function.update c.values cell value }

/-- Sets the account at an address, or takes it away. -/
def setAccount (c : Contents) (address : Address) (account : Option Account) : Contents :=
  { c with accounts := Function.update c.accounts address account }

/-- Takes one write back. -/
def undo (c : Contents) : Undo → Contents
  | .slot cell previous => c.setValue cell previous
  | .account address previous => c.setAccount address previous

/-- Takes writes back, the latest first. -/
def undoAll (c : Contents) (records : List Undo) : Contents := records.foldl undo c

theorem undo_setValue (c : Contents) (cell : Cell) (value : Word) :
    (c.setValue cell value).undo (.slot cell (c.values cell)) = c := by
  simp only [undo, setValue, Function.update_idem, Function.update_eq_self]

theorem undo_setAccount (c : Contents) (address : Address) (account : Option Account) :
    (c.setAccount address account).undo (.account address (c.accounts address)) = c := by
  simp only [undo, setAccount, Function.update_idem, Function.update_eq_self]

theorem undoAll_append (c : Contents) (records records' : List Undo) :
    c.undoAll (records ++ records') = (c.undoAll records).undoAll records' :=
  List.foldl_append

end Contents

namespace Ledger

/-- What the ledger shows. -/
def contents (l : Ledger) : Contents := ⟨fun address => l.accounts[address]?, l.value⟩

theorem contents_empty : (∅ : Ledger).contents = .empty := by
  refine Contents.ext ?_ ?_
  · funext address
    change (∅ : Std.ExtTreeMap Address Account)[address]? = none
    simp
  · funext cell
    change (((∅ : Std.ExtTreeMap Address (Std.ExtTreeMap Key Word))[cell.address]?).getD
      ∅)[cell.key]?.getD (0 : Word) = 0
    simp

theorem contents_write (l : Ledger) (cell : Cell) (value : Word) :
    (l.write cell value).contents = l.contents.setValue cell value := by
  refine Contents.ext rfl ?_
  funext other
  change (l.write cell value).value other = Function.update l.value cell value other
  rw [value_write, Function.update_apply]
  simp only [eq_comm]

theorem contents_record (l : Ledger) (record : Undo) : (l.record record).contents = l.contents := by
  unfold Ledger.record
  split <;> rfl

theorem checkpoints_record (l : Ledger) (record : Undo) :
    (l.record record).checkpoints = l.checkpoints := by
  unfold Ledger.record
  split <;> rfl

/-- In an open transaction, what a write replaces is put on the journal. -/
theorem journal_record {l : Ledger} {mark : Nat} {marks : List Nat}
    (h : l.checkpoints = mark :: marks) (record : Undo) :
    (l.record record).journal = record :: l.journal := by
  unfold Ledger.record
  rw [h]
  rfl

theorem contents_setValue (l : Ledger) (cell : Cell) (value : Word) :
    (l.setValue cell value).contents = l.contents.setValue cell value := by
  rw [setValue, contents_write, contents_record]

/-- An account that is put into a table is found there, and the others stay. -/
theorem getElem?_insert_account (t : Std.ExtTreeMap Address Account) (address : Address)
    (account : Account) :
    (fun other => (t.insert address account)[other]?) =
      Function.update (fun other => t[other]?) address (some account) := by
  funext other
  rw [Function.update_apply]
  by_cases same : address = other
  · simp [same]
  · simp [same, Ne.symm same, Std.ExtTreeMap.getElem?_insert]

/-- An account that is taken out of a table is not found there, and the others stay. -/
theorem getElem?_erase_account (t : Std.ExtTreeMap Address Account) (address : Address) :
    (fun other => (t.erase address)[other]?) =
      Function.update (fun other => t[other]?) address none := by
  funext other
  rw [Function.update_apply]
  by_cases same : address = other
  · simp [same]
  · simp [same, Ne.symm same, Std.ExtTreeMap.getElem?_erase]

theorem contents_setCode (l : Ledger) (address : Address) (code : Bytes) :
    (l.setCode address code).contents = l.contents.setAccount address (some ⟨code⟩) := by
  refine Contents.ext (getElem?_insert_account _ _ _) ?_
  funext cell
  exact value_setCode l address code cell

theorem contents_undo (l : Ledger) (record : Undo) :
    (l.undo record).contents = l.contents.undo record := by
  cases record with
  | slot cell previous => exact contents_write l cell previous
  | account address previous =>
    cases previous with
    | some account => exact Contents.ext (getElem?_insert_account _ _ _) rfl
    | none => exact Contents.ext (getElem?_erase_account _ _) rfl

theorem contents_undoAll (l : Ledger) (records : List Undo) :
    (records.foldl undo l).contents = l.contents.undoAll records := by
  induction records generalizing l with
  | nil => rfl
  | cons record records ih =>
    have h := ih (l.undo record)
    rw [contents_undo] at h
    exact h

end Ledger

/-! ### Copies -/

/-- Contents with a copy for every open transaction, the innermost first. -/
structure Snapshots where
  current : Contents
  saved : List Contents

namespace Snapshots

/-- No contents, and no open transaction. -/
def empty : Snapshots := ⟨.empty, []⟩

/-- Opens a transaction: saves a copy. -/
def checkpoint (s : Snapshots) : Snapshots := { s with saved := s.current :: s.saved }

/-- Keeps the writes of the innermost transaction: drops its copy. -/
def commit (s : Snapshots) : Snapshots := { s with saved := s.saved.tail }

/-- Undoes the writes of the innermost transaction: goes back to its copy. -/
def rollback (s : Snapshots) : Snapshots :=
  match s.saved with
  | [] => s
  | copy :: saved => ⟨copy, saved⟩

end Snapshots

/-- What can be done to a ledger. -/
inductive Ledger.Update
  /-- A write as machines make it. -/
  | store (cell : Cell) (value : Word)
  /-- A write past the interface of backends. -/
  | setValue (cell : Cell) (value : Word)
  | setCode (address : Address) (code : Bytes)
  | checkpoint
  | commit
  | rollback

/-- Does an update to a ledger. -/
def Ledger.apply (l : Ledger) : Update → Ledger
  | .store cell value => (Backend.store l cell value).2
  | .setValue cell value => l.setValue cell value
  | .setCode address code => l.setCode address code
  | .checkpoint => Backend.checkpoint l
  | .commit => Backend.commit l
  | .rollback => Backend.rollback l

/-- Does an update to contents with copies. -/
def Snapshots.apply (s : Snapshots) : Ledger.Update → Snapshots
  | .store cell value | .setValue cell value => { s with current := s.current.setValue cell value }
  | .setCode address code =>
    { s with current := s.current.setAccount address (some ⟨code⟩) }
  | .checkpoint => s.checkpoint
  | .commit => s.commit
  | .rollback => s.rollback

/-! ### What a journal stands for -/

/-- Undoing the records since each mark, the innermost first, gives the copies. -/
def Tracks : List Undo → List Nat → Contents → List Contents → Prop
  | _, [], _, [] => True
  | journal, mark :: marks, current, copy :: saved =>
    mark ≤ journal.length ∧ copy = current.undoAll (journal.take (journal.length - mark)) ∧
      Tracks (journal.drop (journal.length - mark)) marks copy saved
  | _, _, _, _ => False

namespace Tracks

variable {journal : List Undo} {marks : List Nat} {current : Contents} {saved : List Contents}

/-- There is a copy for every open transaction. -/
theorem length_eq (h : Tracks journal marks current saved) : marks.length = saved.length := by
  induction marks generalizing journal current saved with
  | nil =>
    cases saved with
    | nil => rfl
    | cons copy saved => cases h
  | cons mark marks ih =>
    cases saved with
    | nil => cases h
    | cons copy saved => exact congrArg (· + 1) (ih h.2.2)

/-- A write that is recorded leaves the copies as they are. -/
theorem record {mark : Nat} (h : Tracks journal (mark :: marks) current saved) {record : Undo}
    {current' : Contents} (hu : current'.undo record = current) :
    Tracks (record :: journal) (mark :: marks) current' saved := by
  cases saved with
  | nil => cases h
  | cons copy saved =>
    obtain ⟨hm, hc, ht⟩ := h
    have hcount : (record :: journal).length - mark = (journal.length - mark) + 1 := by
      rw [List.length_cons]
      omega
    refine ⟨Nat.le_succ_of_le hm, ?_, ?_⟩
    · rw [hcount, List.take_succ_cons, hc, ← hu]
      rfl
    · rw [hcount, List.drop_succ_cons]
      exact ht

/-- The records of a transaction that is kept belong to the one around it. -/
theorem merge {mark : Nat} {copy : Contents}
    (h : Tracks journal (mark :: marks) current (copy :: saved)) :
    Tracks journal marks current saved := by
  obtain ⟨hm, rfl, ht⟩ := h
  cases marks with
  | nil =>
    cases saved with
    | nil => trivial
    | cons outer saved => cases ht
  | cons mark' marks =>
    -- undoing both transactions is undoing the records of one after those of the other
    cases saved with
    | nil => cases ht
    | cons outer saved =>
      obtain ⟨hm', rfl, ht⟩ := ht
      have hlen : (journal.drop (journal.length - mark)).length = mark := by
        rw [List.length_drop]
        omega
      rw [hlen] at hm' ht
      have hcount : journal.length - mark' = (journal.length - mark) + (mark - mark') := by omega
      refine ⟨Nat.le_trans hm' hm, ?_, ?_⟩
      · rw [hcount, List.take_add, Contents.undoAll_append, hlen]
      · rw [hcount, ← List.drop_drop]
        rwa [hlen]

end Tracks

/-! ### Ledgers agree with copies -/

namespace Ledger

/-- The ledger shows what is current, and its journal stands for the copies. -/
structure Agrees (l : Ledger) (s : Snapshots) : Prop where
  contents : l.contents = s.current
  tracks : Tracks l.journal l.checkpoints s.current s.saved

namespace Agrees

variable {l : Ledger} {s : Snapshots}

/-- A write that keeps a record of what undoes it. -/
theorem write (h : l.Agrees s) {l' : Ledger} (record : Undo) {current : Contents}
    (hcontents : l'.contents = current) (hundo : current.undo record = s.current)
    (hjournal : l'.journal = (l.record record).journal) (hmarks : l'.checkpoints = l.checkpoints) :
    l'.Agrees { s with current } := by
  refine ⟨hcontents, ?_⟩
  have ht := h.tracks
  rw [hjournal, hmarks]
  unfold Ledger.record
  cases hm : l.checkpoints with
  | nil =>
    -- nothing is recorded, and there is no copy to stand for
    rw [hm] at ht
    cases hs : s.saved with
    | nil => trivial
    | cons copy saved => rw [hs] at ht; cases ht
  | cons mark marks =>
    rw [hm] at ht
    exact ht.record hundo

theorem setValue (h : l.Agrees s) (cell : Cell) (value : Word) :
    (l.setValue cell value).Agrees { s with current := s.current.setValue cell value } := by
  have hv : l.value cell = s.current.values cell :=
    congrFun (congrArg Contents.values h.contents) cell
  refine h.write (.slot cell (l.value cell)) ?_ ?_ rfl ?_
  · rw [contents_setValue, h.contents]
  · rw [hv]
    exact Contents.undo_setValue s.current cell value
  · exact checkpoints_record l _

theorem setCode (h : l.Agrees s) (address : Address) (code : Bytes) :
    (l.setCode address code).Agrees
      { s with current := s.current.setAccount address (some ⟨code⟩) } := by
  have ha : l.accounts[address]? = s.current.accounts address :=
    congrFun (congrArg Contents.accounts h.contents) address
  refine h.write (.account address l.accounts[address]?) ?_ ?_ rfl ?_
  · rw [contents_setCode, h.contents]
  · rw [ha]
    exact Contents.undo_setAccount s.current address _
  · exact checkpoints_record l _

theorem checkpoint (h : l.Agrees s) : l.checkpoint.Agrees s.checkpoint := by
  refine ⟨h.contents, Nat.le_refl _, ?_, ?_⟩
  · change s.current = s.current.undoAll (l.journal.take (l.journal.length - l.journal.length))
    rw [Nat.sub_self]
    rfl
  · change Tracks (l.journal.drop (l.journal.length - l.journal.length)) _ _ _
    rw [Nat.sub_self]
    exact h.tracks

theorem commit (h : l.Agrees s) : l.commit.Agrees s.commit := by
  obtain ⟨accounts, storage, journal, marks⟩ := l
  obtain ⟨current, saved⟩ := s
  obtain ⟨hc, ht⟩ := h
  have hl : marks.length = saved.length := ht.length_eq
  rcases marks with _ | ⟨mark, _ | ⟨mark', marks⟩⟩ <;> rcases saved with _ | ⟨copy, saved⟩
  · exact ⟨hc, trivial⟩
  · cases hl
  · cases hl
  · -- the outermost transaction: there is nothing left to undo into
    obtain rfl : saved = [] := List.eq_nil_of_length_eq_zero (Nat.succ.inj hl).symm
    exact ⟨hc, trivial⟩
  · cases hl
  · exact ⟨hc, ht.merge⟩

theorem rollback (h : l.Agrees s) : l.rollback.Agrees s.rollback := by
  obtain ⟨accounts, storage, journal, marks⟩ := l
  obtain ⟨current, saved⟩ := s
  obtain ⟨hc, ht⟩ := h
  cases marks with
  | nil =>
    cases saved with
    | nil => exact ⟨hc, trivial⟩
    | cons copy saved => cases ht
  | cons mark marks =>
    cases saved with
    | nil => cases ht
    | cons copy saved =>
      obtain ⟨-, hcopy, ht⟩ := ht
      refine ⟨?_, ht⟩
      rw [Snapshots.rollback, hcopy, ← hc]
      exact contents_undoAll _ _

/-- An update keeps ledgers and copies in agreement. -/
theorem apply (h : l.Agrees s) (update : Update) : (l.apply update).Agrees (s.apply update) := by
  cases update with
  | store cell value => exact h.setValue cell value
  | setValue cell value => exact h.setValue cell value
  | setCode address code => exact h.setCode address code
  | checkpoint => exact h.checkpoint
  | commit => exact h.commit
  | rollback => exact h.rollback

/-- So does any sequence of updates. -/
theorem foldl_apply (h : l.Agrees s) (updates : List Update) :
    (updates.foldl Ledger.apply l).Agrees (updates.foldl Snapshots.apply s) := by
  induction updates generalizing l s with
  | nil => exact h
  | cons update updates ih => exact ih (h.apply update)

end Agrees

theorem agrees_empty : (∅ : Ledger).Agrees .empty := ⟨contents_empty, trivial⟩

/-- **A ledger is nested copies.**  After any updates, in any order and also with transactions
that were never opened, a ledger shows the same cells and the same accounts as contents that are
copied for every transaction, and has as many transactions open. -/
theorem foldl_apply_eq_snapshots (updates : List Update) :
    let l := updates.foldl Ledger.apply ∅
    let s := updates.foldl Snapshots.apply .empty
    (∀ cell, l.value cell = s.current.values cell) ∧
      (∀ address, l.accounts[address]? = s.current.accounts address) ∧
      l.depth = s.saved.length := by
  intro l s
  have h : l.Agrees s := agrees_empty.foldl_apply updates
  refine ⟨fun cell => ?_, fun address => ?_, h.tracks.length_eq⟩
  · exact congrFun (congrArg Contents.values h.contents) cell
  · exact congrFun (congrArg Contents.accounts h.contents) address

end Ledger

end ContractVM
