import ContractVM.Proofs.Ledger.Coupled

/-!
# Runs do not depend on what came before

Ledgers that have come about in different ways may show the same, and yet differ in the
transactions that are open and in the records that undo them.  A run sees only what a ledger shows,
and goes back only to transactions that it has opened itself.  So it does the same over both, and
leaves alone what it found in each: of a ledger that came about by updates, it is known when all of
its open transactions began (`Ledger.fullyOpened_foldl_apply`), and after a run each of them still
goes back to the ledger that there was then (`Message.keepsTransactions_call`).

`Message.call_independent_of_history` is the statement about top-level calls.
-/

namespace ContractVM

namespace Ledger

/-! ### Ledgers that have come about -/

/-- A write opens and closes no transaction. -/
@[simp] theorem depth_setValue (l : Ledger) (cell : Cell) (value : Word) :
    (l.setValue cell value).depth = l.depth := congrArg List.length (checkpoints_record l _)

@[simp] theorem depth_setCode (l : Ledger) (address : Address) (code : Bytes) :
    (l.setCode address code).depth = l.depth := congrArg List.length (checkpoints_record l _)

@[simp] theorem depth_checkpoint (l : Ledger) : l.checkpoint.depth = l.depth + 1 := rfl

@[simp] theorem depth_commit (l : Ledger) : l.commit.depth = l.depth - 1 :=
  (congrArg List.length (checkpoints_commit l)).trans List.length_tail

@[simp] theorem depth_rollback (l : Ledger) : l.rollback.depth = l.depth - 1 :=
  (congrArg List.length (checkpoints_rollback l)).trans List.length_tail

@[simp] theorem accounts_checkpoint (l : Ledger) : l.checkpoint.accounts = l.accounts := rfl

@[simp] theorem accounts_setValue (l : Ledger) (cell : Cell) (value : Word) :
    (l.setValue cell value).accounts = l.accounts := by
  refine accounts_eq_of_contents ?_
  rw [contents_setValue]
  rfl

/-- Of all transactions that are open it is known when they began. -/
def FullyOpened (l : Ledger) : Prop := ∃ saved, Opened saved l ∧ saved.length = l.depth

namespace FullyOpened

variable {l : Ledger}

theorem canonical (h : FullyOpened l) : l.Canonical := by
  obtain ⟨saved, hl, -⟩ := h
  exact hl.canonical

theorem setValue (h : FullyOpened l) (cell : Cell) (value : Word) :
    FullyOpened (l.setValue cell value) := by
  obtain ⟨saved, hl, hlen⟩ := h
  exact ⟨saved, hl.setValue cell value, hlen.trans (l.depth_setValue cell value).symm⟩

theorem setCode (h : FullyOpened l) (address : Address) (code : Bytes) :
    FullyOpened (l.setCode address code) := by
  obtain ⟨saved, hl, hlen⟩ := h
  exact ⟨saved, hl.setCode address code, hlen.trans (l.depth_setCode address code).symm⟩

theorem checkpoint (h : FullyOpened l) : FullyOpened l.checkpoint := by
  obtain ⟨saved, hl, hlen⟩ := h
  exact ⟨l :: saved, hl.checkpoint, congrArg (· + 1) hlen⟩

/-- Without a transaction, there is none to be closed. -/
theorem commit (h : FullyOpened l) : FullyOpened l.commit := by
  obtain ⟨saved, hl, hlen⟩ := h
  have hdepth := l.depth_commit
  rw [← hlen] at hdepth
  cases saved with
  | nil => exact ⟨[], hl.canonical.commit, hdepth.symm⟩
  | cons s saved => exact ⟨saved, hl.commit, hdepth.symm⟩

theorem rollback (h : FullyOpened l) : FullyOpened l.rollback := by
  obtain ⟨saved, hl, hlen⟩ := h
  have hdepth := l.depth_rollback
  rw [← hlen] at hdepth
  cases saved with
  | nil => exact ⟨[], hl.canonical.rollback, hdepth.symm⟩
  | cons s saved => exact ⟨saved, hl.rollback, hdepth.symm⟩

end FullyOpened

theorem keptByUpdates_fullyOpened : KeptByUpdates FullyOpened where
  setValue cell value h := h.setValue cell value
  setCode address code h := h.setCode address code
  checkpoint h := h.checkpoint
  commit h := h.commit
  rollback h := h.rollback

theorem fullyOpened_foldl_apply (updates : List Update) :
    FullyOpened (updates.foldl Ledger.apply ∅) := by
  have hempty : FullyOpened ∅ := ⟨[], canonical_empty, rfl⟩
  exact keptByUpdates_fullyOpened.foldl_apply hempty updates

/-! ### Transactions that stay open -/

/-- The same transactions are open in the second ledger as in the first, and however many of them
are kept, the next one goes back to the same ledger when it is rolled back. -/
structure KeepsTransactions (l l' : Ledger) : Prop where
  depth : l'.depth = l.depth
  rollback : ∀ n < l.depth, (commit^[n] l').rollback = (commit^[n] l).rollback

end Ledger

/-! ### Two ledgers that show the same -/

theorem Bytes.lengthens_eq : Bytes.Lengthens Eq := ⟨fun _ => rfl, fun h => h ▸ .refl _⟩

/-- Calls that are the same up to the same code are the same. -/
theorem Call.eq_of_recoded {calls calls' : List Call}
    (h : List.Forall₂ (Call.Recoded Eq) calls calls') : calls' = calls := by
  have heq : List.Forall₂ Eq calls calls' := by
    refine h.imp fun call call' hcall => ?_
    cases hcall with
    | same call => rfl
    | code address hcode => rw [hcode]
  exact (List.forall₂_eq_eq_eq ▸ heq : calls = calls').symm

namespace Message

/-- A top-level call leaves alone the transactions that were open before. -/
theorem keepsTransactions_call {σ : Type} [Backend σ] [Front σ] (cfg : Config) (m : Message)
    (e : Env σ) (h : e.ledger.FullyOpened) :
    e.ledger.KeepsTransactions (m.call cfg e).2.ledger := by
  obtain ⟨saved, hopened, hlen⟩ := h
  have hend := Ledger.nests_opened.call cfg m hopened
  have hbegin : e.ledger.checkpoints = [] ++ e.ledger.checkpoints := rfl
  have hsame : (m.call cfg e).2.ledger.checkpoints = e.ledger.checkpoints :=
    (Ledger.nests_checkpoints e.ledger.checkpoints).call cfg m hbegin
  refine ⟨congrArg List.length hsame, fun n hn => ?_⟩
  rw [← hlen] at hn
  rw [hend.rollback_commit hn, hopened.rollback_commit hn]

/-- **A result does not depend on history.**  Two ledgers that updates have led to, with any number
of transactions open in each, have the same accounts and the same values.  Then a top-level call
gives the same result over both, makes the same calls, which get the same answers, and leaves the
same accounts and the same storage.  In each of them, the transactions that were open before are
open afterwards, and can be rolled back to what they would have gone back to without the call. -/
theorem call_independent_of_history (cfg : Config) (m : Message) {l l' : Ledger}
    (updates updates' : List Ledger.Update) (hl : l = updates.foldl Ledger.apply ∅)
    (hl' : l' = updates'.foldl Ledger.apply ∅) (haccounts : l'.accounts = l.accounts)
    (hvalues : ∀ cell, l'.value cell = l.value cell)
    (found found' : Attachment) (events events' : List Event) :
    let r := m.call cfg ⟨Logged.new l, found, events⟩
    let r' := m.call cfg ⟨Logged.new l', found', events'⟩
    r'.1 = r.1 ∧ r'.2.calls = r.2.calls ∧
      r'.2.ledger.accounts = r.2.ledger.accounts ∧ r'.2.ledger.storage = r.2.ledger.storage ∧
      l.KeepsTransactions r.2.ledger ∧ l'.KeepsTransactions r'.2.ledger := by
  intro r r'
  have hm : m.Recoded Eq m := ⟨m.code, rfl, rfl⟩
  have hshow : l.contents.Recoded Eq l'.contents := by
    refine ⟨funext hvalues, fun address => ?_⟩
    unfold Ledger.contents
    rw [haccounts]
  obtain ⟨hresult, hcalls, hcontents⟩ :=
    call_coupled Bytes.lengthens_eq cfg hm hshow found found' events events'
  have hopened : l.FullyOpened := hl ▸ Ledger.fullyOpened_foldl_apply updates
  have hopened' : l'.FullyOpened := hl' ▸ Ledger.fullyOpened_foldl_apply updates'
  have haccounts₁ : r.2.ledger.accounts = l.accounts := accounts_call cfg m _
  have haccounts₂ : r'.2.ledger.accounts = l'.accounts := accounts_call cfg m _
  refine ⟨hresult, Call.eq_of_recoded hcalls, ?_, hcontents.storage_eq ?_ ?_, ?_, ?_⟩
  · rw [haccounts₁, haccounts₂, haccounts]
  · exact Ledger.canonical_call cfg m _ hopened.canonical
  · exact Ledger.canonical_call cfg m _ hopened'.canonical
  · exact keepsTransactions_call cfg m ⟨Logged.new l, found, events⟩ hopened
  · exact keepsTransactions_call cfg m ⟨Logged.new l', found', events'⟩ hopened'

/-- The cell had other values before, and in the second ledger one more transaction is open.  The
message calls code that writes the cell and then halts. -/
theorem call_independent_of_history_of_nested :
    let cell : Cell := ⟨.ofWord 1, default⟩
    let code : Bytes := .ofList [0x60, 0x07, 0x5f, 0x55, 0xfe]
    let updates : List Ledger.Update :=
      [.setCode cell.address code, .setValue cell 1, .checkpoint, .setValue cell (.ofUInt64 2)]
    let updates' : List Ledger.Update :=
      [.setCode cell.address code, .checkpoint, .setValue cell (.ofUInt64 5), .checkpoint,
        .setValue cell (.ofUInt64 2)]
    let l := updates.foldl Ledger.apply ∅
    let l' := updates'.foldl Ledger.apply ∅
    let m := Message.new default default
      (.ofList [0x5f, 0x5f, 0x5f, 0x5f, 0x5f, 0x60, 0x01, 0x5f, 0xf1])
    let r := m.call .standard ⟨Logged.new l, .absent, []⟩
    let r' := m.call .standard ⟨Logged.new l', .absent, []⟩
    l.depth = 1 ∧ l'.depth = 2 ∧ l'.accounts = l.accounts ∧ (∀ cell, l'.value cell = l.value cell) ∧
      r'.1 = r.1 ∧ r'.2.calls = r.2.calls ∧
      r'.2.ledger.accounts = r.2.ledger.accounts ∧ r'.2.ledger.storage = r.2.ledger.storage ∧
      l.KeepsTransactions r.2.ledger ∧ l'.KeepsTransactions r'.2.ledger := by
  intro cell code updates updates' l l' m r r'
  let began : Ledger := (∅ : Ledger).setCode cell.address code
  let past := began.setValue cell 1
  let past' := began.checkpoint.setValue cell (.ofUInt64 5)
  have hl : l = past.checkpoint.setValue cell (.ofUInt64 2) := rfl
  have hl' : l' = past'.checkpoint.setValue cell (.ofUInt64 2) := rfl
  have hbegan : began.depth = 0 := Ledger.depth_setCode _ _ _
  have hdepth : l.depth = 1 := by simp [hl, past, hbegan]
  have hdepth' : l'.depth = 2 := by simp [hl', past', hbegan]
  have haccounts : l'.accounts = l.accounts := by simp [hl, hl', past, past']
  have hvalues : ∀ other, l'.value other = l.value other := by
    intro other
    rw [hl, hl', Ledger.value_setValue, Ledger.value_setValue]
    split
    · rfl
    · rename_i hother
      change past'.value other = past.value other
      rw [Ledger.value_setValue, Ledger.value_setValue, if_neg hother, if_neg hother]
      rfl
  exact ⟨hdepth, hdepth', haccounts, hvalues, call_independent_of_history .standard m updates
    updates' rfl rfl haccounts hvalues .absent .absent [] []⟩

end Message

end ContractVM
