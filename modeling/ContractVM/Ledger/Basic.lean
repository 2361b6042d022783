import Std.Data.ExtTreeMap
import ContractVM.Backend.Basic

/-!
# The ledger

A `Ledger` is a backend in memory.  It never fails.  A cell that was never written is zero, and
only cells that are not zero are held, so ledgers with equal values hold equal storage.

Instead of copying itself at every `checkpoint`, a ledger with an open transaction writes down
what each write replaces: `journal` holds these `Undo` records, the latest first, and
`checkpoints` holds how many there were when each open transaction began, the innermost first.
A `rollback` undoes the records made since; a `commit` leaves them to the transaction around it,
and the outermost commit forgets them.
-/

namespace ContractVM

/-- How to undo one write. -/
inductive Undo
  /-- The cell had this value. -/
  | slot (cell : Cell) (previous : Word)
  /-- The account was this one, or there was none. -/
  | account (address : Address) (previous : Option Account)

/-- Accounts with storage, and how to undo the writes of the open transactions. -/
structure Ledger where
  accounts : Std.ExtTreeMap Address Account
  storage : Std.ExtTreeMap Address (Std.ExtTreeMap Key Word)
  journal : List Undo
  checkpoints : List Nat

namespace Ledger

/-- No accounts, no storage, and no open transaction. -/
def empty : Ledger := ⟨∅, ∅, [], []⟩

instance : EmptyCollection Ledger := ⟨empty⟩

/-! ### Reading -/

/-- The account at an address, one without code if there is none. -/
def account (l : Ledger) (address : Address) : Account :=
  (l.accounts[address]?).getD default

/-- The slots of an account that are held. -/
def slots (l : Ledger) (address : Address) : Std.ExtTreeMap Key Word :=
  (l.storage[address]?).getD ∅

/-- The value of a cell. -/
def value (l : Ledger) (cell : Cell) : Word := ((l.slots cell.address)[cell.key]?).getD 0

/-- All cells that are not zero, in order, with their values. -/
def cells (l : Ledger) : List (Cell × Word) :=
  l.storage.toList.flatMap fun (address, slots) =>
    slots.toList.map fun (key, value) => (⟨address, key⟩, value)

/-- How many transactions are open. -/
def depth (l : Ledger) : Nat := l.checkpoints.length

/-! ### Writing -/

/-- Holds these slots of an account, and no table if there are none. -/
def setSlots (l : Ledger) (address : Address) (slots : Std.ExtTreeMap Key Word) : Ledger :=
  { l with
    storage :=
      if slots.isEmpty then l.storage.erase address else l.storage.insert address slots }

/-- Sets the value of a cell without a record of it.  A cell that is zero is not held. -/
def write (l : Ledger) (cell : Cell) (value : Word) : Ledger :=
  let slots := l.slots cell.address
  l.setSlots cell.address
    (if value.isZero then slots.erase cell.key else slots.insert cell.key value)

/-- Keeps a record for the open transactions, if there are any. -/
def record (l : Ledger) (undo : Undo) : Ledger :=
  if l.checkpoints.isEmpty then l else { l with journal := undo :: l.journal }

/-- Sets the value of a cell. -/
def setValue (l : Ledger) (cell : Cell) (value : Word) : Ledger :=
  (l.record (.slot cell (l.value cell))).write cell value

/-- Sets the code of an account, which is made if there is none. -/
def setCode (l : Ledger) (address : Address) (code : Bytes) : Ledger :=
  { l.record (.account address l.accounts[address]?) with
    accounts := l.accounts.insert address ⟨code⟩ }

/-! ### Transactions -/

/-- Takes one write back. -/
def undo (l : Ledger) : Undo → Ledger
  | .slot cell previous => l.write cell previous
  | .account address (some previous) =>
    { l with accounts := l.accounts.insert address previous }
  | .account address none => { l with accounts := l.accounts.erase address }

/-- Opens a transaction. -/
def checkpoint (l : Ledger) : Ledger :=
  { l with checkpoints := l.journal.length :: l.checkpoints }

/-- Closes the innermost transaction and keeps its writes.  With none left open, there is nothing
to undo into. -/
def commit (l : Ledger) : Ledger :=
  match l.checkpoints.tail with
  | [] => { l with checkpoints := [], journal := [] }
  | rest => { l with checkpoints := rest }

/-- Closes the innermost transaction and undoes its writes, the latest first. -/
def rollback (l : Ledger) : Ledger :=
  match l.checkpoints with
  | [] => l
  | mark :: rest =>
    let count := l.journal.length - mark
    let undone := (l.journal.take count).foldl undo l
    { undone with journal := l.journal.drop count, checkpoints := rest }

instance : Backend Ledger where
  load l cell := (.ok (l.value cell), l)
  store l cell value := (.ok (), l.setValue cell value)
  code l address := (.ok (l.account address).code, l)
  checkpoint := checkpoint
  commit := commit
  rollback := rollback

end Ledger

end ContractVM
