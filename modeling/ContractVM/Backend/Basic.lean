import ContractVM.Halt

/-!
# Backends

A backend holds accounts and their cells for the machine.  It answers reads, writes and code
look-ups, each of which may fail, and it keeps nested transactions: `checkpoint` opens one,
`commit` closes the innermost and keeps its writes, `rollback` closes it and undoes them.  Every
call gives the backend as it is afterwards.
-/

namespace ContractVM

/-- A holder of accounts and cells. -/
class Backend (σ : Type) where
  /-- The value of a cell. -/
  load : σ → Cell → Except BackendError Word × σ
  /-- Sets the value of a cell. -/
  store : σ → Cell → Word → Except BackendError Unit × σ
  /-- The code of an account, empty if there is none. -/
  code : σ → Address → Except BackendError Bytes × σ
  /-- Opens a transaction inside those that are open. -/
  checkpoint : σ → σ
  /-- Closes the innermost transaction and keeps its writes. -/
  commit : σ → σ
  /-- Closes the innermost transaction and undoes its writes. -/
  rollback : σ → σ

end ContractVM
