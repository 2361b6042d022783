import ContractVM.Backend.Basic

/-!
# Counting reads and writes

`Counted σ` is a backend that passes every call on to another one and counts how many reads and
how many writes of cells there were, also of those that failed.
-/

namespace ContractVM

/-- A backend with counts of the reads and writes that reached it. -/
structure Counted (σ : Type) where
  inner : σ
  loads : Nat
  stores : Nat

namespace Counted

variable {σ : Type}

/-- A backend that has not been asked yet. -/
def new (inner : σ) : Counted σ := ⟨inner, 0, 0⟩

/-- Sets both counts to zero. -/
def reset (c : Counted σ) : Counted σ := { c with loads := 0, stores := 0 }

/-- Changes the backend inside, past the counts. -/
def modify (c : Counted σ) (f : σ → σ) : Counted σ := { c with inner := f c.inner }

instance [Backend σ] : Backend (Counted σ) where
  load c cell :=
    let (answer, inner) := Backend.load c.inner cell
    (answer, { c with inner, loads := c.loads + 1 })
  store c cell value :=
    let (answer, inner) := Backend.store c.inner cell value
    (answer, { c with inner, stores := c.stores + 1 })
  code c address :=
    let (answer, inner) := Backend.code c.inner address
    (answer, { c with inner })
  checkpoint c := c.modify Backend.checkpoint
  commit c := c.modify Backend.commit
  rollback c := c.modify Backend.rollback

end Counted

end ContractVM
