import ContractVM.Backend.Basic

/-!
# A log of backend calls

`Logged σ` is a backend that passes every call on to another one and writes down each call with
the answer it got.
-/

namespace ContractVM

/-- A call to a backend, with its answer. -/
inductive Call
  | load (cell : Cell) (answer : Except BackendError Word)
  | store (cell : Cell) (value : Word) (answer : Except BackendError Unit)
  | code (address : Address) (answer : Except BackendError Bytes)
  | checkpoint
  | commit
  | rollback

/-- A backend with the calls that reached it, the latest first. -/
structure Logged (σ : Type) where
  inner : σ
  log : List Call

namespace Logged

variable {σ : Type}

/-- A backend that has not been asked yet. -/
def new (inner : σ) : Logged σ := ⟨inner, []⟩

/-- The calls in the order in which they were made. -/
def calls (l : Logged σ) : List Call := l.log.reverse

/-- Forgets the calls. -/
def clear (l : Logged σ) : Logged σ := { l with log := [] }

/-- Changes the backend inside, past the log. -/
def modify (l : Logged σ) (f : σ → σ) : Logged σ := { l with inner := f l.inner }

instance [Backend σ] : Backend (Logged σ) where
  load l cell :=
    let (answer, inner) := Backend.load l.inner cell
    (answer, ⟨inner, .load cell answer :: l.log⟩)
  store l cell value :=
    let (answer, inner) := Backend.store l.inner cell value
    (answer, ⟨inner, .store cell value answer :: l.log⟩)
  code l address :=
    let (answer, inner) := Backend.code l.inner address
    (answer, ⟨inner, .code address answer :: l.log⟩)
  checkpoint l := ⟨Backend.checkpoint l.inner, .checkpoint :: l.log⟩
  commit l := ⟨Backend.commit l.inner, .commit :: l.log⟩
  rollback l := ⟨Backend.rollback l.inner, .rollback :: l.log⟩

end Logged

end ContractVM
