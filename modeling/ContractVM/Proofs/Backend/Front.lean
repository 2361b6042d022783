import ContractVM.Backend.Logged
import ContractVM.Ledger.Basic

/-!
# Backends in front of a ledger

A `Front` is a backend that stands in front of a ledger.  It passes transactions on, and it
answers each other call as the ledger does or refuses it; a call that is refused leaves the ledger
as it was.  Whether a call is refused may depend on anything.

* `Refusing σ` : refuses by a fixed `Policy`, which says of every cell and of every address whether
  calls about it are refused, and with which error.
* `Scripted σ` : refuses single calls, as its script says of the first, the second, and so on.
* `Logged σ` : refuses what the backend behind it refuses.
-/

namespace ContractVM

/-- A backend that answers as a ledger does, or refuses to. -/
class Front (σ : Type) [Backend σ] where
  /-- The ledger behind it. -/
  ledger : σ → Ledger
  ledger_load : ∀ s cell, ledger (Backend.load s cell).2 = ledger s
  value_of_load : ∀ s cell value, (Backend.load s cell).1 = .ok value →
    (ledger s).value cell = value
  ledger_store : ∀ s cell value, (Backend.store s cell value).1 = .ok () →
    ledger (Backend.store s cell value).2 = (ledger s).setValue cell value
  ledger_store_error : ∀ s cell value error, (Backend.store s cell value).1 = .error error →
    ledger (Backend.store s cell value).2 = ledger s
  ledger_code : ∀ s address, ledger (Backend.code s address).2 = ledger s
  code_of_code : ∀ s address code, (Backend.code s address).1 = .ok code →
    ((ledger s).account address).code = code
  ledger_checkpoint : ∀ s, ledger (Backend.checkpoint s) = (ledger s).checkpoint
  ledger_commit : ∀ s, ledger (Backend.commit s) = (ledger s).commit
  ledger_rollback : ∀ s, ledger (Backend.rollback s) = (ledger s).rollback

instance : Front Ledger where
  ledger l := l
  ledger_load _ _ := rfl
  value_of_load _ _ _ h := Except.ok.inj h
  ledger_store _ _ _ _ := rfl
  ledger_store_error _ _ _ _ h := nomatch h
  ledger_code _ _ := rfl
  code_of_code _ _ _ h := Except.ok.inj h
  ledger_checkpoint _ := rfl
  ledger_commit _ := rfl
  ledger_rollback _ := rfl

instance {σ : Type} [Backend σ] [Front σ] : Front (Logged σ) where
  ledger l := Front.ledger l.inner
  ledger_load l := Front.ledger_load l.inner
  value_of_load l := Front.value_of_load l.inner
  ledger_store l := Front.ledger_store l.inner
  ledger_store_error l := Front.ledger_store_error l.inner
  ledger_code l := Front.ledger_code l.inner
  code_of_code l := Front.code_of_code l.inner
  ledger_checkpoint l := Front.ledger_checkpoint l.inner
  ledger_commit l := Front.ledger_commit l.inner
  ledger_rollback l := Front.ledger_rollback l.inner

/-! ### Calls that are refused -/

namespace Backend

variable {σ α : Type}

/-- Makes a call to a backend unless it is refused. -/
def attempt (refusal : Option BackendError) (call : σ → Except BackendError α × σ) (s : σ) :
    Except BackendError α × σ :=
  match refusal with
  | some error => (.error error, s)
  | none => call s

/-- An answer was given by the call itself. -/
theorem attempt_ok {refusal : Option BackendError} {call : σ → Except BackendError α × σ} {s : σ}
    {answer : α} (h : (attempt refusal call s).1 = .ok answer) : (call s).1 = .ok answer := by
  cases refusal with
  | none => exact h
  | some error => cases h

end Backend

/-- Which calls are refused, and with which error. -/
structure Policy where
  load : Cell → Option BackendError
  store : Cell → Option BackendError
  code : Address → Option BackendError

/-- The policy that refuses nothing. -/
def Policy.permissive : Policy := ⟨fun _ => none, fun _ => none, fun _ => none⟩

/-- A backend behind a policy. -/
structure Refusing (σ : Type) where
  inner : σ
  policy : Policy

namespace Refusing

variable {σ : Type} [Backend σ]

instance : Backend (Refusing σ) where
  load r cell :=
    let (answer, inner) := Backend.attempt (r.policy.load cell) (Backend.load · cell) r.inner
    (answer, { r with inner })
  store r cell value :=
    let (answer, inner) := Backend.attempt (r.policy.store cell) (Backend.store · cell value) r.inner
    (answer, { r with inner })
  code r address :=
    let (answer, inner) := Backend.attempt (r.policy.code address) (Backend.code · address) r.inner
    (answer, { r with inner })
  checkpoint r := { r with inner := Backend.checkpoint r.inner }
  commit r := { r with inner := Backend.commit r.inner }
  rollback r := { r with inner := Backend.rollback r.inner }

end Refusing

/-- A backend whose first calls are refused, or not, as the script says. -/
structure Scripted (σ : Type) where
  inner : σ
  script : List (Option BackendError)

namespace Scripted

variable {σ : Type} [Backend σ]

/-- Makes a call unless it is refused, and goes on in the script. -/
abbrev ask {α : Type} (s : Scripted σ) (call : σ → Except BackendError α × σ) :
    Except BackendError α × Scripted σ :=
  let (answer, inner) := Backend.attempt s.script.head?.join call s.inner
  (answer, ⟨inner, s.script.tail⟩)

instance : Backend (Scripted σ) where
  load s cell := s.ask (Backend.load · cell)
  store s cell value := s.ask (Backend.store · cell value)
  code s address := s.ask (Backend.code · address)
  checkpoint s := { s with inner := Backend.checkpoint s.inner }
  commit s := { s with inner := Backend.commit s.inner }
  rollback s := { s with inner := Backend.rollback s.inner }

end Scripted

namespace Front

variable {σ α : Type} [Backend σ] [Front σ] {refusal : Option BackendError}
  {call : σ → Except BackendError α × σ} {s : σ}

theorem ledger_attempt (h : ledger (call s).2 = ledger s) :
    ledger (Backend.attempt refusal call s).2 = ledger s := by
  cases refusal with
  | none => exact h
  | some error => rfl

theorem ledger_attempt_error {error : BackendError}
    (h : (call s).1 = .error error → ledger (call s).2 = ledger s)
    (he : (Backend.attempt refusal call s).1 = .error error) :
    ledger (Backend.attempt refusal call s).2 = ledger s := by
  cases refusal with
  | none => exact h he
  | some error => rfl

theorem ledger_attempt_ok {answer : α} {l : Ledger}
    (h : (call s).1 = .ok answer → ledger (call s).2 = l)
    (ho : (Backend.attempt refusal call s).1 = .ok answer) :
    ledger (Backend.attempt refusal call s).2 = l := by
  cases refusal with
  | none => exact h ho
  | some error => cases ho

instance : Front (Refusing σ) where
  ledger r := ledger r.inner
  ledger_load r cell := ledger_attempt (ledger_load r.inner cell)
  value_of_load r cell value h := value_of_load r.inner cell value (Backend.attempt_ok h)
  ledger_store r cell value h := ledger_attempt_ok (ledger_store r.inner cell value) h
  ledger_store_error r cell value error h :=
    ledger_attempt_error (ledger_store_error r.inner cell value error) h
  ledger_code r address := ledger_attempt (ledger_code r.inner address)
  code_of_code r address code h := code_of_code r.inner address code (Backend.attempt_ok h)
  ledger_checkpoint r := ledger_checkpoint r.inner
  ledger_commit r := ledger_commit r.inner
  ledger_rollback r := ledger_rollback r.inner

instance : Front (Scripted σ) where
  ledger s := ledger s.inner
  ledger_load s cell := ledger_attempt (ledger_load s.inner cell)
  value_of_load s cell value h := value_of_load s.inner cell value (Backend.attempt_ok h)
  ledger_store s cell value h := ledger_attempt_ok (ledger_store s.inner cell value) h
  ledger_store_error s cell value error h :=
    ledger_attempt_error (ledger_store_error s.inner cell value error) h
  ledger_code s address := ledger_attempt (ledger_code s.inner address)
  code_of_code s address code h := code_of_code s.inner address code (Backend.attempt_ok h)
  ledger_checkpoint s := ledger_checkpoint s.inner
  ledger_commit s := ledger_commit s.inner
  ledger_rollback s := ledger_rollback s.inner

end Front

end ContractVM
