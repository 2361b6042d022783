import ContractVM.Backend.Basic

/-!
# Faults on demand

`Faulty σ` is a backend that passes calls on to another one unless one of its rules applies.  A
`Rule` names the calls it is for, how many of them it lets pass first, and how often it applies;
of several rules the first one that is ready applies.  It may refuse the call, change the value
that is read or written, or let a write succeed that does nothing.

A rule whose effect has no meaning for the call is used up and changes nothing.
-/

namespace ContractVM

/-- The calls that rules are about. -/
inductive CallKind
  | load
  | store
  | code
  deriving DecidableEq

/-- What a rule does to a call. -/
inductive Effect
  /-- The backend cannot be reached. -/
  | unavailable (reason : String)
  /-- The access to the cell is refused. -/
  | rejected
  /-- This value is read, or written. -/
  | value (value : Word)
  /-- The write does nothing and succeeds. -/
  | ignore

/-- Which calls are changed, and how. -/
structure Rule where
  kind : CallKind
  /-- Only calls about this account. -/
  address : Option Address
  /-- Only calls about this slot; a call for code is about no slot. -/
  key : Option Key
  /-- How many calls pass before the rule is ready. -/
  skip : Nat
  /-- How often the rule still applies, without end if absent. -/
  times : Option Nat
  effect : Effect

namespace Rule

/-- Whether the rule is about a call. -/
def isAbout (r : Rule) (kind : CallKind) (address : Address) (key : Option Key) : Bool :=
  r.kind = kind && r.address.all (· = address) && r.key.all (key = some ·)

/-- What happens to a call, and the rules afterwards. -/
def choose (kind : CallKind) (address : Address) (key : Option Key) :
    List Rule → Option Effect × List Rule
  | [] => (none, [])
  | r :: rules =>
    if r.isAbout kind address key ∧ r.times ≠ some 0 ∧ r.skip = 0 then
      (some r.effect, { r with times := r.times.map (· - 1) } :: rules)
    else
      let passed :=
        if r.isAbout kind address key ∧ r.times ≠ some 0 then { r with skip := r.skip - 1 } else r
      let (effect, rest) := choose kind address key rules
      (effect, passed :: rest)

end Rule

/-- A backend behind rules. -/
structure Faulty (σ : Type) where
  inner : σ
  rules : List Rule

namespace Faulty

variable {σ : Type}

/-- A backend that nothing happens to. -/
def new (inner : σ) : Faulty σ := ⟨inner, []⟩

/-- Changes the backend inside, past the rules. -/
def modify (f : Faulty σ) (g : σ → σ) : Faulty σ := { f with inner := g f.inner }

variable [Backend σ]

/-- Reads a cell as the rules have it. -/
def load (f : Faulty σ) (cell : Cell) : Except BackendError Word × Faulty σ :=
  let (effect, rules) := Rule.choose .load cell.address (some cell.key) f.rules
  match effect with
  | some (.unavailable reason) => (.error (.unavailable reason), { f with rules })
  | some .rejected => (.error (.rejected cell), { f with rules })
  | some (.value value) => (.ok value, { f with rules })
  | some .ignore | none =>
    let (answer, inner) := Backend.load f.inner cell
    (answer, ⟨inner, rules⟩)

/-- Writes a cell as the rules have it. -/
def store (f : Faulty σ) (cell : Cell) (value : Word) : Except BackendError Unit × Faulty σ :=
  let (effect, rules) := Rule.choose .store cell.address (some cell.key) f.rules
  match effect with
  | some (.unavailable reason) => (.error (.unavailable reason), { f with rules })
  | some .rejected => (.error (.rejected cell), { f with rules })
  | some .ignore => (.ok (), { f with rules })
  | some (.value other) =>
    let (answer, inner) := Backend.store f.inner cell other
    (answer, ⟨inner, rules⟩)
  | none =>
    let (answer, inner) := Backend.store f.inner cell value
    (answer, ⟨inner, rules⟩)

/-- Looks code up as the rules have it. -/
def code (f : Faulty σ) (address : Address) : Except BackendError Bytes × Faulty σ :=
  let (effect, rules) := Rule.choose .code address none f.rules
  match effect with
  | some (.unavailable reason) => (.error (.unavailable reason), { f with rules })
  | some .rejected | some (.value _) | some .ignore | none =>
    let (answer, inner) := Backend.code f.inner address
    (answer, ⟨inner, rules⟩)

instance : Backend (Faulty σ) where
  load := load
  store := store
  code := code
  checkpoint f := f.modify Backend.checkpoint
  commit f := f.modify Backend.commit
  rollback f := f.modify Backend.rollback

end Faulty

end ContractVM
