import ContractVM.Proofs.Ledger.Coupled

/-!
# Code goes on with zeros

A zero is the instruction that stops a frame, and a frame stops where its code ends, too.  So zeros
at the end of code make no difference, neither where a run goes past the end, nor where the number
of a `push` is cut off there.  `Ledger.Pads l l'` says that the ledger `l'` is `l` with zeros at the
end of the code of any accounts, whatever its journal and its open transactions.

`Message.call_zero_padded` is the statement about top-level calls.
-/

namespace ContractVM

theorem Bytes.lengthens_extends : Bytes.Lengthens Bytes.Extends := ⟨Extends.refl, id⟩

/-! ### Calls that are not for code -/

/-- Whether the call looks up code. -/
def Call.isCode : Call → Bool
  | .code _ _ => true
  | _ => false

variable {C : Bytes → Bytes → Prop}

/-- Calls that are the same up to related code are the same where they are not for code. -/
theorem Call.filter_eq_of_recoded {calls calls' : List Call}
    (h : List.Forall₂ (Call.Recoded C) calls calls') :
    calls'.filter (!·.isCode) = calls.filter (!·.isCode) := by
  induction h with
  | nil => rfl
  | cons hcall _ ih =>
    cases hcall with
    | same call => rw [List.filter_cons, List.filter_cons, ih]
    | code address hcode => exact ih

/-! ### Ledgers with zeros at the end of code -/

namespace Ledger

/-- The second ledger is the first one with zeros at the end of the code of any accounts. -/
structure Pads (l l' : Ledger) : Prop where
  storage : l'.storage = l.storage
  code : ∀ address, (l.account address).code.Extends (l'.account address).code

theorem value_eq_of_storage {l l' : Ledger} (h : l'.storage = l.storage) : l'.value = l.value := by
  funext cell
  unfold value slots
  rw [h]

theorem Pads.recoded {l l' : Ledger} (h : l.Pads l') :
    l.contents.Recoded Bytes.Extends l'.contents := ⟨value_eq_of_storage h.storage, h.code⟩

/-- The account that was set is there, and the others stay. -/
theorem account_setCode (l : Ledger) (address other : Address) (code : Bytes) :
    (l.setCode address code).account other =
      if address = other then ⟨code⟩ else l.account other := by
  unfold account setCode
  by_cases same : address = other <;> simp [same, Std.ExtTreeMap.getElem?_insert]

/-- Zeros may be put at the end of the code of one account. -/
theorem pads_setCode (l : Ledger) (address : Address) (n : Nat) :
    l.Pads (l.setCode address ((l.account address).code.appendZeros n)) := by
  refine ⟨storage_record l _, fun other => ?_⟩
  rw [account_setCode]
  split
  · rename_i same
    rw [← same]
    exact ⟨n, rfl⟩
  · exact Bytes.Extends.refl _

end Ledger

namespace Message

/-- **Code goes on with zeros.**  Zeros at the end of the code of a message, and at the end of the
code of any accounts, change neither the result of a top-level call, with or without a cache, nor
the storage that it leaves, nor the calls that it makes, other than those that look up the code. -/
theorem call_zero_padded (cfg : Config) (m : Message) (n : Nat) {l l' : Ledger}
    (updates : List Ledger.Update) (hl : l = updates.foldl Ledger.apply ∅) (h : l.Pads l')
    (found found' : Attachment) (events events' : List Event) :
    let r := m.call cfg ⟨Logged.new l, found, events⟩
    let r' := (m.withCode (m.code.appendZeros n)).call cfg ⟨Logged.new l', found', events'⟩
    r'.1 = r.1 ∧ r'.2.ledger.storage = r.2.ledger.storage ∧
      r'.2.calls.filter (!·.isCode) = r.2.calls.filter (!·.isCode) := by
  intro r r'
  have hm : m.Recoded Bytes.Extends (m.withCode (m.code.appendZeros n)) := ⟨_, ⟨n, rfl⟩, rfl⟩
  obtain ⟨hresult, hcalls, hcontents⟩ :=
    call_coupled Bytes.lengthens_extends cfg hm h.recoded found found' events events'
  have hcanonical : l.Canonical := hl ▸ Ledger.canonical_foldl_apply updates
  have hcanonical' : l'.Canonical := hcanonical.of_storage_eq h.storage
  refine ⟨hresult, hcontents.storage_eq ?_ ?_, Call.filter_eq_of_recoded hcalls⟩
  · exact Ledger.canonical_call cfg m _ hcanonical
  · exact Ledger.canonical_call cfg _ _ hcanonical'

/-- The code of an account ends within the number of a `push`, and so does the code that calls
it. -/
theorem call_zero_padded_of_cut_off :
    let address : Address := .ofWord 1
    let updates : List Ledger.Update :=
      [.setCode address (.ofList [0x60, 0x07, 0x5f, 0x55, 0x61, 0x01])]
    let l := updates.foldl Ledger.apply ∅
    let l' := l.setCode address ((l.account address).code.appendZeros 3)
    let m := Message.new default default
      (.ofList [0x5f, 0x5f, 0x5f, 0x5f, 0x5f, 0x60, 0x01, 0x5f, 0xf1, 0x60])
    let r := m.call .standard ⟨Logged.new l, .absent, []⟩
    let r' := (m.withCode (m.code.appendZeros 2)).call .standard ⟨Logged.new l', .absent, []⟩
    l.Pads l' ∧ r'.1 = r.1 ∧ r'.2.ledger.storage = r.2.ledger.storage ∧
      r'.2.calls.filter (!·.isCode) = r.2.calls.filter (!·.isCode) := by
  intro address updates l l' m r r'
  have hpads : l.Pads l' := l.pads_setCode address 3
  exact ⟨hpads, call_zero_padded .standard m 2 updates rfl hpads .absent .absent [] []⟩

end Message

end ContractVM
