import ContractVM.Proofs.Backend.Calls
import ContractVM.Proofs.Ledger.Copies
import ContractVM.Proofs.Machine.Coupled

/-!
# Two ledgers side by side

Two ledgers may hold the same values and yet differ in their journals, in the transactions that are
open, and in code.  Runs see the values and the code, and go back only to what there was when they
opened a transaction.  `Ledger.Coupled C n l l'` says that these are the same in both, up to related
code, for the `n` innermost transactions.  So environments over such ledgers answer alike
(`Env.coupling_coupled`), and the calls that reach them are the same, up to related code.
-/

namespace ContractVM

variable {C : Bytes → Bytes → Prop}

/-- The same values, and related code at every address. -/
structure Contents.Recoded (C : Bytes → Bytes → Prop) (c c' : Contents) : Prop where
  values : c'.values = c.values
  code : ∀ address,
    C ((c.accounts address).getD default).code ((c'.accounts address).getD default).code

theorem Contents.Recoded.setValue {c c' : Contents} (h : c.Recoded C c') (cell : Cell)
    (value : Word) : (c.setValue cell value).Recoded C (c'.setValue cell value) := by
  refine ⟨?_, h.code⟩
  unfold Contents.setValue
  rw [h.values]

/-- Storage without zeros is determined by the values. -/
theorem Contents.Recoded.storage_eq {l l' : Ledger} (h : l.contents.Recoded C l'.contents)
    (hl : l.Canonical) (hl' : l'.Canonical) : l'.storage = l.storage :=
  hl'.storage_eq hl fun cell => congrFun h.values cell

/-- The same call, or a look-up that has found related code. -/
inductive Call.Recoded (C : Bytes → Bytes → Prop) : Call → Call → Prop
  | same (call : Call) : Recoded C call call
  | code (address : Address) {code code' : Bytes} (h : C code code') :
    Recoded C (.code address (.ok code)) (.code address (.ok code'))

namespace Ledger

/-- The ledgers hold the same, up to related code, and so do the copies that their innermost open
transactions stand for. -/
structure Coupled (C : Bytes → Bytes → Prop) (n : Nat) (l l' : Ledger) : Prop where
  contents : l.contents.Recoded C l'.contents
  copies : ∃ saved saved', saved.length = n ∧ List.Forall₂ (Contents.Recoded C) saved saved' ∧
    Copies saved l ∧ Copies saved' l'

namespace Coupled

variable {n : Nat} {l l' : Ledger}

/-- Of transactions that were open before, nothing need be known. -/
theorem of_contents (h : l.contents.Recoded C l'.contents) : Coupled C 0 l l' :=
  ⟨h, [], [], rfl, .nil, .nil l, .nil l'⟩

theorem value_eq (h : Coupled C n l l') (cell : Cell) : l'.value cell = l.value cell :=
  congrFun h.contents.values cell

theorem setValue (h : Coupled C n l l') (cell : Cell) (value : Word) :
    Coupled C n (l.setValue cell value) (l'.setValue cell value) := by
  obtain ⟨hcontents, saved, saved', hlen, hsaved, hl, hl'⟩ := h
  refine ⟨?_, saved, saved', hlen, hsaved, hl.setValue cell value, hl'.setValue cell value⟩
  rw [contents_setValue, contents_setValue]
  exact hcontents.setValue cell value

theorem checkpoint (h : Coupled C n l l') : Coupled C (n + 1) l.checkpoint l'.checkpoint := by
  obtain ⟨hcontents, saved, saved', rfl, hsaved, hl, hl'⟩ := h
  exact ⟨hcontents, _, _, rfl, .cons hcontents hsaved, hl.checkpoint, hl'.checkpoint⟩

theorem commit (h : Coupled C (n + 1) l l') : Coupled C n l.commit l'.commit := by
  obtain ⟨hcontents, saved, saved', hlen, hsaved, hl, hl'⟩ := h
  cases hsaved with
  | nil => cases hlen
  | cons hcopy hsaved =>
    refine ⟨?_, _, _, Nat.succ.inj hlen, hsaved, hl.commit, hl'.commit⟩
    rw [contents_commit, contents_commit]
    exact hcontents

/-- Both ledgers go back to copies that hold the same. -/
theorem rollback (h : Coupled C (n + 1) l l') : Coupled C n l.rollback l'.rollback := by
  obtain ⟨hcontents, saved, saved', hlen, hsaved, hl, hl'⟩ := h
  cases hsaved with
  | nil => cases hlen
  | cons hcopy hsaved =>
    obtain ⟨hback, hl⟩ := hl.contents_rollback
    obtain ⟨hback', hl'⟩ := hl'.contents_rollback
    refine ⟨?_, _, _, Nat.succ.inj hlen, hsaved, hl, hl'⟩
    rw [hback, hback']
    exact hcopy

end Coupled

end Ledger

namespace Env

/-- The same cache, and the same calls to ledgers that hold the same, up to related code. -/
structure Coupled (C : Bytes → Bytes → Prop) (n : Nat) (e e' : Env (Logged Ledger)) : Prop where
  cache : e'.cache = e.cache
  log : List.Forall₂ (Call.Recoded C) e.backend.log e'.backend.log
  ledger : Ledger.Coupled C n e.backend.inner e'.backend.inner

namespace Coupled

variable {n : Nat} {e e' : Env (Logged Ledger)}

/-- Both backends have got a call, and both caches change in the same way. -/
theorem touchCache (h : Coupled C n e e') {b b' : Logged Ledger}
    (log : List.Forall₂ (Call.Recoded C) b.log b'.log)
    (ledger : Ledger.Coupled C n b.inner b'.inner)
    (f : SlotCache → SlotCache) (event : Event) :
    Coupled C n ({ e with backend := b }.touchCache f event)
      ({ e' with backend := b' }.touchCache f event) := by
  refine ⟨?_, log, ledger⟩
  rw [cache_touchCache, cache_touchCache]
  exact congrArg (Attachment.modify f) h.cache

theorem held_eq (h : Coupled C n e e') (cell : Cell) : e'.held cell = e.held cell := by
  unfold held
  rw [h.cache]

theorem load (h : Coupled C n e e') (cell : Cell) :
    (Query.load cell).SameAnswer C (e.load cell).1 (e'.load cell).1 ∧
      Coupled C n (e.load cell).2 (e'.load cell).2 := by
  cases hh : e.held cell with
  | some value =>
    rw [load_of_held hh, load_of_held ((h.held_eq cell).trans hh)]
    exact ⟨.load cell value, h.cache, h.log, h.ledger⟩
  | none =>
    have hvalue : e'.backend.inner.value cell = e.backend.inner.value cell := h.ledger.value_eq cell
    have hload : (Backend.load e'.backend cell).1 = .ok (e.backend.inner.value cell) :=
      congrArg Except.ok hvalue
    have hlog : List.Forall₂ (Call.Recoded C) (Backend.load e.backend cell).2.log
        (Backend.load e'.backend cell).2.log := by
      change List.Forall₂ (Call.Recoded C) (.load cell (.ok (e.backend.inner.value cell)) :: _)
        (.load cell (.ok (e'.backend.inner.value cell)) :: _)
      rw [hvalue]
      exact .cons (.same _) h.log
    rw [load_of_ok hh rfl, load_of_ok ((h.held_eq cell).trans hh) hload]
    exact ⟨.load cell _, h.touchCache hlog h.ledger _ _⟩

theorem store (h : Coupled C n e e') (cell : Cell) (value : Word) :
    (Query.store cell value).SameAnswer C (e.store cell value).1 (e'.store cell value).1 ∧
      Coupled C n (e.store cell value).2 (e'.store cell value).2 := by
  rw [store_of_ok rfl, store_of_ok rfl]
  exact ⟨.store cell value,
    h.touchCache (.cons (.same _) h.log) (h.ledger.setValue cell value) _ _⟩

theorem code (h : Coupled C n e e') (order : CallOrder) :
    (Query.code order).SameAnswer C (e.code order.target).1 (e'.code order.target).1 ∧
      Coupled C n (e.code order.target).2 (e'.code order.target).2 := by
  have hcode := h.ledger.contents.code order.target
  exact ⟨.code order hcode, h.cache, .cons (.code order.target hcode) h.log, h.ledger⟩

end Coupled

/-- Environments over ledgers that hold the same answer alike. -/
theorem coupling_coupled (C : Bytes → Bytes → Prop) : Coupling C (Coupled C) where
  report _ _ h := ⟨h.cache, h.log, h.ledger⟩
  answer q h := by
    cases q with
    | load cell => exact h.load cell
    | store cell value => exact h.store cell value
    | code order => exact h.code order
  checkpoint h := ⟨h.cache, .cons (.same _) h.log, h.ledger.checkpoint⟩
  commit h := ⟨h.cache, .cons (.same _) h.log, h.ledger.commit⟩
  rollback {n e e'} h := by
    refine ⟨?_, .cons (.same _) h.log, h.ledger.rollback⟩
    change (Attachment.onRollback e'.cache).1 = (Attachment.onRollback e.cache).1
    rw [h.cache]

end Env

namespace Message

variable {m m' : Message} {l l' : Ledger}

/-- Top-level calls begin with the same cache, whatever they find. -/
theorem cache_openCall_eq {σ τ : Type} (cfg : Config) (e : Env σ) (e' : Env τ) :
    (m'.openCall cfg e').cache = (m.openCall cfg e).cache := by
  unfold openCall
  rw [Env.cache_updateCache, Env.cache_updateCache, Env.cache_report, Env.cache_report]
  split
  · cases e.cache <;> cases e'.cache <;> rfl
  · cases e.cache <;> cases e'.cache <;> rfl

/-- **Top-level calls over ledgers that hold the same give the same result,** make the same calls,
and leave ledgers that hold the same, all of this up to related code, whatever cache they find. -/
theorem call_coupled (hC : Bytes.Lengthens C) (cfg : Config) (hm : m.Recoded C m')
    (hl : l.contents.Recoded C l'.contents) (found found' : Attachment)
    (events events' : List Event) :
    let r := m.call cfg ⟨Logged.new l, found, events⟩
    let r' := m'.call cfg ⟨Logged.new l', found', events'⟩
    r'.1 = r.1 ∧ List.Forall₂ (Call.Recoded C) r.2.calls r'.2.calls ∧
      r.2.ledger.contents.Recoded C r'.2.ledger.contents := by
  intro r r'
  let e := m.openCall cfg ⟨Logged.new l, found, events⟩
  let e' := m'.openCall cfg ⟨Logged.new l', found', events'⟩
  have hopen : Env.Coupled C 0 e e' := {
    cache := cache_openCall_eq cfg _ _
    log := .nil
    ledger := .of_contents hl }
  have hrun : Machine.SameOutcome (Env.Coupled C 0) (m.transact cfg e) (m'.transact cfg e') :=
    (Env.coupling_coupled C).transact hC hm hopen
  have hend := hrun.env (transact_ne_outOfBounds m e)
  have hback : r.2.backend = (m.transact cfg e).2.backend := backend_closeCall _
  have hback' : r'.2.backend = (m'.transact cfg e').2.backend := backend_closeCall _
  refine ⟨hrun.closeCall, ?_, ?_⟩
  · unfold Env.calls Logged.calls
    rw [hback, hback']
    exact List.rel_reverse hend.log
  · unfold Env.ledger
    rw [hback, hback']
    exact hend.ledger.contents

end Message

end ContractVM
