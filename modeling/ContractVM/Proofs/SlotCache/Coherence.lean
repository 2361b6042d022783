import ContractVM.Ledger.Lemmas
import ContractVM.Proofs.Backend.Front
import ContractVM.Proofs.Machine.Nesting
import ContractVM.Proofs.SlotCache.Lookup

/-!
# The cache agrees with the ledger

An environment is `Coherent` if each value that its cache holds is the one that the ledger has.
All frames of a run share one cache, while the values of the ledger move forward with writes and
back with rollbacks.  Coherence outlasts both (`Env.kept_coherent`): a write takes its own cell out
of the cache and changes no other, opening a transaction and keeping its writes change no value,
and a rollback leaves nothing in the cache that could be wrong.

`Message.coherent_throughout` is the statement about runs.
-/

namespace ContractVM

namespace Ledger

theorem value_checkpoint (l : Ledger) (cell : Cell) : l.checkpoint.value cell = l.value cell := rfl

theorem value_commit (l : Ledger) (cell : Cell) : l.commit.value cell = l.value cell := by
  unfold commit
  split <;> rfl

end Ledger

namespace Env

variable {σ : Type} [Backend σ] [Front σ]

/-- Each value that the cache holds is the one that the ledger has. -/
def Coherent (e : Env σ) : Prop :=
  ∀ cell value, e.held cell = some value → (Front.ledger e.backend).value cell = value

variable {e : Env σ}

theorem Coherent.load (h : e.Coherent) (cell : Cell) : (e.load cell).2.Coherent := by
  cases hh : e.held cell with
  | some value =>
    rw [load_of_held hh]
    exact h
  | none =>
    cases hl : (Backend.load e.backend cell).1 with
    | error error =>
      rw [load_of_error hh hl]
      intro other value ho
      change (Front.ledger (Backend.load e.backend cell).2).value other = value
      rw [Front.ledger_load]
      exact h other value ho
    | ok value =>
      rw [load_of_ok hh hl]
      intro other value' ho
      rw [backend_touchCache, Front.ledger_load]
      -- nothing was put into the cache but what the backend has just given
      obtain ⟨rfl, rfl⟩ | ho := held_install ho
      · exact Front.value_of_load _ _ _ hl
      · exact h other value' ho

theorem Coherent.store (h : e.Coherent) (cell : Cell) (value : Word) :
    (e.store cell value).2.Coherent := by
  cases hs : (Backend.store e.backend cell value).1 with
  | error error =>
    rw [store_of_error hs]
    intro other value' ho
    change (Front.ledger (Backend.store e.backend cell value).2).value other = value'
    rw [Front.ledger_store_error _ _ _ _ hs]
    exact h other value' ho
  | ok =>
    rw [store_of_ok hs]
    intro other value' ho
    -- the written cell is held no more, so this is another one
    obtain ⟨hne, ho⟩ := held_invalidate ho
    rw [backend_touchCache, Front.ledger_store _ _ _ hs, Ledger.value_setValue, if_neg hne]
    exact h other value' ho

theorem Coherent.code (h : e.Coherent) (address : Address) : (e.code address).2.Coherent := by
  intro cell value hc
  change (Front.ledger (Backend.code e.backend address).2).value cell = value
  rw [Front.ledger_code]
  exact h cell value hc

/-- Whatever a run does to its environment keeps the cache coherent. -/
theorem kept_coherent : Kept (Coherent (σ := σ)) where
  report events h := h
  answer q h := by
    cases q with
    | load cell => exact h.load cell
    | store cell value => exact h.store cell value
    | code order => exact h.code order.target
  checkpoint {e} h cell value hc := by
    change (Front.ledger (Backend.checkpoint e.backend)).value cell = value
    rw [Front.ledger_checkpoint, Ledger.value_checkpoint]
    exact h cell value hc
  commit {e} h cell value hc := by
    change (Front.ledger (Backend.commit e.backend)).value cell = value
    rw [Front.ledger_commit, Ledger.value_commit]
    exact h cell value hc
  rollback {e} _ cell value hc := by
    rw [held_rollback] at hc
    cases hc

end Env

namespace Message

variable {σ : Type} [Backend σ] [Front σ]

/-- **A cache that agrees with the ledger goes on agreeing with it.**  This holds at every machine
of a run, and so at every instruction of every frame, and of what the run leaves, however it ends;
and it holds whether the message runs in a transaction of its own or not. -/
theorem coherent_throughout (cfg : Config) (m : Message) (e : Env σ) (h : e.Coherent) :
    (∀ m', Machine.Reaches cfg (Machine.start cfg m e) m' → m'.env.Coherent) ∧
      (m.execute cfg e).2.Coherent ∧
      (∀ m', Machine.Reaches cfg (Machine.start cfg m e.checkpoint) m' → m'.env.Coherent) ∧
      (m.transact cfg e).2.Coherent := by
  have hk := Env.kept_coherent (σ := σ)
  refine ⟨fun m' hr => hk.reaches hr h, hk.execute m h, fun m' hr => ?_, hk.transact m h⟩
  exact hk.reaches hr (hk.checkpoint h)

/-- The value of a cell is held when code writes that cell and reads it again, and the backend
refuses its second call. -/
theorem coherent_throughout_of_held :
    let cell : Cell := ⟨default, default⟩
    let ledger : Ledger := (∅ : Ledger).setValue cell 1
    let m := Message.new default default (.ofList [0x60, 0x05, 0x5f, 0x55, 0x5f, 0x54])
    let e : Env (Scripted Ledger) :=
      ⟨⟨ledger, [none, some (.unavailable "down")]⟩, .active (SlotCache.ofList [(cell, 1)]), []⟩
    e.Coherent ∧
      (∀ m', Machine.Reaches .standard (Machine.start .standard m e) m' → m'.env.Coherent) ∧
        (m.execute .standard e).2.Coherent ∧
        (∀ m', Machine.Reaches .standard (Machine.start .standard m e.checkpoint) m' →
          m'.env.Coherent) ∧
        (m.transact .standard e).2.Coherent := by
  intro cell ledger m e
  have h : e.Coherent := by
    intro other value ho
    change (SlotCache.empty.install cell 1).lookup other = some value at ho
    change ledger.value other = value
    rw [SlotCache.lookup_install] at ho
    rw [Ledger.value_setValue]
    split at ho
    · rename_i hc
      rw [if_pos hc]
      exact Option.some.inj ho
    · rw [SlotCache.lookup_empty] at ho
      cases ho
  exact ⟨h, coherent_throughout .standard m e h⟩

end Message

end ContractVM
