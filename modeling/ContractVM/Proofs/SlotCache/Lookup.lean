import ContractVM.Env

/-!
# What the cache of an environment holds

`Env.held` is what a read finds in the cache before it asks the backend.  A read that finds
something stops there (`Env.load_of_held`).  One that finds nothing asks the backend, and the
answer is held from then on (`Env.load_of_ok`); a write that the backend takes is held no more
(`Env.store_of_ok`).  What the backend refuses leaves the cache alone, and after a rollback nothing
is held (`Env.held_rollback`).
-/

namespace ContractVM

namespace Env

variable {σ : Type}

/-- The value that the cache holds for a cell, if there is a cache. -/
def held (e : Env σ) (cell : Cell) : Option Word := e.cache.cache?.bind (·.lookup cell)

@[simp] theorem cache_report (e : Env σ) (events : List Event) :
    (e.report events).cache = e.cache := rfl

@[simp] theorem cache_updateCache (e : Env σ) (f : Attachment → Attachment × List Event) :
    (e.updateCache f).cache = (f e.cache).1 := rfl

@[simp] theorem backend_touchCache (e : Env σ) (f : SlotCache → SlotCache) (event : Event) :
    (e.touchCache f event).backend = e.backend := rfl

@[simp] theorem cache_touchCache (e : Env σ) (f : SlotCache → SlotCache) (event : Event) :
    (e.touchCache f event).cache = e.cache.modify f := by
  unfold touchCache
  rw [cache_updateCache]
  cases e.cache <;> rfl

theorem touchCache_of_absent {e : Env σ} (h : e.cache = .absent) (f : SlotCache → SlotCache)
    (event : Event) : e.touchCache f event = e := by
  unfold touchCache updateCache
  rw [h]
  exact congrArg (Env.mk e.backend · e.events) h.symm

theorem held_of_absent {e : Env σ} (h : e.cache = .absent) (cell : Cell) : e.held cell = none := by
  rw [held, h]
  rfl

/-- What is held after an install is the installed value, or was held before. -/
theorem held_install {e : Env σ} {cell other : Cell} {value value' : Word} {event : Event}
    (h : (e.touchCache (·.install cell value) event).held other = some value') :
    (cell = other ∧ value = value') ∨ e.held other = some value' := by
  unfold held at h ⊢
  rw [cache_touchCache] at h
  cases hc : e.cache with
  | absent =>
    rw [hc] at h
    cases h
  | active cache =>
    rw [hc] at h
    change (cache.install cell value).lookup other = some value' at h
    rw [SlotCache.lookup_install] at h
    split at h
    · rename_i hk
      exact .inl ⟨hk, Option.some.inj h⟩
    · exact .inr h

/-- What is held after an entry was taken out belongs to another cell, and was held before. -/
theorem held_invalidate {e : Env σ} {cell other : Cell} {value : Word} {event : Event}
    (h : (e.touchCache (·.invalidate cell) event).held other = some value) :
    cell ≠ other ∧ e.held other = some value := by
  unfold held at h ⊢
  rw [cache_touchCache] at h
  cases hc : e.cache with
  | absent =>
    rw [hc] at h
    cases h
  | active cache =>
    rw [hc] at h
    change (cache.invalidate cell).lookup other = some value at h
    rw [SlotCache.lookup_invalidate] at h
    split at h
    · cases h
    · exact ⟨‹_›, h⟩

variable [Backend σ] {e : Env σ} {cell : Cell}

theorem load_of_held {value : Word} (h : e.held cell = some value) :
    e.load cell = (.ok value, e.report [.cacheHit cell]) := by
  unfold held at h
  unfold load
  rw [h]

theorem load_of_ok {value : Word} (h : e.held cell = none)
    (hl : (Backend.load e.backend cell).1 = .ok value) :
    e.load cell = (.ok value, { e with backend := (Backend.load e.backend cell).2 }.touchCache
      (·.install cell value) (.cacheMiss cell)) := by
  unfold held at h
  unfold load
  rw [h]
  simp only [hl]

theorem load_of_error {error : BackendError} (h : e.held cell = none)
    (hl : (Backend.load e.backend cell).1 = .error error) :
    e.load cell = (.error error, { e with backend := (Backend.load e.backend cell).2 }) := by
  unfold held at h
  unfold load
  rw [h]
  simp only [hl]

theorem store_of_ok {value : Word} (h : (Backend.store e.backend cell value).1 = .ok ()) :
    e.store cell value = (.ok (), { e with
      backend := (Backend.store e.backend cell value).2 }.touchCache
      (·.invalidate cell) (.cacheInvalidated cell)) := by
  unfold store
  simp only [h]

theorem store_of_error {value : Word} {error : BackendError}
    (h : (Backend.store e.backend cell value).1 = .error error) :
    e.store cell value =
      (.error error, { e with backend := (Backend.store e.backend cell value).2 }) := by
  unfold store
  simp only [h]

/-- Without a cache every read is a read of the backend. -/
theorem load_of_absent (h : e.cache = .absent) (cell : Cell) :
    e.load cell = ((Backend.load e.backend cell).1,
      { e with backend := (Backend.load e.backend cell).2 }) := by
  have hn := held_of_absent h cell
  cases hl : (Backend.load e.backend cell).1 with
  | error error => rw [load_of_error hn hl]
  | ok value =>
    rw [load_of_ok hn hl]
    have hc : { e with backend := (Backend.load e.backend cell).2 }.cache = .absent := h
    rw [touchCache_of_absent hc]

/-- Without a cache every write is a write to the backend. -/
theorem store_of_absent (h : e.cache = .absent) (cell : Cell) (value : Word) :
    e.store cell value = ((Backend.store e.backend cell value).1,
      { e with backend := (Backend.store e.backend cell value).2 }) := by
  cases hs : (Backend.store e.backend cell value).1 with
  | error error => rw [store_of_error hs]
  | ok =>
    rw [store_of_ok hs]
    have hc : { e with backend := (Backend.store e.backend cell value).2 }.cache = .absent := h
    rw [touchCache_of_absent hc]

theorem held_rollback (e : Env σ) (cell : Cell) : e.rollback.held cell = none := by
  unfold held rollback
  rw [cache_updateCache]
  cases e.cache with
  | absent => rfl
  | active cache => exact SlotCache.lookup_empty cell

end Env

end ContractVM
