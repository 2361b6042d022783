import Mathlib.Data.List.Induction
import ContractVM.Proofs.Backend.Alike
import ContractVM.Proofs.Backend.Calls
import ContractVM.Proofs.Machine.Nesting

/-!
# What the calls remember of a cell

Which reads of a cell must reach the backend can be said without a cache, from the calls that have
reached it before.

* `Latest cell value calls after` : the latest successful read of the cell gave the value, and
  `after` are the calls since then.
* `Call.Outdates cell` : the call may change what the backend holds for the cell.
* `Remembers cell value calls` : no call since the latest successful read outdates it.
* `NeedsBackend cell calls` : there was no successful read, or a later call outdates it.

`recalled cell calls` computes which of these holds (`recalled_eq_none_iff`,
`remembers_of_recalled`).  The cache of a top-level call holds just what is recalled, whatever the
run does (`Env.kept_recalls`).
-/

namespace ContractVM

/-- The latest successful read of the cell gave this value, and these are the calls since then. -/
structure Latest (cell : Cell) (value : Word) (calls after : List Call) : Prop where
  split : ∃ before, calls = before ++ .load cell (.ok value) :: after
  latest : ∀ value', .load cell (.ok value') ∉ after

/-- The call may change what the backend holds for the cell: it sets its value, or undoes writes. -/
def Call.Outdates (cell : Cell) : Call → Prop
  | .store other _ (.ok ()) => other = cell
  | .rollback => True
  | _ => False

/-- The latest successful read of the cell gave this value, and it is not outdated. -/
def Remembers (cell : Cell) (value : Word) (calls : List Call) : Prop :=
  ∃ after, Latest cell value calls after ∧ ∀ call ∈ after, ¬call.Outdates cell

/-- No read of the cell has succeeded, or the latest one that has is outdated. -/
def NeedsBackend (cell : Cell) (calls : List Call) : Prop :=
  (∀ value, .load cell (.ok value) ∉ calls) ∨
    ∃ value after, Latest cell value calls after ∧ ∃ call ∈ after, call.Outdates cell

namespace Latest

variable {cell : Cell} {value value' : Word} {calls after after' : List Call}

/-- A successful read is the latest one. -/
theorem read (cell : Cell) (value : Word) (calls : List Call) :
    Latest cell value (calls ++ [.load cell (.ok value)]) [] :=
  ⟨⟨calls, rfl⟩, nofun⟩

/-- It stays the latest one until there is another. -/
theorem append (h : Latest cell value calls after) {call : Call}
    (hcall : ∀ value', call ≠ .load cell (.ok value')) :
    Latest cell value (calls ++ [call]) (after ++ [call]) := by
  obtain ⟨⟨before, rfl⟩, hlatest⟩ := h
  refine ⟨⟨before, by rw [List.append_assoc, List.cons_append]⟩, fun value' hmem => ?_⟩
  rcases List.mem_append.1 hmem with hmem | hmem
  · exact hlatest value' hmem
  · exact hcall value' (List.mem_singleton.1 hmem).symm

/-- There is only one latest read. -/
theorem unique (h : Latest cell value calls after) (h' : Latest cell value' calls after') :
    value = value' ∧ after = after' := by
  obtain ⟨⟨before, hcalls⟩, hlatest⟩ := h
  obtain ⟨⟨before', hcalls'⟩, hlatest'⟩ := h'
  -- if one read came before the other, it would not be the latest
  rcases List.append_eq_append_iff.1 (hcalls.symm.trans hcalls') with
    ⟨between, -, heq⟩ | ⟨between, -, heq⟩
  · cases between with
    | nil =>
      obtain ⟨hread, rfl⟩ := List.cons.inj heq
      exact ⟨Except.ok.inj (Call.load.inj hread).2, rfl⟩
    | cons call between =>
      obtain ⟨-, rfl⟩ := List.cons.inj heq
      exact absurd (List.mem_append_right _ List.mem_cons_self) (hlatest value')
  · cases between with
    | nil =>
      obtain ⟨hread, rfl⟩ := List.cons.inj heq
      exact ⟨(Except.ok.inj (Call.load.inj hread).2).symm, rfl⟩
    | cons call between =>
      obtain ⟨-, rfl⟩ := List.cons.inj heq
      exact absurd (List.mem_append_right _ List.mem_cons_self) (hlatest' value)

end Latest

/-- What is remembered needs no backend. -/
theorem Remembers.not_needsBackend {cell : Cell} {value : Word} {calls : List Call}
    (h : Remembers cell value calls) : ¬NeedsBackend cell calls := by
  obtain ⟨after, hlatest, hnone⟩ := h
  rintro (hnever | ⟨value', after', hlatest', call, hmem, houtdates⟩)
  · obtain ⟨⟨before, rfl⟩, -⟩ := hlatest
    exact hnever value (List.mem_append_right _ List.mem_cons_self)
  · obtain ⟨-, rfl⟩ := hlatest.unique hlatest'
    exact hnone call hmem houtdates

/-! ### Computing what is remembered -/

/-- What is remembered of a cell after one more call. -/
def Call.remember (cell : Cell) (known : Option Word) : Call → Option Word
  | .load other (.ok value) => if other = cell then some value else known
  | .store other _ (.ok ()) => if other = cell then none else known
  | .rollback => none
  | _ => known

/-- The value of the latest successful read of the cell, if it is not outdated. -/
def recalled (cell : Cell) (calls : List Call) : Option Word :=
  calls.foldl (Call.remember cell) none

theorem recalled_append (cell : Cell) (calls : List Call) (call : Call) :
    recalled cell (calls ++ [call]) = call.remember cell (recalled cell calls) := by
  unfold recalled
  rw [List.foldl_append]
  rfl

/-- What a call is to a cell, and what is then known of it: the call is a successful read, or it
outdates such a read, or neither. -/
inductive Call.About (cell : Cell) (known : Option Word) (call : Call) : Option Word → Prop
  | reads (value : Word) (h : call = .load cell (.ok value)) : About cell known call (some value)
  | outdates (h : call.Outdates cell) (other : ∀ value, call ≠ .load cell (.ok value)) :
    About cell known call none
  | nothing (h : ¬call.Outdates cell) (other : ∀ value, call ≠ .load cell (.ok value)) :
    About cell known call known

theorem Call.about_remember (cell : Cell) (known : Option Word) (call : Call) :
    About cell known call (call.remember cell known) := by
  cases call with
  | load other answer =>
    cases answer with
    | error error => exact .nothing id nofun
    | ok value =>
      by_cases h : other = cell
      · subst h
        simp only [remember, if_true]
        exact .reads value rfl
      · simp only [remember, if_neg h]
        exact .nothing id fun value' hl => h (Call.load.inj hl).1
  | store other value answer =>
    cases answer with
    | error error => exact .nothing id nofun
    | ok =>
      by_cases h : other = cell
      · simp only [remember, if_pos h]
        exact .outdates h nofun
      · simp only [remember, if_neg h]
        exact .nothing h nofun
  | rollback => exact .outdates trivial nofun
  | code | checkpoint | commit => exact .nothing id nofun

/-- What is recalled is remembered, and where nothing is recalled the backend is needed. -/
theorem recalled_spec (cell : Cell) (calls : List Call) :
    (recalled cell calls = none → NeedsBackend cell calls) ∧
      ∀ value, recalled cell calls = some value → Remembers cell value calls := by
  induction calls using List.reverseRecOn with
  | nil => exact ⟨fun _ => .inl nofun, nofun⟩
  | append_singleton calls call ih =>
    obtain ⟨hneeds, hremembers⟩ := ih
    have hnever (hcalls : ∀ value, .load cell (.ok value) ∉ calls)
        (hcall : ∀ value, call ≠ .load cell (.ok value)) :
        ∀ value, .load cell (.ok value) ∉ calls ++ [call] := by
      intro value hmem
      rcases List.mem_append.1 hmem with hmem | hmem
      · exact hcalls value hmem
      · exact hcall value (List.mem_singleton.1 hmem).symm
    rw [recalled_append]
    have habout := call.about_remember cell (recalled cell calls)
    generalize call.remember cell (recalled cell calls) = known at habout ⊢
    cases habout with
    | reads value h =>
      subst h
      refine ⟨nofun, fun value' hv => ?_⟩
      obtain rfl := Option.some.inj hv
      exact ⟨[], .read cell value calls, nofun⟩
    | outdates h other =>
      refine ⟨fun _ => ?_, nofun⟩
      have hlast {value : Word} {after : List Call} (hl : Latest cell value calls after) :
          NeedsBackend cell (calls ++ [call]) :=
        .inr ⟨value, _, hl.append other, call, List.mem_append_right _ List.mem_cons_self, h⟩
      cases hr : recalled cell calls with
      | some value =>
        obtain ⟨after, hl, -⟩ := hremembers value hr
        exact hlast hl
      | none =>
        rcases hneeds hr with hcalls | ⟨value, after, hl, -⟩
        · exact .inl (hnever hcalls other)
        · exact hlast hl
    | nothing h other =>
      refine ⟨fun hr => ?_, fun value hr => ?_⟩
      · rcases hneeds hr with hcalls | ⟨value, after, hl, earlier, hmem, houtdates⟩
        · exact .inl (hnever hcalls other)
        · exact .inr ⟨value, _, hl.append other, earlier, List.mem_append_left _ hmem, houtdates⟩
      · obtain ⟨after, hl, hnone⟩ := hremembers value hr
        refine ⟨_, hl.append other, fun later hmem => ?_⟩
        rcases List.mem_append.1 hmem with hmem | hmem
        · exact hnone later hmem
        · rw [List.mem_singleton.1 hmem]
          exact h

theorem remembers_of_recalled {cell : Cell} {value : Word} {calls : List Call}
    (h : recalled cell calls = some value) : Remembers cell value calls :=
  (recalled_spec cell calls).2 value h

/-- Nothing is recalled just where the backend is needed. -/
theorem recalled_eq_none_iff {cell : Cell} {calls : List Call} :
    recalled cell calls = none ↔ NeedsBackend cell calls := by
  refine ⟨(recalled_spec cell calls).1, fun h => ?_⟩
  cases hr : recalled cell calls with
  | none => rfl
  | some value => exact absurd h (remembers_of_recalled hr).not_needsBackend

instance (cell : Cell) (calls : List Call) : Decidable (NeedsBackend cell calls) :=
  decidable_of_iff _ recalled_eq_none_iff

/-! ### The cache -/

namespace Env

variable {σ : Type}

/-- There is a cache, and it holds of every cell what the calls to the backend remember. -/
structure Recalls (e : Env (Logged σ)) : Prop where
  active : ∃ cache, e.cache = .active cache
  held : ∀ cell, e.held cell = recalled cell e.calls

theorem held_of_active {τ : Type} {e : Env τ} {cache : SlotCache} (h : e.cache = .active cache)
    (cell : Cell) : e.held cell = cache.lookup cell := by
  unfold held
  rw [h]
  rfl

variable {e e' : Env (Logged σ)}

/-- A call keeps this, if it changes the cache as it changes what is remembered. -/
theorem Recalls.of_call (h : e.Recalls) {f : SlotCache → SlotCache}
    (hcache : e'.cache = e.cache.modify f) {call : Call} (hcalls : e'.calls = e.calls ++ [call])
    (hf : ∀ cache cell, (f cache).lookup cell = call.remember cell (cache.lookup cell)) :
    e'.Recalls := by
  obtain ⟨cache, hactive⟩ := h.active
  have hactive' : e'.cache = .active (f cache) := by
    rw [hcache, hactive]
    rfl
  refine ⟨⟨_, hactive'⟩, fun cell => ?_⟩
  rw [held_of_active hactive', hf, hcalls, recalled_append, ← h.held, held_of_active hactive]

/-- A call that does not concern any cell leaves the cache alone. -/
theorem Recalls.of_cache_eq (h : e.Recalls) (hcache : e'.cache = e.cache) {call : Call}
    (hcalls : e'.calls = e.calls ++ [call])
    (hcall : ∀ cell known, call.remember cell known = known) : e'.Recalls := by
  refine h.of_call (f := id) ?_ hcalls fun cache cell => (hcall cell _).symm
  rw [hcache]
  cases e.cache <;> rfl

variable [Backend σ]

theorem Recalls.load (h : e.Recalls) (cell : Cell) : (e.load cell).2.Recalls := by
  cases hh : e.held cell with
  | some value =>
    rw [load_of_held hh]
    exact ⟨h.active, h.held⟩
  | none =>
    have hcalls : (Backend.load e.backend cell).2.calls =
        e.calls ++ [.load cell (Backend.load e.backend cell).1] := List.reverse_cons
    cases hl : (Backend.load e.backend cell).1 with
    | error error =>
      rw [hl] at hcalls
      rw [load_of_error hh hl]
      exact h.of_cache_eq rfl hcalls fun _ _ => rfl
    | ok value =>
      rw [hl] at hcalls
      rw [load_of_ok hh hl]
      exact h.of_call (cache_touchCache _ _ _) hcalls fun cache other =>
        cache.lookup_install cell other value

theorem Recalls.store (h : e.Recalls) (cell : Cell) (value : Word) :
    (e.store cell value).2.Recalls := by
  have hcalls : (Backend.store e.backend cell value).2.calls =
      e.calls ++ [.store cell value (Backend.store e.backend cell value).1] := List.reverse_cons
  cases hs : (Backend.store e.backend cell value).1 with
  | error error =>
    rw [hs] at hcalls
    rw [store_of_error hs]
    exact h.of_cache_eq rfl hcalls fun _ _ => rfl
  | ok =>
    rw [hs] at hcalls
    rw [store_of_ok hs]
    exact h.of_call (cache_touchCache _ _ _) hcalls fun cache other =>
      cache.lookup_invalidate cell other

/-- Whatever a run does, its cache goes on holding what the calls remember. -/
theorem kept_recalls : Kept (Recalls (σ := σ)) where
  report _ h := ⟨h.active, h.held⟩
  answer {e} q h := by
    cases q with
    | load cell => exact h.load cell
    | store cell value => exact h.store cell value
    | code order => exact h.of_cache_eq rfl List.reverse_cons fun _ _ => rfl
  checkpoint {e} h := h.of_cache_eq rfl e.calls_checkpoint fun _ _ => rfl
  commit {e} h := h.of_cache_eq rfl e.calls_commit fun _ _ => rfl
  rollback {e} h := by
    refine h.of_call (f := fun _ => .empty) ?_ e.calls_rollback fun _ cell =>
      SlotCache.lookup_empty cell
    change (Attachment.onRollback e.cache).1 = _
    cases e.cache <;> rfl

end Env

/-- A top-level call with a cache begins where nothing is remembered. -/
theorem Message.recalls_openCall {σ : Type} {cfg : Config} (h : cfg.slotCache = true) (m : Message)
    (e : Env σ) : (m.openCall cfg e.logged).Recalls := by
  refine ⟨?_, fun cell => held_openCall_of_slotCache h m _ cell⟩
  unfold openCall
  rw [Env.cache_updateCache, h, Env.cache_report]
  cases e.logged.cache <;> exact ⟨_, rfl⟩

end ContractVM
