import ContractVM.Proofs.Ledger.Snapshots

/-!
# Storage holds what is not zero

A ledger that grew from the empty one by updates is `Canonical`: no cell in its storage is zero, and
no account in it has an empty table of slots (`Ledger.canonical_foldl_apply`).  Such storage is
determined by the values of its cells (`Ledger.Canonical.storage_eq`), and so a canonical ledger is
determined by its contents, its journal and its checkpoints (`Ledger.Canonical.eq_of_contents`).
-/

namespace ContractVM

namespace Ledger

/-- No cell that is held is zero, and no table that is held is empty. -/
structure Canonical (l : Ledger) : Prop where
  ne_empty : ∀ address : Address, l.storage[address]? ≠ some (∅ : Std.ExtTreeMap Key Word)
  ne_zero : ∀ (address : Address) (slots : Std.ExtTreeMap Key Word),
    l.storage[address]? = some slots → ∀ key : Key, slots[key]? ≠ some (0 : Word)

theorem canonical_empty : (∅ : Ledger).Canonical := by
  have h : ∀ address : Address, (∅ : Ledger).storage[address]? = none := by
    intro address
    change (∅ : Std.ExtTreeMap Address (Std.ExtTreeMap Key Word))[address]? = none
    simp
  constructor
  · intro address ha
    rw [h] at ha
    cases ha
  · intro address slots ha
    rw [h] at ha
    cases ha

/-- A table without zeros is determined by its values, where zero stands for what is not held. -/
theorem slots_eq {t t' : Std.ExtTreeMap Key Word} (ht : ∀ key : Key, t[key]? ≠ some (0 : Word))
    (ht' : ∀ key : Key, t'[key]? ≠ some (0 : Word))
    (h : ∀ key : Key, t[key]?.getD (0 : Word) = t'[key]?.getD (0 : Word)) : t = t' := by
  refine Std.ExtTreeMap.ext_getElem? fun {key} => ?_
  have hk := h key
  have hn := ht key
  have hn' := ht' key
  cases e : t[key]? with
  | none =>
    cases e' : t'[key]? with
    | none => rfl
    | some value' =>
      rw [e, e'] at hk
      obtain rfl : (0 : Word) = value' := hk
      exact absurd e' hn'
  | some value =>
    cases e' : t'[key]? with
    | none =>
      rw [e, e'] at hk
      obtain rfl : value = (0 : Word) := hk
      exact absurd e hn
    | some value' =>
      rw [e, e'] at hk
      exact congrArg some hk

/-- The tables that are held after one of them was set. -/
theorem storage_setSlots (l : Ledger) (address other : Address)
    (t : Std.ExtTreeMap Key Word compare) :
    (l.setSlots address t).storage[other]? =
      if address = other then (if t.isEmpty = true then none else some t)
      else l.storage[other]? := by
  unfold Ledger.setSlots
  by_cases hempty : t.isEmpty = true
  · simp [hempty, Std.ExtTreeMap.getElem?_erase]
  · simp [hempty, Std.ExtTreeMap.getElem?_insert]

namespace Canonical

variable {l l' : Ledger}

/-- A table that is held has a cell that is not zero. -/
theorem exists_ne_zero (h : l.Canonical) {address : Address} {slots : Std.ExtTreeMap Key Word}
    (hs : l.storage[address]? = some slots) : ∃ key : Key, l.value ⟨address, key⟩ ≠ 0 := by
  refine Classical.byContradiction fun hnone => ?_
  have hall : ∀ key : Key, l.value ⟨address, key⟩ = 0 :=
    fun key => Decidable.of_not_not (not_exists.1 hnone key)
  have hzero : slots = ∅ := by
    refine slots_eq (h.ne_zero address slots hs) (by simp) fun key => ?_
    have hk := hall key
    simp only [value, Ledger.slots, hs, Option.getD_some] at hk
    simpa using hk
  exact h.ne_empty address (hzero ▸ hs)

/-- The values of the cells determine the storage. -/
theorem storage_eq (h : l.Canonical) (h' : l'.Canonical)
    (hv : ∀ cell, l.value cell = l'.value cell) : l.storage = l'.storage := by
  refine Std.ExtTreeMap.ext_getElem? fun {address} => ?_
  cases hs : l.storage[address]? with
  | none =>
    cases hs' : l'.storage[address]? with
    | none => rfl
    | some slots' =>
      obtain ⟨key, hk⟩ := h'.exists_ne_zero hs'
      rw [← hv] at hk
      simp [value, slots, hs] at hk
  | some slots =>
    cases hs' : l'.storage[address]? with
    | none =>
      obtain ⟨key, hk⟩ := h.exists_ne_zero hs
      rw [hv] at hk
      simp [value, Ledger.slots, hs'] at hk
    | some slots' =>
      have hcell : ∀ key : Key, slots[key]?.getD (0 : Word) = slots'[key]?.getD (0 : Word) := by
        intro key
        have hk := hv ⟨address, key⟩
        simpa only [value, Ledger.slots, hs, hs', Option.getD_some] using hk
      rw [slots_eq (h.ne_zero address slots hs) (h'.ne_zero address slots' hs') hcell]

/-- Contents, journal and checkpoints determine the ledger. -/
theorem eq_of_contents (h : l.Canonical) (h' : l'.Canonical) (hc : l.contents = l'.contents)
    (hj : l.journal = l'.journal) (hm : l.checkpoints = l'.checkpoints) : l = l' := by
  have hs : l.storage = l'.storage :=
    h.storage_eq h' fun cell => congrFun (congrArg Contents.values hc) cell
  have ha : l.accounts = l'.accounts :=
    Std.ExtTreeMap.ext_getElem? fun {address} =>
      congrFun (congrArg Contents.accounts hc) address
  obtain ⟨accounts, storage, journal, checkpoints⟩ := l
  obtain ⟨accounts', storage', journal', checkpoints'⟩ := l'
  obtain rfl : accounts = accounts' := ha
  obtain rfl : storage = storage' := hs
  obtain rfl : journal = journal' := hj
  obtain rfl : checkpoints = checkpoints' := hm
  rfl

/-- Only the storage matters. -/
theorem of_storage_eq (h : l.Canonical) (hs : l'.storage = l.storage) : l'.Canonical := by
  constructor
  · rw [hs]
    exact h.ne_empty
  · rw [hs]
    exact h.ne_zero

/-- A table without zeros may be set, and an empty one is not held. -/
theorem setSlots (h : l.Canonical) (address : Address) {t : Std.ExtTreeMap Key Word}
    (ht : ∀ key : Key, t[key]? ≠ some (0 : Word)) : (l.setSlots address t).Canonical := by
  constructor
  · intro other ho
    rw [storage_setSlots] at ho
    split at ho
    · split at ho
      · cases ho
      · rename_i hne
        obtain rfl := Option.some.inj ho
        exact hne Std.ExtTreeMap.isEmpty_empty
    · exact h.ne_empty other ho
  · intro other slots ho
    rw [storage_setSlots] at ho
    split at ho
    · split at ho
      · cases ho
      · obtain rfl := Option.some.inj ho
        exact ht
    · exact h.ne_zero other slots ho

theorem write (h : l.Canonical) (cell : Cell) (value : Word) : (l.write cell value).Canonical := by
  have hslots : ∀ key : Key, (l.slots cell.address)[key]? ≠ some (0 : Word) := by
    intro key hk
    unfold slots at hk
    cases hs : l.storage[cell.address]? with
    | none => simp [hs] at hk
    | some slots =>
      rw [hs] at hk
      exact h.ne_zero _ _ hs key hk
  refine h.setSlots cell.address fun key => ?_
  split
  · rw [Std.ExtTreeMap.getElem?_erase]
    split
    · exact nofun
    · exact hslots key
  · rename_i hv
    rw [Std.ExtTreeMap.getElem?_insert]
    split
    · intro hk
      exact hv (Word.isZero_iff.2 (Option.some.inj hk))
    · exact hslots key

theorem record (h : l.Canonical) (undo : Undo) : (l.record undo).Canonical :=
  h.of_storage_eq (storage_record l undo)

theorem setValue (h : l.Canonical) (cell : Cell) (value : Word) :
    (l.setValue cell value).Canonical := (h.record _).write cell value

theorem setCode (h : l.Canonical) (address : Address) (code : Bytes) :
    (l.setCode address code).Canonical := h.of_storage_eq (storage_record l _)

theorem undo (h : l.Canonical) (record : Undo) : (l.undo record).Canonical := by
  cases record with
  | slot cell previous => exact h.write cell previous
  | account address previous =>
    cases previous with
    | some account => exact h.of_storage_eq rfl
    | none => exact h.of_storage_eq rfl

theorem undoAll (h : l.Canonical) (records : List Undo) :
    (records.foldl Ledger.undo l).Canonical := by
  induction records generalizing l with
  | nil => exact h
  | cons record records ih => exact ih (h.undo record)

theorem checkpoint (h : l.Canonical) : l.checkpoint.Canonical := h.of_storage_eq rfl

theorem commit (h : l.Canonical) : l.commit.Canonical := by
  refine h.of_storage_eq ?_
  unfold Ledger.commit
  split <;> rfl

theorem rollback (h : l.Canonical) : l.rollback.Canonical := by
  unfold Ledger.rollback
  split
  · exact h
  · exact (h.undoAll _).of_storage_eq rfl

end Canonical

/-- Whatever is done to a ledger keeps the property. -/
structure KeptByUpdates (P : Ledger → Prop) : Prop where
  setValue : ∀ {l} (cell : Cell) (value : Word), P l → P (l.setValue cell value)
  setCode : ∀ {l} (address : Address) (code : Bytes), P l → P (l.setCode address code)
  checkpoint : ∀ {l}, P l → P l.checkpoint
  commit : ∀ {l}, P l → P l.commit
  rollback : ∀ {l}, P l → P l.rollback

/-- So it holds of all ledgers that updates lead to. -/
theorem KeptByUpdates.foldl_apply {P : Ledger → Prop} (h : KeptByUpdates P) {l : Ledger} (hl : P l)
    (updates : List Update) : P (updates.foldl Ledger.apply l) := by
  induction updates generalizing l with
  | nil => exact hl
  | cons update updates ih =>
    refine ih ?_
    cases update with
    | store cell value => exact h.setValue cell value hl
    | setValue cell value => exact h.setValue cell value hl
    | setCode address code => exact h.setCode address code hl
    | checkpoint => exact h.checkpoint hl
    | commit => exact h.commit hl
    | rollback => exact h.rollback hl

theorem keptByUpdates_canonical : KeptByUpdates Canonical where
  setValue cell value h := h.setValue cell value
  setCode address code h := h.setCode address code
  checkpoint h := h.checkpoint
  commit h := h.commit
  rollback h := h.rollback

/-- Whatever is done to a ledger, its storage holds nothing that is zero. -/
theorem canonical_foldl_apply (updates : List Update) :
    (updates.foldl Ledger.apply ∅).Canonical :=
  keptByUpdates_canonical.foldl_apply canonical_empty updates

end Ledger

end ContractVM
