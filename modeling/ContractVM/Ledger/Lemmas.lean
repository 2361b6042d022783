import ContractVM.Ledger.Basic

/-!
# What a ledger holds after a write

A ledger is seen through `Ledger.value` on cells and through its accounts.  A write changes the
value of its own cell and nothing else (`Ledger.value_write`, `Ledger.value_setValue`), and new
code leaves all cells as they are (`Ledger.value_setCode`).
-/

namespace ContractVM

namespace Ledger

/-- Slots that are set are those of their account, and those of others stay. -/
theorem slots_setSlots (l : Ledger) (address other : Address) (t : Std.ExtTreeMap Key Word) :
    (l.setSlots address t).slots other = if address = other then t else l.slots other := by
  unfold slots setSlots
  by_cases h : t.isEmpty = true
  · have e := Std.ExtTreeMap.isEmpty_iff.1 h
    subst e
    by_cases same : address = other <;> simp [same, Std.ExtTreeMap.getElem?_erase]
  · by_cases same : address = other <;> simp [h, same, Std.ExtTreeMap.getElem?_insert]

/-- A write changes the value of its own cell and of no other. -/
theorem value_write (l : Ledger) (cell other : Cell) (value : Word) :
    (l.write cell value).value other = if cell = other then value else l.value other := by
  obtain ⟨address, key⟩ := cell
  obtain ⟨address', key'⟩ := other
  simp only [write, Ledger.value, slots_setSlots, Cell.mk.injEq]
  by_cases same : address = address'
  · subst same
    by_cases zero : value.isZero = true
    · rw [if_pos zero, Word.isZero_iff.1 zero]
      by_cases h : key = key' <;> simp [h, Std.ExtTreeMap.getElem?_erase]
    · by_cases h : key = key' <;> simp [zero, h, Std.ExtTreeMap.getElem?_insert]
  · simp [same]

theorem accounts_write (l : Ledger) (cell : Cell) (value : Word) :
    (l.write cell value).accounts = l.accounts := rfl

theorem storage_record (l : Ledger) (undo : Undo) : (l.record undo).storage = l.storage := by
  unfold record
  split <;> rfl

theorem value_record (l : Ledger) (undo : Undo) (cell : Cell) :
    (l.record undo).value cell = l.value cell := by
  simp only [value, slots, storage_record]

/-- Setting a value changes the value of its own cell and of no other. -/
theorem value_setValue (l : Ledger) (cell other : Cell) (value : Word) :
    (l.setValue cell value).value other = if cell = other then value else l.value other := by
  rw [setValue, value_write, value_record]

/-- New code changes no cell. -/
theorem value_setCode (l : Ledger) (address : Address) (code : Bytes) (cell : Cell) :
    (l.setCode address code).value cell = l.value cell :=
  value_record l _ cell

end Ledger

end ContractVM
