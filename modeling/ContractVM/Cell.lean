import ContractVM.Hex
import ContractVM.Text
import ContractVM.Word.Bytes

/-!
# Accounts and their cells

An `Address` of 20 bytes names an account, and a `Key` of 32 bytes names a slot in the storage of
an account; together they name one `Cell`.  Addresses and keys are ordered as byte strings, cells
first by address and then by key, and equal in order means equal.

A word names the address of its low 160 bits (`Address.ofWord`) and the key of its 32 bytes
(`Key.ofWord`).
-/

namespace ContractVM

instance : Describe Word := ⟨fun w => Hex.text w.toBytes.toList⟩

instance : Describe Bytes := ⟨fun b => Hex.text (Bytes.list b)⟩

/-! ### Addresses -/

/-- The name of an account. -/
structure Address where
  bytes : Vector UInt8 20
  deriving DecidableEq

namespace Address

instance : Ord Address := ⟨compareOn Address.bytes⟩

instance : Std.TransOrd Address := inferInstanceAs (Std.TransCmp (compareOn Address.bytes))

instance : Std.LawfulEqOrd Address where
  eq_of_compare h := by
    rename_i a b
    obtain ⟨a⟩ := a
    obtain ⟨b⟩ := b
    exact congrArg mk (Std.LawfulEqCmp.eq_of_compare (show compare a b = .eq from h))

/-- The address of the low 160 bits of a word. -/
def ofWord (w : Word) : Address := ⟨w.toBytes.drop 12⟩

/-- The number of an address as a word. -/
def toWord (a : Address) : Word := Word.ofBytes a.bytes.toList

/-- The address that a hexadecimal text denotes. -/
def ofHex (s : String) : Except HexError Address := Address.mk <$> Hex.read 20 s

instance : Describe Address := ⟨fun a => Hex.text a.bytes.toList⟩

instance : Inhabited Address := ⟨⟨Vector.replicate 20 0⟩⟩

end Address

/-! ### Keys -/

/-- The name of a slot in the storage of an account. -/
structure Key where
  bytes : Vector UInt8 32
  deriving DecidableEq

namespace Key

instance : Ord Key := ⟨compareOn Key.bytes⟩

instance : Std.TransOrd Key := inferInstanceAs (Std.TransCmp (compareOn Key.bytes))

instance : Std.LawfulEqOrd Key where
  eq_of_compare h := by
    rename_i a b
    obtain ⟨a⟩ := a
    obtain ⟨b⟩ := b
    exact congrArg mk (Std.LawfulEqCmp.eq_of_compare (show compare a b = .eq from h))

/-- The key of the 32 bytes of a word. -/
def ofWord (w : Word) : Key := ⟨w.toBytes⟩

/-- The number of a key as a word. -/
def toWord (k : Key) : Word := Word.ofBytes k.bytes.toList

/-- The key that a hexadecimal text denotes. -/
def ofHex (s : String) : Except HexError Key := Key.mk <$> Hex.read 32 s

instance : Describe Key := ⟨fun k => Hex.text k.bytes.toList⟩

instance : Inhabited Key := ⟨⟨Vector.replicate 32 0⟩⟩

end Key

/-- The word that a hexadecimal text denotes. -/
def Word.ofHex (s : String) : Except HexError Word :=
  (fun bytes => Word.ofBytes bytes.toList) <$> Hex.read 32 s

/-! ### Cells and accounts -/

/-- One slot in the storage of one account. -/
structure Cell where
  address : Address
  key : Key
  deriving DecidableEq

namespace Cell

instance : Ord Cell := ⟨compareLex (compareOn Cell.address) (compareOn Cell.key)⟩

instance : Std.TransOrd Cell :=
  inferInstanceAs (Std.TransCmp (compareLex (compareOn Cell.address) (compareOn Cell.key)))

instance : Std.LawfulEqOrd Cell where
  eq_of_compare h := by
    rename_i a b
    obtain ⟨a, k⟩ := a
    obtain ⟨b, l⟩ := b
    obtain ⟨ha, hk⟩ := compareLex_eq_eq.1 h
    rw [show a = b from Std.LawfulEqCmp.eq_of_compare ha,
      show k = l from Std.LawfulEqCmp.eq_of_compare hk]

instance : Describe Cell where
  describe c := Text.record "SlotKey" [("address", describe c.address), ("key", describe c.key)]

end Cell

/-- What the ledger holds of an account beside its storage. -/
structure Account where
  code : Bytes

namespace Account

/-- An account that was never made has no code. -/
instance : Inhabited Account := ⟨⟨.empty⟩⟩

instance : Describe Account := ⟨fun a => Text.record "Account" [("code", describe a.code)]⟩

end Account

end ContractVM
