import ContractVM.Keccak
import ContractVM.Text
import ContractVM.Cell

/-!
# Messages

A `Message` asks for code to be run: by whom, for which account, on which data.  `depth` counts the
calls around it, and a message that `isStatic` allows reading only, to its code and to all that
its code calls.
-/

namespace ContractVM

/-- A request to run code. -/
structure Message where
  caller : Address
  /-- The account whose code is run. -/
  target : Address
  /-- The account whose storage the code works on. -/
  self : Address
  data : Bytes
  code : Bytes
  depth : Nat
  isStatic : Bool

namespace Message

/-- A message from outside, without data. -/
def new (caller target : Address) (code : Bytes) : Message where
  caller
  target
  self := target
  data := .empty
  code
  depth := 0
  isStatic := false

/-- The same message with other data. -/
def withData (m : Message) (data : Bytes) : Message := { m with data }

/-- The hash that identifies the code. -/
def codeHash (m : Message) : Vector UInt8 32 := Keccak.hash m.code

instance : Describe Message where
  describe m := Text.record "Message"
    [("caller", describe m.caller), ("target", describe m.target),
      ("current_target", describe m.self), ("data", describe m.data), ("code", describe m.code),
      ("depth", describe m.depth), ("is_static", describe m.isStatic)]

end Message

end ContractVM
