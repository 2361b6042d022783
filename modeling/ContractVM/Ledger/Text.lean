import ContractVM.Ledger.Basic

/-!
# The text of a ledger

Tables are written in the order of their keys, the journal from the oldest record on, and the
checkpoints from the outermost one in.
-/

namespace ContractVM

instance : Describe Undo where
  describe
    | .slot cell previous => Text.record "Storage"
        [("address", describe cell.address), ("key", describe cell.key),
          ("previous", describe previous)]
    | .account address previous => Text.record "Code"
        [("address", describe address), ("previous", describe previous)]

instance : Describe Ledger where
  describe l := Text.record "State"
    [("accounts", Text.table (l.accounts.toList.map fun (address, account) =>
        (describe address, describe account))),
      ("storage", Text.table (l.storage.toList.map fun (address, slots) =>
        (describe address, Text.table (slots.toList.map fun (key, value) =>
          (describe key, describe value))))),
      ("journal", Text.list (l.journal.reverse.map describe)),
      ("checkpoints", Text.list (l.checkpoints.reverse.map describe))]

end ContractVM
