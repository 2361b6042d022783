import ContractVM.Ledger.Lemmas
import ContractVM.Ledger.Text
import ContractVM.Session
import ContractVM.Word.Lemmas
import ContractVM.Proofs.Machine.Reaches
import ContractVM.Proofs.Machine.Simulation
import ContractVM.Proofs.Frame.Ensures
import ContractVM.Proofs.Frame.Bounds
import ContractVM.Proofs.Machine.Bounds
import ContractVM.Proofs.Backend.Front
import ContractVM.Proofs.SlotCache.Coherence
import ContractVM.Proofs.SlotCache.Transparency
import ContractVM.Proofs.Backend.Alike
import ContractVM.Proofs.Machine.Recursive
import ContractVM.Proofs.Ledger.Snapshots
import ContractVM.Proofs.Machine.Calls
import ContractVM.Proofs.Machine.Nesting
import ContractVM.Proofs.Ledger.Canonical
import ContractVM.Proofs.Machine.Depth
import ContractVM.Proofs.Frame.Growth
import ContractVM.Proofs.Machine.Checked
import ContractVM.Proofs.Machine.Finite
import ContractVM.Proofs.Ledger.Nesting
import ContractVM.Proofs.Ledger.Restored
import ContractVM.Proofs.Backend.Balanced
import ContractVM.Proofs.Machine.Transactions
import ContractVM.Proofs.Frame.Limits
import ContractVM.Proofs.Machine.Budget
import ContractVM.Proofs.Machine.GivenUp
import ContractVM.Proofs.Frame.Queries
import ContractVM.Proofs.Ledger.Unwritten
import ContractVM.Proofs.Machine.ReadOnly
import ContractVM.Proofs.Machine.Endings
import ContractVM.Proofs.Machine.CallContract
import ContractVM.Proofs.Machine.Failures
import ContractVM.Proofs.Ledger.Copies
import ContractVM.Proofs.Ledger.Within
import ContractVM.Proofs.Machine.OwnStorage
import ContractVM.Proofs.Machine.Trail
import ContractVM.Proofs.SlotCache.Reads
import ContractVM.Proofs.Frame.Recoded
import ContractVM.Proofs.Ledger.Coupled
import ContractVM.Proofs.Machine.ZeroPadding
import ContractVM.Proofs.Ledger.History
import ContractVM.Proofs.Frame.Operands
import ContractVM.Proofs.Frame.Unseen
import ContractVM.Proofs.Frame.Terms
import ContractVM.Proofs.Machine.Terms
import ContractVM.Proofs.Machine.HigherLimits
import ContractVM.Proofs.Ledger.Journal
import ContractVM.Proofs.Machine.StaticMode
import ContractVM.Proofs.Memory.Limit
import ContractVM.Proofs.Frame.View
import ContractVM.Proofs.Machine.Arithmetic
import ContractVM.Proofs.Hex.Reading
import ContractVM.Proofs.Hex.Printing
import ContractVM.Proofs.Word.Encoding
import ContractVM.Proofs.Machine.Comparison
import ContractVM.Proofs.Machine.PastTheEnd
