import ContractVM.Text

/-!
# Settings

A `Config` says whether top-level calls read through a slot cache, how deep calls may nest, and
how much memory all frames of one top-level call may hold together.
-/

namespace ContractVM

/-- The settings of a run. -/
structure Config where
  slotCache : Bool
  maxDepth : Nat
  maxMemory : Nat

namespace Config

/-- With a cache, 1024 calls inside one another, and 16 MiB of memory. -/
def standard : Config := ⟨true, 1024, 0x1000000⟩

/-- The standard settings without a cache. -/
def uncached : Config := { standard with slotCache := false }

instance : Describe Config where
  describe c := Text.record "Config"
    [("sload_cache", describe c.slotCache), ("max_call_depth", describe c.maxDepth),
      ("max_call_memory", describe c.maxMemory)]

end Config

end ContractVM
