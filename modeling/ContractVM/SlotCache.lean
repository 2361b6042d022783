import Std.Data.ExtTreeMap
import ContractVM.Event

/-!
# The slot cache

Within one top-level call, a cell that was read once need not be read from the backend again: a
`SlotCache` holds the values that were read.  A write takes its cell out, and the written value is
never put in.

An `Attachment` says whether a call has a cache.  It is attached when the call begins
(`Attachment.activate`), shared by all calls nested in it, emptied by every rollback
(`Attachment.onRollback`), since the backend may then hold older values, and taken away at the end
(`Attachment.discard`).  Each of these gives the events that report it.
-/

namespace ContractVM

/-- Values of cells as they were read. -/
structure SlotCache where
  entries : Std.ExtTreeMap Cell Word

namespace SlotCache

/-- A cache without entries. -/
def empty : SlotCache := ⟨∅⟩

instance : EmptyCollection SlotCache := ⟨empty⟩

/-- The value held for a cell. -/
def lookup (c : SlotCache) (cell : Cell) : Option Word := c.entries[cell]?

/-- Whether a value is held for a cell. -/
def contains (c : SlotCache) (cell : Cell) : Bool := c.entries.contains cell

/-- Holds a value for a cell, in place of any other. -/
def install (c : SlotCache) (cell : Cell) (value : Word) : SlotCache :=
  ⟨c.entries.insert cell value⟩

/-- Holds nothing for a cell. -/
def invalidate (c : SlotCache) (cell : Cell) : SlotCache := ⟨c.entries.erase cell⟩

/-- How many cells have a value. -/
def size (c : SlotCache) : Nat := c.entries.size

/-- Whether no cell has a value. -/
def isEmpty (c : SlotCache) : Bool := c.entries.isEmpty

/-- The cells with their values, in order. -/
def toList (c : SlotCache) : List (Cell × Word) := c.entries.toList

/-- Installs entries one after another, into nothing. -/
def ofList (entries : List (Cell × Word)) : SlotCache :=
  entries.foldl (fun c (cell, value) => c.install cell value) ∅

theorem lookup_empty (cell : Cell) : empty.lookup cell = none := by
  simp [empty, lookup]

theorem lookup_install (c : SlotCache) (cell other : Cell) (value : Word) :
    (c.install cell value).lookup other = if cell = other then some value else c.lookup other := by
  simp [install, lookup, Std.ExtTreeMap.getElem?_insert]

theorem lookup_invalidate (c : SlotCache) (cell other : Cell) :
    (c.invalidate cell).lookup other = if cell = other then none else c.lookup other := by
  simp [invalidate, lookup, Std.ExtTreeMap.getElem?_erase]

end SlotCache

/-- Whether a call has a cache. -/
inductive Attachment
  | absent
  | active (cache : SlotCache)

namespace Attachment

/-- The cache, if there is one. -/
def cache? : Attachment → Option SlotCache
  | absent => none
  | active cache => some cache

/-- Changes the cache, if there is one. -/
def modify (f : SlotCache → SlotCache) : Attachment → Attachment
  | absent => absent
  | active cache => active (f cache)

/-- Begins a top-level call with an empty cache.  A cache that is still there is dropped, never
used again. -/
def activate : Attachment → Attachment × List Event
  | absent => (active ∅, [.cacheActivated])
  | active cache => (active ∅, [.cacheDropped cache.size, .cacheActivated])

/-- Ends a top-level call: there is no cache any more. -/
def discard : Attachment → Attachment × List Event
  | absent => (absent, [])
  | active cache => (absent, [.cacheDiscarded cache.size])

/-- A transaction was rolled back: nothing held can be trusted. -/
def onRollback : Attachment → Attachment × List Event
  | absent => (absent, [])
  | active cache => (active ∅, [.cacheCleared cache.size])

end Attachment

end ContractVM
