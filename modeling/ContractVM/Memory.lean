import ContractVM.Halt
import ContractVM.Offset

/-!
# The memory of a frame

Memory is a byte string that grows with zeros, in words of 32 bytes, up to a limit.  A range is
given by two words of the machine; `Memory.extend` makes it fit, or refuses it, and gives it as
offsets.  An empty range is the empty range at zero, wherever it was said to start, and never
grows memory.

`Memory.extend` grows memory as far as the limit allows, as if there were room for strings of any
length.  A limit may lie above `Bytes.maxSize`, and to grow that far fails: `Memory.extend?` gives
nothing then.
-/

namespace ContractVM

/-- Bytes that a frame can write to. -/
abbrev Memory := Bytes

/-- A stretch of memory. -/
structure Range where
  start : Nat
  size : Nat
  deriving DecidableEq

namespace Range

/-- The range that two words of the machine stand for.  An empty one lies at zero. -/
def ofWords (start size : Word) : Range :=
  if size = 0 then ⟨0, 0⟩ else ⟨start.toNat, size.toNat⟩

/-- The size of the least memory of whole words in which the range lies. -/
def wordEnd (range : Range) : Nat := Offset.ceil32 (range.start + range.size)

/-- Whether memory may grow as far as the range asks for: to an offset, within the limit. -/
def isAllowed (limit : Nat) (range : Range) : Bool :=
  range.wordEnd ≤ limit ∧ range.wordEnd < Offset.bound

end Range

namespace Memory

/-- How much memory a call has if nothing else is said. -/
def defaultLimit : Nat := 0x1000000

/-- The size that memory needs for a range, if it is an offset. -/
def needed? (start size : Word) : Option (Range × Nat) := do
  let start ← start.toOffset?
  let size ← size.toOffset?
  let stop ← Offset.add? start size
  return (⟨start, size⟩, ← Offset.ceil32? stop)

/-- Grows memory so that a range fits, with room for strings of any length. -/
def extend (m : Memory) (limit : Nat) (start size : Word) : Except Halt (Range × Memory) :=
  if size.isZero then .ok (⟨0, 0⟩, m)
  else
    match needed? start size with
    | some (range, stop) =>
      if stop ≤ limit then .ok (range, m.zeroExtend stop) else .error .memoryLimit
    | none => .error .memoryLimit

/-- The size to which memory of size `held` grows when ranges are made to fit, one after another, up
to the first one that is not allowed. -/
def sizeFor (limit held : Nat) (ranges : List Range) : Nat :=
  (ranges.takeWhile (·.isAllowed limit)).foldl (fun n range => max n range.wordEnd) held

/-- Whether memory that makes ranges fit grows to a size for which there is no room. -/
def outgrows (limit held : Nat) (ranges : List Range) : Bool :=
  held < sizeFor limit held ranges ∧ Bytes.maxSize < sizeFor limit held ranges

/-- Grows memory so that a range fits, if there is room. -/
def extend? (m : Memory) (limit : Nat) (start size : Word) :
    Option (Except Halt (Range × Memory)) :=
  if outgrows limit m.size [.ofWords start size] then none else some (m.extend limit start size)

end Memory

end ContractVM
