import ContractVM.Env

/-!
# Instructions within bounds

`Frame.execute` knows no bounds but those of the settings: memory may be a string of any length, and
a message may lie at any depth.  There are bounds, though.  There is no room for a string that is
longer than `Bytes.maxSize`, and depths are offsets, like positions.  `Frame.executeChecked` gives
an instruction up that would pass one of these bounds.  Memory that there is no room for is not
taken then, the call is not made, and the backend is not asked.

`Frame.overflows` tells from the operands which instructions are given up.  It takes settings that
allow so much: a limit of memory above `Bytes.maxSize`, or a message at the last of all depths.

The sum of a depth and one is checked like all sums of offsets.  Where sums wrap around instead, the
run up to this point is the same, and the callee would lie at depth zero.
-/

namespace ContractVM

/-! ### Operands -/

/-- The operands of a call that say whom to call, on which data, and where the output goes. -/
structure CallOperands where
  target : Word
  inStart : Word
  inSize : Word
  outStart : Word
  outSize : Word

namespace CallOperands

/-- The range of memory that holds the data. -/
def input (o : CallOperands) : Range := .ofWords o.inStart o.inSize

/-- The range of memory that the output goes to. -/
def output (o : CallOperands) : Range := .ofWords o.outStart o.outSize

end CallOperands

namespace Instruction

/-- The operands that a call takes, and what it leaves on the stack.  A call takes an amount of gas
first and a value third, which it does not look at; one that allows reading only takes no value. -/
def callOperands? : Instruction → Stack → Option (CallOperands × Stack)
  | .call, _ :: target :: _ :: inStart :: inSize :: outStart :: outSize :: rest =>
    some (⟨target, inStart, inSize, outStart, outSize⟩, rest)
  | .staticCall, _ :: target :: inStart :: inSize :: outStart :: outSize :: rest =>
    some (⟨target, inStart, inSize, outStart, outSize⟩, rest)
  | _, _ => none

/-- The ranges that an instruction makes fit, one after another, if it has its operands. -/
def ranges (i : Instruction) (s : Stack) : List Range :=
  match i, s with
  | .keccak, start :: size :: _ => [.ofWords start size]
  | .ret, start :: size :: _ => [.ofWords start size]
  | .revert, start :: size :: _ => [.ofWords start size]
  | .memLoad, position :: _ => [.ofWords position (.ofOffset 32)]
  | .memStore, position :: _ :: _ => [.ofWords position (.ofOffset 32)]
  | i, s =>
    match i.callOperands? s with
    | some (o, _) => [o.input, o.output]
    | none => []

end Instruction

/-! ### Frames -/

namespace Frame

/-- The size to which an instruction grows the memory of the frame. -/
def sizeAfter (f : Frame) (i : Instruction) : Nat :=
  Memory.sizeFor f.memoryLimit f.memory.size (i.ranges f.stack)

/-- Whether the instruction is a call that has its operands and its memory, and would lie deeper
than any depth. -/
def callsTooDeep (f : Frame) (i : Instruction) : Bool :=
  (i.callOperands? f.stack).isSome ∧ (i.ranges f.stack).all (·.isAllowed f.memoryLimit) ∧
    Offset.bound ≤ f.message.depth + 1

/-- Whether the instruction passes a bound. -/
def overflows (f : Frame) (i : Instruction) : Bool :=
  Memory.outgrows f.memoryLimit f.memory.size (i.ranges f.stack) || f.callsTooDeep i

/-- What is left of the frame by an instruction that passes a bound: all that was done before.  This
is how far the instruction gets in as much memory as there can be, if calls may lie anywhere. -/
def givenUp (f : Frame) (i : Instruction) : Frame :=
  let room := max f.memory.size Bytes.maxSize
  match Action.exec { Config.standard with maxDepth := Offset.bound } i
      { f with memoryLimit := min f.memoryLimit room } with
  | .ok _ g => { g with memoryLimit := f.memoryLimit }
  | .error _ g => { g with memoryLimit := f.memoryLimit }

/-- Executes an instruction, or gives it up if it passes a bound. -/
def executeChecked {σ : Type} [Backend σ] (cfg : Config) (f : Frame) (i : Instruction)
    (env : Env σ) : Executed σ :=
  if f.overflows i then ⟨f.givenUp i, env, some .outOfBounds⟩ else f.execute cfg i env

end Frame

end ContractVM
