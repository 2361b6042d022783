import ContractVM.Config
import ContractVM.Frame.Action
import ContractVM.Instruction

/-!
# The execution of an instruction

Most instructions concern their frame alone.  Three need something from outside: a read of a cell,
a write to a cell, and the code of an account that is called.  `Action.exec` does what an
instruction does on its own and gives the `Query` it has, if it has one; `Action.complete` goes on
with the answer.

Operands are taken one by one, and before anything else is looked at: an instruction that lacks
one leaves none of them.  Only `dup` and `swap` look first.  The position in the code moves on as
the last thing, so a frame that halts stands at the instruction that halted it.

A call does not run the called code.  It leaves a pending call on its frame; once that call has
ended, `Action.resume` goes on with the frame.

Only the settings bound what is done here.  Memory grows to any size that its limit allows, and a
call lies one level deeper than its frame, however deep that is.  The sizes and depths that there
are not, however high the settings, are left to `Frame.executeChecked`.
-/

namespace ContractVM

/-- A call as its frame asks for it. -/
structure CallOrder where
  target : Address
  isStatic : Bool
  data : Bytes
  /-- Where the frame wants the output. -/
  output : Range

/-- What an instruction needs from outside its frame. -/
inductive Query
  /-- The value of a cell. -/
  | load (cell : Cell)
  /-- To set the value of a cell. -/
  | store (cell : Cell) (value : Word)
  /-- The code of an account, to call it. -/
  | code (order : CallOrder)

/-- What answers a query. -/
abbrev Query.Answer : Query → Type
  | .load _ => Word
  | .store _ _ => Unit
  | .code _ => Bytes

/-- The message of a call from within another message.  It lies one level deeper, even where there
is no such depth: from the last of all depths `Frame.executeChecked` makes no call. -/
def Message.child (m : Message) (order : CallOrder) (code : Bytes) : Message where
  caller := m.self
  target := order.target
  self := order.target
  data := order.data
  code
  depth := m.depth + 1
  isStatic := order.isStatic

namespace Action

/-! ### Parts of instructions -/

/-- Ends an instruction that has no query. -/
def next (size : Nat) : Action (Option Query) := do
  advance size
  return none

/-- Replaces one operand. -/
def unary (op : Word → Word) : Action (Option Query) := do
  push (op (← pop))
  next 1

/-- Replaces two operands by one. -/
def binary (op : Word → Word → Word) : Action (Option Query) := do
  let x ← pop
  let y ← pop
  push (op x y)
  next 1

/-- Puts a word that the message determines on top. -/
def constant (value : Message → Word) : Action (Option Query) := do
  push (value (← get).message)
  next 1

/-- Takes a range of memory from the stack, makes it fit, and gives its bytes. -/
def operandRange : Action Bytes := do
  let start ← pop
  let size ← pop
  read (← extend start size)

/-- Makes the word of memory at a position fit. -/
def extendWord (position : Word) : Action Range := extend position (.ofOffset 32)

/-- Writes the 32 bytes of a word to the start of a range of memory. -/
def writeWord (range : Range) (w : Word) : Action Unit :=
  write range.start (Bytes.ofList w.toBytes.toList)

/-- The number of `size` bytes from `start`, where bytes past the end are zeros. -/
def number (b : Bytes) (start size : Nat) : Action Word := do
  return Word.ofBytes (Bytes.list (← window b start size))

/-- Takes the ranges of a call from the stack, makes them fit, and asks for the code, unless calls
nest too deep.  The depth of the call is a number of any size here, and always compared with the
settings; `Frame.callsTooDeep` tells where there is no such depth. -/
def order (cfg : Config) (isStatic : Bool) (target : Word) : Action (Option Query) := do
  let inStart ← pop
  let inSize ← pop
  let outStart ← pop
  let outSize ← pop
  let input ← extend inStart inSize
  let output ← extend outStart outSize
  setReturnData .empty
  if (← get).message.depth + 1 > cfg.maxDepth then
    push 0
    next 1
  else
    let data ← read input
    return some (.code ⟨.ofWord target, isStatic, data, output⟩)

/-! ### Instructions -/

/-- What an instruction does on its own frame, and what it then needs from outside. -/
def exec (cfg : Config) : Instruction → Action (Option Query)
  | .stop => do
    stop
    next 1
  | .add => binary (· + ·)
  | .sub => binary (· - ·)
  | .lt => binary fun x y => .ofBool (x < y)
  | .gt => binary fun x y => .ofBool (y < x)
  | .eq => binary fun x y => .ofBool (x = y)
  | .isZero => unary fun x => .ofBool x.isZero
  | .keccak => do
    let bytes ← operandRange
    push (Word.ofBytes (Keccak.hash bytes).toList)
    next 1
  | .address => constant fun m => m.self.toWord
  | .caller => constant fun m => m.caller.toWord
  | .callDataLoad => do
    let position ← pop
    let data := (← get).message.data
    match position.toOffset? with
    | some start => push (← number data start 32)
    | none => push 0
    next 1
  | .callDataSize => constant fun m => .ofOffset m.data.size
  | .pop => do
    let _ ← pop
    next 1
  | .memLoad => do
    let position ← pop
    let bytes ← read (← extendWord position)
    push (Word.ofBytes (Bytes.list bytes))
    next 1
  | .memStore => do
    let position ← pop
    let value ← pop
    writeWord (← extendWord position) value
    next 1
  | .slotLoad => do
    let key ← pop
    return some (.load ⟨(← get).message.self, .ofWord key⟩)
  | .slotStore => do
    let key ← pop
    let value ← pop
    let m := (← get).message
    if m.isStatic then fail .staticWrite
    else return some (.store ⟨m.self, .ofWord key⟩ value)
  | .push size => do
    let f ← get
    push (← number f.code (f.pc + 1) size)
    next (size + 1)
  | .dup place => do
    dup place
    next 1
  | .swap place => do
    swap place
    next 1
  | .call => do
    let _gas ← pop
    let target ← pop
    let _value ← pop
    order cfg (← get).message.isStatic target
  | .ret => do
    setOutput (← operandRange)
    stop
    next 1
  | .staticCall => do
    let _gas ← pop
    let target ← pop
    order cfg true target
  | .revert => do
    setOutput (← operandRange)
    fail .revert
  | .invalid byte => fail (.invalidOpcode byte)

/-- Goes on with an instruction whose query was answered. -/
def complete : (q : Query) → q.Answer → Action Unit
  | .load _, value => do
    push value
    advance 1
  | .store _ _, () => advance 1
  | .code order, code =>
    modify fun f => { f with pending := some ⟨f.message.child order code, order.output⟩ }

/-- Goes on after a call has ended: pushes whether it succeeded, holds its output, and copies as
much of the output as the call asked for. -/
def resume (range : Range) (callee : Frame) : Action Unit := do
  push (Word.ofBool callee.halted.isNone)
  setReturnData callee.output
  write range.start (← slice callee.output 0 (min range.size callee.output.size))
  advance 1

end Action

end ContractVM
