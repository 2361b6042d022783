import ContractVM.Frame.Moves

/-!
# Properties of all instructions

Many properties of actions pass from the parts of an action to the whole: what all parts leave
alone, the whole leaves alone.  For such a property it is enough to look at the few actions that
instructions are put together from.

* `Action.Composes P` : the property passes to the whole, and those actions have it.
* `Action.Composes.exec` : so all instructions have it.  Making memory fit, writing to it, and
  ending a frame with an output are only what some instructions do, and are only asked about for
  these.
-/

namespace ContractVM

/-- The instruction makes ranges of memory fit. -/
def Instruction.Extends : Instruction → Prop
  | .keccak | .memLoad | .memStore | .call | .ret | .staticCall | .revert => True
  | _ => False

namespace Action

/-- The property passes from parts to the whole, and the parts of most instructions have it. -/
structure Composes (P : ∀ α : Type, Action α → Prop) : Prop where
  bind {α β : Type} {a : Action α} {k : α → Action β} : P α a → (∀ x, P β (k x)) → P β (a >>= k)
  pure {α : Type} (x : α) : P α (Pure.pure x)
  get : P Frame MonadState.get
  pop : P Word Action.pop
  push (w : Word) : P Unit (Action.push w)
  dup (n : Nat) : P Unit (Action.dup n)
  swap (n : Nat) : P Unit (Action.swap n)
  slice (b : Bytes) (start size : Nat) : P Bytes (Action.slice b start size)
  padded (v : Bytes) : P Bytes (Action.padded v)
  read (range : Range) : P Bytes (Action.read range)
  advance (n : Nat) : P Unit (Action.advance n)
  stop : P Unit Action.stop
  setReturnData (data : Bytes) : P Unit (Action.setReturnData data)
  /-- A revert is not what fails, and neither is the backend. -/
  fail {reason : Halt} : reason ≠ .revert → (∀ error, reason ≠ .backend error) →
    P (Option Query) (Action.fail reason)

namespace Composes

variable {P : ∀ α : Type, Action α → Prop}

/-! ### Parts of instructions -/

theorem next (h : Composes P) (size : Nat) : P _ (next size) :=
  h.bind (h.advance _) fun _ => h.pure _

theorem push_next (h : Composes P) (w : Word) (size : Nat) :
    P _ (Action.push w >>= fun _ => Action.next size) :=
  h.bind (h.push _) fun _ => h.next _

theorem unary (h : Composes P) (op : Word → Word) : P _ (unary op) :=
  h.bind h.pop fun _ => h.push_next _ _

theorem binary (h : Composes P) (op : Word → Word → Word) : P _ (binary op) :=
  h.bind h.pop fun _ => h.bind h.pop fun _ => h.push_next _ _

theorem constant (h : Composes P) (value : Message → Word) : P _ (constant value) :=
  h.bind h.get fun _ => h.push_next _ _

theorem number (h : Composes P) (b : Bytes) (start size : Nat) : P _ (number b start size) :=
  h.bind (h.bind (h.slice _ _ _) fun _ => h.bind (h.padded _) fun _ => h.slice _ _ _) fun _ =>
    h.pure _

theorem operandRange (h : Composes P) (extend : ∀ start size, P _ (Action.extend start size)) :
    P _ operandRange :=
  h.bind h.pop fun _ => h.bind h.pop fun _ => h.bind (extend _ _) fun _ => h.read _

theorem order (h : Composes P) (extend : ∀ start size, P _ (Action.extend start size))
    (cfg : Config) (isStatic : Bool) (target : Word) : P _ (order cfg isStatic target) := by
  refine h.bind h.pop fun _ => h.bind h.pop fun _ => h.bind h.pop fun _ => h.bind h.pop fun _ =>
    h.bind (extend _ _) fun _ => h.bind (extend _ _) fun _ =>
    h.bind (h.setReturnData _) fun _ => h.bind h.get fun _ => ?_
  split
  · exact h.push_next _ _
  · exact h.bind (h.read _) fun _ => h.pure _

/-! ### Instructions -/

/-- An instruction has the property if making memory fit has it, should it do that, if writing has
it, should it write, and if setting the output and reverting have it, should it do so. -/
theorem exec (h : Composes P) (cfg : Config) {i : Instruction}
    (extend : i.Extends → ∀ start size, P _ (Action.extend start size))
    (write : i = .memStore → ∀ start v, P _ (Action.write start v))
    (setOutput : i = .ret ∨ i = .revert → ∀ output, P _ (Action.setOutput output))
    (revert : i = .revert → P (Option Query) (Action.fail .revert)) : P _ (Action.exec cfg i) := by
  cases i <;> rw [Action.exec]
  case stop => exact h.bind h.stop fun _ => h.next _
  case add | sub | lt | gt | eq => exact h.binary _
  case isZero => exact h.unary _
  case keccak => exact h.bind (h.operandRange (extend trivial)) fun _ => h.push_next _ _
  case address | caller | callDataSize => exact h.constant _
  case callDataLoad =>
    refine h.bind h.pop fun w => h.bind h.get fun _ => ?_
    dsimp only
    split
    · exact h.bind (h.number _ _ _) fun _ => h.push_next _ _
    · exact h.push_next _ _
  case pop => exact h.bind h.pop fun _ => h.next _
  case memLoad =>
    exact h.bind h.pop fun _ => h.bind (extend trivial _ _) fun _ => h.bind (h.read _) fun _ =>
      h.push_next _ _
  case memStore =>
    exact h.bind h.pop fun _ => h.bind h.pop fun _ => h.bind (extend trivial _ _) fun _ =>
      h.bind (write rfl _ _) fun _ => h.next _
  case slotLoad => exact h.bind h.pop fun _ => h.bind h.get fun _ => h.pure _
  case slotStore =>
    refine h.bind h.pop fun _ => h.bind h.pop fun _ => h.bind h.get fun _ => ?_
    dsimp only
    split
    · exact h.fail (by simp) (by simp)
    · exact h.pure _
  case push size =>
    exact h.bind h.get fun _ => h.bind (h.number _ _ _) fun _ => h.push_next _ _
  case dup n => exact h.bind (h.dup n) fun _ => h.next _
  case swap n => exact h.bind (h.swap n) fun _ => h.next _
  case call =>
    exact h.bind h.pop fun _ => h.bind h.pop fun _ => h.bind h.pop fun _ => h.bind h.get fun _ =>
      h.order (extend trivial) _ _ _
  case ret =>
    exact h.bind (h.operandRange (extend trivial)) fun _ => h.bind (setOutput (.inl rfl) _) fun _ =>
      h.bind h.stop fun _ => h.next _
  case staticCall =>
    exact h.bind h.pop fun _ => h.bind h.pop fun _ => h.order (extend trivial) _ _ _
  case revert =>
    exact h.bind (h.operandRange (extend trivial)) fun _ => h.bind (setOutput (.inr rfl) _) fun _ =>
      revert rfl
  case invalid byte => exact h.fail (by simp) (by simp)

end Composes

end Action

end ContractVM
