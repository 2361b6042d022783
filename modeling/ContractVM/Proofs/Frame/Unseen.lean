import ContractVM.Frame.Moves

/-!
# What instructions do not see of their frame

Parts of instructions work on the operands and the memory of their frame, on its position in the
code, and on what it puts out.  A `Frame.Change` leaves all of that alone: it concerns the message,
the limit of the memory, and the call that the frame has made.

`Action.Unseen c` says that an action does not see the change `c`: on a changed frame it does the
same, and leaves the frame with that change.  Whatever takes nothing else from its frame does not
see any change.
-/

namespace ContractVM

/-- A change to what parts of instructions do not work on. -/
structure Frame.Change where
  message : Message → Message
  memoryLimit : Nat → Nat
  pending : Option PendingCall → Option PendingCall

namespace Frame.Change

variable {α β : Type} (c : Frame.Change)

/-- The changed frame. -/
def frame (f : Frame) : Frame :=
  { f with
    message := c.message f.message
    memoryLimit := c.memoryLimit f.memoryLimit
    pending := c.pending f.pending }

/-- The same outcome, with its frame changed. -/
def outcome (u : α → β) : EStateM.Result Fault Frame α → EStateM.Result Fault Frame β
  | .ok x f => .ok (u x) (c.frame f)
  | .error fault f => .error fault (c.frame f)

variable (f : Frame)

@[simp] theorem stack_frame : (c.frame f).stack = f.stack := rfl

@[simp] theorem memory_frame : (c.frame f).memory = f.memory := rfl

@[simp] theorem memoryLimit_frame : (c.frame f).memoryLimit = c.memoryLimit f.memoryLimit := rfl

end Frame.Change

namespace Action

variable {α β : Type} {c : Frame.Change}

/-- The action does the same on a changed frame. -/
structure Unseen (c : Frame.Change) (a : Action α) : Prop where
  run (f : Frame) : a (c.frame f) = c.outcome id (a f)

theorem Unseen.bind {a : Action α} {k : α → Action β} (ha : Unseen c a) (hk : ∀ x, Unseen c (k x)) :
    Unseen c (a >>= k) := by
  refine ⟨fun f => ?_⟩
  have h := ha.run f
  cases e : a f with
  | ok x g =>
    rw [e] at h
    rw [bind_ok e, bind_ok h]
    exact (hk x).run g
  | error fault g =>
    rw [e] at h
    rw [bind_error e, bind_error h]
    rfl

theorem unseen_pure (x : α) : Unseen c (pure x) := ⟨fun _ => rfl⟩

theorem unseen_fail (reason : Halt) : Unseen c (fail reason : Action α) := ⟨fun _ => rfl⟩

theorem unseen_advance (n : Nat) : Unseen c (advance n) := ⟨fun _ => rfl⟩

theorem unseen_stop : Unseen c stop := ⟨fun _ => rfl⟩

theorem unseen_setOutput (output : Bytes) : Unseen c (setOutput output) := ⟨fun _ => rfl⟩

theorem unseen_setReturnData (data : Bytes) : Unseen c (setReturnData data) := ⟨fun _ => rfl⟩

/-! ### Operands -/

theorem unseen_pop : Unseen c pop := by
  refine ⟨fun f => ?_⟩
  simp only [pop, Frame.Change.stack_frame]
  cases f.stack.pop <;> rfl

theorem unseen_push (w : Word) : Unseen c (push w) := by
  refine ⟨fun f => ?_⟩
  simp only [push, Frame.Change.stack_frame]
  cases f.stack.push w <;> rfl

theorem unseen_dup (n : Nat) : Unseen c (dup n) := by
  refine ⟨fun f => ?_⟩
  simp only [dup, Frame.Change.stack_frame]
  cases f.stack.peek n with
  | ok w => exact (unseen_push w).run f
  | error reason => rfl

theorem unseen_swap (n : Nat) : Unseen c (swap n) := by
  refine ⟨fun f => ?_⟩
  simp only [swap, Frame.Change.stack_frame]
  cases f.stack.swap n <;> rfl

/-! ### Bytes -/

theorem unseen_slice (b : Bytes) (start size : Nat) : Unseen c (slice b start size) := by
  refine ⟨fun f => ?_⟩
  simp only [slice]
  cases b.slice? start size <;> rfl

theorem unseen_padded (v : Bytes) : Unseen c (padded v) := by
  refine ⟨fun f => ?_⟩
  simp only [padded]
  cases (Bytes.zeroExtend .empty 32).overwrite? 0 v <;> rfl

theorem unseen_number (b : Bytes) (start size : Nat) : Unseen c (number b start size) :=
  .bind (.bind (unseen_slice _ _ _) fun _ => .bind (unseen_padded _) fun _ => unseen_slice _ _ _)
    fun _ => unseen_pure _

theorem unseen_read (range : Range) : Unseen c (read range) :=
  ⟨fun f => (unseen_slice f.memory range.start range.size).run f⟩

theorem unseen_write (start : Nat) (v : Bytes) : Unseen c (write start v) := by
  refine ⟨fun f => ?_⟩
  simp only [write, Frame.Change.memory_frame]
  cases f.memory.overwrite? start v <;> rfl

/-- Memory is made to fit as on the frame as it was, if the limit makes no difference. -/
theorem extend_change {f : Frame} {start size : Word}
    (h : f.memory.extend (c.memoryLimit f.memoryLimit) start size =
      f.memory.extend f.memoryLimit start size) :
    extend start size (c.frame f) = c.outcome id (extend start size f) := by
  simp only [extend, Frame.Change.memory_frame, Frame.Change.memoryLimit_frame, h]
  cases f.memory.extend f.memoryLimit start size <;> rfl

/-! ### Parts of instructions -/

theorem unseen_next (size : Nat) : Unseen c (next size) :=
  (unseen_advance size).bind fun _ => unseen_pure _

theorem unseen_push_next (w : Word) (size : Nat) : Unseen c (push w >>= fun _ => next size) :=
  (unseen_push w).bind fun _ => unseen_next size

theorem unseen_unary (op : Word → Word) : Unseen c (unary op) :=
  unseen_pop.bind fun _ => unseen_push_next _ _

theorem unseen_binary (op : Word → Word → Word) : Unseen c (binary op) :=
  unseen_pop.bind fun _ => unseen_pop.bind fun _ => unseen_push_next _ _

theorem unseen_complete_load (cell : Cell) (value : Word) :
    Unseen c (complete (.load cell) value) :=
  (unseen_push value).bind fun _ => unseen_advance 1

theorem unseen_complete_store (cell : Cell) (value : Word) :
    Unseen c (complete (.store cell value) ()) := unseen_advance 1

theorem unseen_resume (range : Range) (callee : Frame) : Unseen c (resume range callee) :=
  (unseen_push _).bind fun _ => (unseen_setReturnData _).bind fun _ => (unseen_slice _ _ _).bind
    fun _ => (unseen_write _ _).bind fun _ => unseen_advance 1

end Action

end ContractVM
