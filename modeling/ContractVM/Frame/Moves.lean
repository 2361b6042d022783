import ContractVM.Frame.Exec

/-!
# How instructions move

The parts of instructions are `Steady`: they leave the message, the position in the code and the
pending call of their frame alone.  A whole instruction either moves on in the code, or asks
something (`Action.Moves`), and it asks for the code of an account only where calls may nest one
deeper.  Main statement: `Action.exec_moves`.
-/

namespace ContractVM

namespace Frame

/-- Both frames are at one position of one message, with the same pending call. -/
structure SamePlace (f g : Frame) : Prop where
  message : g.message = f.message
  pending : g.pending = f.pending
  pc : g.pc = f.pc

theorem SamePlace.refl (f : Frame) : f.SamePlace f := ⟨rfl, rfl, rfl⟩

theorem SamePlace.trans {f g h : Frame} (a : f.SamePlace g) (b : g.SamePlace h) :
    f.SamePlace h :=
  ⟨b.message.trans a.message, b.pending.trans a.pending, b.pc.trans a.pc⟩

/-- The second frame has moved on in the code of the same message. -/
structure Ahead (f g : Frame) : Prop where
  message : g.message = f.message
  pending : g.pending = f.pending
  pc : f.pc < g.pc

theorem SamePlace.ahead {f g h : Frame} (a : f.SamePlace g) (b : g.Ahead h) : f.Ahead h :=
  ⟨b.message.trans a.message, b.pending.trans a.pending, a.pc ▸ b.pc⟩

end Frame

namespace Action

variable {α β : Type}

/-- The action leaves the frame in its place, whether it fails or not. -/
structure Steady (a : Action α) : Prop where
  run (f : Frame) : match a f with
    | .ok _ g => f.SamePlace g
    | .error _ g => f.SamePlace g

/-- From `f`, the action moves on, or asks something, or fails. -/
structure Moves (cfg : Config) (a : Action (Option Query)) (f : Frame) : Prop where
  run : match a f with
    | .ok none g => f.Ahead g
    | .ok (some (.code _)) g => f.SamePlace g ∧ f.message.depth + 1 ≤ cfg.maxDepth
    | .ok (some _) g => f.SamePlace g
    | .error _ g => f.SamePlace g

/-! ### Parts of instructions are steady -/

theorem bind_ok {a : Action α} {f g : Frame} {x : α} (h : a f = .ok x g) (k : α → Action β) :
    (a >>= k) f = k x g := by
  simp [bind, EStateM.bind, h]

theorem bind_error {a : Action α} {f g : Frame} {e : Fault} (h : a f = .error e g)
    (k : α → Action β) : (a >>= k) f = .error e g := by
  simp [bind, EStateM.bind, h]

theorem Steady.bind {a : Action α} {k : α → Action β} (ha : Steady a) (hk : ∀ x, Steady (k x)) :
    Steady (a >>= k) := by
  refine ⟨fun f => ?_⟩
  have h := ha.run f
  cases e : a f with
  | ok x g =>
    have h' := (hk x).run g
    rw [bind_ok e]
    rw [e] at h
    cases e' : k x g <;> rw [e'] at h' <;> exact h.trans h'
  | error r g =>
    rw [bind_error e]
    rwa [e] at h

theorem steady_pure (x : α) : Steady (pure x) := ⟨.refl⟩

theorem steady_get : Steady (get : Action Frame) := ⟨.refl⟩

theorem steady_pop : Steady pop := by
  refine ⟨fun f => ?_⟩
  unfold pop
  split <;> rename_i h <;> split at h <;> cases h <;> exact ⟨rfl, rfl, rfl⟩

theorem steady_push (w : Word) : Steady (push w) := by
  refine ⟨fun f => ?_⟩
  unfold push
  split <;> rename_i h <;> split at h <;> cases h <;> exact ⟨rfl, rfl, rfl⟩

theorem steady_dup (n : Nat) : Steady (dup n) := by
  refine ⟨fun f => ?_⟩
  unfold dup
  cases f.stack.peek n with
  | ok w => exact (steady_push w).run f
  | error e => exact .refl f

theorem steady_swap (n : Nat) : Steady (swap n) := by
  refine ⟨fun f => ?_⟩
  unfold swap
  split <;> rename_i h <;> split at h <;> cases h <;> exact ⟨rfl, rfl, rfl⟩

theorem steady_slice (b : Bytes) (start size : Nat) : Steady (slice b start size) := by
  refine ⟨fun f => ?_⟩
  unfold slice
  split <;> rename_i h <;> split at h <;> cases h <;> exact ⟨rfl, rfl, rfl⟩

theorem steady_padded (v : Bytes) : Steady (padded v) := by
  refine ⟨fun f => ?_⟩
  unfold padded
  split <;> rename_i h <;> split at h <;> cases h <;> exact ⟨rfl, rfl, rfl⟩

theorem steady_window (b : Bytes) (start n : Nat) : Steady (window b start n) :=
  (steady_slice _ _ _).bind fun _ => (steady_padded _).bind fun _ => steady_slice _ _ _

theorem steady_number (b : Bytes) (start size : Nat) : Steady (number b start size) :=
  (steady_window _ _ _).bind fun _ => steady_pure _

theorem steady_extend (start size : Word) : Steady (extend start size) := by
  refine ⟨fun f => ?_⟩
  unfold extend
  split <;> rename_i h <;> split at h <;> cases h <;> exact ⟨rfl, rfl, rfl⟩

theorem steady_extendWord (position : Word) : Steady (extendWord position) := steady_extend _ _

theorem steady_read (range : Range) : Steady (read range) :=
  ⟨fun f => (steady_slice f.memory range.start range.size).run f⟩

theorem steady_write (start : Nat) (v : Bytes) : Steady (write start v) := by
  refine ⟨fun f => ?_⟩
  unfold write
  split <;> rename_i h <;> split at h <;> cases h <;> exact ⟨rfl, rfl, rfl⟩

theorem steady_writeWord (range : Range) (w : Word) : Steady (writeWord range w) :=
  steady_write _ _

theorem steady_setOutput (output : Bytes) : Steady (setOutput output) := ⟨fun _ => ⟨rfl, rfl, rfl⟩⟩

theorem steady_setReturnData (data : Bytes) : Steady (setReturnData data) :=
  ⟨fun _ => ⟨rfl, rfl, rfl⟩⟩

theorem steady_stop : Steady stop := ⟨fun _ => ⟨rfl, rfl, rfl⟩⟩

theorem steady_operandRange : Steady operandRange :=
  steady_pop.bind fun _ => steady_pop.bind fun _ => (steady_extend _ _).bind fun _ =>
    steady_read _

/-! ### Instructions move -/

variable {cfg : Config}

/-- What follows a steady part starts from the same place. -/
theorem Steady.moves {a : Action α} {k : α → Action (Option Query)} {f : Frame} (ha : Steady a)
    (hk : ∀ x g, f.SamePlace g → Moves cfg (k x) g) : Moves cfg (a >>= k) f := by
  have h := ha.run f
  refine ⟨?_⟩
  cases e : a f with
  | ok x g =>
    rw [e] at h
    have h' := (hk x g h).run
    rw [bind_ok e]
    cases e' : k x g with
    | ok q g' =>
      rw [e'] at h'
      match q, h' with
      | none, h' => exact h.ahead h'
      | some (.load _), h' => exact h.trans h'
      | some (.store _ _), h' => exact h.trans h'
      | some (.code _), h' => exact ⟨h.trans h'.1, h.message ▸ h'.2⟩
    | error r g' =>
      rw [e'] at h'
      exact h.trans h'
  | error r g =>
    rw [bind_error e]
    rwa [e] at h

theorem moves_next {size : Nat} (h : 0 < size) (f : Frame) : Moves cfg (next size) f :=
  ⟨⟨rfl, rfl, Nat.lt_add_of_pos_right h⟩⟩

theorem moves_fail (reason : Halt) (f : Frame) : Moves cfg (fail reason) f := ⟨.refl f⟩

theorem moves_get {k : Frame → Action (Option Query)} {f : Frame} (h : Moves cfg (k f) f) :
    Moves cfg (get >>= k) f := by
  refine ⟨?_⟩
  rw [bind_ok (show (get : Action Frame) f = .ok f f from rfl)]
  exact h.run

theorem moves_constant (value : Message → Word) (f : Frame) : Moves cfg (constant value) f :=
  moves_get <| (steady_push _).moves fun _ g _ => moves_next Nat.one_pos g

theorem moves_unary (op : Word → Word) (f : Frame) : Moves cfg (unary op) f :=
  steady_pop.moves fun _ _ _ => (steady_push _).moves fun _ g _ => moves_next Nat.one_pos g

theorem moves_binary (op : Word → Word → Word) (f : Frame) : Moves cfg (binary op) f :=
  steady_pop.moves fun _ _ _ => steady_pop.moves fun _ _ _ => (steady_push _).moves fun _ g _ =>
    moves_next Nat.one_pos g

theorem moves_order (isStatic : Bool) (target : Word) (f : Frame) :
    Moves cfg (order cfg isStatic target) f := by
  unfold order
  refine steady_pop.moves fun _ _ _ => steady_pop.moves fun _ _ _ => steady_pop.moves fun _ _ _ =>
    steady_pop.moves fun _ _ _ => (steady_extend _ _).moves fun _ _ _ =>
    (steady_extend _ _).moves fun _ _ _ => (steady_setReturnData _).moves fun _ g _ =>
    moves_get ?_
  split
  · exact (steady_push 0).moves fun _ h _ => moves_next Nat.one_pos h
  · rename_i deep
    exact (steady_read _).moves fun _ h same =>
      ⟨⟨.refl h, same.message ▸ Nat.le_of_not_lt deep⟩⟩

/-- From every frame, every instruction moves on, or asks something, or fails. -/
theorem exec_moves (cfg : Config) (i : Instruction) (f : Frame) : Moves cfg (exec cfg i) f := by
  cases i <;> rw [exec]
  case stop => exact steady_stop.moves fun _ g _ => moves_next Nat.one_pos g
  case add | sub | lt | gt | eq => exact moves_binary _ f
  case isZero => exact moves_unary _ f
  case keccak =>
    exact steady_operandRange.moves fun _ _ _ => (steady_push _).moves fun _ g _ =>
      moves_next Nat.one_pos g
  case address | caller | callDataSize => exact moves_constant _ f
  case callDataLoad =>
    refine steady_pop.moves fun w _ _ => steady_get.moves fun _ _ _ => ?_
    dsimp only
    split
    · exact (steady_number _ _ _).moves fun _ _ _ => (steady_push _).moves fun _ g _ =>
        moves_next Nat.one_pos g
    · exact (steady_push _).moves fun _ g _ => moves_next Nat.one_pos g
  case pop => exact steady_pop.moves fun _ g _ => moves_next Nat.one_pos g
  case memLoad =>
    exact steady_pop.moves fun _ _ _ => (steady_extendWord _).moves fun _ _ _ =>
      (steady_read _).moves fun _ _ _ => (steady_push _).moves fun _ g _ =>
      moves_next Nat.one_pos g
  case memStore =>
    exact steady_pop.moves fun _ _ _ => steady_pop.moves fun _ _ _ =>
      (steady_extendWord _).moves fun _ _ _ => (steady_writeWord _ _).moves fun _ g _ =>
      moves_next Nat.one_pos g
  case slotLoad =>
    exact steady_pop.moves fun _ _ _ => steady_get.moves fun _ g _ => ⟨.refl g⟩
  case slotStore =>
    refine steady_pop.moves fun _ _ _ => steady_pop.moves fun _ _ _ =>
      steady_get.moves fun _ g _ => ?_
    dsimp only
    split
    · exact moves_fail _ g
    · exact ⟨.refl g⟩
  case push size =>
    exact steady_get.moves fun _ _ _ => (steady_number _ _ _).moves fun _ _ _ =>
      (steady_push _).moves fun _ g _ => moves_next (Nat.succ_pos size) g
  case dup n => exact (steady_dup n).moves fun _ g _ => moves_next Nat.one_pos g
  case swap n => exact (steady_swap n).moves fun _ g _ => moves_next Nat.one_pos g
  case call =>
    exact steady_pop.moves fun _ _ _ => steady_pop.moves fun _ _ _ => steady_pop.moves fun _ _ _ =>
      steady_get.moves fun _ g _ => moves_order _ _ g
  case ret =>
    exact steady_operandRange.moves fun _ _ _ => (steady_setOutput _).moves fun _ _ _ =>
      steady_stop.moves fun _ g _ => moves_next Nat.one_pos g
  case staticCall =>
    exact steady_pop.moves fun _ _ _ => steady_pop.moves fun _ g _ => moves_order _ _ g
  case revert =>
    exact steady_operandRange.moves fun _ _ _ => (steady_setOutput _).moves fun _ g _ =>
      moves_fail _ g
  case invalid byte => exact moves_fail _ f

/-! ### What goes on after an answer -/

/-- From `f`, the action moves on, or fails. -/
structure Advances (a : Action α) (f : Frame) : Prop where
  run : match a f with
    | .ok _ g => f.Ahead g
    | .error _ g => f.SamePlace g

theorem Steady.advances {a : Action α} {k : α → Action β} {f : Frame} (ha : Steady a)
    (hk : ∀ x g, f.SamePlace g → Advances (k x) g) : Advances (a >>= k) f := by
  have h := ha.run f
  refine ⟨?_⟩
  cases e : a f with
  | ok x g =>
    rw [e] at h
    have h' := (hk x g h).run
    rw [bind_ok e]
    cases e' : k x g with
    | ok y g' =>
      rw [e'] at h'
      exact h.ahead h'
    | error r g' =>
      rw [e'] at h'
      exact h.trans h'
  | error r g =>
    rw [bind_error e]
    rwa [e] at h

theorem advances_advance {size : Nat} (h : 0 < size) (f : Frame) : Advances (advance size) f :=
  ⟨⟨rfl, rfl, Nat.lt_add_of_pos_right h⟩⟩

theorem advances_complete_load (cell : Cell) (value : Word) (f : Frame) :
    Advances (complete (.load cell) value) f :=
  (steady_push _).advances fun _ g _ => advances_advance Nat.one_pos g

theorem advances_complete_store (cell : Cell) (value : Word) (f : Frame) :
    Advances (complete (.store cell value) ()) f :=
  advances_advance Nat.one_pos f

/-- A frame goes on behind the call that it waited for. -/
theorem advances_resume (range : Range) (callee f : Frame) : Advances (resume range callee) f :=
  (steady_push _).advances fun _ _ _ => (steady_setReturnData _).advances fun _ _ _ =>
    (steady_slice _ _ _).advances fun _ _ _ => (steady_write _ _).advances fun _ g _ =>
    advances_advance Nat.one_pos g

end Action

end ContractVM
