import ContractVM.Proofs.Frame.Ensures

/-!
# Instructions stay inside of byte strings

No instruction reads or writes bytes outside of memory, code or data, from whatever frame it is
executed (`Action.exec_within`): what it touches was made to fit before, or ends where the bytes
end.  A call keeps the place of its output for later.  It lies inside of the memory of the caller
when the call is made, and then `Action.resume` stays inside, too, whatever the output is
(`Action.resume_within`).
-/

namespace ContractVM

/-- The range lies inside of the memory of the frame. -/
def Frame.Covers (f : Frame) (range : Range) : Prop := range.start + range.size ≤ f.memory.size

/-- The frame behind a call: whether the callee succeeded is on its stack, it holds the output,
and as much of that as it asked for is in its memory. -/
def Frame.resumed (f : Frame) (range : Range) (callee : Frame) : Frame :=
  let part := callee.output.extract 0 (min range.size callee.output.size)
  { f with
    stack := Word.ofBool callee.halted.isNone :: f.stack
    returnData := callee.output
    memory := part.copySlice 0 f.memory range.start part.size
    pc := f.pc + 1 }

namespace Action

/-- The fault is a halt. -/
def Within (fault : Fault) (_ : Frame) : Prop := fault ≠ .outOfBounds

/-- A call that is asked for has its output inside of the memory. -/
def Fitting (q : Option Query) (f : Frame) : Prop :=
  ∀ order, q = some (.code order) → f.Covers order.output

theorem within_halt (reason : Halt) (f : Frame) : Within (.halt reason) f := Fault.noConfusion

variable {f : Frame}

/-! ### What asks for no call -/

theorem fitting_none (f : Frame) : Fitting none f := by
  intro order h
  cases h

theorem fitting_load (cell : Cell) (f : Frame) : Fitting (some (.load cell)) f := by
  intro order h
  cases Option.some.inj h

theorem fitting_store (cell : Cell) (value : Word) (f : Frame) :
    Fitting (some (.store cell value)) f := by
  intro order h
  cases Option.some.inj h

/-! ### Parts of instructions -/

theorem next_within (n : Nat) (f : Frame) : Ensures (next n) f Fitting Within :=
  .bind (.change (.pure (fitting_none _)))

/-- Nothing that puts a word on top and moves on asks for a call. -/
theorem push_next_within (w : Word) (n : Nat) (f : Frame) :
    Ensures (push w >>= fun _ => next n) f Fitting Within :=
  .bind (.push (fun _ => next_within n _) fun _ => within_halt _ _)

theorem pop_within {β : Type} {k : Word → Action β} {Q : β → Frame → Prop}
    (h : ∀ w s, Ensures (k w) { f with stack := s } Q Within) : Ensures (pop >>= k) f Q Within :=
  .bind (.pop (fun w s _ => h w s) fun _ => within_halt _ _)

/-- A range that was made to fit lies inside, and memory has not become smaller. -/
theorem extend_within {β : Type} {start size : Word} {k : Range → Action β} {Q : β → Frame → Prop}
    (h : ∀ range m, range.start + range.size ≤ m.size → f.memory.size ≤ m.size →
      size.toOffset? = some range.size → Ensures (k range) { f with memory := m } Q Within) :
    Ensures (extend start size >>= k) f Q Within :=
  .bind (.extend (fun range m he => h range m (Memory.end_le_of_extend he)
    (Memory.size_le_of_extend he) (Memory.size_of_extend he)) (within_halt _ _))

theorem operandRange_within {β : Type} {k : Bytes → Action β} {Q : β → Frame → Prop}
    (h : ∀ bytes g, Ensures (k bytes) g Q Within) : Ensures (operandRange >>= k) f Q Within :=
  .bind (pop_within fun _ _ => pop_within fun _ _ => extend_within fun _ _ hr _ _ =>
    .read hr (h _ _))

theorem number_within {β : Type} {b : Bytes} {start size : Nat} {k : Word → Action β}
    {Q : β → Frame → Prop} (room : size ≤ 32) (h : ∀ w, Ensures (k w) f Q Within) :
    Ensures (number b start size >>= k) f Q Within :=
  .bind (.bind (.window room (.pure (h _))))

theorem order_within (cfg : Config) (isStatic : Bool) (target : Word) (f : Frame) :
    Ensures (order cfg isStatic target) f Fitting Within := by
  refine pop_within fun _ _ => pop_within fun _ _ => pop_within fun _ _ => pop_within fun _ _ =>
    extend_within fun input m hi _ _ => extend_within fun output m' ho hm _ =>
    .bind (.change (.bind (.get ?_)))
  split
  · exact push_next_within _ _ _
  · -- memory has only grown since the input was made to fit
    refine .bind (.read (Nat.le_trans hi hm) (.pure fun order h => ?_))
    obtain rfl := Query.code.inj (Option.some.inj h)
    exact ho

/-! ### Instructions -/

/-- From every frame, an instruction stays inside, and so will the output of a call. -/
theorem exec_within (cfg : Config) (i : Instruction) (f : Frame) :
    Ensures (exec cfg i) f Fitting Within := by
  cases i <;> rw [exec]
  case stop => exact .bind (.change (next_within _ _))
  case add | sub | lt | gt | eq =>
    exact pop_within fun _ _ => pop_within fun _ _ => push_next_within _ _ _
  case isZero => exact pop_within fun _ _ => push_next_within _ _ _
  case keccak => exact operandRange_within fun _ _ => push_next_within _ _ _
  case address | caller | callDataSize => exact .bind (.get (push_next_within _ _ _))
  case callDataLoad =>
    refine pop_within fun w _ => .bind (.get ?_)
    dsimp only
    split
    · exact number_within (Nat.le_refl 32) fun _ => push_next_within _ _ _
    · exact push_next_within _ _ _
  case pop => exact pop_within fun _ _ => next_within _ _
  case memLoad =>
    exact pop_within fun _ _ => extend_within fun _ _ hr _ _ =>
      .bind (.read hr (push_next_within _ _ _))
  case memStore =>
    refine pop_within fun _ _ => pop_within fun w _ => extend_within fun range m hr _ hs =>
      .bind (.write ?_ (next_within _ _))
    rw [Word.toOffset?_ofOffset (by decide), Option.some.injEq] at hs
    have hw : (Bytes.ofList w.toBytes.toList).size = 32 := by
      rw [Bytes.size_ofList, Vector.length_toList]
    rw [hw, hs]
    exact hr
  case slotLoad => exact pop_within fun _ _ => .bind (.get (.pure (fitting_load _ _)))
  case slotStore =>
    refine pop_within fun _ _ => pop_within fun _ _ => .bind (.get ?_)
    dsimp only
    split
    · exact .fail (within_halt _ _)
    · exact .pure (fitting_store _ _ _)
  case push size =>
    have hroom : size.val ≤ 32 := Nat.le_of_lt_succ size.isLt
    exact .bind (.get (number_within hroom fun _ => push_next_within _ _ _))
  case dup n =>
    exact .bind (.dup (fun _ => .push (fun _ => next_within _ _) fun _ => within_halt _ _)
      fun _ => within_halt _ _)
  case swap n => exact .bind (.swap (fun _ _ => next_within _ _) fun _ => within_halt _ _)
  case call =>
    exact pop_within fun _ _ => pop_within fun _ _ => pop_within fun _ _ =>
      .bind (.get (order_within _ _ _ _))
  case ret =>
    exact operandRange_within fun _ _ => .bind (.change (.bind (.change (next_within _ _))))
  case staticCall => exact pop_within fun _ _ => pop_within fun _ _ => order_within _ _ _ _
  case revert => exact operandRange_within fun _ _ => .bind (.change (.fail (within_halt _ _)))
  case invalid byte => exact .fail (within_halt _ _)

theorem complete_load_within (cell : Cell) (value : Word) (f : Frame) :
    Ensures (complete (.load cell) value) f (fun _ _ => True) Within :=
  .bind (.push (fun _ => .change trivial) fun _ => within_halt _ _)

/-- What a call gave is copied to a range that lies inside, or the frame has no room for the
answer. -/
theorem resume_ensures {range : Range} (callee : Frame) (h : f.Covers range) :
    Ensures (resume range callee) f (fun _ g => g = f.resumed range callee)
      (fun fault g => fault = .halt .stackOverflow ∧ g = f ∧ f.stack.length = Stack.limit) := by
  -- the output gives no more than it has, and the range has room for that
  refine .bind (.push (fun _ => .bind (.change (.bind (.slice ?_ (.bind (.write ?_
    (.change ?_))))))) fun hfull => ⟨rfl, rfl, hfull⟩)
  · omega
  · unfold Frame.Covers at h
    simp only [ByteArray.size_extract]
    omega
  · rw [Nat.zero_add]
    rfl

theorem resume_within {range : Range} (callee : Frame) (h : f.Covers range) :
    Ensures (resume range callee) f (fun _ _ => True) Within := by
  refine (resume_ensures callee h).mono (fun _ _ _ => trivial) ?_
  rintro _ _ ⟨rfl, -⟩
  exact within_halt _ _

end Action

end ContractVM
