import ContractVM.Ledger.Basic
import ContractVM.Proofs.Frame.Ensures
import ContractVM.Proofs.Machine.Steps

/-!
# What instructions do to the operands

* `Instruction.need` : how many operands an instruction takes or looks at.
* `Instruction.Grows` : it leaves one operand more than it found.
* `Instruction.Disciplined i s fault s'` : the instruction found the stack `s` and left `s'`.  It
  underflowed if and only if an operand was not there, and overflowed if and only if it grows and
  the stack was full; whatever came of it, the operands below those that it needs are still there,
  and there are no more than a stack may hold.
* `Action.Aside` : the action leaves the operands alone, and does not fail for them.

Main statement: `Frame.disciplined_execute`, for every byte of code, every frame and every answer
that a query gets.
-/

namespace ContractVM

/-! ### The operands of an instruction -/

namespace Instruction

/-- How many operands the instruction takes or looks at. -/
def need : Instruction → Nat
  | .stop | .address | .caller | .callDataSize | .push _ | .invalid _ => 0
  | .isZero | .callDataLoad | .pop | .memLoad | .slotLoad => 1
  | .add | .sub | .lt | .gt | .eq | .keccak | .memStore | .slotStore | .ret | .revert => 2
  | .dup place => place + 1
  | .swap place => place + 1
  | .staticCall => 6
  | .call => 7

/-- The instruction puts a word on top and takes none away. -/
def Grows : Instruction → Prop
  | .address | .caller | .callDataSize | .push _ | .dup _ => True
  | _ => False

instance : DecidablePred Grows := fun i => by
  cases i <;> unfold Grows <;> infer_instance

/-- What an instruction that found the stack `s` may have come to: how it failed, if it did, and
the stack that it left. -/
structure Disciplined (i : Instruction) (s : Stack) (fault : Option Fault) (s' : Stack) : Prop where
  underflow : fault = some (.halt .stackUnderflow) ↔ s.length < i.need
  overflow : fault = some (.halt .stackOverflow) ↔ s.length = Stack.limit ∧ i.Grows
  below : s.drop i.need <:+ s'
  bound : s'.length ≤ Stack.limit

end Instruction

/-- The stack was too low or too high. -/
def Fault.OfStack (fault : Fault) : Prop :=
  fault = .halt .stackUnderflow ∨ fault = .halt .stackOverflow

namespace Instruction

variable {i : Instruction} {s s' : Stack}

/-- An operand was not there. -/
theorem disciplined_underflow (short : s.length < i.need) (low : i.need ≤ Stack.limit)
    (left : s' <:+ s) : i.Disciplined s (some (.halt .stackUnderflow)) s' := by
  have hlength := left.length_le
  refine ⟨by simp [short], ⟨by simp, ?_⟩, ?_, by omega⟩
  · rintro ⟨hfull, -⟩
    omega
  · rw [List.drop_eq_nil_of_le (Nat.le_of_lt short)]
    exact List.nil_suffix

/-- All operands were there, and the stack was not the reason of a failure. -/
theorem disciplined_of_not_ofStack {fault : Option Fault} (enough : i.need ≤ s.length)
    (other : ∀ x ∈ fault, ¬ x.OfStack) (room : i.Grows → s.length ≠ Stack.limit)
    (below : s.drop i.need <:+ s') (bound : s'.length ≤ Stack.limit) :
    i.Disciplined s fault s' := by
  refine ⟨⟨?_, by omega⟩, ⟨?_, fun h => absurd h.1 (room h.2)⟩, below, bound⟩
  · intro h
    exact absurd (.inl rfl) (other _ h)
  · intro h
    exact absurd (.inr rfl) (other _ h)

/-- The answer to a query is missing: the stack is not the reason. -/
theorem Disciplined.backend (h : i.Disciplined s none s') (error : BackendError) :
    i.Disciplined s (some (.halt (.backend error))) s' := by
  refine ⟨?_, ?_, h.below, h.bound⟩
  · rw [← h.underflow]
    simp
  · rw [← h.overflow]
    simp

end Instruction

namespace Action

variable {α β : Type}

/-! ### What leaves the operands alone -/

/-- The action leaves the operands alone, and does not fail for them. -/
structure Aside (a : Action α) : Prop where
  run (f : Frame) : Ensures a f (fun _ g => g.stack = f.stack)
    (fun fault g => g.stack = f.stack ∧ ¬ fault.OfStack)

theorem Aside.bind {a : Action α} {k : α → Action β} (ha : Aside a) (hk : ∀ x, Aside (k x)) :
    Aside (a >>= k) := by
  refine ⟨fun f => .bind ((ha.run f).mono (fun x g hg => ?_) fun _ _ => id)⟩
  refine ((hk x).run g).mono (fun _ _ h => h.trans hg) ?_
  rintro fault g' ⟨h, other⟩
  exact ⟨h.trans hg, other⟩

theorem aside_pure (x : α) : Aside (pure x) := ⟨fun _ => .pure rfl⟩

theorem aside_setOutput (output : Bytes) : Aside (setOutput output) := ⟨fun _ => .change rfl⟩

theorem aside_setReturnData (data : Bytes) : Aside (setReturnData data) := ⟨fun _ => .change rfl⟩

theorem aside_stop : Aside stop := ⟨fun _ => .change rfl⟩

theorem not_ofStack_outOfBounds : ¬ Fault.OfStack .outOfBounds := by
  simp [Fault.OfStack]

theorem not_ofStack_memoryLimit : ¬ Fault.OfStack (.halt .memoryLimit) := by
  simp [Fault.OfStack]

theorem aside_slice (b : Bytes) (start size : Nat) : Aside (slice b start size) := by
  refine ⟨fun f => ⟨?_⟩⟩
  cases h : b.slice? start size with
  | some part => simp only [slice, h]
  | none => simp only [slice, h, true_and, not_ofStack_outOfBounds, not_false_eq_true]

theorem aside_padded (v : Bytes) : Aside (padded v) := by
  refine ⟨fun f => ⟨?_⟩⟩
  cases h : (Bytes.zeroExtend .empty 32).overwrite? 0 v with
  | some word => simp only [padded, h]
  | none => simp only [padded, h, true_and, not_ofStack_outOfBounds, not_false_eq_true]

theorem aside_number (b : Bytes) (start size : Nat) : Aside (number b start size) :=
  ((aside_slice _ _ _).bind fun _ => (aside_padded _).bind fun _ => aside_slice _ _ _).bind
    fun _ => aside_pure _

theorem aside_extend (start size : Word) : Aside (extend start size) :=
  ⟨fun _ => .extend (fun _ _ _ => rfl) ⟨rfl, not_ofStack_memoryLimit⟩⟩

theorem aside_read (range : Range) : Aside (read range) :=
  ⟨fun f => ⟨((aside_slice f.memory range.start range.size).run f).run⟩⟩

theorem aside_write (start : Nat) (v : Bytes) : Aside (write start v) := by
  refine ⟨fun f => ⟨?_⟩⟩
  cases h : f.memory.overwrite? start v with
  | some memory => simp only [write, h]
  | none => simp only [write, h, true_and, not_ofStack_outOfBounds, not_false_eq_true]

/-! ### Parts of instructions -/

/-- So many operands of the stack have been taken, and nothing else has been done to it. -/
structure Took (s : Stack) (n : Nat) (f : Frame) : Prop where
  enough : n ≤ s.length
  stack : f.stack = s.drop n

/-- How an instruction that found the stack `s` leaves its frame, with the query that it has.  An
answer has room on the stack. -/
structure Yields (i : Instruction) (s : Stack) (q : Option Query) (g : Frame) : Prop where
  disciplined : i.Disciplined s none g.stack
  room : q.isSome → g.stack.length < Stack.limit

/-- How an instruction that found the stack `s` fails. -/
def Fails (i : Instruction) (s : Stack) (fault : Fault) (g : Frame) : Prop :=
  i.Disciplined s (some fault) g.stack

/-- The stack that an instruction finds, and what is known of the instruction before it takes
anything. -/
structure Finds (i : Instruction) (s : Stack) : Prop where
  bound : s.length ≤ Stack.limit
  low : i.need ≤ Stack.limit

variable {i : Instruction} {s : Stack} {f : Frame} {n : Nat}

theorem Took.of_stack (h : f.stack = s) : Took s 0 f := ⟨Nat.zero_le _, h⟩

theorem Took.aside {g : Frame} (h : Took s n f) (same : g.stack = f.stack) : Took s n g :=
  ⟨h.enough, same.trans h.stack⟩

theorem Took.below (h : Took s n f) : s.drop n <:+ f.stack := h.stack ▸ List.suffix_rfl

/-- After the operands that it needs, an instruction may end as the stack is. -/
theorem Took.disciplined {fault : Option Fault} (h : Took s i.need f) (found : Finds i s)
    (flat : ¬ i.Grows) (other : ∀ x ∈ fault, ¬ x.OfStack) : i.Disciplined s fault f.stack := by
  refine Instruction.disciplined_of_not_ofStack h.enough other (absurd · flat) h.below ?_
  rw [h.stack, List.length_drop]
  exact Nat.le_trans (Nat.sub_le _ _) found.bound

/-- An operand that is needed is taken, or it is not there. -/
theorem pop_disciplined {k : Word → Action β} {Q : β → Frame → Prop} (h : Took s n f)
    (found : Finds i s) (more : n < i.need)
    (next : ∀ w g, Took s (n + 1) g → Ensures (k w) g Q (Fails i s)) :
    Ensures (pop >>= k) f Q (Fails i s) := by
  refine .bind (.pop (fun w t ht => next w _ ⟨?_, ?_⟩) fun hempty => ?_)
  · have hlength := congrArg List.length (h.stack.symm.trans ht)
    simp only [List.length_drop, List.length_cons] at hlength
    omega
  · rw [← List.drop_drop, ← h.stack, ht, List.drop_one, List.tail_cons]
  · have hshort : s.length ≤ n := List.drop_eq_nil_iff.1 (h.stack.symm.trans hempty)
    refine Instruction.disciplined_underflow (Nat.lt_of_le_of_lt hshort more) found.low ?_
    rw [hempty]
    exact List.nil_suffix

/-- What leaves the operands alone may stand anywhere behind the operands of an instruction that
does not grow. -/
theorem aside_disciplined {a : Action α} {k : α → Action β} {Q : β → Frame → Prop} (ha : Aside a)
    (h : Took s i.need f) (found : Finds i s) (flat : ¬ i.Grows)
    (next : ∀ x g, Took s i.need g → Ensures (k x) g Q (Fails i s)) :
    Ensures (a >>= k) f Q (Fails i s) := by
  refine .bind ((ha.run f).mono (fun x g hg => next x g (h.aside hg)) ?_)
  rintro fault g ⟨hg, other⟩
  exact (h.aside hg).disciplined found flat (by simpa using other)

/-- An instruction ends behind its operands. -/
theorem next_disciplined (size : Nat) (h : Took s i.need f) (found : Finds i s)
    (flat : ¬ i.Grows) : Ensures (next size) f (Yields i s) (Fails i s) :=
  .bind (.change (.pure ⟨h.disciplined found flat (by simp), by simp⟩))

/-- An instruction ends with a word on top.  Only one that takes nothing may lack room. -/
theorem push_next_disciplined (w : Word) (size : Nat) (h : Took s i.need f) (found : Finds i s)
    (grows : i.Grows ↔ i.need = 0) :
    Ensures (push w >>= fun _ => next size) f (Yields i s) (Fails i s) := by
  have hbound := found.bound
  have henough := h.enough
  have hlength : f.stack.length = s.length - i.need := by rw [h.stack, List.length_drop]
  refine .bind (.push (fun hroom => .bind (.change (.pure ⟨?_, by simp⟩))) fun hfull => ?_)
  · refine Instruction.disciplined_of_not_ofStack henough (by simp) ?_ ?_ ?_
    · intro hg hfull
      rw [grows] at hg
      omega
    · exact h.below.trans (List.suffix_cons _ _)
    · simp only [List.length_cons]
      omega
  · have hneed : i.need = 0 := by omega
    refine ⟨by simp [hneed], ?_, h.below, by omega⟩
    simp only [true_iff]
    exact ⟨by omega, grows.2 hneed⟩

/-- A query has room for its answer: what asks has taken an operand. -/
theorem ask_disciplined (q : Query) (h : Took s i.need f) (found : Finds i s) (flat : ¬ i.Grows)
    (some : 0 < i.need) : Ensures (pure (Option.some q)) f (Yields i s) (Fails i s) := by
  refine .pure ⟨h.disciplined found flat (by simp), fun _ => ?_⟩
  have hbound := found.bound
  have henough := h.enough
  rw [h.stack, List.length_drop]
  omega

/-- A range of memory is taken from the stack. -/
theorem operandRange_disciplined {k : Bytes → Action β} {Q : β → Frame → Prop} (h : Took s 0 f)
    (found : Finds i s) (two : i.need = 2) (flat : ¬ i.Grows)
    (next : ∀ x g, Took s i.need g → Ensures (k x) g Q (Fails i s)) :
    Ensures (operandRange >>= k) f Q (Fails i s) := by
  simp only [operandRange, bind_assoc]
  refine pop_disciplined h found (by omega) fun start _ h =>
    pop_disciplined h found (by omega) fun size _ h => ?_
  change Took s 2 _ at h
  rw [← two] at h
  exact aside_disciplined (aside_extend start size) h found flat fun range _ h =>
    aside_disciplined (aside_read range) h found flat next

/-- A call takes four operands more, and leaves none but its refusal. -/
theorem order_disciplined (cfg : Config) (isStatic : Bool) (target : Word) (h : Took s n f)
    (found : Finds i s) (four : n + 4 = i.need) (flat : ¬ i.Grows) :
    Ensures (order cfg isStatic target) f (Yields i s) (Fails i s) := by
  refine pop_disciplined h found (by omega) fun inStart _ h =>
    pop_disciplined h found (by omega) fun inSize _ h =>
    pop_disciplined h found (by omega) fun outStart _ h =>
    pop_disciplined h found (by omega) fun outSize _ h => ?_
  rw [four] at h
  refine aside_disciplined (aside_extend inStart inSize) h found flat fun input _ h =>
    aside_disciplined (aside_extend outStart outSize) h found flat fun output _ h =>
    aside_disciplined (aside_setReturnData .empty) h found flat fun _ g h => .bind (.get ?_)
  by_cases deep : g.message.depth + 1 > cfg.maxDepth
  · simp only [deep, ↓reduceIte]
    exact push_next_disciplined 0 1 h found ⟨(absurd · flat), by omega⟩
  · simp only [deep, ↓reduceIte]
    exact aside_disciplined (aside_read input) h found flat fun _ _ h =>
      ask_disciplined _ h found flat (by omega)

/-- What lies below an exchange stays where it is. -/
theorem drop_suffix_swap (s : Stack) (place : Nat) (top other : Word) :
    s.drop (place + 1) <:+ (s.set 0 other).set place top := by
  have hbelow : ((s.set 0 other).set place top).drop (place + 1) = s.drop (place + 1) := by
    rw [List.drop_set_of_lt (Nat.lt_succ_self place), List.drop_set_of_lt (Nat.succ_pos place)]
  rw [← hbelow]
  exact List.drop_suffix _ _

/-! ### Instructions -/

/-- **The operands of an instruction**, up to the query that it may have. -/
theorem exec_disciplined (cfg : Config) (i : Instruction) (f : Frame) (found : Finds i f.stack) :
    Ensures (exec cfg i) f (Yields i f.stack) (Fails i f.stack) := by
  have start : Took f.stack 0 f := .of_stack rfl
  cases i <;> rw [exec]
  case stop =>
    exact .bind (.change (next_disciplined 1 ⟨start.enough, start.stack⟩ found (by decide)))
  case add | sub | lt | gt | eq =>
    exact pop_disciplined start found (by decide) fun _ _ h =>
      pop_disciplined h found (by decide) fun _ _ h =>
      push_next_disciplined _ 1 h found (by simp [Instruction.Grows, Instruction.need])
  case isZero =>
    exact pop_disciplined start found (by decide) fun _ _ h =>
      push_next_disciplined _ 1 h found (by simp [Instruction.Grows, Instruction.need])
  case keccak =>
    exact operandRange_disciplined start found rfl (by decide) fun _ _ h =>
      push_next_disciplined _ 1 h found (by simp [Instruction.Grows, Instruction.need])
  case address | caller | callDataSize =>
    exact .bind (.get (push_next_disciplined _ 1 start found
      (by simp [Instruction.Grows, Instruction.need])))
  case callDataLoad =>
    refine pop_disciplined start found (by decide) fun position g h => .bind (.get ?_)
    have flat : Instruction.Grows .callDataLoad ↔ Instruction.need .callDataLoad = 0 := by
      simp [Instruction.Grows, Instruction.need]
    dsimp only
    split
    · exact aside_disciplined (aside_number _ _ _) h found (by decide) fun _ _ h =>
        push_next_disciplined _ 1 h found flat
    · exact push_next_disciplined 0 1 h found flat
  case pop =>
    exact pop_disciplined start found (by decide) fun _ _ h =>
      next_disciplined 1 h found (by decide)
  case memLoad =>
    exact pop_disciplined start found (by decide) fun _ _ h =>
      aside_disciplined (aside_extend _ _) h found (by decide) fun _ _ h =>
      aside_disciplined (aside_read _) h found (by decide) fun _ _ h =>
      push_next_disciplined _ 1 h found (by simp [Instruction.Grows, Instruction.need])
  case memStore =>
    exact pop_disciplined start found (by decide) fun _ _ h =>
      pop_disciplined h found (by decide) fun _ _ h =>
      aside_disciplined (aside_extend _ _) h found (by decide) fun _ _ h =>
      aside_disciplined (aside_write _ _) h found (by decide) fun _ _ h =>
      next_disciplined 1 h found (by decide)
  case slotLoad =>
    exact pop_disciplined start found (by decide) fun _ _ h =>
      .bind (.get (ask_disciplined _ h found (by decide) (by decide)))
  case slotStore =>
    refine pop_disciplined start found (by decide) fun _ _ h =>
      pop_disciplined h found (by decide) fun _ g h => .bind (.get ?_)
    by_cases reading : g.message.isStatic = true
    · simp only [reading]
      exact .fail (h.disciplined found (by decide) (by simp [Fault.OfStack]))
    · simp only [reading]
      exact ask_disciplined _ h found (by decide) (by decide)
  case push size =>
    have hroom : size.val ≤ 32 := Nat.le_of_lt_succ size.isLt
    -- the number is always there, so that only the stack can be in the way
    exact .bind (.get (.bind (.bind (.window hroom (.pure (push_next_disciplined _ _ start found
      (by simp [Instruction.Grows, Instruction.need])))))))
  case dup place =>
    refine .bind (.dup (fun hplace => .push (fun hroom => ?_) fun hfull => ?_) fun hshort => ?_)
    · refine .bind (.change (.pure ⟨?_, by simp⟩))
      refine Instruction.disciplined_of_not_ofStack hplace (by simp) (fun _ => hroom) ?_ ?_
      · exact (List.drop_suffix _ _).trans (List.suffix_cons _ _)
      · exact Nat.lt_of_le_of_ne found.bound hroom
    · refine ⟨?_, by simp [Instruction.Grows, hfull], List.drop_suffix _ _, found.bound⟩
      simpa [Instruction.need] using Nat.succ_le_of_lt hplace
    · exact Instruction.disciplined_underflow (Nat.lt_succ_of_le hshort) found.low List.suffix_rfl
  case swap place =>
    refine .bind (.swap (fun _ hplace => .bind (.change (.pure ⟨?_, by simp⟩))) fun hshort => ?_)
    · have flat : ¬ (Instruction.swap place).Grows := by simp [Instruction.Grows]
      refine Instruction.disciplined_of_not_ofStack hplace (by simp) (absurd · flat) ?_ ?_
      · exact drop_suffix_swap _ _ _ _
      · simpa using found.bound
    · exact Instruction.disciplined_underflow (Nat.lt_succ_of_le hshort) found.low List.suffix_rfl
  case call =>
    exact pop_disciplined start found (by decide) fun _ _ h =>
      pop_disciplined h found (by decide) fun _ _ h =>
      pop_disciplined h found (by decide) fun _ _ h =>
      .bind (.get (order_disciplined cfg _ _ h found rfl (by decide)))
  case ret =>
    exact operandRange_disciplined start found rfl (by decide) fun _ _ h =>
      aside_disciplined (aside_setOutput _) h found (by decide) fun _ _ h =>
      aside_disciplined aside_stop h found (by decide) fun _ _ h =>
      next_disciplined 1 h found (by decide)
  case staticCall =>
    exact pop_disciplined start found (by decide) fun _ _ h =>
      pop_disciplined h found (by decide) fun _ _ h =>
      order_disciplined cfg _ _ h found rfl (by decide)
  case revert =>
    exact operandRange_disciplined start found rfl (by decide) fun _ _ h =>
      aside_disciplined (aside_setOutput _) h found (by decide) fun _ _ h =>
      .fail (h.disciplined found (by decide) (by simp [Fault.OfStack]))
  case invalid byte =>
    exact .fail (start.disciplined found (by simp [Instruction.Grows]) (by simp [Fault.OfStack]))

/-- The answer to a query has room. -/
theorem complete_disciplined {q : Query} (answer : q.Answer) (h : Yields i s (some q) f) :
    Ensures (complete q answer) f (fun _ g => i.Disciplined s none g.stack) (Fails i s) := by
  have hroom := h.room rfl
  match q, answer with
  | .load _, value =>
    refine .bind (.push (fun _ => .change ?_) fun hfull => absurd hfull (Nat.ne_of_lt hroom))
    exact ⟨h.disciplined.underflow, h.disciplined.overflow,
      h.disciplined.below.trans (List.suffix_cons _ _), hroom⟩
  | .store _ _, () => exact .change h.disciplined
  | .code _, _ => exact .change h.disciplined

end Action

/-! ### Bytes of code -/

/-- No byte stands for an instruction that needs more operands than a stack may hold. -/
theorem Instruction.need_decode_le (byte : UInt8) : (decode byte).need ≤ Stack.limit := by
  have hbyte : byte.toNat < 256 := byte.toNat_lt
  unfold decode
  split
  all_goals try decide
  split
  · exact Nat.zero_le _
  · split
    · simp only [need, Stack.limit]
      omega
    · split
      · simp only [need, Stack.limit]
        omega
      · exact Nat.zero_le _

/-- **The stack discipline of every instruction**: whatever the frame is at, and whatever answers
its query, it underflows exactly when it lacks an operand, overflows exactly when it adds one to a
full stack, and never touches what lies below its operands. -/
theorem Frame.disciplined_execute {σ : Type} [Backend σ] (cfg : Config) (byte : UInt8) (f : Frame)
    (e : Env σ) (bound : f.stack.length ≤ Stack.limit) :
    (Instruction.decode byte).Disciplined f.stack (f.execute cfg (.decode byte) e).fault
      (f.execute cfg (.decode byte) e).frame.stack := by
  have hi := (Action.exec_disciplined cfg (.decode byte) f
    ⟨bound, Instruction.need_decode_le byte⟩).run
  have hx := executesTo_execute cfg f (.decode byte) e
  generalize f.execute cfg (.decode byte) e = x at hx
  cases hx with
  | fails h =>
    rw [h] at hi
    exact hi
  | alone h =>
    rw [h] at hi
    exact hi.disciplined
  | @answered q g answer h ha =>
    rw [h] at hi
    have hc := (Action.complete_disciplined answer hi).run
    cases hr : Action.complete q answer g <;> rw [hr] at hc <;> exact hc
  | @refused q g error h ha =>
    rw [h] at hi
    exact hi.disciplined.backend error

/-- A full stack holds the sixteenth operand, and has no room for a copy of it. -/
theorem Frame.disciplined_execute_of_full :
    let f := { Frame.new (Message.new default default .empty) 0 with
      stack := List.replicate Stack.limit 0 }
    let x := f.execute .standard (.decode 0x8f) (Env.new (∅ : Ledger))
    f.stack.length ≤ Stack.limit ∧ x.fault = some (.halt .stackOverflow) ∧
      f.stack.drop 16 <:+ x.frame.stack := by
  intro f
  have hlength : f.stack.length = Stack.limit := List.length_replicate
  have hneed : (Instruction.decode 0x8f).need = 16 := by decide
  have hgrows : (Instruction.decode 0x8f).Grows := by decide
  have h := disciplined_execute .standard 0x8f f (Env.new (∅ : Ledger)) (Nat.le_of_eq hlength)
  rw [← hneed]
  exact ⟨Nat.le_of_eq hlength, h.overflow.2 ⟨hlength, hgrows⟩, h.below⟩

end ContractVM
