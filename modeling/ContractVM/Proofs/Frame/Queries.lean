import ContractVM.Frame.Checked
import ContractVM.Proofs.Frame.Ensures
import ContractVM.Proofs.Machine.Steps

/-!
# What instructions ask

Four instructions ask something from outside their frame.  `Action.exec_asks` says which ones, and
for what: reads and writes are about cells of the account that the code works on, and a write is
asked for only where writing is allowed.  `Frame.Orders` describes the call that an instruction
asks for: the operands that it takes, the ranges of memory that it makes fit, which are allowed, and
what it leaves of its frame.

`Frame.pending_execute` is what follows for a frame that has made a call.
-/

namespace ContractVM

/-- Two instructions call. -/
theorem Instruction.eq_call_of_callOperands? {i : Instruction} {s rest : Stack}
    {o : CallOperands} (h : i.callOperands? s = some (o, rest)) : i = .call ∨ i = .staticCall := by
  unfold callOperands? at h
  split at h
  · exact .inl rfl
  · exact .inr rfl
  · cases h

/-- A call takes operands from the stack. -/
theorem Instruction.length_lt_of_callOperands? {i : Instruction} {s rest : Stack}
    {o : CallOperands} (h : i.callOperands? s = some (o, rest)) : rest.length < s.length := by
  unfold callOperands? at h
  split at h
  · obtain ⟨-, rfl⟩ := Prod.mk.inj (Option.some.inj h)
    simp only [List.length_cons]
    omega
  · obtain ⟨-, rfl⟩ := Prod.mk.inj (Option.some.inj h)
    simp only [List.length_cons]
    omega
  · cases h

/-- A call makes the ranges of its data and of its output fit. -/
theorem Instruction.ranges_of_callOperands? {i : Instruction} {s rest : Stack} {o : CallOperands}
    (h : i.callOperands? s = some (o, rest)) : i.ranges s = [o.input, o.output] := by
  obtain rfl | rfl := eq_call_of_callOperands? h
  · simp only [ranges, h]
  · simp only [ranges, h]

namespace Frame

/-- The memory of the frame, grown so that it has the ranges of a call. -/
def grownFor (f : Frame) (o : CallOperands) : Memory :=
  (f.memory.zeroExtend o.input.wordEnd).zeroExtend o.output.wordEnd

/-- Zeros at the end of memory do not show. -/
theorem byteAt_grownFor (f : Frame) (o : CallOperands) (i : Nat) :
    Bytes.byteAt (f.grownFor o) i = Bytes.byteAt f.memory i := by
  unfold grownFor
  rw [Bytes.byteAt_zeroExtend, Bytes.byteAt_zeroExtend]

/-- The frame after it has taken the operands of a call. -/
def ordering (f : Frame) (o : CallOperands) (rest : Stack) : Frame :=
  { f with stack := rest, memory := f.grownFor o, returnData := .empty }

/-- The order is that of a call by the frame, which has become the second frame. -/
structure Orders (i : Instruction) (f : Frame) (o : CallOperands) (rest : Stack)
    (order : CallOrder) (g : Frame) : Prop where
  operands : i.callOperands? f.stack = some (o, rest)
  allowed : o.input.isAllowed f.memoryLimit = true ∧ o.output.isAllowed f.memoryLimit = true
  target : order.target = .ofWord o.target
  isStatic : order.isStatic = (decide (i = .staticCall) || f.message.isStatic)
  data : order.data = (f.grownFor o).extract o.input.start (o.input.start + o.input.size)
  inside : o.input.start + o.input.size ≤ (f.grownFor o).size
  output : order.output = o.output
  frame : g = f.ordering o rest

/-- What the instruction asks when it is executed by the frame, which has become the second
frame. -/
def Asks (i : Instruction) (f : Frame) (q : Option Query) (g : Frame) : Prop :=
  match q with
  | none => True
  | some (.load cell) => i = .slotLoad ∧ cell.address = f.message.self
  | some (.store cell _) =>
    i = .slotStore ∧ cell.address = f.message.self ∧ f.message.isStatic = false
  | some (.code order) => ∃ o rest, Orders i f o rest order g

end Frame

namespace Action

/-- Nothing is said of a fault. -/
def Anyhow (_ : Fault) (_ : Frame) : Prop := True

variable {α β : Type} {f : Frame}

/-- What is asked does not depend on what comes before the last action. -/
theorem Ensures.last {a : Action α} {k : α → Action β} {Q : β → Frame → Prop}
    (h : ∀ x g, Ensures (k x) g Q Anyhow) : Ensures (a >>= k) f Q Anyhow := by
  refine .bind ⟨?_⟩
  cases a f with
  | ok x g => exact h x g
  | error fault g => trivial

/-- What moves on asks nothing. -/
theorem asks_next {i : Instruction} {f₀ : Frame} (n : Nat) (f : Frame) :
    Ensures (next n) f (Frame.Asks i f₀) Anyhow := .last fun _ _ => .pure trivial

theorem asks_push_next {i : Instruction} {f₀ : Frame} (w : Word) (n : Nat) (f : Frame) :
    Ensures (push w >>= fun _ => next n) f (Frame.Asks i f₀) Anyhow :=
  .last fun _ g => asks_next n g

theorem pop_of_cons {w : Word} {s : Stack} (h : f.stack = w :: s) :
    pop f = .ok w { f with stack := s } := by
  unfold pop Stack.pop
  rw [h]

/-- Takes an operand that there is. -/
theorem pop_ensures {k : Word → Action β} {Q : β → Frame → Prop}
    (h : ∀ w s, f.stack = w :: s → Ensures (k w) { f with stack := s } Q Anyhow) :
    Ensures (pop >>= k) f Q Anyhow :=
  .bind (.pop (fun w s hs => h w s hs) fun _ => trivial)

/-- An order takes four operands and asks for a call, or for nothing. -/
theorem order_asks (cfg : Config) (isStatic : Bool) (target : Word) (f : Frame) :
    Ensures (order cfg isStatic target) f (fun q g => q = none ∨
      ∃ inStart inSize outStart outSize rest,
        let o : CallOperands := ⟨target, inStart, inSize, outStart, outSize⟩
        f.stack = inStart :: inSize :: outStart :: outSize :: rest ∧
        (o.input.isAllowed f.memoryLimit = true ∧ o.output.isAllowed f.memoryLimit = true) ∧
        q = some (.code ⟨.ofWord target, isStatic,
          (f.grownFor o).extract o.input.start (o.input.start + o.input.size), o.output⟩) ∧
        o.input.start + o.input.size ≤ (f.grownFor o).size ∧
        g = f.ordering o rest) Anyhow := by
  refine pop_ensures fun inStart s₁ h₁ => pop_ensures fun inSize s₂ h₂ =>
    pop_ensures fun outStart s₃ h₃ => pop_ensures fun outSize rest h₄ => ?_
  obtain rfl : s₁ = _ := h₂
  obtain rfl : s₂ = _ := h₃
  obtain rfl : s₃ = _ := h₄
  refine .bind (.extend (fun input m hi => .bind (.extend (fun output m' ho => .bind (.change
    (.bind (.get ?_)))) trivial)) trivial)
  split
  · exact .last fun _ _ => .bind (.change (.pure (.inl rfl)))
  · have hinside := Nat.le_trans (Memory.end_le_of_extend hi) (Memory.size_le_of_extend ho)
    have hinput := Memory.eq_of_extend hi
    have houtput := Memory.eq_of_extend ho
    let o : CallOperands := ⟨target, inStart, inSize, outStart, outSize⟩
    have hgrown : m' = f.grownFor o := by
      rw [houtput.2.1, houtput.1]
      change (Bytes.zeroExtend m _) = _
      rw [hinput.2.1, hinput.1]
      rfl
    obtain rfl := hgrown
    rw [hinput.1] at hinside
    rw [hinput.1, houtput.1]
    have hallowed := And.intro (Memory.isAllowed_of_extend hi) (Memory.isAllowed_of_extend ho)
    exact .bind (.read hinside (.pure (.inr ⟨inStart, inSize, outStart, outSize, rest, h₁, hallowed,
      rfl, hinside, rfl⟩)))

/-- Whatever the frame, an instruction asks for nothing else. -/
theorem exec_asks (cfg : Config) (i : Instruction) (f : Frame) :
    Ensures (exec cfg i) f (Frame.Asks i f) Anyhow := by
  cases i <;> rw [exec]
  case stop => exact .last fun _ _ => asks_next _ _
  case add | sub | lt | gt | eq =>
    exact .last fun _ _ => .last fun _ _ => asks_push_next _ _ _
  case isZero => exact .last fun _ _ => asks_push_next _ _ _
  case keccak => exact .last fun _ _ => asks_push_next _ _ _
  case address | caller | callDataSize => exact .last fun _ _ => asks_push_next _ _ _
  case callDataLoad =>
    refine .last fun w _ => .last fun _ _ => ?_
    dsimp only
    split
    · exact .last fun _ _ => asks_push_next _ _ _
    · exact asks_push_next _ _ _
  case pop => exact .last fun _ _ => asks_next _ _
  case memLoad => exact .last fun _ _ => .last fun _ _ => .last fun _ _ => asks_push_next _ _ _
  case memStore =>
    exact .last fun _ _ => .last fun _ _ => .last fun _ _ => .last fun _ _ => asks_next _ _
  case slotLoad => exact pop_ensures fun _ _ _ => .bind (.get (.pure ⟨rfl, rfl⟩))
  case slotStore =>
    refine pop_ensures fun _ _ _ => pop_ensures fun _ _ _ => .bind (.get ?_)
    dsimp only
    split
    · exact .fail trivial
    · rename_i hwrite
      exact .pure ⟨rfl, rfl, eq_false_of_ne_true hwrite⟩
  case push size => exact .last fun _ _ => .last fun _ _ => asks_push_next _ _ _
  case dup n => exact .last fun _ _ => asks_next _ _
  case swap n => exact .last fun _ _ => asks_next _ _
  case call =>
    refine pop_ensures fun gas s₁ h₁ => pop_ensures fun target s₂ h₂ =>
      pop_ensures fun value s₃ h₃ => .bind (.get ?_)
    obtain rfl : s₁ = _ := h₂
    obtain rfl : s₂ = _ := h₃
    refine (order_asks cfg _ target _).mono ?_ fun _ _ => id
    rintro q g (rfl | ⟨inStart, inSize, outStart, outSize, rest, hs, hallowed, rfl, hinside, rfl⟩)
    · trivial
    · obtain rfl : s₃ = _ := hs
      refine ⟨⟨target, inStart, inSize, outStart, outSize⟩, rest, ?_, hallowed, rfl, rfl, rfl,
        hinside, rfl, rfl⟩
      rw [h₁]
      rfl
  case ret => exact .last fun _ _ => .last fun _ _ => .last fun _ _ => asks_next _ _
  case staticCall =>
    refine pop_ensures fun gas s₁ h₁ => pop_ensures fun target s₂ h₂ => ?_
    obtain rfl : s₁ = _ := h₂
    refine (order_asks cfg _ target _).mono ?_ fun _ _ => id
    rintro q g (rfl | ⟨inStart, inSize, outStart, outSize, rest, hs, hallowed, rfl, hinside, rfl⟩)
    · trivial
    · obtain rfl : s₂ = _ := hs
      refine ⟨⟨target, inStart, inSize, outStart, outSize⟩, rest, ?_, hallowed, rfl, rfl, rfl,
        hinside, rfl, rfl⟩
      rw [h₁]
      rfl
  case revert => exact .last fun _ _ => .last fun _ _ => .fail trivial
  case invalid byte => exact .fail trivial

end Action

namespace Frame

variable {σ : Type} [Backend σ] {cfg : Config} {f : Frame} {i : Instruction} {e : Env σ}

/-- A frame that makes a call has taken its operands, and the backend has given the code. -/
theorem pending_execute {call : PendingCall} (hf : f.pending = none)
    (h : (f.execute cfg i e).frame.pending = some call) :
    ∃ o rest order code, Orders i f o rest order (f.ordering o rest) ∧
      (e.code order.target).1 = .ok code ∧
      call = ⟨f.message.child order code, order.output⟩ ∧
      f.execute cfg i e =
        ⟨{ f.ordering o rest with pending := some call }, (e.code order.target).2, none⟩ := by
  have hmoves := (Action.exec_moves cfg i f).run
  have hasks := (Action.exec_asks cfg i f).run
  have hx := executesTo_execute cfg f i e
  generalize f.execute cfg i e = x at hx h
  have hnone {g : Frame} (hg : g.pending = f.pending) (hc : g.pending = some call) : False := by
    rw [hg, hf] at hc
    cases hc
  cases hx with
  | fails hi =>
    rw [hi] at hmoves
    exact (hnone hmoves.pending h).elim
  | alone hi =>
    rw [hi] at hmoves
    exact (hnone hmoves.pending h).elim
  | @answered q g answer hi ha =>
    rw [hi] at hmoves hasks
    -- of the three kinds of answers only code is a call
    cases q with
    | load cell =>
      have hadvanced : Advanced f
          (after (e.answer (.load cell)).2 (Action.complete (.load cell) answer g)) :=
        advanced_after hmoves (Action.advances_complete_load cell answer g)
      cases hadvanced with
      | ahead _ ahead => exact (hnone ahead.pending h).elim
      | fails _ same => exact (hnone same.pending h).elim
    | store cell value => exact (hnone hmoves.pending h).elim
    | code order =>
      obtain ⟨o, rest, horders⟩ := hasks
      obtain rfl := horders.frame
      obtain rfl := Option.some.inj h
      exact ⟨o, rest, order, answer, horders, ha, rfl, rfl⟩
  | @refused q g error hi ha =>
    rw [hi] at hmoves
    cases q with
    | load cell => exact (hnone hmoves.pending h).elim
    | store cell value => exact (hnone hmoves.pending h).elim
    | code order => exact (hnone hmoves.1.pending h).elim

end Frame

end ContractVM
