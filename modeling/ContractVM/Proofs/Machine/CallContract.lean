import ContractVM.Proofs.Machine.Budget
import ContractVM.Proofs.Machine.Endings
import ContractVM.Proofs.Word.Encoding

/-!
# What a caller sees of its calls

A call is spread over the instruction that makes it, the step that begins it, whatever the callee
does, and the step that goes on behind it.  Here it is seen from its frame alone.

* `Frame.Begins f o callee` : the callee of a call that `f` makes with the operands `o` begins with
  nothing of its own, on bytes of the memory of `f`.
* `Frame.Resumes f o rest callee g` : when the callee has ended, `f` has become `g`, with `rest` and
  one more word on its stack, and as much of the output in its memory as it has asked for.

Memory is compared byte by byte with what it was before, where bytes past its end are zeros; so it
does not show that it has grown.

`Message.call_contract` is the statement about all calls of a run.
-/

namespace ContractVM

/-! ### Frames before and after a call -/

namespace Frame

/-- The callee of a call by the frame, with these operands, begins. -/
structure Begins (f : Frame) (o : CallOperands) (callee : Frame) : Prop where
  stack : callee.stack = []
  memory : callee.memory = .empty
  pc : callee.pc = 0
  caller : callee.message.caller = f.message.self
  target : callee.message.target = callee.message.self
  /-- It works for the account of the low 160 bits of the operand. -/
  self : bigEndian callee.message.self.bytes.toList = o.target.toNat % 2 ^ 160
  depth : callee.message.depth = f.message.depth + 1
  size : callee.message.data.size = o.input.size
  data : ∀ i < o.input.size,
    callee.message.data.byteAt i = Bytes.byteAt f.memory (o.input.start + i)

/-- How much of the output of the callee the frame takes. -/
def taken (o : CallOperands) (callee : Frame) : Nat := min o.output.size callee.output.size

/-- The first frame has made a call with these operands, and has become the second one when the
callee had ended. -/
structure Resumes (f : Frame) (o : CallOperands) (rest : Stack) (callee g : Frame) : Prop where
  stack : g.stack = (if callee.halted = none then 1 else 0) :: rest
  pc : g.pc = f.pc + 1
  size : g.memory.size = max f.memory.size (max o.input.wordEnd o.output.wordEnd)
  written : ∀ i < taken o callee,
    Bytes.byteAt g.memory (o.output.start + i) = callee.output.byteAt i
  kept : ∀ i, i < o.output.start ∨ o.output.start + taken o callee ≤ i →
    Bytes.byteAt g.memory i = Bytes.byteAt f.memory i
  returnData : g.returnData = callee.output
  message : g.message = f.message
  memoryLimit : g.memoryLimit = f.memoryLimit
  output : g.output = f.output
  halted : g.halted = f.halted
  running : g.running = f.running
  pending : g.pending = none

variable {f : Frame} {o : CallOperands} {rest : Stack}

theorem size_grownFor (f : Frame) (o : CallOperands) :
    (f.grownFor o).size = max f.memory.size (max o.input.wordEnd o.output.wordEnd) := by
  unfold grownFor
  rw [Bytes.size_zeroExtend, Bytes.size_zeroExtend, Nat.max_assoc]

/-- The callee gets the bytes of the range of its input. -/
theorem begins_new {i : Instruction} {order : CallOrder} {g : Frame}
    (h : Orders i f o rest order g) (code : Bytes) (limit : Nat) :
    f.Begins o (.new (f.message.child order code) limit) where
  stack := rfl
  memory := rfl
  pc := rfl
  caller := rfl
  target := rfl
  self := by
    change bigEndian order.target.bytes.toList = _
    rw [h.target, Address.bigEndian_ofWord]
  depth := rfl
  size := by
    have hinside := h.inside
    change order.data.size = _
    rw [h.data, ByteArray.size_extract]
    omega
  data j hj := by
    change Bytes.byteAt order.data j = _
    rw [h.data, Bytes.byteAt_extract (Nat.add_lt_add_left hj _), byteAt_grownFor]

/-- The output that the frame takes goes to its range, and the frame is as before otherwise. -/
theorem resumes_resumed (f : Frame) (o : CallOperands) (rest : Stack) (callee : Frame)
    (hf : f.pending = none) :
    f.Resumes o rest callee ((f.ordering o rest).resumed o.output callee) := by
  let part := callee.output.extract 0 (taken o callee)
  have hpart : part.size = taken o callee := by
    simp only [part, taken, ByteArray.size_extract]
    omega
  have hmemory : ((f.ordering o rest).resumed o.output callee).memory =
      part.copySlice 0 (f.grownFor o) o.output.start part.size := rfl
  -- the range of the output lies inside, and no more is taken than it has room for
  have hinside : o.output.start + part.size ≤ (f.grownFor o).size := by
    have hend : o.output.start + o.output.size ≤ o.output.wordEnd := Offset.le_ceil32 _
    have htaken : taken o callee ≤ o.output.size := Nat.min_le_left _ _
    rw [size_grownFor]
    omega
  refine ⟨?_, rfl, ?_, fun i hi => ?_, fun i hi => ?_, rfl, rfl, rfl, rfl, rfl, rfl, hf⟩
  · change Word.ofBool callee.halted.isNone :: rest = _
    cases callee.halted <;> rfl
  · rw [hmemory, Bytes.size_copySlice hinside, size_grownFor]
  · rw [hmemory, Bytes.byteAt_copySlice hinside, if_pos (by omega), Nat.add_sub_cancel_left,
      Bytes.byteAt_extract (by omega), Nat.zero_add]
  · rw [hmemory, Bytes.byteAt_copySlice hinside, if_neg (by omega), byteAt_grownFor]

end Frame

/-! ### Machines before and after a call -/

namespace Machine

variable {σ : Type} [Backend σ] {cfg : Config} {m m₁ : Machine σ} {call : PendingCall}

/-- A call that has been made was made by an instruction. -/
theorem Reaches.called {message : Message} {e : Env σ}
    (h : Reaches cfg (start cfg message e) m₁) (hp : m₁.frame.pending = some call) :
    ∃ m byte, Reaches cfg (start cfg message e) m ∧ m.frame.ready? = some byte ∧
      m.step cfg = .running m₁ := by
  cases h with
  | refl => cases hp
  | @tail m _ hr hs =>
    have hto := stepsTo_step cfg m
    rw [hs] at hto
    cases hto with
    | @execute byte _ ready hx => exact ⟨m, byte, hr, ready, hs⟩
    | enter => cases hp
    | @leave caller callers _ ended waits hx =>
      rw [((Reaches.inBounds hr).leave waits hx).2.2] at hp
      cases hp

/-- An instruction that makes a call has taken its operands, and the backend has given the code. -/
theorem exists_order {byte : UInt8} (ready : m.frame.ready? = some byte)
    (hs : m.step cfg = .running m₁) (hp : m₁.frame.pending = some call) :
    ∃ o rest order code,
      Frame.Orders (.decode byte) m.frame o rest order (m.frame.ordering o rest) ∧
      (Backend.code m.env.backend order.target).1 = .ok code ∧
      call = ⟨m.frame.message.child order code, o.output⟩ ∧
      m₁.frame = { m.frame.ordering o rest with pending := some call } ∧
      m₁.callers = m.callers := by
  rw [step_of_ready cfg m ready] at hs
  have hto := proceedsTo_proceed m.callers (m.frame.execute cfg (.decode byte) m.env)
  rw [hs] at hto
  obtain ⟨hcallers, -, hkeeps⟩ := hto.place
  obtain ⟨o, rest, order, code, horders, hcode, hcall, hx⟩ :=
    Frame.pending_execute (Frame.lt_size_of_ready? ready).2 (hkeeps.symm.trans hp)
  rw [hx, proceed_of_ok rfl] at hs
  obtain rfl := Progress.running.inj hs
  rw [horders.output] at hcall
  exact ⟨o, rest, order, code, horders, hcode, hcall, rfl, rfl⟩

/-- A call that is made within bounds has a depth. -/
theorem depth_lt_of_called {byte : UInt8} (ready : m.frame.ready? = some byte)
    (hs : m.stepChecked cfg = .running m₁) (hp : m₁.frame.pending = some call) :
    call.message.depth < Offset.bound := by
  have ho := not_overflows_of_running hs
  rw [overflows_of_ready ready] at ho
  have hto := proceedsTo_proceed m.callers (m.frame.execute cfg (.decode byte) m.env)
  rw [← step_of_ready cfg m ready, step_of_stepChecked hs] at hto
  obtain ⟨-, -, hkeeps⟩ := hto.place
  exact Frame.depth_lt_of_not_overflows ho (Frame.lt_size_of_ready? ready).2 (hkeeps.symm.trans hp)

end Machine

namespace Message

variable {σ : Type} [Backend σ]

/-- **What a caller sees of its calls.**  Take an instruction of any run after which the frame has
made a call.  It is one that calls, and has found its operands.  The callee begins with nothing of
its own, one level deeper, at a depth that there is, on the data that the frame has given it, and
with the code that the backend has given.  When it has come to its end, the next step goes on with
the frame: instead of the operands there is one word on the stack, which says whether the callee has
succeeded, and as much of the output of the callee as the operands ask for is in memory.  All of the
output is kept beside; and if there is any, it was the last thing that the callee did to return it,
or to revert with it. -/
theorem call_contract (cfg : Config) (message : Message) (e : Env σ) (m m₁ : Machine σ)
    (byte : UInt8) (call : PendingCall)
    (hr : Machine.ReachesChecked cfg (Machine.start cfg message e) m)
    (ready : m.frame.ready? = some byte) (hs : m.stepChecked cfg = .running m₁)
    (hp : m₁.frame.pending = some call) :
    ∃ o rest, (Instruction.decode byte).callOperands? m.frame.stack = some (o, rest) ∧
      m₁.stepChecked cfg = .running (m₁.enter call) ∧
      m.frame.Begins o (m₁.enter call).frame ∧
      (m₁.enter call).frame.message.depth < Offset.bound ∧
      (Backend.code m.env.backend (m₁.enter call).frame.message.self).1 =
        .ok (m₁.enter call).frame.code ∧
      ∀ m₂, Machine.Returns cfg m₁ call m₂ → Machine.ReachesChecked cfg m₁ m₂ →
        (∃ next, m₂.stepChecked cfg = .running next ∧ next.callers = m.callers ∧
          m.frame.Resumes o rest m₂.frame next.frame) ∧
        (m₂.frame.output ≠ .empty → ∃ before byte,
          Machine.Serves cfg m₂.callers (m₁.enter call) before ∧
          before.callers = m₂.callers ∧ before.frame.ready? = some byte ∧
          Instruction.Gives (.decode byte) ∧ before.stepChecked cfg = .running m₂) := by
  obtain ⟨o, rest, order, code, horders, hcode, hcall, hframe, hcallers⟩ :=
    Machine.exists_order ready (Machine.step_of_stepChecked hs) hp
  have hr₁ : Machine.ReachesChecked cfg (Machine.start cfg message e) m₁ := hr.tail hs
  have henters : m₁.stepChecked cfg = .running (m₁.enter call) := by
    rw [Machine.stepChecked_of_ready?_none (Frame.ready?_of_pending hp)]
    exact Machine.step_of_pending cfg m₁ hp
  refine ⟨o, rest, horders.operands, henters, ?_, ?_, ?_, fun m₂ h hchecked => ⟨?_, ?_⟩⟩
  · rw [hcall]
    exact Frame.begins_new horders code _
  · exact Machine.depth_lt_of_called ready hs hp
  · rw [hcall]
    exact hcode
  · -- the operands have made room for the answer
    have hfits : m.frame.Fits := hr.reaches.budgeted.1.2
    have hroom : m₁.frame.stack.length < Stack.limit := by
      rw [hframe]
      exact Nat.lt_of_lt_of_le (Instruction.length_lt_of_callOperands? horders.operands) hfits.stack
    have hr₂ : Machine.Reaches cfg (Machine.start cfg message e) m₂ := hr₁.reaches.trans h.reaches
    obtain ⟨next, hnext, hsame, hresumed⟩ := h.resumes_of_room hr₂.inBounds hroom
    rw [← Machine.stepChecked_of_ready?_none h.ended.ready] at hnext
    refine ⟨next, hnext, hsame.trans hcallers, ?_⟩
    have hnone : m.frame.pending = none := (Frame.lt_size_of_ready? ready).2
    have hwaits : { m₁.frame with pending := none } = m.frame.ordering o rest := by
      rw [hframe]
      exact congrArg (fun pending => { m.frame.ordering o rest with pending }) hnone.symm
    rw [hresumed, hwaits, hcall]
    exact Frame.resumes_resumed m.frame o rest m₂.frame hnone
  · intro ho
    obtain ⟨before, byte, hserves, hsame, hready, hgives, hlast⟩ := h.exists_gives hr₁.reaches ho
    refine ⟨before, byte, hserves, hsame, hready, hgives, ?_⟩
    exact hchecked.stepChecked_of_step
      (.head (Machine.step_of_stepChecked henters) hserves.reaches) hlast

/-- The message calls code that returns a word, and asks for four bytes of it. -/
theorem call_contract_of_returned :
    let ledger : Ledger := (∅ : Ledger).setCode (.ofWord 1)
      (.ofList [0x60, 0x2a, 0x5f, 0x52, 0x60, 0x20, 0x5f, 0xf3])
    let message := Message.new default default
      (.ofList [0x60, 0x04, 0x60, 0x1d, 0x5f, 0x5f, 0x5f, 0x60, 0x01, 0x5f, 0xf1])
    let cfg := Config.standard
    let e : Env Ledger := .new ledger
    ∃ m m₁ m₂ byte call, Machine.ReachesChecked cfg (Machine.start cfg message e) m ∧
      m.frame.ready? = some byte ∧ m.stepChecked cfg = .running m₁ ∧
      m₁.frame.pending = some call ∧
      Machine.Returns cfg m₁ call m₂ ∧ Machine.ReachesChecked cfg m₁ m₂ ∧
      m₂.frame.output.size = 32 ∧
      ∃ o rest next, (Instruction.decode byte).callOperands? m.frame.stack = some (o, rest) ∧
        m₂.stepChecked cfg = .running next ∧ m.frame.Resumes o rest m₂.frame next.frame := by
  intro ledger message cfg e
  have hended : ((Machine.start cfg message e).advanceChecked cfg 15).machine?.any (fun m₂ =>
      (m₂.frame.ready?.isNone ∧ m₂.frame.pending.isNone) ∧ m₂.callers.length = 1 ∧
        m₂.frame.output.size = 32) = true := by decide +kernel
  obtain ⟨m₂, hr₂, hm₂⟩ := Machine.exists_reachesChecked_of_advance hended
  obtain ⟨⟨hready, hpending⟩, hcallers, hsize⟩ := of_decide_eq_true hm₂
  have ended : m₂.frame.Ended :=
    ⟨Option.isNone_iff_eq_none.1 hready, Option.isNone_iff_eq_none.1 hpending⟩
  have waits : m₂.callers ≠ [] := by
    intro hnil
    rw [hnil] at hcallers
    cases hcallers
  -- steps lead to the end of the call, and within bounds all of them
  obtain ⟨m₁, call, hr₁, hreturns⟩ := hr₂.reaches.returns ended waits
  obtain ⟨m, byte, hr, ready, hs⟩ := hr₁.called hreturns.pending
  obtain ⟨hm₁, hbehind₁⟩ := hr₂.between hr₁ hreturns.reaches
  obtain ⟨hm, -⟩ := hm₁.between hr (.single hs)
  have hstep := hm₁.stepChecked_of_step hr hs
  obtain ⟨o, rest, hoperands, -, -, -, -, hbehind⟩ :=
    call_contract cfg message e m m₁ byte call hm ready hstep hreturns.pending
  obtain ⟨⟨next, hnext, -, hresumes⟩, -⟩ := hbehind m₂ hreturns hbehind₁
  exact ⟨m, m₁, m₂, byte, call, hm, ready, hstep, hreturns.pending, hreturns, hbehind₁, hsize, o,
    rest, next, hoperands, hnext, hresumes⟩

end Message

end ContractVM
