import ContractVM.Proofs.Frame.Composes
import ContractVM.Proofs.Frame.Queries

/-!
# How far memory grows

An instruction grows the memory of its frame by making ranges fit, and by nothing else.  How far is
known beforehand, from its operands: `Frame.size_execute` says that memory is as long afterwards as
`Frame.sizeAfter` says, whatever comes of the instruction otherwise.

So an instruction that passes no bound leaves memory within `Bytes.maxSize`
(`Frame.size_le_of_not_overflows`), and the call that it makes has a depth
(`Frame.depth_lt_of_not_overflows`).
-/

namespace ContractVM

/-- Only instructions that make ranges fit have ranges. -/
theorem Instruction.ranges_of_not_extends {i : Instruction} (h : ¬ i.Extends) (s : Stack) :
    i.ranges s = [] := by
  cases i with
  | keccak | memLoad | memStore | call | ret | staticCall | revert => exact absurd trivial h
  | _ => rfl

namespace Action

variable {α β : Type} {f : Frame} {ranges : List Range}

/-! ### What grows memory -/

/-- Whatever comes of the action, memory is as long then as these ranges make it, one after another,
up to the first one that is not allowed. -/
structure GrowsFor (a : Action α) (f : Frame) (ranges : List Range) : Prop where
  run : Ensures a f
    (fun _ g => g.memory.size = Memory.sizeFor f.memoryLimit f.memory.size ranges)
    (fun _ g => g.memory.size = Memory.sizeFor f.memoryLimit f.memory.size ranges)

/-- The action leaves memory as long as it is. -/
def KeepsSize (a : Action α) : Prop := ∀ f, GrowsFor a f []

/-- What leaves the length alone may follow on what grows memory. -/
theorem GrowsFor.bind {a : Action α} {k : α → Action β} (ha : GrowsFor a f ranges)
    (hk : ∀ x, KeepsSize (k x)) : GrowsFor (a >>= k) f ranges := by
  refine ⟨.bind (ha.run.mono (fun x g hg => ?_) fun _ _ => id)⟩
  exact ((hk x g).run).mono (fun _ _ h => h.trans hg) fun _ _ h => h.trans hg

theorem keepsSize_push (w : Word) : KeepsSize (push w) :=
  fun _ => ⟨.push (fun _ => rfl) fun _ => rfl⟩

theorem keepsSize_slice (b : Bytes) (start size : Nat) : KeepsSize (slice b start size) := by
  refine fun f => ⟨⟨?_⟩⟩
  unfold slice
  cases b.slice? start size <;> rfl

theorem keepsSize_padded (v : Bytes) : KeepsSize (padded v) := by
  refine fun f => ⟨⟨?_⟩⟩
  unfold padded
  cases (Bytes.zeroExtend .empty 32).overwrite? 0 v <;> rfl

theorem keepsSize_write (start : Nat) (v : Bytes) : KeepsSize (write start v) := by
  refine fun f => ⟨⟨?_⟩⟩
  unfold write
  cases h : f.memory.overwrite? start v with
  | some memory => exact Bytes.size_of_overwrite? h
  | none => rfl

theorem composes_keepsSize : Composes fun _ a => KeepsSize a where
  bind ha hk f := (ha f).bind hk
  pure _ _ := ⟨.pure rfl⟩
  get _ := ⟨.get rfl⟩
  pop _ := ⟨.pop (fun _ _ _ => rfl) fun _ => rfl⟩
  push := keepsSize_push
  dup _ f := ⟨.dup (fun _ => (keepsSize_push _ f).run) fun _ => rfl⟩
  swap _ _ := ⟨.swap (fun _ _ => rfl) fun _ => rfl⟩
  slice := keepsSize_slice
  padded := keepsSize_padded
  read range f := ⟨⟨(keepsSize_slice f.memory range.start range.size f).run.run⟩⟩
  advance _ _ := ⟨.change rfl⟩
  stop _ := ⟨.change rfl⟩
  setReturnData _ _ := ⟨.change rfl⟩
  fail _ _ _ := ⟨.fail rfl⟩

/-- Where an operand is taken, the ranges may depend on it.  Without the operand there are none. -/
theorem GrowsFor.pop {k : Word → Action β} (ranges : Stack → List Range) (none : ranges [] = [])
    (hk : ∀ w s, GrowsFor (k w) { f with stack := s } (ranges (w :: s))) :
    GrowsFor (Action.pop >>= k) f (ranges f.stack) := by
  refine ⟨.bind (.pop (fun w s hs => ?_) fun hs => ?_)⟩
  · rw [hs]
    exact (hk w s).run
  · rw [hs, none]
    rfl

/-- A range that is made to fit comes before the ranges of what follows. -/
theorem GrowsFor.extend {start size : Word} {k : Range → Action β}
    (hk : ∀ m range, GrowsFor (k range) { f with memory := m } ranges) :
    GrowsFor (Action.extend start size >>= k) f (.ofWords start size :: ranges) := by
  refine ⟨.bind ⟨?_⟩⟩
  unfold Action.extend
  rw [Memory.extend_eq, Memory.sizeFor_cons]
  by_cases hallowed : (Range.ofWords start size).isAllowed f.memoryLimit = true
  · have hgrown := (hk (f.memory.zeroExtend (Range.ofWords start size).wordEnd)
      (.ofWords start size)).run
    simp only [Bytes.size_zeroExtend] at hgrown
    simp only [hallowed, ↓reduceIte]
    exact hgrown
  · simp only [hallowed, Bool.false_eq_true, ↓reduceIte]

/-! ### Instructions -/

/-- The range that two operands stand for is made to fit, if there are two. -/
theorem growsFor_operandRange (ranges : Stack → List Range) (none : ranges [] = [])
    (one : ∀ start, ranges [start] = [])
    (full : ∀ start size s, ranges (start :: size :: s) = [.ofWords start size]) (f : Frame) :
    GrowsFor operandRange f (ranges f.stack) := by
  refine .pop ranges none fun start s₁ => .pop (fun s => ranges (start :: s)) (one start)
    fun size s₂ => ?_
  rw [full]
  exact .extend fun _ range => composes_keepsSize.read range _

/-- The two ranges of a call are made to fit, if there are four operands, also where calls nest too
deep. -/
theorem growsFor_order (ranges : Stack → List Range) (none : ranges [] = [])
    (one : ∀ w, ranges [w] = []) (two : ∀ w x, ranges [w, x] = [])
    (three : ∀ w x y, ranges [w, x, y] = [])
    (full : ∀ inStart inSize outStart outSize s,
      ranges (inStart :: inSize :: outStart :: outSize :: s) =
        [.ofWords inStart inSize, .ofWords outStart outSize])
    (cfg : Config) (isStatic : Bool) (target : Word) (f : Frame) :
    GrowsFor (order cfg isStatic target) f (ranges f.stack) := by
  refine .pop ranges none fun inStart s₁ => ?_
  refine .pop (fun s => ranges (inStart :: s)) (one _) fun inSize s₂ => ?_
  refine .pop (fun s => ranges (inStart :: inSize :: s)) (two _ _) fun outStart s₃ => ?_
  refine .pop (fun s => ranges (inStart :: inSize :: outStart :: s)) (three _ _ _)
    fun outSize s₄ => ?_
  rw [full]
  refine .extend fun _ input => .extend fun _ output => ?_
  -- what is left does not touch memory
  refine composes_keepsSize.bind (composes_keepsSize.setReturnData _) (fun _ =>
    composes_keepsSize.bind composes_keepsSize.get fun g => ?_) _
  split
  · exact composes_keepsSize.push_next _ _
  · exact composes_keepsSize.bind (composes_keepsSize.read _) fun _ => composes_keepsSize.pure _

/-- An instruction makes the ranges of its operands fit. -/
theorem growsFor_exec (cfg : Config) (i : Instruction) (f : Frame) :
    GrowsFor (exec cfg i) f (i.ranges f.stack) := by
  by_cases hi : i.Extends
  case neg =>
    rw [Instruction.ranges_of_not_extends hi]
    exact composes_keepsSize.exec cfg (fun h => absurd h hi) (fun _ => keepsSize_write)
      (fun _ _ _ => ⟨.change rfl⟩) (fun _ _ => ⟨.fail rfl⟩) f
  case pos =>
    cases i <;> first | exact hi.elim | rw [exec]
    case keccak =>
      exact (growsFor_operandRange (Instruction.ranges .keccak) rfl (fun _ => rfl)
        (fun _ _ _ => rfl) f).bind fun _ => composes_keepsSize.push_next _ _
    case memLoad =>
      refine .pop (Instruction.ranges .memLoad) rfl fun position s => .extend fun m range => ?_
      exact composes_keepsSize.bind (composes_keepsSize.read range)
        (fun _ => composes_keepsSize.push_next _ _) _
    case memStore =>
      refine .pop (Instruction.ranges .memStore) rfl fun position s₁ => ?_
      refine .pop (fun s => Instruction.ranges .memStore (position :: s)) rfl fun value s₂ => ?_
      refine .extend fun m range => ?_
      exact composes_keepsSize.bind (keepsSize_write _ _) (fun _ => composes_keepsSize.next _) _
    case call =>
      refine .pop (Instruction.ranges .call) rfl fun gas s₁ => ?_
      refine .pop (fun s => Instruction.ranges .call (gas :: s)) rfl fun target s₂ => ?_
      refine .pop (fun s => Instruction.ranges .call (gas :: target :: s)) rfl fun value s₃ => ?_
      exact ⟨.bind (.get (growsFor_order
        (fun s => Instruction.ranges .call (gas :: target :: value :: s)) rfl (fun _ => rfl)
        (fun _ _ => rfl) (fun _ _ _ => rfl) (fun _ _ _ _ _ => rfl) _ _ _ _).run)⟩
    case ret =>
      exact (growsFor_operandRange (Instruction.ranges .ret) rfl (fun _ => rfl)
        (fun _ _ _ => rfl) f).bind fun _ => composes_keepsSize.bind (fun _ => ⟨.change rfl⟩)
        fun _ => composes_keepsSize.bind composes_keepsSize.stop fun _ => composes_keepsSize.next _
    case staticCall =>
      refine .pop (Instruction.ranges .staticCall) rfl fun gas s₁ => ?_
      refine .pop (fun s => Instruction.ranges .staticCall (gas :: s)) rfl fun target s₂ => ?_
      exact growsFor_order (fun s => Instruction.ranges .staticCall (gas :: target :: s)) rfl
        (fun _ => rfl) (fun _ _ => rfl) (fun _ _ _ => rfl) (fun _ _ _ _ _ => rfl) _ _ _ _
    case revert =>
      exact (growsFor_operandRange (Instruction.ranges .revert) rfl (fun _ => rfl)
        (fun _ _ _ => rfl) f).bind fun _ => composes_keepsSize.bind (fun _ => ⟨.change rfl⟩)
        fun _ _ => ⟨.fail rfl⟩

/-- An answer leaves memory as long as it is. -/
theorem keepsSize_complete (q : Query) (answer : q.Answer) : KeepsSize (complete q answer) := by
  cases q with
  | load cell =>
    exact composes_keepsSize.bind (keepsSize_push _) fun _ => composes_keepsSize.advance _
  | store cell value => exact composes_keepsSize.advance _
  | code order => exact fun _ => ⟨.change rfl⟩

/-- A frame that goes on behind a call has its memory as long as before. -/
theorem keepsSize_resume (range : Range) (callee : Frame) : KeepsSize (resume range callee) :=
  composes_keepsSize.bind (keepsSize_push _) fun _ =>
    composes_keepsSize.bind (composes_keepsSize.setReturnData _) fun _ =>
    composes_keepsSize.bind (keepsSize_slice _ _ _) fun _ =>
    composes_keepsSize.bind (keepsSize_write _ _) fun _ => composes_keepsSize.advance 1

end Action

namespace Frame

variable {σ : Type}

/-- Whatever comes of what keeps the length. -/
theorem size_after {α : Type} {a : Action α} (h : Action.KeepsSize a) (f : Frame) (e : Env σ) :
    (after e (a f)).frame.memory.size = f.memory.size := by
  have h := (h f).run.run
  cases hr : a f with
  | ok x g =>
    rw [hr] at h
    exact h
  | error fault g =>
    rw [hr] at h
    exact h

theorem size_resume (f : Frame) (range : Range) (callee : Frame) (e : Env σ) :
    (f.resume range callee e).frame.memory.size = f.memory.size :=
  size_after (Action.keepsSize_resume range callee) f _

variable [Backend σ] {cfg : Config} {f : Frame} {i : Instruction} {e : Env σ}

/-- **Memory grows for the operands.**  Whatever comes of an instruction, the memory of its frame is
as long afterwards as its operands tell. -/
theorem size_execute (cfg : Config) (f : Frame) (i : Instruction) (e : Env σ) :
    (f.execute cfg i e).frame.memory.size = f.sizeAfter i := by
  have hgrows := (Action.growsFor_exec cfg i f).run.run
  have hx := executesTo_execute cfg f i e
  generalize f.execute cfg i e = x at hx
  cases hx with
  | fails h =>
    rw [h] at hgrows
    exact hgrows
  | alone h =>
    rw [h] at hgrows
    exact hgrows
  | @answered q g answer h ha =>
    rw [h] at hgrows
    exact (size_after (Action.keepsSize_complete q answer) g _).trans hgrows
  | refused h ha =>
    rw [h] at hgrows
    exact hgrows

/-! ### Within bounds -/

theorem executeChecked_of_not_overflows (h : f.overflows i = false) :
    f.executeChecked cfg i e = f.execute cfg i e := by
  rw [executeChecked, h]
  rfl

theorem fault_executeChecked_of_overflows (h : f.overflows i = true) :
    (f.executeChecked cfg i e).fault = some .outOfBounds := by
  rw [executeChecked, h]
  rfl

/-- An instruction that succeeds passes no bound. -/
theorem not_overflows_of_fault (h : (f.executeChecked cfg i e).fault = none) :
    f.overflows i = false := by
  cases ho : f.overflows i with
  | true =>
    rw [fault_executeChecked_of_overflows ho] at h
    cases h
  | false => rfl

/-- A bound is passed by an instruction that would leave a memory too long to have room, or would
make a call that has no depth. -/
theorem overflows_iff (cfg : Config) (f : Frame) (i : Instruction) (e : Env σ) :
    f.overflows i = true ↔
      (f.memory.size < (f.execute cfg i e).frame.memory.size ∧
        Bytes.maxSize < (f.execute cfg i e).frame.memory.size) ∨ f.callsTooDeep i = true := by
  rw [size_execute, overflows, Bool.or_eq_true, Memory.outgrows, decide_eq_true_eq]
  rfl

/-- There is room for the memory of an instruction that passes no bound. -/
theorem size_le_of_not_overflows (h : f.overflows i = false) :
    (f.execute cfg i e).frame.memory.size ≤ max f.memory.size Bytes.maxSize := by
  have hroom := mt (overflows_iff cfg f i e).2 (Bool.eq_false_iff.1 h)
  omega

/-- An instruction that is given up leaves memory for which there is room, too. -/
theorem size_givenUp_le (f : Frame) (i : Instruction) :
    (f.givenUp i).memory.size ≤ max f.memory.size Bytes.maxSize := by
  let room := max f.memory.size Bytes.maxSize
  have hgrows := (Action.growsFor_exec { Config.standard with maxDepth := Offset.bound } i
    { f with memoryLimit := min f.memoryLimit room }).run.run
  have hkeeps : Memory.sizeFor (min f.memoryLimit room) f.memory.size (i.ranges f.stack) ≤ room :=
    Nat.le_trans (Memory.sizeFor_bounds _ _ _).2
      (Nat.max_le.2 ⟨Nat.le_max_left _ _, Nat.min_le_right _ _⟩)
  unfold givenUp
  dsimp only
  split
  · rename_i h
    rw [h] at hgrows
    exact Nat.le_trans (Nat.le_of_eq hgrows) hkeeps
  · rename_i h
    rw [h] at hgrows
    exact Nat.le_trans (Nat.le_of_eq hgrows) hkeeps

/-- A call that passes no bound has a depth. -/
theorem depth_lt_of_not_overflows {call : PendingCall} (h : f.overflows i = false)
    (hf : f.pending = none) (hc : (f.execute cfg i e).frame.pending = some call) :
    call.message.depth < Offset.bound := by
  obtain ⟨o, rest, order, code, horders, -, rfl, -⟩ := pending_execute hf hc
  have hdeep : f.callsTooDeep i = false := (Bool.or_eq_false_iff.1 h).2
  unfold callsTooDeep at hdeep
  rw [Instruction.ranges_of_callOperands? horders.operands, horders.operands] at hdeep
  simp only [Option.isSome_some, List.all_cons, List.all_nil, horders.allowed.1,
    horders.allowed.2, Bool.and_true, true_and, decide_eq_false_iff_not, Nat.not_le] at hdeep
  exact hdeep

/-- An instruction that makes no range fit passes no bound. -/
theorem overflows_of_not_extends (h : ¬ i.Extends) : f.overflows i = false := by
  rcases hf : f.overflows i with _ | _
  · rfl
  · rcases Bool.or_eq_true_iff.1 hf with hgrows | hdeep
    · rw [Instruction.ranges_of_not_extends h] at hgrows
      exact absurd (of_decide_eq_true hgrows).1 (Nat.lt_irrefl _)
    · obtain ⟨⟨o, rest⟩, ho⟩ := Option.isSome_iff_exists.1 (of_decide_eq_true hdeep).1
      obtain rfl | rfl := Instruction.eq_call_of_callOperands? ho
      · exact absurd trivial h
      · exact absurd trivial h

/-- A bound is passed only where the settings allow so much. -/
theorem of_overflows (h : f.overflows i = true) :
    Bytes.maxSize < f.memoryLimit ∨
      Offset.bound ≤ f.message.depth + 1 ∧ (i = .call ∨ i = .staticCall) := by
  rcases Bool.or_eq_true_iff.1 h with hgrows | hdeep
  · exact .inl (Memory.lt_limit_of_outgrows hgrows)
  · obtain ⟨hcall, -, hdepth⟩ := of_decide_eq_true hdeep
    obtain ⟨⟨o, rest⟩, ho⟩ := Option.isSome_iff_exists.1 hcall
    exact .inr ⟨hdepth, Instruction.eq_call_of_callOperands? ho⟩

end Frame

end ContractVM
