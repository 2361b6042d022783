import ContractVM.Proofs.Frame.Ensures
import ContractVM.Proofs.Frame.Unseen

/-!
# Frames that run other code

An instruction was taken from the code before it is executed, and one instruction looks at the code
again: a `push`, which takes its number from there.  All others are `Action.Blind`: on a frame with
other code they do the same, and leave it with that other code.

`Bytes.Extends b b'` says that `b'` is `b` with zeros at its end.  A number that is cut off by the
end of the code goes on with zeros, so a `push` does not see zeros there either.  Main statement:
`Action.exec_withCode`.
-/

namespace ContractVM

/-! ### Zeros at the end -/

namespace Bytes

/-- The second string is the first one with zeros at its end. -/
def Extends (b b' : Bytes) : Prop := ∃ n, b' = b.appendZeros n

theorem Extends.refl (b : Bytes) : Extends b b := ⟨0, rfl⟩

theorem byteAt_of_size_le {b : Bytes} {i : Nat} (h : b.size ≤ i) : b.byteAt i = 0 :=
  dif_neg (Nat.not_lt.2 h)

/-- A string is determined by its size and its bytes. -/
theorem ext_byteAt {a b : Bytes} (hsize : a.size = b.size)
    (h : ∀ i < a.size, a.byteAt i = b.byteAt i) : a = b := by
  refine ByteArray.ext (Array.ext hsize fun i ha hb => ?_)
  have hi := h i ha
  rw [byteAt_eq_getD, byteAt_eq_getD, Array.getElem?_eq_getElem ha, Array.getElem?_eq_getElem hb]
    at hi
  exact hi

/-- The `n` bytes from `start`, where bytes past the end are zeros. -/
def windowOf (b : Bytes) (start n : Nat) : Bytes :=
  zeroExtend (b.extract (min start b.size) (min (start + n) b.size)) n

theorem size_windowOf (b : Bytes) (start n : Nat) : (b.windowOf start n).size = n := by
  rw [windowOf, size_zeroExtend, ByteArray.size_extract]
  omega

theorem byteAt_windowOf (b : Bytes) {start n i : Nat} (h : i < n) :
    (b.windowOf start n).byteAt i = b.byteAt (start + i) := by
  rw [windowOf, byteAt_zeroExtend]
  by_cases hin : start + i < b.size
  · have hstart : min start b.size = start := by omega
    rw [hstart, byteAt_extract (by omega)]
  · rw [byteAt_of_size_le (Nat.le_of_not_lt hin), byteAt_of_size_le]
    rw [ByteArray.size_extract]
    omega

/-- A window does not see zeros at the end. -/
theorem windowOf_eq_of_extends {b b' : Bytes} (h : Extends b b') (start n : Nat) :
    b'.windowOf start n = b.windowOf start n := by
  obtain ⟨k, rfl⟩ := h
  refine ext_byteAt (by rw [size_windowOf, size_windowOf]) fun i hi => ?_
  rw [size_windowOf] at hi
  rw [byteAt_windowOf _ hi, byteAt_windowOf _ hi, byteAt_appendZeros]

end Bytes

/-! ### Other code -/

/-- The same message with other code. -/
def Message.withCode (m : Message) (code : Bytes) : Message := { m with code }

namespace Frame

/-- The same frame with other code. -/
def withCode (f : Frame) (code : Bytes) : Frame := { f with message := f.message.withCode code }

/-- Other code as a change of frames. -/
def recoding (code : Bytes) : Frame.Change := ⟨(·.withCode code), id, id⟩

variable (f : Frame) (code : Bytes)

@[simp] theorem pc_withCode : (f.withCode code).pc = f.pc := rfl

@[simp] theorem code_withCode : (f.withCode code).code = code := rfl

end Frame

namespace Action

variable {α β : Type}

/-- The same outcome with other code on the frame. -/
def recode (code : Bytes) : EStateM.Result Fault Frame α → EStateM.Result Fault Frame α
  | .ok x g => .ok x (g.withCode code)
  | .error fault g => .error fault (g.withCode code)

/-- The action does not look at the code. -/
structure Blind (a : Action α) : Prop where
  run (f : Frame) (code : Bytes) : a (f.withCode code) = recode code (a f)

theorem Blind.bind {a : Action α} {k : α → Action β} (ha : Blind a) (hk : ∀ x, Blind (k x)) :
    Blind (a >>= k) := by
  refine ⟨fun f code => ?_⟩
  have h := ha.run f code
  cases e : a f with
  | ok x g =>
    rw [e] at h
    rw [bind_ok e, bind_ok h]
    exact (hk x).run g code
  | error fault g =>
    rw [e] at h
    rw [bind_error e, bind_error h]
    rfl

/-- What sees no change of its frame does not look at the code. -/
theorem blind_of_unseen {a : Action α} (h : ∀ c, Unseen c a) : Blind a := by
  refine ⟨fun f code => ?_⟩
  refine ((h (Frame.recoding code)).run f).trans ?_
  cases a f <;> rfl

theorem blind_pure (x : α) : Blind (pure x) := blind_of_unseen fun _ => unseen_pure x

theorem blind_fail (reason : Halt) : Blind (fail reason : Action α) :=
  blind_of_unseen fun _ => unseen_fail reason

/-- What reads the frame is blind if what follows does not look at the code. -/
theorem blind_get {k : Frame → Action β} (same : ∀ f code, k (f.withCode code) = k f)
    (hk : ∀ f, Blind (k f)) : Blind (get >>= k) := by
  refine ⟨fun f code => ?_⟩
  have hget (f : Frame) : (get : Action Frame) f = .ok f f := rfl
  rw [bind_ok (hget f), bind_ok (hget (f.withCode code)), same]
  exact (hk f).run f code

/-! ### Parts of instructions -/

theorem blind_pop : Blind pop := blind_of_unseen fun _ => unseen_pop

theorem blind_extend (start size : Word) : Blind (extend start size) := by
  refine ⟨fun f code => ?_⟩
  refine (extend_change (c := Frame.recoding code) (f := f) rfl).trans ?_
  cases extend start size f <;> rfl

theorem blind_read (range : Range) : Blind (read range) := blind_of_unseen fun _ => unseen_read range

theorem blind_write (start : Nat) (v : Bytes) : Blind (write start v) :=
  blind_of_unseen fun _ => unseen_write start v

theorem blind_stop : Blind stop := blind_of_unseen fun _ => unseen_stop

theorem blind_setOutput (output : Bytes) : Blind (setOutput output) :=
  blind_of_unseen fun _ => unseen_setOutput output

theorem blind_setReturnData (data : Bytes) : Blind (setReturnData data) :=
  blind_of_unseen fun _ => unseen_setReturnData data

theorem blind_next (size : Nat) : Blind (next size) := blind_of_unseen fun _ => unseen_next size

theorem blind_push_next (w : Word) (size : Nat) : Blind (push w >>= fun _ => next size) :=
  blind_of_unseen fun _ => unseen_push_next w size

theorem blind_number (b : Bytes) (start size : Nat) : Blind (number b start size) :=
  blind_of_unseen fun _ => unseen_number b start size

theorem blind_constant {value : Message → Word} (h : ∀ m code, value (m.withCode code) = value m) :
    Blind (constant value) :=
  blind_get (fun f code => by rw [← h f.message code]; rfl) fun _ => blind_push_next _ _

theorem blind_operandRange : Blind operandRange :=
  blind_pop.bind fun _ => blind_pop.bind fun _ => (blind_extend _ _).bind fun _ => blind_read _

theorem blind_order (cfg : Config) (isStatic : Bool) (target : Word) :
    Blind (order cfg isStatic target) := by
  refine blind_pop.bind fun _ => blind_pop.bind fun _ => blind_pop.bind fun _ =>
    blind_pop.bind fun _ => (blind_extend _ _).bind fun _ => (blind_extend _ _).bind fun _ =>
    (blind_setReturnData _).bind fun _ => blind_get (fun _ _ => rfl) fun f => ?_
  split
  · exact blind_push_next _ _
  · exact (blind_read _).bind fun _ => blind_pure _

/-! ### Instructions -/

/-- An instruction that takes nothing from the code does not look at it. -/
theorem blind_exec (cfg : Config) {i : Instruction} (h : ∀ size, i ≠ .push size) :
    Blind (exec cfg i) := by
  cases i <;> rw [exec]
  case stop => exact blind_stop.bind fun _ => blind_next _
  case add | sub | lt | gt | eq => exact blind_of_unseen fun _ => unseen_binary _
  case isZero => exact blind_of_unseen fun _ => unseen_unary _
  case keccak => exact blind_operandRange.bind fun _ => blind_push_next _ _
  case address | caller | callDataSize => exact blind_constant fun _ _ => rfl
  case callDataLoad =>
    refine blind_pop.bind fun w => blind_get (fun _ _ => rfl) fun f => ?_
    dsimp only
    split
    · exact (blind_number _ _ _).bind fun _ => blind_push_next _ _
    · exact blind_push_next _ _
  case pop => exact blind_pop.bind fun _ => blind_next _
  case memLoad =>
    exact blind_pop.bind fun _ => (blind_extend _ _).bind fun _ => (blind_read _).bind fun _ =>
      blind_push_next _ _
  case memStore =>
    exact blind_pop.bind fun _ => blind_pop.bind fun _ => (blind_extend _ _).bind fun _ =>
      (blind_write _ _).bind fun _ => blind_next _
  case slotLoad => exact blind_pop.bind fun _ => blind_get (fun _ _ => rfl) fun _ => blind_pure _
  case slotStore =>
    refine blind_pop.bind fun _ => blind_pop.bind fun _ => blind_get (fun _ _ => rfl) fun f => ?_
    dsimp only
    split
    · exact blind_fail _
    · exact blind_pure _
  case push size => exact absurd rfl (h size)
  case dup n => exact blind_of_unseen fun _ => (unseen_dup n).bind fun _ => unseen_next _
  case swap n => exact blind_of_unseen fun _ => (unseen_swap n).bind fun _ => unseen_next _
  case call =>
    exact blind_pop.bind fun _ => blind_pop.bind fun _ => blind_pop.bind fun _ =>
      blind_get (fun _ _ => rfl) fun _ => blind_order _ _ _
  case ret =>
    exact blind_operandRange.bind fun _ => (blind_setOutput _).bind fun _ =>
      blind_stop.bind fun _ => blind_next _
  case staticCall => exact blind_pop.bind fun _ => blind_pop.bind fun _ => blind_order _ _ _
  case revert =>
    exact blind_operandRange.bind fun _ => (blind_setOutput _).bind fun _ => blind_fail _
  case invalid byte => exact blind_fail _

/-- A window is what it says, and the frame stays as it is. -/
theorem window_eq {b : Bytes} {start n : Nat} (room : n ≤ 32) (f : Frame) :
    window b start n f = .ok (b.windowOf start n) f := by
  have h := (Ensures.window (f := f) (E := fun _ _ => False)
    (Q := fun bytes g => bytes = b.windowOf start n ∧ g = f) room ⟨rfl, rfl⟩).run
  cases hw : window b start n f with
  | ok bytes g =>
    rw [hw] at h
    obtain ⟨rfl, rfl⟩ := h
    rfl
  | error fault g =>
    rw [hw] at h
    exact h.elim

/-- A number does not see zeros at the end of its bytes. -/
theorem number_eq_of_extends {b b' : Bytes} (h : b.Extends b') {size : Nat} (room : size ≤ 32)
    (start : Nat) : number b' start size = number b start size := by
  funext f
  unfold number
  rw [bind_ok (window_eq room f), bind_ok (window_eq room f), Bytes.windowOf_eq_of_extends h]

/-- **Zeros at the end of the code change no instruction.** -/
theorem exec_withCode (cfg : Config) (i : Instruction) {f : Frame} {code : Bytes}
    (h : f.code.Extends code) : exec cfg i (f.withCode code) = recode code (exec cfg i f) := by
  by_cases hpush : ∃ size, i = .push size
  · obtain ⟨size, rfl⟩ := hpush
    have hroom : size.val ≤ 32 := Nat.le_of_lt_succ size.isLt
    have hget (f : Frame) : (get : Action Frame) f = .ok f f := rfl
    have hrest : Blind (number f.code (f.pc + 1) size >>= fun w => push w >>= fun _ =>
        next (size + 1)) := (blind_number _ _ _).bind fun _ => blind_push_next _ _
    rw [exec, bind_ok (hget f), bind_ok (hget (f.withCode code)), Frame.code_withCode,
      Frame.pc_withCode, number_eq_of_extends h hroom]
    exact hrest.run f code
  · exact (blind_exec cfg fun size hi => hpush ⟨size, hi⟩).run f code

/-! ### What goes on after an answer -/

theorem blind_complete_load (cell : Cell) (value : Word) : Blind (complete (.load cell) value) :=
  blind_of_unseen fun _ => unseen_complete_load cell value

theorem blind_complete_store (cell : Cell) (value : Word) :
    Blind (complete (.store cell value) ()) :=
  blind_of_unseen fun _ => unseen_complete_store cell value

theorem blind_resume (range : Range) (callee : Frame) : Blind (resume range callee) :=
  blind_of_unseen fun _ => unseen_resume range callee

end Action

end ContractVM
