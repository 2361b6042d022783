import ContractVM.Frame.Moves
import ContractVM.Proofs.Memory.Extend

/-!
# What an action ensures

`Action.Ensures a f Q E` says what comes of the action `a` on the frame `f`: a value and a frame
of `Q` if it succeeds, a fault and a frame of `E` if it fails.  There is one rule for each of the
small actions that instructions are put together from, with all that the action looks at, and
`Action.Ensures.bind` for what follows on it.
-/

namespace ContractVM

namespace Action

/-- From `f`, the action succeeds within `Q` or fails within `E`. -/
structure Ensures {α : Type} (a : Action α) (f : Frame) (Q : α → Frame → Prop)
    (E : Fault → Frame → Prop) : Prop where
  run : match a f with
    | .ok x g => Q x g
    | .error e g => E e g

namespace Ensures

variable {α β : Type} {f : Frame} {E : Fault → Frame → Prop}

theorem pure {x : α} {Q : α → Frame → Prop} (h : Q x f) : Ensures (Pure.pure x) f Q E := ⟨h⟩

theorem bind {a : Action α} {k : α → Action β} {Q : β → Frame → Prop}
    (h : Ensures a f (fun x g => Ensures (k x) g Q E) E) : Ensures (a >>= k) f Q E := by
  have h := h.run
  refine ⟨?_⟩
  cases ha : a f with
  | ok x g =>
    rw [ha] at h
    rw [bind_ok ha]
    exact h.run
  | error e g =>
    rw [ha] at h
    rw [bind_error ha]
    exact h

/-- Less may be said about what comes of an action. -/
theorem mono {a : Action α} {Q Q' : α → Frame → Prop} {E' : Fault → Frame → Prop}
    (h : Ensures a f Q E) (hok : ∀ x g, Q x g → Q' x g) (herror : ∀ e g, E e g → E' e g) :
    Ensures a f Q' E' := by
  have h := h.run
  refine ⟨?_⟩
  cases ha : a f with
  | ok x g =>
    rw [ha] at h
    exact hok x g h
  | error e g =>
    rw [ha] at h
    exact herror e g h

/-- What reads the frame and changes nothing. -/
theorem get {Q : Frame → Frame → Prop} (h : Q f f) : Ensures (MonadState.get : Action Frame) f Q E :=
  ⟨h⟩

/-- What changes the frame and cannot fail. -/
theorem change {t : Frame → Frame} {Q : Unit → Frame → Prop} (h : Q () (t f)) :
    Ensures (modify t : Action Unit) f Q E := ⟨h⟩

theorem fail {reason : Halt} {Q : α → Frame → Prop} (h : E (.halt reason) f) :
    Ensures (Action.fail reason) f Q E := ⟨h⟩

/-! ### Operands -/

theorem pop {Q : Word → Frame → Prop} (ok : ∀ w s, f.stack = w :: s → Q w { f with stack := s })
    (empty : f.stack = [] → E (.halt .stackUnderflow) f) : Ensures Action.pop f Q E := by
  refine ⟨?_⟩
  unfold Action.pop
  cases hs : f.stack with
  | nil => exact empty hs
  | cons w s => exact ok w s hs

theorem push {w : Word} {Q : Unit → Frame → Prop}
    (ok : f.stack.length ≠ Stack.limit → Q () { f with stack := w :: f.stack })
    (full : f.stack.length = Stack.limit → E (.halt .stackOverflow) f) :
    Ensures (Action.push w) f Q E := by
  refine ⟨?_⟩
  unfold Action.push Stack.push
  by_cases h : f.stack.length = Stack.limit
  · simp only [h, ↓reduceIte]
    exact full h
  · simp only [h, ↓reduceIte]
    exact ok h

theorem dup {n : Nat} {Q : Unit → Frame → Prop}
    (ok : ∀ h : n < f.stack.length, Ensures (Action.push (f.stack.get ⟨n, h⟩)) f Q E)
    (short : f.stack.length ≤ n → E (.halt .stackUnderflow) f) : Ensures (Action.dup n) f Q E := by
  refine ⟨?_⟩
  unfold Action.dup Stack.peek
  by_cases h : n < f.stack.length
  · simp only [h, ↓reduceDIte]
    exact (ok h).run
  · simp only [h, ↓reduceDIte]
    exact short (Nat.le_of_not_lt h)

theorem swap {n : Nat} {Q : Unit → Frame → Prop}
    (ok : ∀ (h₀ : 0 < f.stack.length) (h : n < f.stack.length), Q () { f with
      stack := (f.stack.set 0 (f.stack.get ⟨n, h⟩)).set n (f.stack.get ⟨0, h₀⟩) })
    (short : f.stack.length ≤ n → E (.halt .stackUnderflow) f) :
    Ensures (Action.swap n) f Q E := by
  refine ⟨?_⟩
  unfold Action.swap Stack.swap
  by_cases h : n < f.stack.length
  · simp only [h, ↓reduceDIte]
    exact ok (Nat.zero_lt_of_lt h) h
  · simp only [h, ↓reduceDIte]
    exact short (Nat.le_of_not_lt h)

/-! ### Bytes -/

theorem extend {start size : Word} {Q : Range → Frame → Prop}
    (ok : ∀ range m, f.memory.extend f.memoryLimit start size = .ok (range, m) →
      Q range { f with memory := m })
    (refused : E (.halt .memoryLimit) f) : Ensures (Action.extend start size) f Q E := by
  refine ⟨?_⟩
  unfold Action.extend
  cases h : f.memory.extend f.memoryLimit start size with
  | ok r => exact ok r.1 r.2 h
  | error reason =>
    obtain rfl := Memory.extend_error h
    exact refused

theorem slice {b : Bytes} {start size : Nat} {Q : Bytes → Frame → Prop}
    (inside : start + size ≤ b.size) (ok : Q (b.extract start (start + size)) f) :
    Ensures (Action.slice b start size) f Q E := by
  refine ⟨?_⟩
  simp only [Action.slice, Bytes.slice?, inside, ↓reduceIte]
  exact ok

theorem read {range : Range} {Q : Bytes → Frame → Prop}
    (inside : range.start + range.size ≤ f.memory.size)
    (ok : Q (f.memory.extract range.start (range.start + range.size)) f) :
    Ensures (Action.read range) f Q E :=
  ⟨(slice inside ok).run⟩

theorem write {start : Nat} {v : Bytes} {Q : Unit → Frame → Prop}
    (inside : start + v.size ≤ f.memory.size)
    (ok : Q () { f with memory := v.copySlice 0 f.memory start v.size }) :
    Ensures (Action.write start v) f Q E := by
  refine ⟨?_⟩
  simp only [Action.write, Bytes.overwrite?, inside, ↓reduceIte]
  exact ok

theorem padded {v : Bytes} {Q : Bytes → Frame → Prop} (room : v.size ≤ 32)
    (ok : Q (v.zeroExtend 32) f) : Ensures (Action.padded v) f Q E := by
  refine ⟨?_⟩
  simp only [Action.padded, Bytes.overwrite?_zeros room]
  exact ok

/-- A window never leaves the bytes: it ends where they end. -/
theorem window {b : Bytes} {start n : Nat} {Q : Bytes → Frame → Prop} (room : n ≤ 32)
    (ok : Q (Bytes.zeroExtend (b.extract (min start b.size) (min (start + n) b.size)) n) f) :
    Ensures (Action.window b start n) f Q E := by
  have hstop : min start b.size + (min (start + n) b.size - min start b.size) =
      min (start + n) b.size := by omega
  have hsize : (b.extract (min start b.size) (min (start + n) b.size)).size ≤ n := by
    rw [ByteArray.size_extract]
    omega
  refine bind (slice (by omega) ?_)
  rw [hstop]
  refine bind (padded (Nat.le_trans hsize room) ⟨?_⟩)
  simp only [Action.slice, Bytes.slice?_zeroExtend hsize room]
  exact ok

end Ensures

end Action

end ContractVM
