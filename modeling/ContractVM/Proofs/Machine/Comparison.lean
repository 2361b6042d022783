import ContractVM.Proofs.Machine.Arithmetic
import ContractVM.Proofs.Word.Encoding

/-!
# Comparisons

Words are compared limb by limb and keys byte by byte, the most significant first, and both is the
order of the numbers (`Word.compare_limbs`, `Key.compare_ofWord`).

* `Instruction.test?` : what an instruction asks about the numbers of its two operands.
* `Action.exec_of_test?` : it puts one in their place for a yes and zero for a no.
* `Action.exec_isZero` : the one comparison of a single operand does what the one for equality does
  with a zero below that operand.

Main statement: `Message.compares_numbers`.
-/

namespace ContractVM

/-! ### The order of words and keys -/

/-- Limbs in an array, the most significant first, are ordered as the numbers. -/
theorem Word.compare_limbs (a b : Word) : compare a.limbs b.limbs = compare a.toNat b.toNat := by
  rw [Vector.compare_eq_compare_toList, a.toNat_eq_foldl_limbs, b.toNat_eq_foldl_limbs]
  have hlength : a.limbs.toList.length = b.limbs.toList.length := by simp
  exact compare_foldl UInt64.toNat_lt compare_limb hlength 0 0

/-- Keys are ordered as the numbers of their words. -/
theorem Key.compare_ofWord (a b : Word) :
    compare (ofWord a) (ofWord b) = compare a.toNat b.toNat := by
  have hlength : a.toBytes.toList.length = b.toBytes.toList.length := by simp
  change compare a.toBytes b.toBytes = _
  rw [Vector.compare_eq_compare_toList, compare_bigEndian hlength, Word.bigEndian_toBytes,
    Word.bigEndian_toBytes]

/-! ### Instructions that compare -/

/-- What an instruction asks about the numbers of its two operands, the top one first. -/
def Instruction.test? : Instruction → Option (Nat → Nat → Bool)
  | .lt => some fun l r => l < r
  | .gt => some fun l r => l > r
  | .eq => some fun l r => l = r
  | _ => none

namespace Action

variable {cfg : Config} {i : Instruction} {test : Nat → Nat → Bool} {f : Frame} {x : Word}
  {rest : Stack}

/-- The answer takes the place of the operands. -/
theorem exec_of_test? (h : i.test? = some test) :
    exec cfg i = binary fun l r => .ofBool (test l.toNat r.toNat) := by
  cases i with
  | lt =>
    obtain rfl := Option.some.inj h
    simp only [exec, Word.lt_iff]
  | gt =>
    obtain rfl := Option.some.inj h
    simp only [exec, Word.lt_iff, gt_iff_lt]
  | eq =>
    obtain rfl := Option.some.inj h
    simp only [exec, Word.toNat_inj]
  | _ => cases h

/-- To ask whether a word is zero is to compare it with zero. -/
theorem exec_isZero (hs : f.stack = x :: rest) :
    exec cfg .isZero f = exec cfg .eq { f with stack := x :: 0 :: rest } := by
  have hzero : x.isZero = decide (x = 0) := by
    rw [Bool.eq_iff_iff, Word.isZero_iff, decide_eq_true_iff]
  have hx : pop { f with stack := x :: 0 :: rest } = .ok x { f with stack := 0 :: rest } :=
    pop_of_cons rfl
  have hy : pop { f with stack := 0 :: rest } = .ok 0 { f with stack := rest } := pop_of_cons rfl
  rw [exec, exec, unary, binary, bind_ok (pop_of_cons hs), bind_ok hx, bind_ok hy, hzero]

end Action

variable {σ : Type} [Backend σ] {cfg : Config} {i : Instruction} {test : Nat → Nat → Bool}
  {f : Frame} {l r x : Word} {rest : Stack}

namespace Frame

theorem execute_of_test? (h : i.test? = some test) (hs : f.stack = l :: r :: rest)
    (room : rest.length ≠ Stack.limit) (e : Env σ) : f.execute cfg i e =
      ⟨f.replacing (if test l.toNat r.toNat then 1 else 0) rest, e, none⟩ :=
  execute_binary _ (Action.exec_of_test? h) hs room e

theorem execute_isZero (hs : f.stack = x :: rest) (e : Env σ) :
    f.execute cfg .isZero e = execute cfg { f with stack := x :: 0 :: rest } .eq e := by
  rw [execute, execute, Action.exec_isZero hs]

/-- The answer takes the place of the one operand. -/
theorem execute_isZero_of_cons (hs : f.stack = x :: rest) (room : rest.length ≠ Stack.limit)
    (e : Env σ) : f.execute cfg .isZero e =
      ⟨f.replacing (if x.toNat = 0 then 1 else 0) rest, e, none⟩ := by
  refine (execute_isZero hs e).trans
    ((execute_of_test? (i := .eq) rfl rfl room e).trans ?_)
  have hzero : (0 : Word).toNat = 0 := rfl
  simp only [hzero, decide_eq_true_iff]
  rfl

end Frame

/-- **Words are compared as numbers.**  The order of two words, limb by limb, is that of their
numbers, and so is the order of the keys that they name, byte by byte; and words are equal if their
numbers are.

Three instructions ask whether the top operand of a frame is less than, greater than or equal to the
one below it, and put one in the place of both if it is, and zero if not; nothing else changes but
the position in the code.  A fourth asks this of a single operand and zero.  That goes for any frame
unless it would be too high still without the operands; no run comes to such a frame, and so its
machines compare whenever that is the next instruction and there are operands. -/
theorem Message.compares_numbers {σ : Type} [Backend σ] (cfg : Config) :
    (∀ a b : Word, compare a b = compare a.toNat b.toNat ∧
      compare a.limbs b.limbs = compare a.toNat b.toNat ∧
      compare (Key.ofWord a) (Key.ofWord b) = compare a.toNat b.toNat ∧
      (a < b ↔ a.toNat < b.toNat) ∧ (a = b ↔ a.toNat = b.toNat)) ∧
    (∀ (f : Frame) (l r : Word) (rest : Stack) (e : Env σ), f.stack = l :: r :: rest →
      rest.length ≠ Stack.limit →
      f.execute cfg .lt e = ⟨f.replacing (if l.toNat < r.toNat then 1 else 0) rest, e, none⟩ ∧
      f.execute cfg .gt e = ⟨f.replacing (if l.toNat > r.toNat then 1 else 0) rest, e, none⟩ ∧
      f.execute cfg .eq e = ⟨f.replacing (if l.toNat = r.toNat then 1 else 0) rest, e, none⟩) ∧
    (∀ (f : Frame) (x : Word) (rest : Stack) (e : Env σ), f.stack = x :: rest →
      f.execute cfg .isZero e = Frame.execute cfg { f with stack := x :: 0 :: rest } .eq e) ∧
    ∀ (message : Message) (e : Env σ) (m : Machine σ) (byte : UInt8) (x : Word) (rest : Stack),
      Machine.Reaches cfg (.start cfg message e) m → m.frame.ready? = some byte →
      (∀ test r, (Instruction.decode byte).test? = some test → m.frame.stack = x :: r :: rest →
        m.step cfg = .running
          { m with frame := m.frame.replacing (if test x.toNat r.toNat then 1 else 0) rest }) ∧
      (.decode byte = Instruction.isZero → m.frame.stack = x :: rest →
        m.step cfg = .running
          { m with frame := m.frame.replacing (if x.toNat = 0 then 1 else 0) rest }) := by
  refine ⟨fun a b => ⟨Word.compare_eq a b, Word.compare_limbs a b, Key.compare_ofWord a b,
    Word.lt_iff a b, Word.toNat_inj.symm⟩, fun f l r rest e hs room => ⟨?_, ?_, ?_⟩,
    fun f x rest e hs => Frame.execute_isZero hs e,
    fun message e m byte x rest h ready => ⟨fun test r htest hs => ?_, fun hzero hs => ?_⟩⟩
  · simpa only [decide_eq_true_iff] using Frame.execute_of_test? (i := .lt) rfl hs room e
  · simpa only [decide_eq_true_iff] using Frame.execute_of_test? (i := .gt) rfl hs room e
  · simpa only [decide_eq_true_iff] using Frame.execute_of_test? (i := .eq) rfl hs room e
  · have room := h.room (hs ▸ List.suffix_cons x (r :: rest))
    exact Machine.step_of_execute ready (Frame.execute_of_test? htest hs room m.env)
  · have hsuffix : x :: rest <:+ m.frame.stack := hs.symm ▸ List.suffix_refl m.frame.stack
    have room := h.room hsuffix
    exact Machine.step_of_execute ready (hzero ▸ Frame.execute_isZero_of_cons hs room m.env)

/-- The higher limb decides, although the lower one is the greatest there is; and two numbers that
were pushed are compared. -/
theorem Message.compares_numbers_of_high_limb :
    let e : Env Ledger := .new ∅
    let message := Message.new default default (.ofList [0x60, 0x01, 0x5f, 0x10])
    let f : Frame := { Frame.new message 0 with stack := [⟨0, 0, 0, -1⟩, ⟨0, 0, 1, 0⟩] }
    f.execute .standard .lt e = ⟨f.replacing 1 [], e, none⟩ ∧
    ∃ m, Machine.Reaches .standard (.start .standard message e) m ∧ m.frame.stack = [0, 1] ∧
      m.step .standard = .running { m with frame := m.frame.replacing 1 [] } := by
  intro e message f
  obtain ⟨-, htwo, -, hruns⟩ := compares_numbers (σ := Ledger) .standard
  refine ⟨?_, ?_⟩
  · obtain ⟨hlt, -⟩ := htwo f _ _ [] e rfl (by decide)
    rwa [if_pos (by decide)] at hlt
  · have hreaches : ((Machine.start .standard message e).advance .standard 2).machine?.any
        (fun m => m.frame.ready? = some 0x10 ∧ m.frame.stack = [0, 1]) = true := by
      decide +kernel
    obtain ⟨m, hr, hm⟩ := Machine.exists_reaches_of_advance hreaches
    obtain ⟨ready, hs⟩ := of_decide_eq_true hm
    have hstep := (hruns message e m 0x10 0 [] hr ready).1 _ 1 rfl hs
    rw [if_pos (by decide)] at hstep
    exact ⟨m, hr, hs, hstep⟩

end ContractVM
