import Mathlib.Algebra.Group.Int.Defs
import ContractVM.Proofs.Frame.Queries
import ContractVM.Proofs.Machine.Budget
import ContractVM.Word.Lemmas

/-!
# Sums and differences

A word is the number that its limbs are the digits of, and limbs are added and subtracted with a
carry or a borrow, the last of which is dropped.  What comes out is the sum or the difference modulo
`2 ^ 256` (`Word.toNat_add`, `Word.toNat_sub_emod`).

* `Frame.pushing` : a frame past an instruction that has put a word on top.
* `Frame.replacing` : a frame past an instruction that has put a word in the place of its two top
  operands.
* `Machine.step_binary` : there is always room for that word in a run, since no stack of a run is
  higher than a stack may be.

Main statement: `Message.adds_and_subtracts`.
-/

namespace ContractVM

namespace Word

/-- The limbs are the digits, the most significant first. -/
theorem toNat_eq_foldl_limbs (w : Word) :
    w.toNat = w.limbs.toList.foldl (fun n limb => n * 2 ^ 64 + limb.toNat) 0 := by
  simp [toNat, limbs, UInt64.size]

/-- The difference as it is for whole numbers, where it may be negative. -/
theorem toNat_sub_emod (a b : Word) :
    ((a - b).toNat : Int) = ((a.toNat : Int) - b.toNat) % 2 ^ 256 := by
  have ha := a.toNat_lt
  have hb := b.toNat_lt
  rw [toNat_sub]
  by_cases h : b.toNat ≤ a.toNat <;> omega

/-- A carry that ripples through two limbs, and a borrow that ripples through all of them. -/
example : (⟨0, 0, -1, -1⟩ : Word) + 1 = ⟨0, 1, 0, 0⟩ ∧ (0 : Word) - 1 = ⟨-1, -1, -1, -1⟩ := by
  decide

end Word

/-! ### A word on top -/

/-- The frame past an instruction of so many bytes that has put a word on top. -/
def Frame.pushing (f : Frame) (w : Word) (size : Nat) : Frame :=
  { f with stack := w :: f.stack, pc := f.pc + size }

theorem Action.push_next_of_room {f : Frame} (w : Word) (size : Nat)
    (room : f.stack.length ≠ Stack.limit) :
    (push w >>= fun _ => next size) f = .ok none (f.pushing w size) := by
  have hpush : push w f = .ok () { f with stack := w :: f.stack } := by
    simp [push, Stack.push, room]
  rw [bind_ok hpush]
  rfl

/-! ### Two operands -/

/-- The frame past an instruction that has put a word in the place of the two top operands. -/
def Frame.replacing (f : Frame) (w : Word) (rest : Stack) : Frame :=
  { f with stack := w :: rest, pc := f.pc + 1 }

section Binary

variable {f : Frame} {x y : Word} {rest : Stack} (op : Word → Word → Word)

theorem Action.binary_of_cons (hs : f.stack = x :: y :: rest) (room : rest.length ≠ Stack.limit) :
    binary op f = .ok none (f.replacing (op x y) rest) := by
  have hy : pop { f with stack := y :: rest } = .ok y { f with stack := rest } := pop_of_cons rfl
  rw [binary, bind_ok (pop_of_cons hs), bind_ok hy]
  exact push_next_of_room _ 1 room

variable {σ : Type} [Backend σ] {cfg : Config} {i : Instruction}

theorem Frame.execute_binary (hi : Action.exec cfg i = Action.binary op)
    (hs : f.stack = x :: y :: rest) (room : rest.length ≠ Stack.limit) (e : Env σ) :
    f.execute cfg i e = ⟨f.replacing (op x y) rest, e, none⟩ := by
  rw [execute, hi, Action.binary_of_cons op hs room]

/-- In a run there is room for the word that takes the place of two others. -/
theorem Machine.step_binary {message : Message} {e : Env σ} {m : Machine σ} {byte : UInt8}
    (h : Reaches cfg (start cfg message e) m) (hready : m.frame.ready? = some byte)
    (hi : Action.exec cfg (.decode byte) = Action.binary op)
    (hs : m.frame.stack = x :: y :: rest) :
    m.step cfg = .running { m with frame := m.frame.replacing (op x y) rest } := by
  have room := h.room (hs ▸ List.suffix_cons x (y :: rest))
  exact step_of_execute hready (Frame.execute_binary op hi hs room m.env)

end Binary

/-- **Arithmetic modulo `2 ^ 256`.**  The number of a word is the one that its limbs denote, the
most significant first.  The sum of any two words denotes the sum of their numbers modulo `2 ^ 256`,
and the difference the difference.

Two instructions replace the two top operands of a frame by their sum and their difference, and
nothing else changes but the position in the code.  That goes for any frame unless it would be too
high still without the two; no run comes to such a frame, and so its machines add and subtract
whenever that is the next instruction and there are two operands. -/
theorem Message.adds_and_subtracts {σ : Type} [Backend σ] (cfg : Config) :
    (∀ a : Word, a.toNat = a.limbs.toList.foldl (fun n limb => n * 2 ^ 64 + limb.toNat) 0) ∧
    (∀ a b : Word, (a + b).toNat = (a.toNat + b.toNat) % 2 ^ 256 ∧
      ((a - b).toNat : Int) = ((a.toNat : Int) - b.toNat) % 2 ^ 256) ∧
    (∀ (f : Frame) (x y : Word) (rest : Stack) (e : Env σ), f.stack = x :: y :: rest →
      rest.length ≠ Stack.limit →
      f.execute cfg .add e = ⟨f.replacing (x + y) rest, e, none⟩ ∧
      f.execute cfg .sub e = ⟨f.replacing (x - y) rest, e, none⟩) ∧
    ∀ (message : Message) (e : Env σ) (m : Machine σ) (x y : Word) (rest : Stack),
      Machine.Reaches cfg (.start cfg message e) m → m.frame.stack = x :: y :: rest →
      (m.frame.ready? = some 0x01 →
        m.step cfg = .running { m with frame := m.frame.replacing (x + y) rest }) ∧
      (m.frame.ready? = some 0x03 →
        m.step cfg = .running { m with frame := m.frame.replacing (x - y) rest }) := by
  refine ⟨Word.toNat_eq_foldl_limbs, fun a b => ⟨Word.toNat_add a b, Word.toNat_sub_emod a b⟩,
    fun f x y rest e hs room => ⟨?_, ?_⟩, fun message e m x y rest h hs => ⟨?_, ?_⟩⟩
  · exact Frame.execute_binary (· + ·) rfl hs room e
  · exact Frame.execute_binary (· - ·) rfl hs room e
  · intro hready
    exact Machine.step_binary (· + ·) h hready rfl hs
  · intro hready
    exact Machine.step_binary (· - ·) h hready rfl hs

end ContractVM
