import Mathlib.Algebra.Group.Nat.Defs
import ContractVM.Word.Bytes

/-!
# Words as numbers

What the operations on words do to the numbers that the words stand for.  Sums and differences are
those of the numbers modulo `2 ^ 256` (`Word.toNat_add`, `Word.toNat_sub`), the order is that of
the numbers (`Word.compare_eq`), reading bytes gives the number that they denote
(`Word.toNat_ofBytes`), and reading the bytes of a word gives the word (`Word.ofBytes_toBytes`).
-/

namespace ContractVM

namespace Word

theorem toNat_lt (w : Word) : w.toNat < 2 ^ 256 := by
  have h3 := w.limb3.toNat_lt
  have h2 := w.limb2.toNat_lt
  have h1 := w.limb1.toNat_lt
  have h0 := w.limb0.toNat_lt
  simp only [toNat, UInt64.size]
  omega

/-! ### Arithmetic -/

/-- The limb and the carry together are the sum. -/
theorem addLimb_eq (a b : UInt64) (c : Bool) :
    (addLimb a b c).1.toNat + 2 ^ 64 * (addLimb a b c).2.toNat = a.toNat + b.toNat + c.toNat := by
  have ha := a.toNat_lt
  have hb := b.toNat_lt
  have hc : c.toUInt64.toNat = c.toNat := by cases c <;> rfl
  have hc1 : c.toNat ≤ 1 := by cases c <;> decide
  simp only [addLimb, UInt64.lt_iff_toNat_lt, UInt64.toNat_add, hc, ← Bool.decide_or]
  by_cases h : (a.toNat + b.toNat) % 2 ^ 64 < a.toNat ∨
      ((a.toNat + b.toNat) % 2 ^ 64 + c.toNat) % 2 ^ 64 < (a.toNat + b.toNat) % 2 ^ 64
  · rw [decide_eq_true h, Bool.toNat_true]
    omega
  · rw [decide_eq_false h, Bool.toNat_false]
    omega

/-- What is taken away and the limb together are what there was and the borrow. -/
theorem subLimb_eq (a b : UInt64) (c : Bool) :
    (subLimb a b c).1.toNat + b.toNat + c.toNat = a.toNat + 2 ^ 64 * (subLimb a b c).2.toNat := by
  have ha := a.toNat_lt
  have hb := b.toNat_lt
  have hc : c.toUInt64.toNat = c.toNat := by cases c <;> rfl
  have hc1 : c.toNat ≤ 1 := by cases c <;> decide
  simp only [subLimb, UInt64.lt_iff_toNat_lt, UInt64.toNat_sub, hc, ← Bool.decide_or]
  by_cases h : a.toNat < b.toNat ∨ (2 ^ 64 - b.toNat + a.toNat) % 2 ^ 64 < c.toNat
  · rw [decide_eq_true h, Bool.toNat_true]
    omega
  · rw [decide_eq_false h, Bool.toNat_false]
    omega

theorem toNat_add (a b : Word) : (a + b).toNat = (a.toNat + b.toNat) % 2 ^ 256 := by
  have h0 := addLimb_eq a.limb0 b.limb0 false
  have h1 := addLimb_eq a.limb1 b.limb1 (addLimb a.limb0 b.limb0 false).2
  have h2 := addLimb_eq a.limb2 b.limb2
    (addLimb a.limb1 b.limb1 (addLimb a.limb0 b.limb0 false).2).2
  have h3 := addLimb_eq a.limb3 b.limb3
    (addLimb a.limb2 b.limb2 (addLimb a.limb1 b.limb1 (addLimb a.limb0 b.limb0 false).2).2).2
  have bound := (Word.add a b).toNat_lt
  change (Word.add a b).toNat = _
  simp only [Word.add, toNat, UInt64.size] at bound ⊢
  rw [Bool.toNat_false] at h0
  omega

theorem toNat_sub (a b : Word) :
    (a - b).toNat = (2 ^ 256 + a.toNat - b.toNat) % 2 ^ 256 := by
  have h0 := subLimb_eq a.limb0 b.limb0 false
  have h1 := subLimb_eq a.limb1 b.limb1 (subLimb a.limb0 b.limb0 false).2
  have h2 := subLimb_eq a.limb2 b.limb2
    (subLimb a.limb1 b.limb1 (subLimb a.limb0 b.limb0 false).2).2
  have h3 := subLimb_eq a.limb3 b.limb3
    (subLimb a.limb2 b.limb2 (subLimb a.limb1 b.limb1 (subLimb a.limb0 b.limb0 false).2).2).2
  have bound := (Word.sub a b).toNat_lt
  have ha := a.toNat_lt
  have hb := b.toNat_lt
  change (Word.sub a b).toNat = _
  simp only [Word.sub, toNat, UInt64.size] at bound ha hb ⊢
  rw [Bool.toNat_false] at h0
  omega

/-! ### Order -/

/-- Numbers of two digits are compared by the first digit, then by the second. -/
theorem compare_then {a b x y k : Nat} (hx : x < k) (hy : y < k) :
    (compare a b).then (compare x y) = compare (a * k + x) (b * k + y) := by
  have step {a b : Nat} (h : a < b) : a * k + k ≤ b * k := by
    rw [← Nat.succ_mul]
    exact Nat.mul_le_mul_right k h
  rcases Nat.lt_trichotomy a b with h | h | h
  · have := step h
    rw [Nat.compare_eq_lt.2 h, Nat.compare_eq_lt.2 (show a * k + x < b * k + y by omega)]
    rfl
  · subst h
    rw [Nat.compare_eq_eq.2 rfl]
    change compare x y = _
    simp only [compare, compareOfLessAndEq, Nat.add_lt_add_iff_left, Nat.add_left_cancel_iff]
  · have := step h
    rw [Nat.compare_eq_gt.2 h, Nat.compare_eq_gt.2 (show b * k + y < a * k + x by omega)]
    rfl

theorem compare_limb (a b : UInt64) : compare a b = compare a.toNat b.toNat := by
  simp only [compare, compareOfLessAndEq, UInt64.lt_iff_toNat_lt, ← UInt64.toNat_inj]

/-- Words are ordered as their numbers are. -/
theorem compare_eq (a b : Word) : compare a b = compare a.toNat b.toNat := by
  change (compare a.limb3 b.limb3).then ((compare a.limb2 b.limb2).then
    ((compare a.limb1 b.limb1).then (compare a.limb0 b.limb0))) = _
  rw [← Ordering.then_assoc, ← Ordering.then_assoc, compare_limb, compare_limb, compare_limb,
    compare_limb, compare_then a.limb2.toNat_lt b.limb2.toNat_lt,
    compare_then a.limb1.toNat_lt b.limb1.toNat_lt, compare_then a.limb0.toNat_lt b.limb0.toNat_lt]
  rfl

theorem lt_iff (a b : Word) : a < b ↔ a.toNat < b.toNat := by
  rw [← Nat.compare_eq_lt, ← compare_eq]
  rfl

/-! ### Bytes -/

theorem toNat_pushByte (w : Word) (b : UInt8) :
    (w.pushByte b).toNat = (w.toNat * 256 + b.toNat) % 2 ^ 256 := by
  have h3 := w.limb3.toNat_lt
  have h2 := w.limb2.toNat_lt
  have h1 := w.limb1.toNat_lt
  have h0 := w.limb0.toNat_lt
  have hb := b.toNat_lt
  simp only [toNat, UInt64.size, pushByte, UInt64.toNat_add, UInt64.toNat_mul, UInt64.toNat_div,
    UInt8.toNat_toUInt64, UInt64.reduceToNat]
  omega

theorem toNat_foldl_pushByte (bytes : List UInt8) {w : Word} {n : Nat}
    (h : w.toNat = n % 2 ^ 256) :
    (bytes.foldl pushByte w).toNat =
      bytes.foldl (fun n b => n * 256 + b.toNat) n % 2 ^ 256 := by
  induction bytes generalizing w n with
  | nil => exact h
  | cons b bytes ih =>
    refine ih ?_
    rw [toNat_pushByte, h]
    dsimp only
    omega

/-- Reading bytes gives the number that they denote. -/
theorem toNat_ofBytes (bytes : List UInt8) :
    (ofBytes bytes).toNat = bigEndian bytes % 2 ^ 256 :=
  toNat_foldl_pushByte bytes rfl

end Word

theorem bigEndian_append (a b : List UInt8) :
    bigEndian (a ++ b) = bigEndian a * 256 ^ b.length + bigEndian b := by
  have h (b : List UInt8) (n : Nat) : b.foldl (fun n b => n * 256 + b.toNat) n =
      n * 256 ^ b.length + bigEndian b := by
    induction b generalizing n with
    | nil => simp [bigEndian]
    | cons x b ih =>
      simp only [bigEndian, List.foldl_cons, List.length_cons] at ih ⊢
      rw [ih, ih (0 * 256 + x.toNat), Nat.pow_succ, Nat.add_mul, Nat.mul_assoc,
        Nat.mul_comm 256, Nat.zero_mul, Nat.zero_add, Nat.add_assoc]
  rw [bigEndian, List.foldl_append, h]
  rfl

theorem bigEndian_cons (b : UInt8) (bytes : List UInt8) :
    bigEndian (b :: bytes) = b.toNat * 256 ^ bytes.length + bigEndian bytes := by
  have happend := bigEndian_append [b] bytes
  simpa [bigEndian] using happend

/-- So many bytes denote no more than so many numbers. -/
theorem bigEndian_lt (bytes : List UInt8) : bigEndian bytes < 256 ^ bytes.length := by
  induction bytes with
  | nil => decide
  | cons b bytes ih =>
    have hlt := Nat.mul_le_mul_right (256 ^ bytes.length) (Nat.le_of_lt_succ b.toNat_lt)
    rw [bigEndian_cons, List.length_cons, Nat.pow_succ]
    omega

theorem bigEndian_lt_of_length_le {bytes : List UInt8} {n : Nat} (h : bytes.length ≤ n) :
    bigEndian bytes < 256 ^ n :=
  Nat.lt_of_lt_of_le (bigEndian_lt bytes) (Nat.pow_le_pow_right (by decide) h)

namespace Word

/-- No more bytes than a word has are read without a loss. -/
theorem toNat_ofBytes_of_length_le {bytes : List UInt8} (h : bytes.length ≤ 32) :
    (ofBytes bytes).toNat = bigEndian bytes := by
  rw [toNat_ofBytes]
  exact Nat.mod_eq_of_lt (bigEndian_lt_of_length_le h)

/-- The bytes of a limb denote it. -/
theorem bigEndian_limbBytes (limb : UInt64) : bigEndian (limbBytes limb).toList = limb.toNat := by
  have h := limb.toNat_lt
  simp only [bigEndian, limbBytes, Vector.toList_mk, List.foldl_cons, List.foldl_nil,
    UInt64.toNat_toUInt8, UInt64.toNat_shiftRight, Nat.shiftRight_eq_div_pow, UInt64.reduceToNat,
    Nat.reduceMod, Nat.reducePow]
  omega

/-- The bytes of a word denote it. -/
theorem bigEndian_toBytes (w : Word) : bigEndian w.toBytes.toList = w.toNat := by
  have length (limb : UInt64) : (limbBytes limb).toList.length = 8 := (limbBytes limb).length_toList
  change bigEndian (((limbBytes w.limb3 ++ limbBytes w.limb2) ++ limbBytes w.limb1) ++
    limbBytes w.limb0).toList = _
  simp only [Vector.toList_append, bigEndian_append, bigEndian_limbBytes, length, toNat,
    Nat.reducePow]

/-- Reading the bytes of a word gives the word. -/
theorem ofBytes_toBytes (w : Word) : ofBytes w.toBytes.toList = w := by
  rw [← toNat_inj, toNat_ofBytes, bigEndian_toBytes, Nat.mod_eq_of_lt w.toNat_lt]

end Word

end ContractVM
