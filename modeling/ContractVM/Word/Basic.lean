/-!
# Machine words

A `Word` is a number below `2 ^ 256`, held as four 64-bit limbs; `Word.toNat` is the number it
stands for.  Addition and subtraction ripple a carry or a borrow through the limbs and drop the
last one, so both wrap modulo `2 ^ 256`.  Words are compared limb by limb, the most significant
limb first, and that is the order of the numbers.

`Word.toOffset?` narrows a word to an offset, a number of 64 bits.
-/

namespace ContractVM

/-- A 256-bit word.  `limb3` is the most significant limb. -/
structure Word where
  limb3 : UInt64
  limb2 : UInt64
  limb1 : UInt64
  limb0 : UInt64
  deriving DecidableEq

namespace Word

/-- The word of a 64-bit number. -/
def ofUInt64 (n : UInt64) : Word := ⟨0, 0, 0, n⟩

instance : OfNat Word 0 := ⟨ofUInt64 0⟩

instance : OfNat Word 1 := ⟨ofUInt64 1⟩

instance : Inhabited Word := ⟨0⟩

/-- The number a word stands for. -/
def toNat (w : Word) : Nat :=
  ((w.limb3.toNat * UInt64.size + w.limb2.toNat) * UInt64.size + w.limb1.toNat) * UInt64.size +
    w.limb0.toNat

/-- Truth as a word: one or zero. -/
def ofBool (b : Bool) : Word := if b then 1 else 0

/-- Whether every bit is zero. -/
def isZero (w : Word) : Bool := (w.limb3 ||| w.limb2 ||| w.limb1 ||| w.limb0) == 0

/-! ### Arithmetic -/

/-- Adds two limbs and a carry; the second part is the carry out. -/
def addLimb (a b : UInt64) (carry : Bool) : UInt64 × Bool :=
  let sum := a + b
  let total := sum + carry.toUInt64
  (total, sum < a || total < sum)

/-- Subtracts a limb and a borrow from a limb; the second part is the borrow out. -/
def subLimb (a b : UInt64) (borrow : Bool) : UInt64 × Bool :=
  let difference := a - b
  (difference - borrow.toUInt64, a < b || difference < borrow.toUInt64)

/-- The sum modulo `2 ^ 256`. -/
protected def add (a b : Word) : Word :=
  let (limb0, c0) := addLimb a.limb0 b.limb0 false
  let (limb1, c1) := addLimb a.limb1 b.limb1 c0
  let (limb2, c2) := addLimb a.limb2 b.limb2 c1
  let (limb3, _) := addLimb a.limb3 b.limb3 c2
  ⟨limb3, limb2, limb1, limb0⟩

/-- The difference modulo `2 ^ 256`. -/
protected def sub (a b : Word) : Word :=
  let (limb0, b0) := subLimb a.limb0 b.limb0 false
  let (limb1, b1) := subLimb a.limb1 b.limb1 b0
  let (limb2, b2) := subLimb a.limb2 b.limb2 b1
  let (limb3, _) := subLimb a.limb3 b.limb3 b2
  ⟨limb3, limb2, limb1, limb0⟩

instance : Add Word := ⟨Word.add⟩

instance : Sub Word := ⟨Word.sub⟩

/-! ### Order -/

/-- Limbs are compared from the most significant one down. -/
instance : Ord Word where
  compare a b :=
    (compare a.limb3 b.limb3).then <| (compare a.limb2 b.limb2).then <|
      (compare a.limb1 b.limb1).then (compare a.limb0 b.limb0)

instance : LT Word := ltOfOrd

instance (a b : Word) : Decidable (a < b) :=
  inferInstanceAs (Decidable (compare a b = .lt))

/-! ### The number of a word -/

/-- Words with one number are one word. -/
theorem toNat_inj {a b : Word} : a.toNat = b.toNat ↔ a = b := by
  refine ⟨fun h => ?_, fun h => h ▸ rfl⟩
  obtain ⟨a3, a2, a1, a0⟩ := a
  obtain ⟨b3, b2, b1, b0⟩ := b
  have ha2 := a2.toNat_lt
  have ha1 := a1.toNat_lt
  have ha0 := a0.toNat_lt
  have hb2 := b2.toNat_lt
  have hb1 := b1.toNat_lt
  have hb0 := b0.toNat_lt
  simp only [toNat, UInt64.size] at h
  simp only [mk.injEq, ← UInt64.toNat_inj]
  omega

/-! ### Narrowing and limbs -/

/-- The number of a word, if it is an offset. -/
def toOffset? (w : Word) : Option Nat :=
  if w.limb3 = 0 ∧ w.limb2 = 0 ∧ w.limb1 = 0 then some w.limb0.toNat else none

/-- The word of an offset. -/
def ofOffset (n : Nat) : Word := ofUInt64 (UInt64.ofNat n)

/-- The word of an array of limbs, the most significant first. -/
def ofLimbs (limbs : Vector UInt64 4) : Word := ⟨limbs[0], limbs[1], limbs[2], limbs[3]⟩

/-- The limbs, the most significant first. -/
def limbs (w : Word) : Vector UInt64 4 := #v[w.limb3, w.limb2, w.limb1, w.limb0]

theorem isZero_iff {w : Word} : w.isZero = true ↔ w = 0 := by
  obtain ⟨w3, w2, w1, w0⟩ := w
  change ((w3 ||| w2 ||| w1 ||| w0) == 0) = true ↔ (⟨w3, w2, w1, w0⟩ : Word) = ⟨0, 0, 0, 0⟩
  simp [and_assoc]

end Word

end ContractVM
