import ContractVM.Memory

/-!
# Memory that fits

What `Memory.extend` gives when it succeeds: a range that lies inside of the new memory
(`Memory.end_le_of_extend`), of the size that was asked for (`Memory.size_of_extend`), in a memory
that is not smaller than before (`Memory.size_le_of_extend`).  It refuses for one reason only
(`Memory.extend_error`).

`Memory.eq_of_extend` says in numbers what that range and that memory are.

Whether a range fits is decided in steps that may each fail: both words are narrowed to offsets, the
offsets are added, the sum is rounded up to whole words, and what comes out is compared with the
limit.  The steps come to one test of numbers (`Memory.extend_eq`): it makes no difference which
step has refused a range, since each of them only refuses ranges that end beyond all offsets.
-/

namespace ContractVM

theorem Offset.add?_eq_some {a b n : Nat} (h : add? a b = some n) : n = a + b := by
  unfold add? at h
  split at h <;> cases h
  rfl

theorem Offset.lt_bound_of_add? {a b n : Nat} (h : add? a b = some n) : n < bound := by
  unfold add? at h
  split at h <;> cases h
  assumption

theorem Offset.le_of_ceil32? {n m : Nat} (h : ceil32? n = some m) : n ≤ m := by
  unfold ceil32? at h
  split at h
  · cases h
    exact Nat.le_refl _
  · have := add?_eq_some h
    omega

theorem Offset.eq_ceil32 {n m : Nat} (h : ceil32? n = some m) : m = ceil32 n := by
  unfold ceil32? at h
  unfold ceil32
  split at h
  · obtain rfl := Option.some.inj h
    omega
  · have := add?_eq_some h
    omega

theorem Offset.ceil32?_of_lt {n : Nat} (h : ceil32 n < bound) : ceil32? n = some (ceil32 n) := by
  unfold ceil32?
  split
  · rename_i hwords
    unfold ceil32
    exact congrArg some (by omega)
  · have hsum : n + (32 - n % 32) = ceil32 n := by
      unfold ceil32
      omega
    rw [add?, hsum, if_pos h]

theorem Offset.dvd_ceil32 (n : Nat) : 32 ∣ ceil32 n := Nat.dvd_mul_left 32 _

theorem Offset.le_ceil32 (n : Nat) : n ≤ ceil32 n := by
  unfold ceil32
  omega

/-- A word that is an offset is that number. -/
theorem Word.eq_toNat_of_toOffset? {w : Word} {n : Nat} (h : w.toOffset? = some n) :
    n = w.toNat := by
  unfold toOffset? at h
  split at h
  · rename_i hz
    obtain ⟨h3, h2, h1⟩ := hz
    obtain rfl := Option.some.inj h
    simp [toNat, h3, h2, h1]
  · cases h

/-- A word whose number is small enough is an offset. -/
theorem Word.toOffset?_of_lt {w : Word} (h : w.toNat < Offset.bound) :
    w.toOffset? = some w.toNat := by
  have hlimbs : w.limb3.toNat = 0 ∧ w.limb2.toNat = 0 ∧ w.limb1.toNat = 0 := by
    simp only [toNat, Offset.bound, UInt64.size] at h
    omega
  have hhigh : w.limb3 = 0 ∧ w.limb2 = 0 ∧ w.limb1 = 0 := by
    simpa only [← UInt64.toNat_inj, UInt64.toNat_zero] using hlimbs
  rw [toOffset?, if_pos hhigh, toNat, hlimbs.1, hlimbs.2.1, hlimbs.2.2]
  simp

/-- The offset of a word is its number. -/
theorem Word.toOffset?_ofOffset {n : Nat} (h : n < Offset.bound) :
    (ofOffset n).toOffset? = some n := by
  have hn : (UInt64.ofNat n).toNat = n := UInt64.toNat_ofNat_of_lt h
  change (if (0 : UInt64) = 0 ∧ (0 : UInt64) = 0 ∧ (0 : UInt64) = 0 then
    some (UInt64.ofNat n).toNat else none) = some n
  rw [if_pos ⟨rfl, rfl, rfl⟩, hn]

theorem Word.toOffset?_zero : (0 : Word).toOffset? = some 0 := by decide

namespace Memory

variable {m m' : Memory} {limit : Nat} {start size : Word} {range : Range}

theorem needed?_eq_some {stop : Nat} (h : needed? start size = some (range, stop)) :
    size.toOffset? = some range.size ∧ range.start + range.size ≤ stop := by
  simp only [needed?, Option.pure_def, Option.bind_eq_bind, Option.bind_eq_some_iff,
    Option.some.injEq, Prod.mk.injEq] at h
  obtain ⟨first, -, length, hl, last, ha, stop', hc, rfl, rfl⟩ := h
  refine ⟨hl, ?_⟩
  rw [← Offset.add?_eq_some ha]
  exact Offset.le_of_ceil32? hc

theorem extend_error {reason : Halt} (h : m.extend limit start size = .error reason) :
    reason = .memoryLimit := by
  unfold extend at h
  split at h
  · cases h
  · split at h
    · split at h <;> cases h
      rfl
    · cases h
      rfl

/-- A success is either that of an empty range, or that of a needed one. -/
theorem extend_ok (h : m.extend limit start size = .ok (range, m')) :
    (size = 0 ∧ range = ⟨0, 0⟩ ∧ m' = m) ∨
      ∃ stop, needed? start size = some (range, stop) ∧ m' = Bytes.zeroExtend m stop := by
  unfold extend at h
  split at h
  · rename_i hz
    cases h
    exact .inl ⟨Word.isZero_iff.1 hz, rfl, rfl⟩
  · split at h
    · rename_i hn
      split at h <;> cases h
      exact .inr ⟨_, hn, rfl⟩
    · cases h

theorem end_le_of_extend (h : m.extend limit start size = .ok (range, m')) :
    range.start + range.size ≤ m'.size := by
  obtain ⟨-, rfl, rfl⟩ | ⟨stop, hn, rfl⟩ := extend_ok h
  · exact Nat.zero_le _
  · have := (needed?_eq_some hn).2
    rw [Bytes.size_zeroExtend]
    omega

theorem size_le_of_extend (h : m.extend limit start size = .ok (range, m')) :
    m.size ≤ m'.size := by
  obtain ⟨-, -, rfl⟩ | ⟨stop, -, rfl⟩ := extend_ok h
  · exact Nat.le_refl _
  · rw [Bytes.size_zeroExtend]
    exact Nat.le_max_left _ _

theorem size_of_extend (h : m.extend limit start size = .ok (range, m')) :
    size.toOffset? = some range.size := by
  obtain ⟨rfl, rfl, -⟩ | ⟨stop, hn, -⟩ := extend_ok h
  · exact Word.toOffset?_zero
  · exact (needed?_eq_some hn).1

theorem needed?_eq_ofWords {stop : Nat} (hz : size ≠ 0)
    (h : needed? start size = some (range, stop)) :
    range = .ofWords start size ∧ stop = range.wordEnd := by
  simp only [needed?, Option.pure_def, Option.bind_eq_bind, Option.bind_eq_some_iff,
    Option.some.injEq, Prod.mk.injEq] at h
  obtain ⟨first, hf, length, hl, last, ha, stop', hc, rfl, rfl⟩ := h
  obtain rfl := Word.eq_toNat_of_toOffset? hf
  obtain rfl := Word.eq_toNat_of_toOffset? hl
  obtain rfl := Offset.add?_eq_some ha
  refine ⟨?_, Offset.eq_ceil32 hc⟩
  rw [Range.ofWords, if_neg hz]

/-! ### The test of numbers -/

/-- The size of the memory that a range of some bytes needs. -/
theorem wordEnd_ofWords (hz : size ≠ 0) :
    (Range.ofWords start size).wordEnd = Offset.ceil32 (start.toNat + size.toNat) := by
  rw [Range.ofWords, if_neg hz]
  rfl

theorem wordEnd_ofWords_zero : (Range.ofWords start 0).wordEnd = 0 := by
  rw [Range.ofWords, if_pos rfl]
  rfl

/-- An empty range is always allowed. -/
theorem isAllowed_ofWords_zero (limit : Nat) (start : Word) :
    (Range.ofWords start 0).isAllowed limit = true := by
  simp only [Range.isAllowed, wordEnd_ofWords_zero]
  simp [Offset.bound, UInt64.size]

theorem needed?_of_lt (h : Offset.ceil32 (start.toNat + size.toNat) < Offset.bound) :
    needed? start size =
      some (⟨start.toNat, size.toNat⟩, Offset.ceil32 (start.toNat + size.toNat)) := by
  have hsum : start.toNat + size.toNat < Offset.bound :=
    Nat.lt_of_le_of_lt (Offset.le_ceil32 _) h
  have hstart := Word.toOffset?_of_lt (w := start) (by omega)
  have hsize := Word.toOffset?_of_lt (w := size) (by omega)
  have hadd : Offset.add? start.toNat size.toNat = some (start.toNat + size.toNat) := by
    rw [Offset.add?, if_pos hsum]
  simp only [needed?, Option.pure_def, Option.bind_eq_bind, Option.bind_eq_some_iff]
  exact ⟨_, hstart, _, hsize, _, hadd, _, Offset.ceil32?_of_lt h, rfl⟩

/-- Memory that is needed has an offset for its size. -/
theorem lt_bound_of_needed? {stop : Nat} (h : needed? start size = some (range, stop)) :
    stop < Offset.bound := by
  simp only [needed?, Option.pure_def, Option.bind_eq_bind, Option.bind_eq_some_iff,
    Option.some.injEq, Prod.mk.injEq] at h
  obtain ⟨first, -, length, -, last, ha, stop', hc, -, rfl⟩ := h
  unfold Offset.ceil32? at hc
  split at hc
  · obtain rfl := Option.some.inj hc
    exact Offset.lt_bound_of_add? ha
  · exact Offset.lt_bound_of_add? hc

/-- **Memory is extended as far as numbers allow.**  A range fits if it ends at an offset within the
limit, in whole words. -/
theorem extend_eq (m : Memory) (limit : Nat) (start size : Word) :
    m.extend limit start size =
      if (Range.ofWords start size).isAllowed limit then
        .ok (.ofWords start size, m.zeroExtend (Range.ofWords start size).wordEnd)
      else .error .memoryLimit := by
  by_cases hz : size = 0
  · subst hz
    rw [if_pos (isAllowed_ofWords_zero limit start), wordEnd_ofWords_zero,
      Bytes.zeroExtend_of_le (Nat.zero_le _), Range.ofWords, if_pos rfl]
    rfl
  · have hsize : size.isZero ≠ true := fun h => hz (Word.isZero_iff.1 h)
    rw [extend, if_neg hsize]
    cases hn : needed? start size with
    | some needed =>
      obtain ⟨range, stop⟩ := needed
      obtain ⟨rfl, rfl⟩ := needed?_eq_ofWords hz hn
      have hoffset := lt_bound_of_needed? hn
      by_cases hlimit : (Range.ofWords start size).wordEnd ≤ limit
      · simp [Range.isAllowed, hlimit, hoffset]
      · simp [Range.isAllowed, hlimit]
    | none =>
      -- the end of the range is no offset, or it would be needed
      have hpast : ¬ (Range.ofWords start size).wordEnd < Offset.bound := by
        intro hlt
        rw [wordEnd_ofWords hz] at hlt
        rw [needed?_of_lt hlt] at hn
        cases hn
      simp [Range.isAllowed, hpast]

/-! ### What comes of it -/

/-- A range that fits is allowed. -/
theorem isAllowed_of_extend (h : m.extend limit start size = .ok (range, m')) :
    (Range.ofWords start size).isAllowed limit = true := by
  rw [extend_eq] at h
  split at h
  · assumption
  · cases h

/-- Memory that a range was made to fit has grown with zeros to the end of the last word of the
range, if it was not that long already, and keeps to its limit. -/
theorem eq_of_extend (h : m.extend limit start size = .ok (range, m')) :
    range = .ofWords start size ∧ m' = Bytes.zeroExtend m range.wordEnd ∧
      range.wordEnd ≤ limit := by
  have hallowed := isAllowed_of_extend h
  rw [extend_eq, if_pos hallowed] at h
  obtain ⟨rfl, rfl⟩ := Prod.mk.inj (Except.ok.inj h)
  exact ⟨rfl, rfl, (of_decide_eq_true hallowed).1⟩

/-! ### Ranges one after another -/

theorem sizeFor_nil (limit held : Nat) : sizeFor limit held [] = held := rfl

theorem sizeFor_cons (limit held : Nat) (range : Range) (ranges : List Range) :
    sizeFor limit held (range :: ranges) =
      if range.isAllowed limit then sizeFor limit (max held range.wordEnd) ranges else held := by
  unfold sizeFor
  rw [List.takeWhile_cons]
  split <;> rfl

/-- Memory never shrinks, and what it has grown it keeps to its limit. -/
theorem sizeFor_bounds (limit held : Nat) (ranges : List Range) :
    held ≤ sizeFor limit held ranges ∧ sizeFor limit held ranges ≤ max held limit := by
  induction ranges generalizing held with
  | nil => exact ⟨Nat.le_refl held, Nat.le_max_left held limit⟩
  | cons range ranges ih =>
    rw [sizeFor_cons]
    split
    · rename_i hallowed
      have hlimit := (of_decide_eq_true hallowed).1
      obtain ⟨hgrows, hkeeps⟩ := ih (max held range.wordEnd)
      omega
    · exact ⟨Nat.le_refl held, Nat.le_max_left held limit⟩

/-- A limit for which there is room is never outgrown. -/
theorem lt_limit_of_outgrows {held : Nat} {ranges : List Range}
    (h : outgrows limit held ranges = true) : Bytes.maxSize < limit := by
  obtain ⟨hgrows, hpast⟩ := of_decide_eq_true h
  have hkeeps := (sizeFor_bounds limit held ranges).2
  omega

end Memory

end ContractVM
