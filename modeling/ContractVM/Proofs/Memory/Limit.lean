import Mathlib.Order.Bounds.Basic
import ContractVM.Frame.Action
import ContractVM.Proofs.Memory.Extend

/-!
# Which ranges of memory fit

Three things may come of a range that memory is asked to make fit.  It fits, and memory has grown
with zeros; or it is refused, because it ends beyond the limit; or it is within the limit, but there
is no room for so much memory.  `Memory.extend_exact` says in numbers which of the three it is.

The third needs a limit above `Bytes.maxSize`.  Up to there the limit alone decides.
-/

namespace ContractVM

theorem Offset.isLeast_ceil32 (n : Nat) : IsLeast {k | 32 ∣ k ∧ n ≤ k} (ceil32 n) := by
  refine ⟨⟨dvd_ceil32 n, le_ceil32 n⟩, ?_⟩
  rintro k ⟨hdvd, hle⟩
  unfold ceil32
  omega

/-- Zeros at the end as a list. -/
theorem Bytes.list_zeroExtend (b : Bytes) (n : Nat) :
    (b.zeroExtend n).list = b.list ++ List.replicate (n - b.size) 0 := by
  rw [list, data_zeroExtend, Array.toList_append, Array.toList_replicate]
  rfl

namespace Memory

variable {m : Memory} {limit : Nat} {start size : Word}

/-- Within a limit that is an offset, only the limit matters. -/
theorem isAllowed_iff (bounded : limit < Offset.bound) (range : Range) :
    range.isAllowed limit = true ↔ range.wordEnd ≤ limit := by
  simp only [Range.isAllowed, decide_eq_true_eq]
  omega

/-- There is no room for the memory that one range asks for. -/
theorem outgrows_singleton (limit held : Nat) (range : Range) :
    outgrows limit held [range] = true ↔
      range.isAllowed limit = true ∧ held < range.wordEnd ∧ Bytes.maxSize < range.wordEnd := by
  simp only [outgrows, sizeFor_cons, sizeFor_nil, decide_eq_true_eq]
  by_cases hallowed : range.isAllowed limit = true
  · simp only [hallowed, ↓reduceIte, true_and]
    omega
  · simp only [hallowed, Bool.false_eq_true, ↓reduceIte, false_and, Nat.lt_irrefl]

/-- There is room for an empty range. -/
theorem extend?_zero (m : Memory) (limit : Nat) (start : Word) :
    m.extend? limit start 0 = some (.ok (⟨0, 0⟩, m)) := by
  have hroom : ¬ outgrows limit m.size [.ofWords start 0] = true := by
    rw [outgrows_singleton, wordEnd_ofWords_zero]
    omega
  rw [extend?, if_neg hroom]
  rfl

theorem extend?_eq_none_iff :
    m.extend? limit start size = none ↔ outgrows limit m.size [.ofWords start size] = true := by
  unfold extend?
  split <;> simp_all

/-- Where there is room, memory is extended as far as the limit allows. -/
theorem extend_of_extend? {r : Except Halt (Range × Memory)}
    (h : m.extend? limit start size = some r) : m.extend limit start size = r := by
  unfold extend? at h
  split at h
  · cases h
  · exact Option.some.inj h

end Memory

/-- A frame that is refused memory stays as it is. -/
theorem Action.eq_of_extend_error {start size : Word} {fault : Fault} {f g : Frame}
    (h : extend start size f = .error fault g) : fault = .halt .memoryLimit ∧ g = f := by
  unfold extend at h
  split at h
  · cases h
  · rename_i reason hrefused
    obtain rfl := Memory.extend_error hrefused
    cases h
    exact ⟨rfl, rfl⟩

/-- **The exact limit of memory.**  Take any memory, any limit of 64 bits, and any two words for the
start and the size of a range, and let `stop` be the least multiple of 32 that is not below its end.

There is no room for the range if the range is not empty, `stop` is within the limit, and memory
would have to become longer for it than any string of bytes.  With room, the range fits if and only
if it is empty, or `stop` is at most the limit; so it does under every limit for which there is
room.

An empty range becomes the empty range at zero, and memory stays as it is.  Any other range becomes
the range of the same two numbers, and behind the bytes that there were memory gains zeros, and only
as many as bring it to `stop`.  There is one reason to refuse a range, and a frame that is refused
one stays as it is. -/
theorem Memory.extend_exact (m : Memory) (limit : Nat) (start size : Word)
    (bounded : limit < Offset.bound) :
    ∃ stop, IsLeast {k | 32 ∣ k ∧ start.toNat + size.toNat ≤ k} stop ∧
      (m.extend? limit start size = none ↔
        size ≠ 0 ∧ stop ≤ limit ∧ m.size < stop ∧ Bytes.maxSize < stop) ∧
      ((∃ r, m.extend? limit start size = some (.ok r)) ↔
        size = 0 ∨ stop ≤ limit ∧ (stop ≤ m.size ∨ stop ≤ Bytes.maxSize)) ∧
      (limit ≤ Bytes.maxSize →
        ((∃ r, m.extend? limit start size = some (.ok r)) ↔ size = 0 ∨ stop ≤ limit)) ∧
      (size = 0 → m.extend? limit start size = some (.ok (⟨0, 0⟩, m))) ∧
      (∀ range m', size ≠ 0 → m.extend? limit start size = some (.ok (range, m')) →
        range = ⟨start.toNat, size.toNat⟩ ∧ m'.size = max m.size stop ∧
          Bytes.list m' = Bytes.list m ++ List.replicate (m'.size - m.size) 0) ∧
      (∀ reason, m.extend? limit start size = some (.error reason) → reason = .memoryLimit) ∧
      ∀ f fault g, Action.extend start size f = .error fault g →
        fault = .halt .memoryLimit ∧ g = f := by
  have hnone : m.extend? limit start size = none ↔ size ≠ 0 ∧
      Offset.ceil32 (start.toNat + size.toNat) ≤ limit ∧
      m.size < Offset.ceil32 (start.toNat + size.toNat) ∧
      Bytes.maxSize < Offset.ceil32 (start.toNat + size.toNat) := by
    by_cases hz : size = 0
    · subst hz
      simp [extend?_zero]
    · rw [extend?_eq_none_iff, outgrows_singleton, isAllowed_iff bounded, wordEnd_ofWords hz]
      exact ⟨fun h => ⟨hz, h⟩, And.right⟩
  have hok : (∃ r, m.extend? limit start size = some (.ok r)) ↔ size = 0 ∨
      Offset.ceil32 (start.toNat + size.toNat) ≤ limit ∧
      (Offset.ceil32 (start.toNat + size.toNat) ≤ m.size ∨
        Offset.ceil32 (start.toNat + size.toNat) ≤ Bytes.maxSize) := by
    by_cases hz : size = 0
    · subst hz
      simp [extend?_zero]
    · cases h : m.extend? limit start size with
      | none =>
        have hpast := hnone.1 h
        simp only [reduceCtorEq, exists_false, hz, false_or, false_iff]
        omega
      | some r =>
        have hroom := mt hnone.2 (by rw [h]; exact nofun)
        simp only [ne_eq, hz, not_false_eq_true, true_and] at hroom
        have hr := extend_of_extend? h
        rw [extend_eq] at hr
        simp only [isAllowed_iff bounded, wordEnd_ofWords hz] at hr
        simp only [Option.some.injEq, hz, false_or, ← hr]
        split
        · simp only [Except.ok.injEq, exists_eq', true_iff]
          omega
        · simp only [reduceCtorEq, exists_false, false_iff]
          omega
  refine ⟨Offset.ceil32 (start.toNat + size.toNat), Offset.isLeast_ceil32 _, hnone, hok,
    fun hlow => ?_, ?_, ?_, fun reason h => extend_error (extend_of_extend? h),
    fun f fault g => Action.eq_of_extend_error⟩
  · refine hok.trans (or_congr_right ?_)
    omega
  · rintro rfl
    exact extend?_zero m limit start
  · intro range m' hz h
    obtain ⟨rfl, rfl, -⟩ := eq_of_extend (extend_of_extend? h)
    rw [wordEnd_ofWords hz, Bytes.size_zeroExtend, Bytes.list_zeroExtend]
    refine ⟨if_neg hz, rfl, ?_⟩
    congr 2
    omega

/-- The last byte that an offset can name lies in a word that ends beyond all offsets, so that no
limit allows it, though its end is no more than the limit. -/
theorem Memory.extend_exact_of_last_byte :
    let limit := Offset.bound - 1
    let start : Word := .ofOffset (limit - 1)
    limit < Offset.bound ∧ start.toNat + (1 : Word).toNat = limit ∧
      ∀ m : Memory, m.extend? limit start 1 = some (.error .memoryLimit) := by
  intro limit start
  have bounded : limit < Offset.bound := by decide
  have hend : start.toNat + (1 : Word).toNat = limit := by decide
  refine ⟨bounded, hend, fun m => ?_⟩
  obtain ⟨stop, hleast, hnone, hok, -, -, -, herror, -⟩ := extend_exact m limit start 1 bounded
  have hpast : ¬ stop ≤ limit := by
    have hstop := hleast.1
    rw [hend] at hstop
    obtain ⟨⟨k, rfl⟩, hle⟩ := hstop
    have hbound : Offset.bound = 2 ^ 64 := rfl
    omega
  cases h : m.extend? limit start 1 with
  | none => exact absurd (hnone.1 h).2.1 hpast
  | some r =>
    cases r with
    | ok r =>
      rcases hok.1 ⟨r, h⟩ with hone | ⟨hle, -⟩
      · cases hone
      · exact absurd hle hpast
    | error reason => rw [herror reason h]

/-- A byte in the middle of all offsets lies in a word that the highest limit allows, and there is
no room for it. -/
theorem Memory.no_room_within_limit :
    let limit := Offset.bound - 1
    let start : Word := .ofOffset (Offset.bound / 2)
    let stop := Offset.bound / 2 + 32
    IsLeast {k | 32 ∣ k ∧ start.toNat + (1 : Word).toNat ≤ k} stop ∧ stop ≤ limit ∧
      Memory.extend? .empty limit start 1 = none ∧
      ¬ ((∃ r, Memory.extend? .empty limit start 1 = some (.ok r)) ↔
        (1 : Word) = 0 ∨ stop ≤ limit) := by
  intro limit start stop
  have hend : start.toNat + (1 : Word).toNat = Offset.bound / 2 + 1 := by decide
  have hstop : stop ≤ limit := by decide
  have hnone : Memory.extend? .empty limit start 1 = none := by
    rw [extend?_eq_none_iff]
    decide
  refine ⟨?_, hstop, hnone, fun h => ?_⟩
  · rw [hend]
    exact Offset.isLeast_ceil32 (Offset.bound / 2 + 1)
  · obtain ⟨r, hr⟩ := h.2 (.inr hstop)
    rw [hnone] at hr
    cases hr

end ContractVM
