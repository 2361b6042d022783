/-!
# Ranges of code points

A property of characters is kept as `Ranges`, the closed ranges of the code points that have it,
ascending and apart.  `Ranges.covers` looks a code point up and stops at the first range that lies
beyond it.  Nothing is missed by stopping there, since the ranges ascend (`Ranges.covers_iff`).
-/

namespace ContractVM

namespace Text

/-- Closed ranges of code points, each with its first and its last one. -/
abbrev Ranges := List (Nat × Nat)

namespace Ranges

/-- Whether no range is empty, and each lies beyond the one before and does not touch it. -/
def isAscending : Ranges → Bool
  | [] => true
  | [(first, last)] => first ≤ last
  | (first, last) :: (first', last') :: rest =>
    first ≤ last && last + 1 < first' && isAscending ((first', last') :: rest)

/-- Whether a code point lies in one of the ranges, which ascend. -/
def covers : Ranges → Nat → Bool
  | [], _ => false
  | (first, last) :: rest, n => first ≤ n && (n ≤ last || covers rest n)

theorem isAscending_tail {p : Nat × Nat} {r : Ranges} (h : isAscending (p :: r)) :
    isAscending r := by
  cases r with
  | nil => rfl
  | cons q r =>
    simp only [isAscending, Bool.and_eq_true] at h
    exact h.2

/-- All ranges begin where the first one does, or later. -/
theorem le_of_mem {p q : Nat × Nat} {r : Ranges} (h : isAscending (p :: r)) (m : q ∈ p :: r) :
    p.1 ≤ q.1 := by
  induction r generalizing p with
  | nil =>
    obtain rfl := List.mem_singleton.1 m
    exact Nat.le_refl _
  | cons p' r ih =>
    rcases List.mem_cons.1 m with rfl | m
    · exact Nat.le_refl _
    · have later := ih (isAscending_tail h) m
      simp only [isAscending, Bool.and_eq_true, decide_eq_true_eq] at h
      omega

/-- A code point is covered if one of the ranges holds it. -/
theorem covers_iff {r : Ranges} (h : r.isAscending) (n : Nat) :
    r.covers n ↔ ∃ p ∈ r, p.1 ≤ n ∧ n ≤ p.2 := by
  induction r with
  | nil => simp [covers]
  | cons p r ih =>
    simp only [covers, Bool.and_eq_true, Bool.or_eq_true, decide_eq_true_eq,
      ih (isAscending_tail h), List.mem_cons, exists_eq_or_imp]
    constructor
    · rintro ⟨first, last | later⟩
      · exact .inl ⟨first, last⟩
      · exact .inr later
    · rintro (⟨first, last⟩ | ⟨q, m, here⟩)
      · exact ⟨first, .inl last⟩
      · exact ⟨Nat.le_trans (le_of_mem h (List.mem_cons_of_mem p m)) here.1, .inr ⟨q, m, here⟩⟩

end Ranges

end Text

end ContractVM
