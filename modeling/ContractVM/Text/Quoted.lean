import ContractVM.Text.Extending
import ContractVM.Text.Ignorable
import ContractVM.Text.Unprintable

/-!
# Texts in quotes

`Text.quoted` is a text between double quotes in which nothing stays hidden.  A quote and a
backslash have a backslash before them, some controls have a letter, and a character that does not
print, that may be ignored, or that shows on the one before it, is given by its code point, as in
`\u{301}`.  All other characters stand for themselves (`Text.escape_eq_toString_iff`).
-/

namespace ContractVM

namespace Text

/-- What follows the backslash of a character with a short escape. -/
def letter? : Char → Option Char
  | '"' => some '"'
  | '\\' => some '\\'
  | '\n' => some 'n'
  | '\r' => some 'r'
  | '\t' => some 't'
  | '\x00' => some '0'
  | _ => none

/-- Whether a character prints as itself wherever it stands. -/
def isPlain (c : Char) : Bool :=
  !unprintable.covers c.toNat && !ignorable.covers c.toNat && !extending.covers c.toNat

/-- A character by its code point, in as few hexadecimal digits as it takes. -/
def codePoint (c : Char) : String :=
  "\\u\x7b" ++ String.ofList (Nat.toDigits 16 c.toNat) ++ "\x7d"

/-- A character as it stands inside quotes. -/
def escape (c : Char) : String :=
  match letter? c with
  | some letter => String.ofList ['\\', letter]
  | none => if isPlain c then c.toString else codePoint c

/-- A character is plain if it lies in no range of the three properties. -/
theorem isPlain_iff (c : Char) : isPlain c = true ↔
    ∀ ranges ∈ [unprintable, ignorable, extending], ∀ p ∈ ranges,
      ¬ (p.1 ≤ c.toNat ∧ c.toNat ≤ p.2) := by
  have hcovers {ranges : Ranges} (h : ranges.isAscending) : ranges.covers c.toNat = false ↔
      ∀ p ∈ ranges, ¬ (p.1 ≤ c.toNat ∧ c.toNat ≤ p.2) := by
    rw [Bool.eq_false_iff, ne_eq, Ranges.covers_iff h]
    exact ⟨fun hnone p hp hin => hnone ⟨p, hp, hin⟩, fun hnone ⟨p, hp, hin⟩ => hnone p hp hin⟩
  simp only [isPlain, Bool.and_eq_true, Bool.not_eq_true', hcovers isAscending_unprintable,
    hcovers isAscending_ignorable, hcovers isAscending_extending, List.forall_mem_cons,
    List.not_mem_nil, false_imp_iff, implies_true, and_true, and_assoc]

/-- A character stands for itself inside quotes if and only if it has no short escape and lies in no
range of the three properties. -/
theorem escape_eq_toString_iff (c : Char) : escape c = c.toString ↔ letter? c = none ∧
    ∀ ranges ∈ [unprintable, ignorable, extending], ∀ p ∈ ranges,
      ¬ (p.1 ≤ c.toNat ∧ c.toNat ≤ p.2) := by
  rw [← isPlain_iff]
  -- an escape has more than one character
  have hlonger {s : String} (h : 1 < s.length) : s ≠ c.toString := by
    rintro rfl
    exact absurd h (Nat.not_lt.2 (Nat.le_of_eq String.length_singleton))
  unfold escape
  cases hl : letter? c with
  | some letter =>
    have hne : String.ofList ['\\', letter] ≠ c.toString :=
      hlonger (String.length_ofList ▸ Nat.one_lt_two)
    simp only [hne, reduceCtorEq, false_and]
  | none =>
    by_cases hp : isPlain c = true
    · simp only [hp, ↓reduceIte, and_self]
    · have hne : codePoint c ≠ c.toString := by
        have hstart : 1 < "\\u\x7b".length := by decide
        refine hlonger ?_
        rw [codePoint, String.length_append, String.length_append]
        omega
      simp only [hp, hne, and_false, Bool.false_eq_true, ↓reduceIte]

/-- A text in quotes. -/
def quoted (s : String) : String :=
  "\"" ++ String.join (s.toList.map escape) ++ "\""

end Text

end ContractVM
