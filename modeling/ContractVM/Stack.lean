import ContractVM.Halt

/-!
# The operand stack

Operands are words on a stack, a list with its top first.  A push is refused when there are
exactly `Stack.limit` words, and taking or looking at a word that is not there is an underflow.
`Stack.peek` and `Stack.swap` look at a place only with a proof that there is a word.
-/

namespace ContractVM

/-- Words, the top first. -/
abbrev Stack := List Word

namespace Stack

/-- How many words a stack may hold. -/
def limit : Nat := 1024

/-- Puts a word on top. -/
def push (s : Stack) (w : Word) : Except Halt Stack :=
  if s.length = limit then .error .stackOverflow else .ok (w :: s)

/-- The top and what is below it. -/
def pop : Stack → Except Halt (Word × Stack)
  | [] => .error .stackUnderflow
  | w :: s => .ok (w, s)

/-- The word `n` places below the top. -/
def peek (s : Stack) (n : Nat) : Except Halt Word :=
  if h : n < s.length then .ok (s.get ⟨n, h⟩) else .error .stackUnderflow

/-- Exchanges the top with the word `n` places below it. -/
def swap (s : Stack) (n : Nat) : Except Halt Stack :=
  if h : n < s.length then
    let top := s.get ⟨0, Nat.zero_lt_of_lt h⟩
    let other := s.get ⟨n, h⟩
    .ok ((s.set 0 other).set n top)
  else .error .stackUnderflow

end Stack

end ContractVM
