import ContractVM.Bytes

/-!
# Hexadecimal text

`Hex.text` shows bytes as a number: `0x`, then two lower-case digits for every byte from the first
non-zero one, and `0x0` when there is none.

`Hex.readInto` reads digits into the end of a buffer.  One leading `0x` or `0X` is skipped, an odd
number of digits counts as if a zero stood before them, and the bytes of the buffer before the
number stay as they are.  Too many digits are refused before any is looked at; a bad digit stops
the reading, and the bytes read before it stay written.  `Hex.read` reads into zeros.
-/

namespace ContractVM

/-- Why a text is no hexadecimal number of the wanted size. -/
inductive HexError
  | badDigit
  | tooLong
  deriving DecidableEq

namespace HexError

/-- What the error is called in reports. -/
def message : HexError → String
  | .badDigit => "bad hex digit"
  | .tooLong => "hex number too long"

end HexError

namespace Hex

/-! ### Writing -/

/-- The two digits of a byte. -/
def pair (b : UInt8) : List Char :=
  [Nat.digitChar (b.toNat / 16), Nat.digitChar (b.toNat % 16)]

/-- Two digits for every byte. -/
def digits (bytes : List UInt8) : List Char := bytes.flatMap pair

/-- Follows a text with two digits for every byte. -/
def append (s : String) (bytes : List UInt8) : String :=
  bytes.foldl (fun s b => (pair b).foldl String.push s) s

/-- Bytes as a number, without the leading zero bytes. -/
def text (bytes : List UInt8) : String :=
  match bytes.dropWhile (· == 0) with
  | [] => "0x0"
  | significant => append "0x" significant

theorem toList_append (s : String) (bytes : List UInt8) :
    (append s bytes).toList = s.toList ++ digits bytes := by
  induction bytes generalizing s with
  | nil => simp [append, digits]
  | cons b bytes ih =>
    have h := ih ((pair b).foldl String.push s)
    simp only [append, digits, List.foldl_cons, List.flatMap_cons] at h ⊢
    rw [h]
    simp [pair]

/-- The room that `text` may take for `n` bytes: two characters for each, and two more. -/
def room (n : Nat) : Nat := 2 * n + 2

/-- `text` for a buffer of exactly the right size. -/
def textWithin? (size : Nat) (bytes : List UInt8) : Option String :=
  if size = room bytes.length then some (text bytes) else none

/-! ### Reading -/

/-- The value of a digit, given as the code of its character. -/
def digit? (c : UInt8) : Option UInt8 :=
  if 0x30 ≤ c ∧ c ≤ 0x39 then some (c - 0x30)
  else if 0x41 ≤ c ∧ c ≤ 0x46 then some (c - 0x37)
  else if 0x61 ≤ c ∧ c ≤ 0x66 then some (c - 0x57)
  else none

/-- The byte of two digits. -/
def byte? (high low : UInt8) : Option UInt8 := do
  return (← digit? high) * 16 + (← digit? low)

/-- The characters without one leading `0x` or `0X`. -/
def stripMarker : List UInt8 → List UInt8
  | 0x30 :: 0x78 :: rest => rest
  | 0x30 :: 0x58 :: rest => rest
  | chars => chars

/-- The characters with a zero before them if their number is odd. -/
def evenly (chars : List UInt8) : List UInt8 :=
  if chars.length % 2 = 0 then chars else 0x30 :: chars

/-- Replaces bytes from the front, one for every two digits, as far as the digits are good. -/
def writePairs : List UInt8 → List UInt8 → List UInt8 × Except HexError Unit
  | high :: low :: chars, b :: buffer =>
    match byte? high low with
    | some c => let (rest, result) := writePairs chars buffer; (c :: rest, result)
    | none => (b :: buffer, .error .badDigit)
  | _, buffer => (buffer, .ok ())

/-- Reads digits into the end of a buffer: the buffer afterwards, and the result. -/
def readInto (buffer : List UInt8) (s : String) : List UInt8 × Except HexError Unit :=
  let chars := evenly (stripMarker (Bytes.list s.toUTF8))
  let count := chars.length / 2
  if buffer.length < count then (buffer, .error .tooLong)
  else
    let (tail, result) := writePairs chars (buffer.drop (buffer.length - count))
    (buffer.take (buffer.length - count) ++ tail, result)

theorem length_writePairs (chars buffer : List UInt8) :
    (writePairs chars buffer).1.length = buffer.length := by
  fun_induction writePairs chars buffer <;> simp_all

/-- Reading keeps the size of the buffer. -/
theorem length_readInto (buffer : List UInt8) (s : String) :
    (readInto buffer s).1.length = buffer.length := by
  simp only [readInto]
  split
  · rfl
  · simp [length_writePairs]

/-- The number that a text denotes, as `n` bytes. -/
def read (n : Nat) (s : String) : Except HexError (Vector UInt8 n) :=
  let zeros := List.replicate n 0
  match (readInto zeros s).2 with
  | .ok () => .ok ⟨(readInto zeros s).1.toArray, by simp [zeros, length_readInto]⟩
  | .error e => .error e

end Hex

end ContractVM
