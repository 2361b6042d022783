import Mathlib.Data.Nat.Digits.Defs
import ContractVM.Cell
import ContractVM.Word.Lemmas

/-!
# Reading hexadecimal text

What `Hex.readInto` makes of a text and a buffer, in terms of the digits of the text.

* `Hex.Strips` : the digits of a text are what is behind its marker, if it begins with one.
* `Hex.number` : the number that digits denote in base 16.  A digit counts as much as its place in
  `Hex.alphabet`.
* `Hex.ReadsInto` : when digits are read into a buffer, and what the buffer is then, or what is
  wrong with them.
* `Hex.readAt?` : reading with a position in the buffer that moves on, where a lone first digit is a
  byte of its own.  It would come to nothing if a position lay outside or a number were no byte, and
  never does (`Hex.readAt?_eq`).

Main statement: `Hex.reading_exact`.
-/

namespace ContractVM

namespace Hex

/-! ### Digits -/

/-- The digits in order. -/
def alphabet : List Char :=
  ['0', '1', '2', '3', '4', '5', '6', '7', '8', '9', 'a', 'b', 'c', 'd', 'e', 'f']

/-- How much a digit counts, given as the code of its character.  Letters are digits in both
cases. -/
def place? (c : UInt8) : Option Nat := alphabet.idxOf? (Char.ofUInt8 c).toLower

def IsDigit (c : UInt8) : Prop := (place? c).isSome

instance : DecidablePred IsDigit := fun c => inferInstanceAs (Decidable ((place? c).isSome = true))

def value (c : UInt8) : Nat := (place? c).getD 0

/-- The number that digits denote in base 16, the most significant first. -/
def number (digits : List UInt8) : Nat := Nat.ofDigits 16 (digits.map value).reverse

/-- How many bytes it takes to hold digits. -/
def count (digits : List UInt8) : Nat := (digits.length + 1) / 2

/-- What is called a digit here is what is one for `digit?`, with the same value. -/
theorem digit?_eq (c : UInt8) : (digit? c).map UInt8.toNat = place? c := by
  have hall : ∀ n < 256, (digit? (.ofNat n)).map UInt8.toNat = place? (.ofNat n) := by
    decide +kernel
  simpa using hall c.toNat c.toNat_lt

theorem isDigit_iff {c : UInt8} : IsDigit c ↔ ∃ d, digit? c = some d := by
  rw [IsDigit, ← digit?_eq, Option.isSome_map, Option.isSome_iff_exists]

theorem value_eq {c d : UInt8} (h : digit? c = some d) : value c = d.toNat := by
  rw [value, ← digit?_eq, h]
  rfl

theorem digit?_lt {c d : UInt8} (h : digit? c = some d) : d.toNat < 16 := by
  have hall : ∀ n < 256, ∀ d ∈ digit? (.ofNat n), d.toNat < 16 := by decide +kernel
  have hc := hall c.toNat c.toNat_lt
  rw [UInt8.ofNat_toNat] at hc
  exact hc d h

/-- The byte of two digits is the number that they denote. -/
theorem byte?_eq_some {high low b : UInt8} (h : byte? high low = some b) :
    (IsDigit high ∧ IsDigit low) ∧ b.toNat = value high * 16 + value low := by
  simp only [byte?, Option.bind_eq_bind, Option.bind_eq_some_iff, Option.pure_def,
    Option.some.injEq] at h
  obtain ⟨x, hx, y, hy, rfl⟩ := h
  have hhigh := digit?_lt hx
  have hlow := digit?_lt hy
  refine ⟨⟨isDigit_iff.2 ⟨x, hx⟩, isDigit_iff.2 ⟨y, hy⟩⟩, ?_⟩
  rw [value_eq hx, value_eq hy]
  simp only [UInt8.toNat_add, UInt8.toNat_mul, UInt8.reduceToNat]
  omega

theorem byte?_eq_none {high low : UInt8} (h : byte? high low = none) :
    ¬ (IsDigit high ∧ IsDigit low) := by
  rw [isDigit_iff, isDigit_iff]
  rintro ⟨⟨x, hx⟩, ⟨y, hy⟩⟩
  simp [byte?, hx, hy] at h

/-! ### Numbers -/

/-- A zero in front makes no difference. -/
theorem number_zero_cons (t : List UInt8) : number (0x30 :: t) = number t := by
  have hzero : value 0x30 = 0 := by decide
  simp [number, hzero, Nat.ofDigits_append]

/-- The first two of an even number of digits. -/
theorem number_cons_cons {t : List UInt8} {k : Nat} (hk : t.length = 2 * k) (high low : UInt8) :
    number (high :: low :: t) = (value high * 16 + value low) * 256 ^ k + number t := by
  have hpow : 16 ^ t.length = 256 ^ k := by rw [hk, Nat.pow_mul]
  simp only [number, List.map_cons, List.reverse_cons, List.append_assoc, List.singleton_append,
    Nat.ofDigits_append, List.length_reverse, List.length_map, Nat.ofDigits_cons, Nat.ofDigits_nil,
    hpow]
  ring

/-- Zeros in front make no difference. -/
theorem bigEndian_zeros_append (n : Nat) (bytes : List UInt8) :
    bigEndian (List.replicate n 0 ++ bytes) = bigEndian bytes := by
  induction n with
  | zero => rfl
  | succ n ih => simp [List.replicate_succ, bigEndian_cons, ih]

/-! ### Markers -/

/-- What a text may begin with to show that it is a number. -/
def markers : List Bytes := ["0x".toUTF8, "0X".toUTF8]

/-- The second characters are those behind the marker of the first ones, or all of them. -/
def Strips (chars t : List UInt8) : Prop :=
  (∃ marker ∈ markers, chars = marker.list ++ t) ∨
    (∀ marker ∈ markers, ¬ marker.list <+: chars) ∧ t = chars

theorem strips_stripMarker (chars : List UInt8) : Strips chars (stripMarker chars) := by
  have hlower : Bytes.list "0x".toUTF8 = [0x30, 0x78] := by decide
  have hupper : Bytes.list "0X".toUTF8 = [0x30, 0x58] := by decide
  unfold stripMarker
  split
  · exact .inl ⟨"0x".toUTF8, by simp [markers], by rw [hlower]; rfl⟩
  · exact .inl ⟨"0X".toUTF8, by simp [markers], by rw [hupper]; rfl⟩
  · rename_i hx hX
    refine .inr ⟨fun marker hmarker => ?_, rfl⟩
    simp only [markers, List.mem_cons, List.not_mem_nil, or_false] at hmarker
    rintro ⟨t, ht⟩
    rcases hmarker with rfl | rfl
    · rw [hlower] at ht
      exact hx t ht.symm
    · rw [hupper] at ht
      exact hX t ht.symm

/-! ### Reading pairs of digits -/

/-- What comes of reading digits into bytes, one for every two: they are good, and the bytes are
the number that they denote, or some are bad. -/
theorem writePairs_spec (chars buffer : List UInt8) (h : chars.length = 2 * buffer.length) :
    (writePairs chars buffer).2 = .ok () ∧ (∀ c ∈ chars, IsDigit c) ∧
        bigEndian (writePairs chars buffer).1 = number chars ∨
      (writePairs chars buffer).2 = .error .badDigit ∧ ¬ ∀ c ∈ chars, IsDigit c := by
  fun_induction writePairs chars buffer with
  | case1 high low chars b buffer c hbyte rest result hrest ih =>
    obtain ⟨⟨hhigh, hlow⟩, hc⟩ := byte?_eq_some hbyte
    have hlength : chars.length = 2 * buffer.length := by
      simp only [List.length_cons] at h
      omega
    have hrestlength := length_writePairs chars buffer
    have ih := ih hlength
    rw [hrest] at ih hrestlength
    dsimp only at ih hrestlength ⊢
    rcases ih with ⟨hok, hdigits, hnumber⟩ | ⟨hbad, hdigits⟩
    · refine .inl ⟨hok, by simpa [hhigh, hlow] using hdigits, ?_⟩
      rw [bigEndian_cons, hrestlength, hc, hnumber, number_cons_cons hlength]
    · exact .inr ⟨hbad, by simpa [hhigh, hlow] using hdigits⟩
  | case2 high low chars b buffer hbyte =>
    have hbad := byte?_eq_none hbyte
    refine .inr ⟨rfl, fun hdigits => hbad ?_⟩
    exact ⟨hdigits high (by simp), hdigits low (by simp)⟩
  | case3 chars buffer hshort =>
    cases buffer with
    | nil =>
      obtain rfl : chars = [] := List.length_eq_zero_iff.1 h
      exact .inl ⟨rfl, by simp, rfl⟩
    | cons b buffer =>
      -- there are two digits for this byte
      rcases chars with _ | ⟨high, _ | ⟨low, chars⟩⟩
      · simp at h
      · simp only [List.length_cons, List.length_nil] at h
        omega
      · exact (hshort _ _ _ _ _ rfl rfl).elim

/-! ### Reading into a buffer -/

variable {t buffer : List UInt8} {s : String}

theorem length_evenly (t : List UInt8) : (evenly t).length = 2 * count t := by
  unfold evenly count
  split
  · omega
  · rw [List.length_cons]
    omega

theorem number_evenly (t : List UInt8) : number (evenly t) = number t := by
  unfold evenly
  split
  · rfl
  · exact number_zero_cons t

theorem isDigit_evenly : (∀ c ∈ evenly t, IsDigit c) ↔ ∀ c ∈ t, IsDigit c := by
  have hzero : IsDigit 0x30 := by decide
  unfold evenly
  split
  · rfl
  · simp [hzero]

theorem readInto_of_lt (ht : stripMarker (Bytes.list s.toUTF8) = t)
    (h : buffer.length < count t) : readInto buffer s = (buffer, .error .tooLong) := by
  have hcount : (evenly t).length / 2 = count t := by rw [length_evenly]; omega
  simp only [readInto, ht, hcount, h, ↓reduceIte]

/-- Digits for which there is room are written to the last bytes. -/
theorem readInto_append (ht : stripMarker (Bytes.list s.toUTF8) = t) (front : List UInt8)
    {last : List UInt8} (hlast : last.length = count t) : readInto (front ++ last) s =
      (front ++ (writePairs (evenly t) last).1, (writePairs (evenly t) last).2) := by
  have hcount : (evenly t).length / 2 = count t := by rw [length_evenly]; omega
  have hroom : ¬ (front ++ last).length < count t := by
    rw [List.length_append]
    omega
  have hfront : (front ++ last).length - count t = front.length := by simp [hlast]
  simp only [readInto, ht, hcount, hroom, hfront, ↓reduceIte, List.take_left, List.drop_left]

/-- A buffer that is large enough has last bytes for all digits. -/
theorem exists_last (h : count t ≤ buffer.length) :
    ∃ front last, buffer = front ++ last ∧ last.length = count t := by
  refine ⟨_, _, (List.take_append_drop (buffer.length - count t) buffer).symm, ?_⟩
  rw [List.length_drop]
  omega

/-- The digits are read into the buffer, which is the first part of the result then, or the second
part is what is wrong with them. -/
structure ReadsInto (t buffer : List UInt8) (r : List UInt8 × Except HexError Unit) : Prop where
  length : r.1.length = buffer.length
  ok_iff : r.2 = .ok () ↔ t.length ≤ 2 * buffer.length ∧ ∀ c ∈ t, IsDigit c
  /-- Too many are refused, whatever they are. -/
  tooLong_iff : r.2 = .error .tooLong ↔ 2 * buffer.length < t.length
  badDigit_iff : r.2 = .error .badDigit ↔ t.length ≤ 2 * buffer.length ∧ ¬ ∀ c ∈ t, IsDigit c
  /-- The last bytes are the number. -/
  denotes : r.2 = .ok () → bigEndian (r.1.drop (buffer.length - count t)) = number t
  /-- All bytes before them stay as they are, whatever comes of it. -/
  front : r.1.take (buffer.length - count t) = buffer.take (buffer.length - count t)
  untouched : r.2 = .error .tooLong → r.1 = buffer

theorem readsInto_readInto (ht : stripMarker (Bytes.list s.toUTF8) = t) (buffer : List UInt8) :
    ReadsInto t buffer (readInto buffer s) := by
  have hcount : count t = (t.length + 1) / 2 := rfl
  by_cases hroom : buffer.length < count t
  · have hlong : 2 * buffer.length < t.length := by omega
    rw [readInto_of_lt ht hroom]
    constructor <;> simp [hlong, Nat.not_le.2 hlong]
  · have hshort : t.length ≤ 2 * buffer.length := by omega
    obtain ⟨front, last, rfl, hlast⟩ := exists_last (Nat.le_of_not_lt hroom)
    have hfront : (front ++ last).length - count t = front.length := by simp [hlast]
    have hlength := length_writePairs (evenly t) last
    have hspec := writePairs_spec (evenly t) last (by rw [length_evenly, hlast])
    rw [isDigit_evenly, number_evenly] at hspec
    rw [readInto_append ht front hlast]
    generalize writePairs (evenly t) last = r at hlength hspec
    obtain ⟨bytes, result⟩ := r
    have htake : (front ++ bytes).take front.length = (front ++ last).take front.length := by simp
    rcases hspec with ⟨rfl, hdigits, hnumber⟩ | ⟨rfl, hdigits⟩
    · refine ⟨?_, iff_of_true rfl ⟨hshort, hdigits⟩, ?_, ?_, fun _ => ?_, hfront ▸ htake, nofun⟩
      · simpa using hlength
      · exact iff_of_false nofun (Nat.not_lt.2 hshort)
      · exact iff_of_false nofun fun hbad => hbad.2 hdigits
      · rw [hfront, List.drop_left, hnumber]
    · refine ⟨?_, ?_, ?_, iff_of_true rfl ⟨hshort, hdigits⟩, nofun, hfront ▸ htake, nofun⟩
      · simpa using hlength
      · exact iff_of_false nofun fun hgood => hdigits hgood.2
      · exact iff_of_false nofun (Nat.not_lt.2 hshort)

/-- An odd number of digits in both cases, and bytes before a bad digit, which stay written. -/
example : readInto [7, 7, 7] "0XaB1" = ([7, 0x0a, 0xb1], .ok ()) ∧
    readInto [7, 7, 7] "12g4" = ([7, 0x12, 7], .error .badDigit) := by decide

/-! ### Reading at positions -/

/-- A number that has to be a byte. -/
def fit? (n : Nat) : Option UInt8 := if n < 256 then some (.ofNat n) else none

/-- Puts a byte at a position, which has to lie inside. -/
def set? (buffer : List UInt8) (i : Nat) (b : UInt8) : Option (List UInt8) :=
  if i < buffer.length then some (buffer.set i b) else none

/-- What is no digit is a bad one. -/
def orBad : Option UInt8 → Except HexError UInt8
  | some d => .ok d
  | none => .error .badDigit

/-- The value of a digit is the low half of its code, or of the ninth code from it for a letter. -/
def nibble? (c : UInt8) : Option (Except HexError UInt8) :=
  if 0x30 ≤ c ∧ c ≤ 0x39 then some (.ok (c &&& 0x0f))
  else if 0x41 ≤ c ∧ c ≤ 0x46 ∨ 0x61 ≤ c ∧ c ≤ 0x66 then
    (fit? (c.toNat + 9)).map fun n => .ok (n &&& 0x0f)
  else some (.error .badDigit)

/-- The byte of two digits. -/
def join? (high low : UInt8) : Option (Except HexError UInt8) :=
  match nibble? high, nibble? low with
  | some (.ok h), some (.ok l) => (fit? (h.toNat * 16 + l.toNat)).map .ok
  | some _, some _ => some (.error .badDigit)
  | _, _ => none

/-- Replaces bytes from a position on, one for every two digits. -/
def writePairsAt? (buffer : List UInt8) (i : Nat) :
    List UInt8 → Option (List UInt8 × Except HexError Unit)
  | high :: low :: chars => do
    match ← join? high low with
    | .error reason => return (buffer, .error reason)
    | .ok b => writePairsAt? (← set? buffer i b) (i + 1) chars
  | _ => some (buffer, .ok ())

/-- As `writePairsAt?`, but the first digit is a byte of its own.  There has to be one. -/
def writeOddAt? (buffer : List UInt8) (i : Nat) :
    List UInt8 → Option (List UInt8 × Except HexError Unit)
  | [] => none
  | c :: chars => do
    match ← nibble? c with
    | .error reason => return (buffer, .error reason)
    | .ok d => writePairsAt? (← set? buffer i d) (i + 1) chars

/-- Reads digits into the end of a buffer. -/
def readAt? (buffer : List UInt8) (s : String) : Option (List UInt8 × Except HexError Unit) :=
  let chars := stripMarker (Bytes.list s.toUTF8)
  let size := (chars.length + 1) / 2
  let start := buffer.length - size
  if buffer.length < size then some (buffer, .error .tooLong)
  else if chars.length % 2 = 0 then writePairsAt? buffer start chars
  else writeOddAt? buffer start chars

theorem nibble?_eq (c : UInt8) : nibble? c = some (orBad (digit? c)) := by
  have hall : ∀ n < 256, nibble? (.ofNat n) = some (orBad (digit? (.ofNat n))) := by
    decide +kernel
  simpa using hall c.toNat c.toNat_lt

theorem join?_eq (high low : UInt8) : join? high low = some (orBad (byte? high low)) := by
  rw [join?, nibble?_eq, nibble?_eq]
  cases hx : digit? high with
  | none => cases hy : digit? low <;> simp [orBad, byte?, hx]
  | some x =>
    cases hy : digit? low with
    | none => simp [orBad, byte?, hx, hy]
    | some y =>
      have hhigh := digit?_lt hx
      have hlow := digit?_lt hy
      have hfits : x.toNat * 16 + y.toNat < 256 := by omega
      have hbyte : UInt8.ofNat (x.toNat * 16 + y.toNat) = x * 16 + y := by simp
      simp [orBad, byte?, hx, hy, fit?, hfits, hbyte]

/-- There is a byte at the position that has been come to. -/
theorem set?_append (front tail : List UInt8) (b c : UInt8) :
    set? (front ++ b :: tail) front.length c = some ((front ++ [c]) ++ tail) := by
  simp [set?]

/-- What is written from a position on is what is written to the bytes there. -/
theorem writePairsAt?_append (front : List UInt8) {tail chars : List UInt8}
    (h : chars.length ≤ 2 * tail.length) : writePairsAt? (front ++ tail) front.length chars =
      some (front ++ (writePairs chars tail).1, (writePairs chars tail).2) := by
  fun_induction writePairs chars tail generalizing front with
  | case1 high low chars b tail c hbyte rest result hrest ih =>
    have hlength : chars.length ≤ 2 * tail.length := by
      simp only [List.length_cons] at h
      omega
    have ih := ih (front ++ [c]) hlength
    rw [hrest, List.length_append, List.length_singleton] at ih
    simpa [writePairsAt?, join?_eq, hbyte, orBad, set?_append] using ih
  | case2 high low chars b tail hbyte =>
    simp [writePairsAt?, join?_eq, hbyte, orBad]
  | case3 chars tail hshort =>
    rcases chars with _ | ⟨high, _ | ⟨low, chars⟩⟩
    · rfl
    · rfl
    · rcases tail with _ | ⟨b, tail⟩
      · simp at h
      · exact (hshort _ _ _ _ _ rfl rfl).elim

/-- A first digit of its own is written as if a zero stood before it. -/
theorem writeOddAt?_append (front : List UInt8) {tail chars : List UInt8}
    (h : chars.length ≤ 2 * tail.length) (b c : UInt8) :
    writeOddAt? (front ++ b :: tail) front.length (c :: chars) =
      some (front ++ (writePairs (0x30 :: c :: chars) (b :: tail)).1,
        (writePairs (0x30 :: c :: chars) (b :: tail)).2) := by
  have hzero : digit? 0x30 = some 0 := by decide
  cases hd : digit? c with
  | none => simp [writeOddAt?, nibble?_eq, hd, orBad, writePairs, byte?, hzero]
  | some d =>
    have hrest := writePairsAt?_append (front ++ [d]) h
    simpa [writeOddAt?, nibble?_eq, hd, orBad, writePairs, byte?, hzero, set?_append] using hrest

/-- No position lies outside, and no number is more than a byte. -/
theorem readAt?_eq (buffer : List UInt8) (s : String) :
    readAt? buffer s = some (readInto buffer s) := by
  obtain ⟨t, ht⟩ : ∃ t, stripMarker (Bytes.list s.toUTF8) = t := ⟨_, rfl⟩
  have hcount : (t.length + 1) / 2 = count t := rfl
  simp only [readAt?, ht, hcount]
  by_cases hroom : buffer.length < count t
  · rw [if_pos hroom, readInto_of_lt ht hroom]
  · obtain ⟨front, last, rfl, hlast⟩ := exists_last (Nat.le_of_not_lt hroom)
    have hfront : (front ++ last).length - count t = front.length := by simp [hlast]
    rw [if_neg hroom, hfront, readInto_append ht front hlast]
    by_cases heven : t.length % 2 = 0
    · rw [if_pos heven, evenly, if_pos heven]
      exact writePairsAt?_append front (by omega)
    · rw [if_neg heven, evenly, if_neg heven]
      cases t with
      | nil => simp at heven
      | cons c t =>
        cases last with
        | nil =>
          simp only [List.length_cons, List.length_nil] at hlast hcount
          omega
        | cons b last =>
          simp only [List.length_cons] at hlast hcount heven
          exact writeOddAt?_append front (by omega) b c

/-! ### Numbers of a fixed size -/

/-- The number that digits denote, if they are good and no more than so many bytes hold. -/
def denoted (size : Nat) (t : List UInt8) : Except HexError Nat :=
  if 2 * size < t.length then .error .tooLong
  else if t.all (IsDigit ·) then .ok (number t)
  else .error .badDigit

/-- The bytes that are read stand in a buffer of zeros. -/
theorem map_read {α : Type} (k : List UInt8 → α) (size : Nat) (s : String) :
    (fun bytes => k bytes.toList) <$> read size s =
      (fun _ => k (readInto (List.replicate size 0) s).1) <$>
        (readInto (List.replicate size 0) s).2 := by
  simp only [read]
  split <;> rename_i hresult <;> rw [hresult] <;> rfl

/-- A buffer of zeros becomes the number of the digits. -/
theorem bigEndian_of_readsInto {size : Nat} {r : List UInt8 × Except HexError Unit}
    (h : ReadsInto t (List.replicate size 0) r) :
    (fun _ => bigEndian r.1) <$> r.2 = denoted size t := by
  obtain ⟨bytes, result⟩ := r
  have hdenotes := h.denotes
  have hfront := h.front
  have hok := h.ok_iff
  have hlong := h.tooLong_iff
  have hbad := h.badDigit_iff
  rw [List.length_replicate] at hdenotes hfront hok hlong hbad
  rw [List.take_replicate] at hfront
  cases result with
  | ok u =>
    obtain ⟨hshort, hdigits⟩ := hok.1 rfl
    have hnumber : bigEndian bytes = number t := by
      calc bigEndian bytes
          = bigEndian (List.replicate (min (size - count t) size) 0 ++
              bytes.drop (size - count t)) := by rw [← hfront, List.take_append_drop]
        _ = bigEndian (bytes.drop (size - count t)) := bigEndian_zeros_append _ _
        _ = number t := hdenotes rfl
    rw [denoted, if_neg (Nat.not_lt.2 hshort), if_pos (by simpa using hdigits), ← hnumber]
    rfl
  | error reason =>
    cases reason with
    | tooLong =>
      rw [denoted, if_pos (hlong.1 rfl)]
      rfl
    | badDigit =>
      obtain ⟨hshort, hdigits⟩ := hbad.1 rfl
      rw [denoted, if_neg (Nat.not_lt.2 hshort), if_neg (by simpa using hdigits)]
      rfl

theorem bigEndian_read (ht : stripMarker (Bytes.list s.toUTF8) = t) (size : Nat) :
    (fun bytes => bigEndian bytes.toList) <$> read size s = denoted size t := by
  rw [map_read bigEndian]
  exact bigEndian_of_readsInto (readsInto_readInto ht _)

end Hex

/-- **Reading hexadecimal text is exact.**  Take any text, and let its digits be the characters
behind `0x` or `0X`, if it begins with that, and all of them if not.

Reading them into any buffer never touches a position that is not there.  It succeeds if and only if
there are at most two for each byte of the buffer and all of them are digits; then the last bytes of
the buffer, one for every two digits and one for a digit that is left, are the number that the
digits denote.  Too many are refused, whatever they are, and otherwise there is a bad digit.  The
bytes before the last ones stay as they are in any case.

So a text becomes the word, the key or the address whose number it denotes. -/
theorem Hex.reading_exact (s : String) :
    ∃ t, Strips (Bytes.list s.toUTF8) t ∧
      (∀ buffer, readAt? buffer s = some (readInto buffer s) ∧
        ReadsInto t buffer (readInto buffer s)) ∧
      Word.toNat <$> Word.ofHex s = denoted 32 t ∧
      (fun key : Key => bigEndian key.bytes.toList) <$> Key.ofHex s = denoted 32 t ∧
      (fun address : Address => bigEndian address.bytes.toList) <$> Address.ofHex s =
        denoted 20 t ∧
      HexError.message .tooLong = "hex number too long" ∧
      HexError.message .badDigit = "bad hex digit" := by
  obtain ⟨t, ht⟩ : ∃ t, stripMarker (Bytes.list s.toUTF8) = t := ⟨_, rfl⟩
  refine ⟨t, ht ▸ strips_stripMarker _,
    fun buffer => ⟨readAt?_eq buffer s, readsInto_readInto ht buffer⟩, ?_, ?_, ?_, rfl, rfl⟩
  · rw [← bigEndian_read ht, Word.ofHex, ← LawfulFunctor.comp_map]
    congr 1
    funext bytes
    exact Word.toNat_ofBytes_of_length_le (by rw [Vector.length_toList])
  · rw [← bigEndian_read ht, Key.ofHex, ← LawfulFunctor.comp_map]
    rfl
  · rw [← bigEndian_read ht, Address.ofHex, ← LawfulFunctor.comp_map]
    rfl

end ContractVM
