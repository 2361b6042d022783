import ContractVM.Proofs.Hex.Reading

/-!
# Reading what was printed

`Hex.text` leaves out the zero bytes in front and shows two digits for every byte behind them, or
one digit if there is none.  `Hex.readInto` puts what the digits denote at the end of a buffer, so
into zeros it puts the bytes themselves (`Hex.readInto_text`), unless there are none at all: the one
digit does not fit into no bytes.

* `Hex.codes` : the digits of bytes, as the codes of their characters.
* `Hex.printAt?` : printing into a buffer, position by position, with digits from a table.  It would
  come to nothing if a position lay outside of the buffer or of the table, and never does if the
  buffer has the right size (`Hex.printAt?_eq`).

Main statement: `Hex.printing_undone`.
-/

namespace ContractVM

namespace Hex

/-! ### The characters of a text -/

/-- Characters of one byte are written as their codes. -/
theorem list_toUTF8_ofList {chars : List Char} (h : ∀ c ∈ chars, c.utf8Size = 1) :
    Bytes.list (String.ofList chars).toUTF8 = chars.map Char.toUInt8 := by
  change (String.ofList chars).toByteArray.data.toList = _
  rw [String.toByteArray_ofList, List.utf8Encode, List.toList_data_toByteArray]
  induction chars with
  | nil => rfl
  | cons c chars ih =>
    have hc : String.utf8EncodeChar c = [c.toUInt8] :=
      String.utf8EncodeChar_eq_singleton (h c List.mem_cons_self)
    have hchars := ih fun d hd => h d (List.mem_cons_of_mem c hd)
    rw [List.flatMap_cons, hc, hchars, List.map_cons, List.singleton_append]

/-- The digits of bytes, as the codes of their characters. -/
def codes (bytes : List UInt8) : List UInt8 := (digits bytes).map Char.toUInt8

/-- The code of a digit. -/
def code (n : Nat) : UInt8 := (Nat.digitChar n).toUInt8

theorem utf8Size_digitChar {n : Nat} (h : n < 16) : (Nat.digitChar n).utf8Size = 1 := by
  have hall : ∀ n < 16, (Nat.digitChar n).utf8Size = 1 := by decide
  exact hall n h

theorem codes_cons (b : UInt8) (bytes : List UInt8) :
    codes (b :: bytes) = code (b.toNat / 16) :: code (b.toNat % 16) :: codes bytes := by
  simp [codes, code, digits, pair]

theorem length_codes (bytes : List UInt8) : (codes bytes).length = 2 * bytes.length := by
  induction bytes with
  | nil => rfl
  | cons b bytes ih =>
    rw [codes_cons, List.length_cons, List.length_cons, ih, List.length_cons]
    omega

theorem utf8Size_of_mem_digits {bytes : List UInt8} {c : Char} (h : c ∈ digits bytes) :
    c.utf8Size = 1 := by
  obtain ⟨b, -, hc⟩ := List.mem_flatMap.1 h
  have hb := b.toNat_lt
  simp only [pair, List.mem_cons, List.not_mem_nil, or_false] at hc
  rcases hc with rfl | rfl
  · exact utf8Size_digitChar (by omega)
  · exact utf8Size_digitChar (by omega)

/-- A number that is not zero is shown as a marker and digits. -/
theorem list_toUTF8_append (bytes : List UInt8) :
    Bytes.list (append "0x" bytes).toUTF8 = 0x30 :: 0x78 :: codes bytes := by
  have htext : append "0x" bytes = String.ofList ('0' :: 'x' :: digits bytes) := by
    rw [← String.ofList_toList (s := append "0x" bytes), toList_append]
    rfl
  rw [htext, list_toUTF8_ofList]
  · rfl
  · intro c hc
    simp only [List.mem_cons] at hc
    rcases hc with rfl | rfl | hc
    · rfl
    · rfl
    · exact utf8Size_of_mem_digits hc

/-! ### Reading digits that were printed -/

theorem digit?_code {n : Nat} (h : n < 16) : digit? (code n) = some (.ofNat n) := by
  have hall : ∀ n < 16, digit? (code n) = some (.ofNat n) := by decide
  exact hall n h

/-- The two digits of a byte are read as the byte. -/
theorem byte?_codes (b : UInt8) : byte? (code (b.toNat / 16)) (code (b.toNat % 16)) = some b := by
  have hb := b.toNat_lt
  have hhigh : b.toNat / 16 < 16 := by omega
  have hlow : b.toNat % 16 < 16 := by omega
  have hsum : UInt8.ofNat (b.toNat / 16) * 16 + UInt8.ofNat (b.toNat % 16) = b := by
    rw [← UInt8.toNat_inj]
    simp only [UInt8.toNat_add, UInt8.toNat_mul, UInt8.toNat_ofNat', UInt8.reduceToNat]
    omega
  simp [byte?, digit?_code hhigh, digit?_code hlow, hsum]

/-- The digits of bytes replace as many bytes by these. -/
theorem writePairs_codes {bytes buffer : List UInt8} (h : buffer.length = bytes.length) :
    writePairs (codes bytes) buffer = (bytes, .ok ()) := by
  induction bytes generalizing buffer with
  | nil =>
    rw [List.length_eq_zero_iff.1 h]
    rfl
  | cons b bytes ih =>
    cases buffer with
    | nil => cases h
    | cons a buffer =>
      have hrest := ih (Nat.succ.inj h)
      simp only [codes_cons, writePairs, byte?_codes, hrest]

/-- There is an even number of digits. -/
theorem evenly_codes (bytes : List UInt8) : evenly (codes bytes) = codes bytes := by
  rw [evenly, length_codes, if_pos (by omega)]

theorem count_codes (bytes : List UInt8) : count (codes bytes) = bytes.length := by
  rw [count, length_codes]
  omega

/-! ### Reading a text that was printed -/

/-- Bytes are zeros and the bytes that count. -/
theorem exists_zeros (bytes : List UInt8) :
    ∃ n, bytes = List.replicate n 0 ++ bytes.dropWhile (· == 0) := by
  induction bytes with
  | nil => exact ⟨0, rfl⟩
  | cons b bytes ih =>
    by_cases hb : b = 0
    · obtain ⟨n, hn⟩ := ih
      refine ⟨n + 1, ?_⟩
      subst hb
      simpa [List.replicate_succ] using hn
    · exact ⟨0, by simp [hb]⟩

/-- Bytes that count are read behind as many zeros as there were. -/
theorem readInto_append_text (n : Nat) (bytes : List UInt8) :
    readInto (List.replicate (n + bytes.length) 0) (append "0x" bytes) =
      (List.replicate n 0 ++ bytes, .ok ()) := by
  have hstrip : stripMarker (Bytes.list (append "0x" bytes).toUTF8) = codes bytes := by
    rw [list_toUTF8_append]
    rfl
  have hlast : (List.replicate bytes.length (0 : UInt8)).length = count (codes bytes) := by
    rw [List.length_replicate, count_codes]
  rw [← List.replicate_append_replicate, readInto_append hstrip _ hlast, evenly_codes,
    writePairs_codes (List.length_replicate ..)]

/-- The text of zero is read as one zero byte, for which there has to be room. -/
theorem readInto_zero (n : Nat) :
    readInto (List.replicate n 0) "0x0" =
      if n = 0 then ([], .error .tooLong) else (List.replicate n 0, .ok ()) := by
  have hstrip : stripMarker (Bytes.list "0x0".toUTF8) = [0x30] := by decide
  cases n with
  | zero => exact readInto_of_lt hstrip (by decide)
  | succ n =>
    have hlast : [(0 : UInt8)].length = count [0x30] := rfl
    rw [if_neg (Nat.succ_ne_zero n), List.replicate_succ', readInto_append hstrip _ hlast]
    rfl

/-- What was printed is read into zeros as it was, unless it was nothing. -/
theorem readInto_text (bytes : List UInt8) :
    readInto (List.replicate bytes.length 0) (text bytes) =
      if bytes = [] then ([], .error .tooLong) else (bytes, .ok ()) := by
  obtain ⟨n, hn⟩ := exists_zeros bytes
  cases hs : bytes.dropWhile (· == 0) with
  | nil =>
    rw [hs, List.append_nil] at hn
    subst hn
    simp [text, hs, readInto_zero]
  | cons b significant =>
    have hne : bytes ≠ [] := by
      rintro rfl
      cases hs
    have htext : text bytes = append "0x" (b :: significant) := by rw [text, hs]
    have hlength : bytes.length = n + (b :: significant).length := by
      rw [hn, hs, List.length_append, List.length_replicate]
    rw [hs] at hn
    rw [if_neg hne, hlength, htext, readInto_append_text, ← hn]

theorem read_text {n : Nat} (v : Vector UInt8 (n + 1)) : read (n + 1) (text v.toList) = .ok v := by
  have hne : v.toList ≠ [] := by
    intro hnil
    have hlength := v.length_toList
    rw [hnil] at hlength
    cases hlength
  have hread := readInto_text v.toList
  rw [if_neg hne, Vector.length_toList] at hread
  simp only [read, hread]
  rfl

/-! ### Printing at positions -/

/-- The code of a digit, from the table of digits. -/
def digitAt? (n : UInt8) : Option UInt8 := alphabet[n.toNat]?.map Char.toUInt8

/-- Writes two digits for every byte, from a position on. -/
def writeDigitsAt? (buffer : List UInt8) (i : Nat) : List UInt8 → Option (List UInt8)
  | [] => some buffer
  | b :: bytes => do
    let buffer ← set? buffer i (← digitAt? (b >>> 4))
    let buffer ← set? buffer (i + 1) (← digitAt? (b &&& 0x0f))
    writeDigitsAt? buffer (i + 2) bytes

/-- Prints a marker and digits into a buffer, and takes the text from there. -/
def printDigitsAt? (buffer significant : List UInt8) : Option String := do
  let buffer ← set? buffer 0 0x30
  let buffer ← set? buffer 1 0x78
  let buffer ← writeDigitsAt? buffer 2 significant
  let written ← Bytes.slice? (.ofList buffer) 0 (room significant.length)
  return (String.fromUTF8? written).getD "0x?"

/-- Prints bytes, for which a buffer has to have the right size. -/
def printAt? (buffer bytes : List UInt8) : Option String :=
  if buffer.length = room bytes.length then
    match bytes.dropWhile (· == 0) with
    | [] => some "0x0"
    | significant => printDigitsAt? buffer significant
  else none

theorem digitAt?_eq (b : UInt8) : digitAt? (b >>> 4) = some (code (b.toNat / 16)) ∧
    digitAt? (b &&& 0x0f) = some (code (b.toNat % 16)) := by
  have hall : ∀ n < 256, digitAt? (UInt8.ofNat n >>> 4) = some (code (n / 16)) ∧
      digitAt? (UInt8.ofNat n &&& 0x0f) = some (code (n % 16)) := by decide +kernel
  simpa using hall b.toNat b.toNat_lt

/-- The digits stand where they were written, and all before and behind them is as it was. -/
theorem writeDigitsAt?_append (front : List UInt8) {tail bytes : List UInt8}
    (h : 2 * bytes.length ≤ tail.length) : writeDigitsAt? (front ++ tail) front.length bytes =
      some (front ++ (codes bytes ++ tail.drop (2 * bytes.length))) := by
  induction bytes generalizing front tail with
  | nil => rfl
  | cons b bytes ih =>
    rcases tail with _ | ⟨x, _ | ⟨y, tail⟩⟩
    · simp at h
    · simp only [List.length_cons, List.length_nil] at h
      omega
    · obtain ⟨hhigh, hlow⟩ := digitAt?_eq b
      have hroom : 2 * bytes.length ≤ tail.length := by
        simp only [List.length_cons] at h
        omega
      -- the two digits belong to the front of what is left to write
      have hrest := ih (front ++ [code (b.toNat / 16)] ++ [code (b.toNat % 16)]) hroom
      have hsecond := set?_append (front ++ [code (b.toNat / 16)]) tail y (code (b.toNat % 16))
      rw [List.length_append, List.length_singleton] at hsecond
      rw [List.length_append, List.length_append, List.length_singleton,
        List.length_singleton] at hrest
      have hdrop : (x :: y :: tail).drop (2 * (b :: bytes).length) =
          tail.drop (2 * bytes.length) := by
        rw [List.length_cons, Nat.mul_succ]
        rfl
      simp only [writeDigitsAt?, hhigh, hlow, Option.bind_eq_bind, Option.bind_some, set?_append,
        hsecond, hdrop]
      rw [hrest]
      simp [codes_cons]

/-- The bytes that were written so far. -/
theorem slice?_ofList_append (front tail : List UInt8) :
    Bytes.slice? (.ofList (front ++ tail)) 0 front.length = some (.ofList front) := by
  have hinside : 0 + front.length ≤ (Bytes.ofList (front ++ tail)).size := by
    rw [Bytes.size_ofList, List.length_append]
    omega
  rw [Bytes.slice?, if_pos hinside]
  refine congrArg some (ByteArray.ext ?_)
  simp [Bytes.ofList]

/-- What was written to the front of a buffer is the text. -/
theorem printDigitsAt?_eq (x y : UInt8) {tail bytes : List UInt8}
    (h : 2 * bytes.length ≤ tail.length) :
    printDigitsAt? (x :: y :: tail) bytes = some (append "0x" bytes) := by
  have hmarker : set? (x :: y :: tail) 0 0x30 = some (0x30 :: y :: tail) := set?_append [] _ _ _
  have hrest : set? (0x30 :: y :: tail) 1 0x78 = some (0x30 :: 0x78 :: tail) :=
    set?_append [0x30] _ _ _
  have hdigits : writeDigitsAt? (0x30 :: 0x78 :: tail) 2 bytes =
      some ((0x30 :: 0x78 :: codes bytes) ++ tail.drop (2 * bytes.length)) :=
    writeDigitsAt?_append [0x30, 0x78] h
  have hlength : (0x30 :: 0x78 :: codes bytes).length = room bytes.length := by
    rw [List.length_cons, List.length_cons, length_codes, room]
  have hwritten := slice?_ofList_append (0x30 :: 0x78 :: codes bytes)
    (tail.drop (2 * bytes.length))
  have htext : Bytes.ofList (0x30 :: 0x78 :: codes bytes) = (append "0x" bytes).toUTF8 :=
    congrArg Bytes.ofList (list_toUTF8_append bytes).symm
  have hvalid : String.fromUTF8? (append "0x" bytes).toUTF8 = some (append "0x" bytes) :=
    dif_pos (append "0x" bytes).isValidUTF8
  rw [hlength, htext] at hwritten
  simp only [printDigitsAt?, hmarker, hrest, hdigits, hwritten, hvalid, Option.bind_eq_bind,
    Option.bind_some, Option.getD_some, Option.pure_def]

/-- Printing touches no position outside, and what it takes from the buffer is the text. -/
theorem printAt?_eq (buffer bytes : List UInt8) :
    printAt? buffer bytes = textWithin? buffer.length bytes := by
  unfold printAt? textWithin?
  split
  · rename_i hsize
    cases hs : bytes.dropWhile (· == 0) with
    | nil => simp only [text, hs]
    | cons b significant =>
      -- a buffer of the right size has room for the marker
      rcases buffer with _ | ⟨x, _ | ⟨y, tail⟩⟩
      · simp [room] at hsize
      · simp [room] at hsize
      · have hroom : 2 * (b :: significant).length ≤ tail.length := by
          have hshorter := (List.dropWhile_suffix (· == (0 : UInt8)) (l := bytes)).length_le
          simp only [hs, room, List.length_cons] at hsize hshorter ⊢
          omega
        simp only [text, hs]
        exact printDigitsAt?_eq x y hroom
  · rfl

end Hex

/-! ### Texts of values -/

/-- The text of a word is read as the word. -/
theorem Word.ofHex_describe (w : Word) : Word.ofHex (describe w) = .ok w := by
  change (fun bytes : Vector UInt8 32 => Word.ofBytes bytes.toList) <$>
    Hex.read 32 (Hex.text w.toBytes.toList) = _
  rw [Hex.read_text]
  exact congrArg Except.ok w.ofBytes_toBytes

/-- The text of a key is read as the key. -/
theorem Key.ofHex_describe (k : Key) : Key.ofHex (describe k) = .ok k := by
  change Key.mk <$> Hex.read 32 (Hex.text k.bytes.toList) = _
  rw [Hex.read_text]
  rfl

/-- The text of an address is read as the address. -/
theorem Address.ofHex_describe (a : Address) : Address.ofHex (describe a) = .ok a := by
  change Address.mk <$> Hex.read 20 (Hex.text a.bytes.toList) = _
  rw [Hex.read_text]
  rfl

/-- Values whose texts can be read have different texts. -/
theorem describe_inj {α : Type} [Describe α] {read : String → Except HexError α}
    (h : ∀ a, read (describe a) = .ok a) (a b : α) : describe a = describe b ↔ a = b := by
  refine ⟨fun heq => ?_, fun heq => heq ▸ rfl⟩
  have hread := h a
  rw [heq, h b] at hread
  exact (Except.ok.inj hread).symm

/-- **Printing can be undone.**  The text of any bytes is printed into a buffer of two characters for
each byte and two more, whatever it holds, without touching a position that is not there.  Read into
as many zeros as there were bytes, it gives the bytes back, unless there were none.

So reading inverts the texts of words, of keys and of addresses, and two of them have one text only
if they are equal. -/
theorem Hex.printing_undone :
    (∀ buffer bytes, buffer.length = 2 * bytes.length + 2 →
      printAt? buffer bytes = some (text bytes)) ∧
    (∀ size bytes, textWithin? size bytes =
      if size = 2 * bytes.length + 2 then some (text bytes) else none) ∧
    (∀ bytes, readInto (List.replicate bytes.length 0) (text bytes) = (bytes, .ok ()) ↔
      bytes ≠ []) ∧
    (∀ w : Word, Word.ofHex (describe w) = .ok w) ∧
    (∀ k : Key, Key.ofHex (describe k) = .ok k) ∧
    (∀ a : Address, Address.ofHex (describe a) = .ok a) ∧
    (∀ v w : Word, describe v = describe w ↔ v = w) ∧
    (∀ k l : Key, describe k = describe l ↔ k = l) ∧
    (∀ a b : Address, describe a = describe b ↔ a = b) := by
  refine ⟨fun buffer bytes hsize => ?_, fun size bytes => rfl, fun bytes => ?_,
    Word.ofHex_describe, Key.ofHex_describe, Address.ofHex_describe,
    describe_inj Word.ofHex_describe, describe_inj Key.ofHex_describe,
    describe_inj Address.ofHex_describe⟩
  · rw [printAt?_eq, textWithin?, room, if_pos hsize]
  · rw [readInto_text]
    by_cases hnil : bytes = []
    · simp [hnil]
    · simp [hnil]

/-- The first byte is zero and left out, the first digit of the second is zero and shown. -/
theorem Hex.printing_undone_of_zeros :
    let buffer := List.replicate 8 0x2e
    let bytes := [0, 0x0a, 0xb0]
    buffer.length = 2 * bytes.length + 2 ∧ printAt? buffer bytes = some "0x0ab0" ∧
      readInto [0, 0, 0] "0x0ab0" = (bytes, .ok ()) := by
  intro buffer bytes
  obtain ⟨hprint, -, hread, -⟩ := printing_undone
  have hsize : buffer.length = 2 * bytes.length + 2 := by decide
  have htext : text bytes = "0x0ab0" := by decide
  have hback := (hread bytes).2 (by decide)
  rw [htext] at hback
  exact ⟨hsize, htext ▸ hprint buffer bytes hsize, hback⟩

end ContractVM
