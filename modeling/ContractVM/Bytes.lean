/-!
# Byte strings

Code, call data, memory and output are byte strings.  A range of one is read with `Bytes.slice?`
and replaced with `Bytes.overwrite?`; both refuse a range that does not lie inside.  A string that
has to be longer than it is gains zeros at its end (`Bytes.zeroExtend`).

A string here may have any length.  There is no room for one that is longer than `Bytes.maxSize`,
though, and what runs within bounds asks for none.

Numbers are written with the most significant byte first, and `bigEndian` is the number that a
list of bytes denotes.
-/

namespace ContractVM

/-- A string of bytes of any length. -/
abbrev Bytes := ByteArray

/-- The number that bytes denote, the most significant byte first. -/
def bigEndian (bytes : List UInt8) : Nat :=
  bytes.foldl (fun n b => n * 256 + b.toNat) 0

namespace Bytes

/-- There is room for strings of up to this length. -/
def maxSize : Nat := UInt64.size / 2 - 1

/-- The string of the listed bytes. -/
def ofList (bytes : List UInt8) : Bytes := ⟨bytes.toArray⟩

/-- The bytes in order. -/
def list (b : Bytes) : List UInt8 := b.data.toList

/-- The byte at a position, zero past the end. -/
def byteAt (b : Bytes) (i : Nat) : UInt8 := if h : i < b.size then b[i] else 0

/-- Follows `b` with `n` zeros. -/
def appendZeros (b : Bytes) (n : Nat) : Bytes := n.repeat (fun c => ByteArray.push c 0) b

/-- Follows `b` with as many zeros as bring it to size `n`; a longer string stays as it is. -/
def zeroExtend (b : Bytes) (n : Nat) : Bytes := b.appendZeros (n - b.size)

/-- The `size` bytes from `start`, if they all lie inside. -/
def slice? (b : Bytes) (start size : Nat) : Option Bytes :=
  if start + size ≤ b.size then some (b.extract start (start + size)) else none

/-- Replaces the bytes from `start` by those of `v`, if they all lie inside. -/
def overwrite? (b : Bytes) (start : Nat) (v : Bytes) : Option Bytes :=
  if start + v.size ≤ b.size then some (v.copySlice 0 b start v.size) else none

/-- The bytes of `b` in the order from last to first. -/
def reverse (b : Bytes) : Bytes := ofList b.list.reverse

/-- Strings are compared byte by byte, and a proper beginning comes first. -/
instance : Ord Bytes where
  compare a b := compare a.data b.data

/-! ### Sizes -/

theorem size_ofList (bytes : List UInt8) : (ofList bytes).size = bytes.length := List.size_toArray

theorem data_appendZeros (b : Bytes) (n : Nat) :
    (b.appendZeros n).data = b.data ++ Array.replicate n 0 := by
  unfold appendZeros
  induction n with
  | zero => simp [Nat.repeat]
  | succ n ih => simp [Nat.repeat, ih, Array.replicate_succ]

theorem size_appendZeros (b : Bytes) (n : Nat) : (b.appendZeros n).size = b.size + n := by
  rw [← ByteArray.size_data, data_appendZeros]
  simp

theorem size_zeroExtend (b : Bytes) (n : Nat) : (b.zeroExtend n).size = max b.size n := by
  rw [zeroExtend, size_appendZeros]
  omega

theorem size_copySlice {b v : Bytes} {start : Nat} (h : start + v.size ≤ b.size) :
    (v.copySlice 0 b start v.size).size = b.size := by
  simp only [ByteArray.copySlice, ByteArray.size, Array.size_append, Array.size_extract] at h ⊢
  omega

/-- A string keeps its size when a range of it is replaced. -/
theorem size_of_overwrite? {b v c : Bytes} {start : Nat} (h : b.overwrite? start v = some c) :
    c.size = b.size := by
  unfold overwrite? at h
  split at h
  · obtain rfl := Option.some.inj h
    exact size_copySlice ‹_›
  · cases h

/-! ### Zeros at the end -/

/-- A string that is long enough gains no zeros. -/
theorem zeroExtend_of_le {b : Bytes} {n : Nat} (h : n ≤ b.size) : b.zeroExtend n = b := by
  rw [zeroExtend, Nat.sub_eq_zero_of_le h]
  rfl

theorem data_zeroExtend (b : Bytes) (n : Nat) :
    (b.zeroExtend n).data = b.data ++ Array.replicate (n - b.size) 0 := data_appendZeros b _

theorem data_extract_of_size_le {b : Bytes} {n : Nat} (h : b.size ≤ n) :
    b.data.extract 0 n = b.data := Array.extract_eq_self_of_le h

/-- Bytes at the front of zeros are these bytes, followed by zeros. -/
theorem overwrite?_zeros {v : Bytes} {n : Nat} (h : v.size ≤ n) :
    (zeroExtend .empty n).overwrite? 0 v = some (v.zeroExtend n) := by
  have hroom : 0 + v.size ≤ (zeroExtend .empty n).size := by
    rw [size_zeroExtend]
    omega
  rw [overwrite?, if_pos hroom]
  refine congrArg some (ByteArray.ext ?_)
  simp [ByteArray.copySlice, data_zeroExtend, data_extract_of_size_le]

/-- The front of a string with zeros at its end is the string with fewer zeros. -/
theorem slice?_zeroExtend {v : Bytes} {k n : Nat} (hv : v.size ≤ k) (hk : k ≤ n) :
    (v.zeroExtend n).slice? 0 k = some (v.zeroExtend k) := by
  have hinside : 0 + k ≤ (v.zeroExtend n).size := by
    rw [size_zeroExtend]
    omega
  have hzeros : min (k - v.size) (n - v.size) = k - v.size := by omega
  rw [slice?, if_pos hinside]
  refine congrArg some (ByteArray.ext ?_)
  simp [data_zeroExtend, Array.extract_append, data_extract_of_size_le hv, hzeros]

/-! ### What lies inside -/

theorem slice?_isSome {b : Bytes} {start size : Nat} :
    (b.slice? start size).isSome ↔ start + size ≤ b.size := by
  unfold slice?
  split <;> simp_all

theorem overwrite?_isSome {b v : Bytes} {start : Nat} :
    (b.overwrite? start v).isSome ↔ start + v.size ≤ b.size := by
  unfold overwrite?
  split <;> simp_all

/-! ### Bytes at positions -/

/-- The byte at a position is the one of the array, or zero. -/
theorem byteAt_eq_getD (b : Bytes) (i : Nat) : b.byteAt i = b.data[i]?.getD 0 := by
  unfold byteAt
  split
  · rename_i h
    have h' : i < b.data.size := h
    rw [Array.getElem?_eq_getElem h']
    rfl
  · rename_i h
    have h' : ¬ i < b.data.size := h
    rw [Array.getElem?_eq_none (Nat.le_of_not_lt h')]
    rfl

/-- Zeros at the end do not show. -/
theorem byteAt_appendZeros (b : Bytes) (n i : Nat) : (b.appendZeros n).byteAt i = b.byteAt i := by
  simp only [byteAt_eq_getD, data_appendZeros, Array.getElem?_append, Array.getElem?_replicate]
  split
  · rfl
  · rename_i h
    rw [Array.getElem?_eq_none (Nat.le_of_not_lt h)]
    split <;> rfl

theorem byteAt_zeroExtend (b : Bytes) (n i : Nat) : (b.zeroExtend n).byteAt i = b.byteAt i :=
  byteAt_appendZeros b _ i

/-- A part of a string begins where it was taken from. -/
theorem byteAt_extract {b : Bytes} {start stop i : Nat} (h : start + i < stop) :
    byteAt (b.extract start stop) i = b.byteAt (start + i) := by
  simp only [byteAt_eq_getD, ByteArray.data_extract, Array.getElem?_extract]
  split
  · rfl
  · rename_i h'
    rw [Array.getElem?_eq_none]
    omega

/-- Bytes that are copied to a range stand there, and all others stay. -/
theorem byteAt_copySlice {b v : Bytes} {start : Nat} (h : start + v.size ≤ b.size) (i : Nat) :
    byteAt (v.copySlice 0 b start v.size) i =
      if start ≤ i ∧ i < start + v.size then v.byteAt (i - start) else b.byteAt i := by
  have hv : v.data.size = v.size := rfl
  have hb : b.data.size = b.size := rfl
  have hdata : (v.copySlice 0 b start v.size).data =
      b.data.extract 0 start ++ v.data ++ b.data.extract (start + v.size) b.size := by
    simp [ByteArray.copySlice, data_extract_of_size_le (Nat.le_refl v.size)]
  have hbefore : (b.data.extract 0 start).size = start := by
    rw [Array.size_extract]
    omega
  have hupto : (b.data.extract 0 start ++ v.data).size = start + v.size := by
    rw [Array.size_append, hbefore, hv]
  simp only [byteAt_eq_getD, hdata]
  by_cases hi : i < start
  · rw [Array.getElem?_append_left (by omega), Array.getElem?_append_left (by omega),
      Array.getElem?_extract, if_pos (by omega), if_neg (by omega), Nat.zero_add]
  · by_cases hin : i < start + v.size
    · rw [Array.getElem?_append_left (by omega), Array.getElem?_append_right (by omega), hbefore,
        if_pos ⟨Nat.le_of_not_lt hi, hin⟩]
    · have hplace : start + v.size + (i - (start + v.size)) = i := by omega
      have hnot : ¬(start ≤ i ∧ i < start + v.size) := fun hc => hin hc.2
      rw [if_neg hnot, Array.getElem?_append_right (by omega), hupto, Array.getElem?_extract, hplace]
      split
      · rfl
      · rw [Array.getElem?_eq_none (by omega)]

end Bytes

end ContractVM
