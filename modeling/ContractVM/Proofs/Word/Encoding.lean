import ContractVM.Proofs.Frame.Queries
import ContractVM.Proofs.Hex.Reading
import ContractVM.Word.Lemmas

/-!
# Words, bytes, keys and addresses

The bytes of a word, and the keys and addresses that words name, are all ways to write one number.

* `compare_bigEndian` : strings of one length are ordered as the numbers that they denote, so no
  number has two of them (`bigEndian_inj`).
* `Word.aligned` and `Word.pack` : reading a string of any length is the same as moving its last
  bytes to the end of 32 bytes and packing these into limbs, eight bytes each
  (`Word.ofBytes_eq_pack`).
* `Query.cell?` : the cell that an instruction asks about.  Its key is the word on top of the stack
  (`Action.exec_names`).

Main statement: `Word.encodings_agree`.
-/

namespace ContractVM

/-! ### Digits -/

/-- Digits are compared from the first one down, and so are numbers that have as many of them. -/
theorem compare_foldl {α : Type} [Ord α] {k : Nat} {value : α → Nat} (hlt : ∀ x, value x < k)
    (hcompare : ∀ x y, compare x y = compare (value x) (value y)) {xs ys : List α}
    (h : xs.length = ys.length) (m n : Nat) : (compare m n).then (compare xs ys) =
      compare (xs.foldl (fun n x => n * k + value x) m)
        (ys.foldl (fun n y => n * k + value y) n) := by
  induction xs generalizing ys m n with
  | nil =>
    obtain rfl : ys = [] := List.length_eq_zero_iff.1 h.symm
    exact Ordering.then_eq
  | cons x xs ih =>
    cases ys with
    | nil => cases h
    | cons y ys =>
      rw [List.compare_cons_cons, ← Ordering.then_assoc, hcompare,
        Word.compare_then (hlt x) (hlt y)]
      exact ih (Nat.succ.inj h) _ _

theorem compare_byte (a b : UInt8) : compare a b = compare a.toNat b.toNat := by
  simp only [compare, compareOfLessAndEq, UInt8.lt_iff_toNat_lt, ← UInt8.toNat_inj]

/-- Strings of one length are ordered as their numbers are. -/
theorem compare_bigEndian {a b : List UInt8} (h : a.length = b.length) :
    compare a b = compare (bigEndian a) (bigEndian b) :=
  compare_foldl UInt8.toNat_lt compare_byte h 0 0

/-- A number has only one string of a length. -/
theorem bigEndian_inj {a b : List UInt8} (h : a.length = b.length) :
    bigEndian a = bigEndian b ↔ a = b := by
  rw [← Nat.compare_eq_eq, ← compare_bigEndian h]
  exact Std.LawfulEqOrd.compare_eq_iff_eq

namespace Word

/-! ### Reading bytes as a word -/

/-- The last 32 bytes, behind as many zeros as are missing. -/
def aligned (bytes : List UInt8) : List UInt8 :=
  List.replicate (32 - bytes.length) 0 ++ bytes.drop (bytes.length - 32)

/-- The limb of eight bytes. -/
def limbAt (bytes : List UInt8) (i : Nat) : UInt64 :=
  .ofNat (bigEndian ((bytes.drop (8 * i)).take 8))

/-- The word of 32 bytes, whose first eight are the most significant limb. -/
def pack (bytes : List UInt8) : Word :=
  .ofLimbs #v[limbAt bytes 0, limbAt bytes 1, limbAt bytes 2, limbAt bytes 3]

theorem length_aligned (bytes : List UInt8) : (aligned bytes).length = 32 := by
  simp only [aligned, List.length_append, List.length_replicate, List.length_drop]
  omega

/-- The bytes in front of the last 32 do not count. -/
theorem bigEndian_aligned (bytes : List UInt8) :
    bigEndian (aligned bytes) = bigEndian bytes % 2 ^ 256 := by
  rw [aligned, Hex.bigEndian_zeros_append]
  by_cases h : bytes.length ≤ 32
  · rw [Nat.sub_eq_zero_of_le h, List.drop_zero]
    exact (Nat.mod_eq_of_lt (bigEndian_lt_of_length_le h)).symm
  · have hlength : (bytes.drop (bytes.length - 32)).length = 32 := by
      rw [List.length_drop]
      omega
    have hlast := bigEndian_lt (bytes.drop (bytes.length - 32))
    have hsum := bigEndian_append (bytes.take (bytes.length - 32)) (bytes.drop (bytes.length - 32))
    rw [List.take_append_drop] at hsum
    rw [hlength] at hlast hsum
    omega

theorem toNat_limbAt (bytes : List UInt8) (i : Nat) :
    (limbAt bytes i).toNat = bigEndian ((bytes.drop (8 * i)).take 8) := by
  have hlt : bigEndian ((bytes.drop (8 * i)).take 8) < 256 ^ 8 :=
    bigEndian_lt_of_length_le (List.length_take_le ..)
  rw [limbAt, UInt64.toNat_ofNat']
  exact Nat.mod_eq_of_lt hlt

/-- Packed bytes denote the same number. -/
theorem toNat_pack {bytes : List UInt8} (h : bytes.length = 32) :
    (pack bytes).toNat = bigEndian bytes := by
  -- each limb is split off from the bytes behind it
  have hstep (i : Nat) (rest : Nat) (hrest : 8 * i + 8 + rest = 32) :
      bigEndian (bytes.drop (8 * i)) =
        (limbAt bytes i).toNat * 256 ^ rest + bigEndian (bytes.drop (8 * i + 8)) := by
    have hlength : (bytes.drop (8 * i + 8)).length = rest := by
      rw [List.length_drop]
      omega
    have hsplit := bigEndian_append ((bytes.drop (8 * i)).take 8) ((bytes.drop (8 * i)).drop 8)
    rwa [List.take_append_drop, List.drop_drop, hlength, ← toNat_limbAt] at hsplit
  have h3 := hstep 0 24 rfl
  have h2 := hstep 1 16 rfl
  have h1 := hstep 2 8 rfl
  have h0 := hstep 3 0 rfl
  have hnone : bigEndian (bytes.drop 32) = 0 := by
    rw [List.drop_eq_nil_of_le (Nat.le_of_eq h)]
    rfl
  rw [Nat.mul_zero, List.drop_zero] at h3
  change ((((limbAt bytes 0).toNat * UInt64.size + (limbAt bytes 1).toNat) * UInt64.size +
    (limbAt bytes 2).toNat) * UInt64.size + (limbAt bytes 3).toNat) = _
  rw [UInt64.size]
  simp only [Nat.reduceMul, Nat.reduceAdd] at h3 h2 h1 h0
  omega

/-- The bytes are moved to the end of 32 and packed into limbs. -/
theorem ofBytes_eq_pack (bytes : List UInt8) : ofBytes bytes = pack (aligned bytes) := by
  rw [← toNat_inj, toNat_ofBytes, toNat_pack (length_aligned bytes), bigEndian_aligned]

/-- Writing the word of 32 bytes gives the bytes. -/
theorem toBytes_ofBytes (bytes : Vector UInt8 32) : (ofBytes bytes.toList).toBytes = bytes := by
  have hlength : bytes.toList.length = 32 := bytes.length_toList
  rw [← Vector.toList_inj, ← bigEndian_inj (by simp), bigEndian_toBytes,
    toNat_ofBytes_of_length_le (Nat.le_of_eq hlength)]

end Word

/-! ### Keys and addresses -/

theorem Key.toWord_ofWord (w : Word) : (Key.ofWord w).toWord = w := w.ofBytes_toBytes

theorem Key.ofWord_toWord (k : Key) : Key.ofWord k.toWord = k :=
  congrArg Key.mk (Word.toBytes_ofBytes k.bytes)

namespace Address

/-- The bytes of the address of a word denote its low 160 bits. -/
theorem bigEndian_ofWord (w : Word) :
    bigEndian (ofWord w).bytes.toList = w.toNat % 2 ^ 160 := by
  have hbytes : (ofWord w).bytes.toList = w.toBytes.toList.drop 12 := Vector.toList_drop
  have hlen : (w.toBytes.toList.drop 12).length = 20 := by simp
  have hlt := bigEndian_lt (w.toBytes.toList.drop 12)
  have hsum := w.bigEndian_toBytes
  rw [← List.take_append_drop 12 w.toBytes.toList, bigEndian_append] at hsum
  rw [hlen] at hlt hsum
  rw [hbytes, ← hsum]
  omega

theorem toNat_toWord (a : Address) : a.toWord.toNat = bigEndian a.bytes.toList := by
  refine Word.toNat_ofBytes_of_length_le ?_
  rw [Vector.length_toList]
  decide

theorem ofWord_toWord (a : Address) : ofWord a.toWord = a := by
  have hlt := bigEndian_lt a.bytes.toList
  rw [Vector.length_toList] at hlt
  have hbytes : (ofWord a.toWord).bytes = a.bytes := by
    rw [← Vector.toList_inj, ← bigEndian_inj (by simp), bigEndian_ofWord, toNat_toWord]
    exact Nat.mod_eq_of_lt hlt
  exact congrArg mk hbytes

end Address

/-! ### Cells that words name -/

/-- The cell that a query is about. -/
def Query.cell? : Query → Option Cell
  | .load cell => some cell
  | .store cell _ => some cell
  | .code _ => none

/-- A cell that an instruction asks about belongs to the account that the code works on, and its key
is the word on top of the stack. -/
theorem Action.exec_names (cfg : Config) (i : Instruction) (f : Frame) :
    Ensures (exec cfg i) f (fun q _ => ∀ cell, q.bind Query.cell? = some cell →
      cell.address = f.message.self ∧ f.stack.head? = some cell.key.toWord) Anyhow := by
  have hnames {key : Word} {rest : Stack} (hs : f.stack = key :: rest) (cell : Cell)
      (hcell : some ⟨f.message.self, .ofWord key⟩ = some cell) :
      cell.address = f.message.self ∧ f.stack.head? = some cell.key.toWord := by
    obtain rfl := Option.some.inj hcell
    rw [Key.toWord_ofWord, hs]
    exact ⟨rfl, rfl⟩
  by_cases hload : i = .slotLoad
  · subst hload
    rw [exec]
    exact pop_ensures fun key rest hs => .bind (.get (.pure (hnames hs)))
  · by_cases hstore : i = .slotStore
    · subst hstore
      rw [exec]
      refine pop_ensures fun key s hs => pop_ensures fun value rest hrest => .bind (.get ?_)
      dsimp only
      split
      · exact .fail trivial
      · exact .pure (hnames hs)
    · -- no other instruction asks about a cell
      refine (exec_asks cfg i f).mono (fun q g hasks cell hcell => ?_) fun _ _ => id
      rcases q with _ | (_ | _ | _)
      · cases hcell
      · exact absurd hasks.1 hload
      · exact absurd hasks.1 hstore
      · cases hcell

/-- **The ways to write a word agree.**  Bytes of any number are read as the number that they denote
modulo `2 ^ 256`: the last ones go to the end of 32 bytes, and each limb is eight of these.  Writing
a word as bytes and reading 32 bytes as a word undo each other, and so do the key of a word and the
word of a key.

So different words name different cells of an account, and whenever an instruction asks about a
cell, its key is the word on top of the stack.  The address that a word names is the word modulo
`2 ^ 160`, and the word of an address names the address. -/
theorem Word.encodings_agree :
    (∀ bytes : List UInt8, (ofBytes bytes).toNat = bigEndian bytes % 2 ^ 256 ∧
      ofBytes bytes = pack (aligned bytes)) ∧
    (∀ w : Word, bigEndian w.toBytes.toList = w.toNat ∧ ofBytes w.toBytes.toList = w) ∧
    (∀ bytes : Vector UInt8 32, (ofBytes bytes.toList).toBytes = bytes) ∧
    (∀ w : Word, (Key.ofWord w).toWord = w) ∧
    (∀ k : Key, Key.ofWord k.toWord = k) ∧
    (∀ (account : Address) (v w : Word),
      (⟨account, .ofWord v⟩ : Cell) = ⟨account, .ofWord w⟩ ↔ v = w) ∧
    (∀ (cfg : Config) (i : Instruction) (f g : Frame) (q : Query) (cell : Cell),
      Action.exec cfg i f = .ok (some q) g → q.cell? = some cell →
      cell.address = f.message.self ∧ f.stack.head? = some cell.key.toWord) ∧
    (∀ w : Word, (Address.ofWord w).toWord.toNat = w.toNat % 2 ^ 160) ∧
    (∀ a : Address, Address.ofWord a.toWord = a) := by
  refine ⟨fun bytes => ⟨toNat_ofBytes bytes, ofBytes_eq_pack bytes⟩,
    fun w => ⟨w.bigEndian_toBytes, w.ofBytes_toBytes⟩, toBytes_ofBytes, Key.toWord_ofWord,
    Key.ofWord_toWord, fun account v w => ⟨fun h => ?_, fun h => by rw [h]⟩,
    fun cfg i f g q cell hexec hcell => ?_, fun w => ?_, Address.ofWord_toWord⟩
  · have hkeys : Key.ofWord v = Key.ofWord w := (Cell.mk.inj h).2
    rw [← Key.toWord_ofWord v, hkeys, Key.toWord_ofWord]
  · have hnames := (Action.exec_names cfg i f).run
    rw [hexec] at hnames
    exact hnames cell hcell
  · rw [Address.toNat_toWord, Address.bigEndian_ofWord]

/-- A load asks about the cell of the word that it finds, here `2 ^ 64`. -/
theorem Word.encodings_agree_of_load :
    let f : Frame := { Frame.new (.new default default .empty) 0 with stack := [⟨0, 0, 1, 0⟩] }
    ∃ g cell, Action.exec .standard .slotLoad f = .ok (some (.load cell)) g ∧
      cell.address = f.message.self ∧ cell.key.toWord = ⟨0, 0, 1, 0⟩ := by
  intro f
  obtain ⟨-, -, -, -, -, -, hnames, -⟩ := encodings_agree
  obtain ⟨haddress, htop⟩ := hnames .standard .slotLoad f { f with stack := [] } _ _ rfl rfl
  exact ⟨_, _, rfl, haddress, (Option.some.inj htop).symm⟩

end ContractVM
