import ContractVM.Proofs.Frame.Recoded
import ContractVM.Proofs.Frame.View
import ContractVM.Proofs.Machine.Arithmetic
import ContractVM.Proofs.Machine.CallContract
import ContractVM.Proofs.Memory.Limit

/-!
# Reading past the end

Two instructions push a number that they read from a string: one from the code behind itself, and
one from the data of the message at a position that it takes from the stack.  Both read as if zeros
followed the string without an end.

* `Bytes.bytesFrom` : the bytes that are read so, and `Bytes.wordFrom` the word of them.
* `Machine.Reaches.messages` : what holds of the first message of a run, and of those of all calls,
  holds of the messages of all live frames.  So their data are no longer than there are offsets
  (`Machine.Reaches.size_data_le`), and a position that is no offset lies past the end of them.

Main statement: `Message.reads_past_end`.
-/

namespace ContractVM

/-! ### Bytes past the end -/

/-- Zeros denote zero, however many. -/
theorem Word.ofBytes_replicate (n : Nat) : ofBytes (List.replicate n 0) = 0 := by
  have hzero : pushByte 0 0 = 0 := by decide
  induction n with
  | zero => rfl
  | succ n ih =>
    rw [List.replicate_succ, ofBytes, List.foldl_cons, hzero]
    exact ih

namespace Bytes

/-- The `n` bytes from `start`, where bytes past the end are zeros. -/
def bytesFrom (b : Bytes) (start n : Nat) : List UInt8 :=
  (List.range n).map fun i => b.byteAt (start + i)

/-- The word of these bytes. -/
def wordFrom (b : Bytes) (start n : Nat) : Word := .ofBytes (b.bytesFrom start n)

variable {b : Bytes} {start n : Nat}

@[simp] theorem length_bytesFrom (b : Bytes) (start n : Nat) : (b.bytesFrom start n).length = n := by
  simp [bytesFrom]

theorem list_windowOf (b : Bytes) (start n : Nat) :
    list (b.windowOf start n) = b.bytesFrom start n := by
  rw [list_eq_map_byteAt, size_windowOf]
  exact List.map_congr_left fun i hi => byteAt_windowOf b (List.mem_range.1 hi)

/-- They are the bytes that there are, and then zeros. -/
theorem bytesFrom_eq_append (b : Bytes) (start n : Nat) :
    b.bytesFrom start n =
      (b.list.drop start).take n ++ List.replicate (n - (b.size - start)) 0 := by
  refine List.ext_getElem ?_ fun i hi hi' => ?_
  · simp [length_list]
    omega
  · have hn : i < n := by simpa using hi
    simp only [bytesFrom, List.getElem_map, List.getElem_range]
    by_cases hin : start + i < b.size
    · have hpart : i < ((b.list.drop start).take n).length := by
        simp [length_list]
        omega
      have hbyte : b.byteAt (start + i) = b[start + i] := dif_pos hin
      rw [List.getElem_append_left hpart, List.getElem_take, List.getElem_drop, hbyte]
      rfl
    · have hpart : ((b.list.drop start).take n).length ≤ i := by
        simp [length_list]
        omega
      rw [List.getElem_append_right hpart, List.getElem_replicate,
        byteAt_of_size_le (Nat.le_of_not_lt hin)]

theorem toNat_wordFrom (h : n ≤ 32) : (b.wordFrom start n).toNat = bigEndian (b.bytesFrom start n) :=
  Word.toNat_ofBytes_of_length_le (by simpa using h)

/-- All bytes past the end are zeros, and so is the word of them. -/
theorem wordFrom_of_size_le (h : b.size ≤ start) (n : Nat) : b.wordFrom start n = 0 := by
  have hlist : b.list.length ≤ start := by rwa [length_list]
  have hzeros : b.bytesFrom start n = List.replicate n 0 := by
    rw [bytesFrom_eq_append, List.drop_of_length_le hlist, Nat.sub_eq_zero_of_le h]
    simp
  rw [wordFrom, hzeros, Word.ofBytes_replicate]

end Bytes

/-! ### Instructions that read -/

namespace Action

variable {cfg : Config} {f : Frame} {n : Nat} {position : Word} {rest : Stack}

theorem number_eq (h : n ≤ 32) (b : Bytes) (start : Nat) (f : Frame) :
    number b start n f = .ok (b.wordFrom start n) f := by
  rw [number, bind_ok (window_eq h f), Bytes.list_windowOf]
  rfl

theorem exec_push_of_room (n : Fin 33) (room : f.stack.length ≠ Stack.limit) :
    exec cfg (.push n) f =
      .ok none (f.pushing (f.code.wordFrom (f.pc + 1) n) (n + 1)) := by
  have hget : (get : Action Frame) f = .ok f f := rfl
  rw [exec, bind_ok hget, bind_ok (number_eq (Nat.le_of_lt_succ n.isLt) f.code (f.pc + 1) f)]
  exact push_next_of_room _ _ room

/-- No position is too great, since one that is no offset lies past the end. -/
theorem exec_callDataLoad_of_cons (hdata : f.message.data.size ≤ Offset.bound)
    (hs : f.stack = position :: rest) (room : rest.length ≠ Stack.limit) :
    exec cfg .callDataLoad f =
      .ok none (f.replacing (f.message.data.wordFrom position.toNat 32) rest) := by
  let g : Frame := { f with stack := rest }
  have hget : (get : Action Frame) g = .ok g g := rfl
  rw [exec, bind_ok (pop_of_cons hs), bind_ok hget]
  cases h : position.toOffset? with
  | some start =>
    obtain rfl := Word.eq_toNat_of_toOffset? h
    dsimp only
    rw [bind_ok (number_eq (Nat.le_refl 32) f.message.data position.toNat g)]
    exact push_next_of_room _ 1 room
  | none =>
    -- the word is too great for an offset, so the zero that is pushed is what stands there
    have hpast : Offset.bound ≤ position.toNat := by
      by_contra hlt
      rw [Word.toOffset?_of_lt (Nat.lt_of_not_le hlt)] at h
      cases h
    rw [Bytes.wordFrom_of_size_le (Nat.le_trans hdata hpast)]
    exact push_next_of_room 0 1 room

end Action

namespace Frame

variable {σ : Type} [Backend σ] {cfg : Config} {f : Frame} {position : Word} {rest : Stack}

theorem execute_push (n : Fin 33) (room : f.stack.length ≠ Stack.limit) (e : Env σ) :
    f.execute cfg (.push n) e =
      ⟨f.pushing (f.code.wordFrom (f.pc + 1) n) (n + 1), e, none⟩ := by
  rw [execute, Action.exec_push_of_room n room]

theorem execute_callDataLoad (hdata : f.message.data.size ≤ Offset.bound)
    (hs : f.stack = position :: rest) (room : rest.length ≠ Stack.limit) (e : Env σ) :
    f.execute cfg .callDataLoad e =
      ⟨f.replacing (f.message.data.wordFrom position.toNat 32) rest, e, none⟩ := by
  rw [execute, Action.exec_callDataLoad_of_cons hdata hs room]

end Frame

/-- The bytes of the instructions that push the number behind them. -/
theorem Instruction.decode_push (n : Fin 33) : decode (.ofNat (0x5f + n)) = .push n := by
  decide +revert

/-! ### The messages of a run -/

namespace Machine.Reaches

variable {σ : Type} [Backend σ] {cfg : Config} {message : Message} {e : Env σ} {m : Machine σ}

/-- What holds of the first message, and of the message of every call that is made, holds of the
messages of all frames that are live. -/
theorem messages {P : Message → Prop} (h : Reaches cfg (start cfg message e) m) (first : P message)
    (called : ∀ m call, Reaches cfg (start cfg message e) m → m.frame.pending = some call →
      P call.message) : ∀ f ∈ m.frames, P f.message := by
  induction h with
  | refl =>
    intro f hf
    obtain rfl := List.mem_singleton.1 hf
    exact first
  | @tail m m' hr hs ih =>
    obtain ⟨hframe, hcallers⟩ := List.forall_mem_cons.1 ih
    have hto := stepsTo_step cfg m
    rw [hs] at hto
    refine List.forall_mem_cons.2 ?_
    cases hto with
    | @execute byte _ ready hx =>
      obtain ⟨hsame, hplace, -⟩ := hx.place
      have hmessage := (Frame.callFits_execute cfg (.decode byte) m.env
        (Frame.lt_size_of_ready? ready).2).1
      rw [hplace, hmessage, hsame]
      exact ⟨hframe, hcallers⟩
    | @enter call pending =>
      exact ⟨called m call hr pending, List.forall_mem_cons.2 ⟨hframe, hcallers⟩⟩
    | @leave caller callers _ ended waits hx =>
      obtain ⟨hsame, hplace, -⟩ := hx.place
      have hmessage := (Frame.advanced_resume caller.frame caller.output m.frame
        (m.env.settle m.frame)).message_pending.1
      rw [waits] at hcallers
      -- the frame that goes on has waited until now
      obtain ⟨hcaller, houter⟩ := List.forall_mem_cons.1 hcallers
      rw [hplace, hmessage, hsame]
      exact ⟨hcaller, houter⟩

/-- The data of a call are a part of memory. -/
theorem size_data_of_pending (h : Reaches cfg (start cfg message e) m) {call : PendingCall}
    (hp : m.frame.pending = some call) : call.message.data.size ≤ cfg.maxMemory := by
  obtain ⟨before, byte, -, ready, hs⟩ := h.called hp
  obtain ⟨o, rest, order, code, horders, -, rfl, hframe, -⟩ := exists_order ready hs hp
  -- memory has grown for both ranges of the call, and the data are the bytes of one of them
  have hpart : order.data.size ≤ m.frame.memory.size := by
    have hgrown : m.frame.memory = before.frame.grownFor o := by
      rw [hframe]
      rfl
    rw [horders.data, ByteArray.size_extract, hgrown]
    omega
  have hheld := h.budgeted.memoryOf_le
  rw [frames, Frame.memoryOf_cons] at hheld
  exact Nat.le_trans hpart (Nat.le_trans (Nat.le_add_right _ _) hheld)

/-- No data of a run are longer than the first ones, or than memory may be. -/
theorem size_data_le (h : Reaches cfg (start cfg message e) m) {n : Nat}
    (first : message.data.size ≤ n) (bounded : cfg.maxMemory ≤ n) :
    m.frame.message.data.size ≤ n := by
  refine h.messages (P := fun message => message.data.size ≤ n) first (fun m call hr hp => ?_)
    m.frame List.mem_cons_self
  exact Nat.le_trans (hr.size_data_of_pending hp) bounded

end Machine.Reaches

/-- **Reads past the end are zeros.**  The word of at most 32 bytes is the number that these denote,
the most significant first; and the bytes from a position are those that there are, followed by
zeros if these are too few.

With room on the stack, the instruction that pushes the `n` bytes behind itself pushes the word of
these, wherever the code ends, and moves on by `n + 1`.  The one that reads the data of the message
puts the word of 32 bytes of them in the place of the position that it finds on the stack, for all
positions of 256 bits; it only takes that no string is longer than there are offsets of 64 bits.
Nothing else changes.

In a run there is always room in the place of an operand; and if the data of the message are no
longer than that, and memory may not be longer, no data of a run are.  So its machines read whenever
that is the next instruction. -/
theorem Message.reads_past_end {σ : Type} [Backend σ] (cfg : Config) :
    (∀ (b : Bytes) (start n : Nat), n ≤ 32 →
      (b.wordFrom start n).toNat = bigEndian (b.bytesFrom start n) ∧
      b.bytesFrom start n =
        (b.list.drop start).take n ++ List.replicate (n - (b.size - start)) 0) ∧
    (∀ (f : Frame) (n : Fin 33) (e : Env σ), f.stack.length ≠ Stack.limit →
      f.execute cfg (.push n) e =
        ⟨f.pushing (f.code.wordFrom (f.pc + 1) n) (n + 1), e, none⟩) ∧
    (∀ (f : Frame) (position : Word) (rest : Stack) (e : Env σ),
      f.message.data.size ≤ Offset.bound → f.stack = position :: rest →
      rest.length ≠ Stack.limit →
      f.execute cfg .callDataLoad e =
        ⟨f.replacing (f.message.data.wordFrom position.toNat 32) rest, e, none⟩) ∧
    ∀ (message : Message) (e : Env σ) (m : Machine σ),
      Machine.Reaches cfg (.start cfg message e) m →
      (∀ n : Fin 33, m.frame.ready? = some (.ofNat (0x5f + n)) →
        m.frame.stack.length ≠ Stack.limit →
        m.step cfg = .running { m with
          frame := m.frame.pushing (m.frame.code.wordFrom (m.frame.pc + 1) n) (n + 1) }) ∧
      (∀ position rest, message.data.size ≤ Offset.bound → cfg.maxMemory ≤ Offset.bound →
        m.frame.ready? = some 0x35 → m.frame.stack = position :: rest →
        m.step cfg = .running { m with
          frame := m.frame.replacing (m.frame.message.data.wordFrom position.toNat 32) rest }) := by
  refine ⟨fun b start n hn => ⟨Bytes.toNat_wordFrom hn, b.bytesFrom_eq_append start n⟩,
    fun f n e room => Frame.execute_push n room e,
    fun f position rest e hdata hs room => Frame.execute_callDataLoad hdata hs room e,
    fun message e m h => ⟨fun n ready room => ?_, fun position rest first bounded ready hs => ?_⟩⟩
  · refine Machine.step_of_execute ready ?_
    rw [Instruction.decode_push]
    exact Frame.execute_push n room m.env
  · have hsuffix : position :: rest <:+ m.frame.stack := hs.symm ▸ List.suffix_rfl
    exact Machine.step_of_execute ready (Frame.execute_callDataLoad
      (h.size_data_le first bounded) hs (h.room hsuffix) m.env)

/-- The code ends in the middle of a number of two bytes, and the position is `2 ^ 64`. -/
theorem Message.reads_past_end_of_short :
    let cfg := Config.standard
    let message := (Message.new default default (.ofList [0x61, 0xab])).withData (.ofList [1])
    let e : Env Ledger := .new ∅
    let m := Machine.start cfg message e
    let f : Frame := { m.frame with stack := [⟨0, 0, 1, 0⟩] }
    m.step cfg = .running { m with frame := m.frame.pushing (.ofOffset 0xab00) 3 } ∧
      f.execute cfg .callDataLoad e = ⟨f.replacing 0 [], e, none⟩ := by
  intro cfg message e m f
  obtain ⟨-, -, hload, hruns⟩ := reads_past_end (σ := Ledger) cfg
  have hword : m.frame.code.wordFrom (m.frame.pc + 1) 2 = .ofOffset 0xab00 := by decide
  have hzero : f.message.data.wordFrom (⟨0, 0, 1, 0⟩ : Word).toNat 32 = 0 :=
    Bytes.wordFrom_of_size_le (by decide) 32
  refine ⟨?_, ?_⟩
  · rw [(hruns message e m .refl).1 2 (by decide) (by decide)]
    exact congrArg (fun w => Progress.running { m with frame := m.frame.pushing w 3 }) hword
  · rw [hload f _ [] e (by decide) rfl (by decide), hzero]

end ContractVM
