import ContractVM.Proofs.Frame.Composes
import ContractVM.Proofs.Frame.Queries
import ContractVM.Word.Lemmas

/-!
# Memory without an end

Code cannot tell how long the memory of its frame is: a byte past the end reads as zero, and reading
it only adds zeros.  So to the code memory is a function that gives every position a byte
(`Frame.view`), and `Frame.bytesAt` are the bytes of a range of it.

* `Action.KeepsView` : the action leaves this function as it is, whatever comes of it.  So do all
  actions but the write, and with them all instructions but one (`Action.keepsView_exec`).
* `Frame.SeesMemory` : what an instruction reads from memory, or writes to it, in terms of this
  function.

Main statement: `Frame.seesMemory_execute`.
-/

namespace ContractVM

/-! ### Strings as lists -/

namespace Bytes

theorem ofList_list (b : Bytes) : ofList b.list = b := rfl

theorem list_ofList (bytes : List UInt8) : list (ofList bytes) = bytes := rfl

theorem length_list (b : Bytes) : b.list.length = b.size := by
  rw [list, Array.length_toList]
  rfl

theorem list_eq_map_byteAt (b : Bytes) : b.list = (List.range b.size).map b.byteAt := by
  refine List.ext_getElem (by rw [length_list]; simp) fun i hi hi' => ?_
  have hin : i < b.data.size := by simpa [list] using hi
  rw [List.getElem_map, List.getElem_range, byteAt_eq_getD, Array.getElem?_eq_getElem hin]
  exact Array.getElem_toList hin

/-- A part of a string, byte by byte. -/
theorem list_extract {b : Bytes} {start n : Nat} (h : start + n ≤ b.size) :
    Bytes.list (b.extract start (start + n)) = (List.range n).map fun i => b.byteAt (start + i) := by
  have hsize : (b.extract start (start + n)).size = n := by
    rw [ByteArray.size_extract]
    omega
  rw [list_eq_map_byteAt, hsize]
  refine List.map_congr_left fun i hi => byteAt_extract ?_
  exact Nat.add_lt_add_left (List.mem_range.1 hi) start

end Bytes

/-! ### What the code of a frame sees -/

namespace Frame

/-- The memory of the frame as its code sees it. -/
def view (f : Frame) : Nat → UInt8 := Bytes.byteAt f.memory

/-- The bytes of a range, as the code of the frame sees them. -/
def bytesAt (f : Frame) (start size : Nat) : Bytes :=
  .ofList ((List.range size).map fun i => f.view (start + i))

/-- In the memory of the second frame the word at a position is this one, and all other bytes are
those of the first frame. -/
structure Stores (f : Frame) (position value : Word) (g : Frame) : Prop where
  written : bigEndian (g.bytesAt position.toNat 32).list = value.toNat
  kept : ∀ i, i < position.toNat ∨ position.toNat + 32 ≤ i → g.view i = f.view i

theorem length_list_bytesAt (f : Frame) (start size : Nat) :
    (f.bytesAt start size).list.length = size := by
  rw [bytesAt, Bytes.list_ofList, List.length_map, List.length_range]

/-- Bytes that stand in memory are seen there. -/
theorem bytesAt_of_view {f : Frame} {v : Bytes} {start : Nat}
    (h : ∀ i < v.size, f.view (start + i) = v.byteAt i) : f.bytesAt start v.size = v := by
  have hlist : ((List.range v.size).map fun i => f.view (start + i)) = v.list := by
    rw [Bytes.list_eq_map_byteAt]
    exact List.map_congr_left fun i hi => h i (List.mem_range.1 hi)
  rw [bytesAt, hlist, Bytes.ofList_list]

end Frame

namespace Memory

variable {f : Frame} {start size : Word} {range : Range} {m : Memory}

/-- Memory that was made to fit a range looks as before. -/
theorem view_of_extend (h : f.memory.extend f.memoryLimit start size = .ok (range, m)) :
    Bytes.byteAt m = f.view := by
  obtain ⟨-, rfl, -⟩ := eq_of_extend h
  funext i
  exact Bytes.byteAt_zeroExtend _ _ i

/-- The bytes of a range of memory that looks as that of the frame. -/
theorem extract_ofWords (hm : Bytes.byteAt m = f.view)
    (hin : (Range.ofWords start size).start + (Range.ofWords start size).size ≤ m.size) :
    m.extract (Range.ofWords start size).start
        ((Range.ofWords start size).start + (Range.ofWords start size).size) =
      f.bytesAt start.toNat size.toNat := by
  rw [← Bytes.ofList_list (m.extract _ _), Bytes.list_extract hin, hm, Frame.bytesAt]
  by_cases hz : size = 0
  · have hzero : (0 : Word).toNat = 0 := by decide
    rw [hz, Range.ofWords, if_pos rfl, hzero, List.range_zero, List.map_nil, List.map_nil]
  · rw [Range.ofWords, if_neg hz]

/-- The bytes of a range that memory was made to fit are those that were seen there before. -/
theorem extract_of_extend (h : f.memory.extend f.memoryLimit start size = .ok (range, m)) :
    m.extract range.start (range.start + range.size) = f.bytesAt start.toNat size.toNat := by
  have hin := end_le_of_extend h
  rw [(eq_of_extend h).1] at hin ⊢
  exact extract_ofWords (view_of_extend h) hin

end Memory

namespace Action

variable {α β : Type}

/-! ### What leaves memory as it looks -/

/-- Memory looks the same after the action, whether it fails or not. -/
structure KeepsView (a : Action α) : Prop where
  run (f : Frame) : Ensures a f (fun _ g => g.view = f.view) (fun _ g => g.view = f.view)

theorem KeepsView.bind {a : Action α} {k : α → Action β} (ha : KeepsView a)
    (hk : ∀ x, KeepsView (k x)) : KeepsView (a >>= k) := by
  refine ⟨fun f => .bind ((ha.run f).mono (fun x g hg => ?_) fun _ _ => id)⟩
  exact ((hk x).run g).mono (fun _ _ h => h.trans hg) fun _ _ h => h.trans hg

theorem keepsView_slice (b : Bytes) (start size : Nat) : KeepsView (slice b start size) := by
  refine ⟨fun f => ⟨?_⟩⟩
  unfold slice
  cases b.slice? start size <;> rfl

theorem keepsView_padded (v : Bytes) : KeepsView (padded v) := by
  refine ⟨fun f => ⟨?_⟩⟩
  unfold padded
  cases (Bytes.zeroExtend .empty 32).overwrite? 0 v <;> rfl

theorem keepsView_push (w : Word) : KeepsView (push w) :=
  ⟨fun _ => .push (fun _ => rfl) fun _ => rfl⟩

theorem keepsView_extend (start size : Word) : KeepsView (extend start size) :=
  ⟨fun _ => .extend (fun _ _ h => Memory.view_of_extend h) rfl⟩

/-- Memory looks the same after what such actions are put together to. -/
theorem composes_keepsView : Composes fun _ a => KeepsView a where
  bind := KeepsView.bind
  pure _ := ⟨fun _ => .pure rfl⟩
  get := ⟨fun _ => .get rfl⟩
  pop := ⟨fun _ => .pop (fun _ _ _ => rfl) fun _ => rfl⟩
  push := keepsView_push
  dup _ := ⟨fun f => .dup (fun _ => (keepsView_push _).run f) fun _ => rfl⟩
  swap _ := ⟨fun _ => .swap (fun _ _ => rfl) fun _ => rfl⟩
  slice := keepsView_slice
  padded := keepsView_padded
  read range := ⟨fun f => ⟨((keepsView_slice f.memory range.start range.size).run f).run⟩⟩
  advance _ := ⟨fun _ => .change rfl⟩
  stop := ⟨fun _ => .change rfl⟩
  setReturnData _ := ⟨fun _ => .change rfl⟩
  fail _ _ := ⟨fun _ => .fail rfl⟩

/-- Memory looks the same after all instructions but the one that writes to it. -/
theorem keepsView_exec (cfg : Config) {i : Instruction} (hi : i ≠ .memStore) :
    KeepsView (exec cfg i) := by
  refine composes_keepsView.exec cfg (fun _ => keepsView_extend) (fun h => absurd h hi)
    (fun _ output => ?_) fun _ => ?_
  · exact ⟨fun _ => .change rfl⟩
  · exact ⟨fun _ => .fail rfl⟩

/-- An answer does not change memory. -/
theorem keepsView_complete (q : Query) (answer : q.Answer) : KeepsView (complete q answer) := by
  cases q with
  | load cell => exact (keepsView_push _).bind fun _ => composes_keepsView.advance _
  | store cell value => exact composes_keepsView.advance _
  | code order => exact ⟨fun _ => .change rfl⟩

/-! ### What is written to memory and read from it -/

variable {f : Frame}

/-- The range of the word of memory at a position. -/
theorem ofWords_word (position : Word) :
    Range.ofWords position (.ofOffset 32) = ⟨position.toNat, 32⟩ := by
  have hsize : (Word.ofOffset 32).toNat = 32 := by decide
  have hne : Word.ofOffset 32 ≠ 0 := by decide
  rw [Range.ofWords, if_neg hne, hsize]

/-- The 32 bytes of a word in the place of bytes of memory. -/
theorem stores_copySlice {m : Memory} {position value : Word} (hm : Bytes.byteAt m = f.view)
    (hroom : position.toNat + 32 ≤ m.size) {g : Frame} {word : Bytes}
    (hword : word = .ofList value.toBytes.toList)
    (hg : g.memory = word.copySlice 0 m position.toNat word.size) : f.Stores position value g := by
  have hsize : word.size = 32 := by
    rw [hword, Bytes.size_ofList, Vector.length_toList]
  have hview (i : Nat) : g.view i = if position.toNat ≤ i ∧ i < position.toNat + 32 then
      word.byteAt (i - position.toNat) else f.view i := by
    rw [Frame.view, hg, Bytes.byteAt_copySlice (hsize.symm ▸ hroom), hsize, hm]
  have hbytes : g.bytesAt position.toNat word.size = word := by
    refine Frame.bytesAt_of_view fun i hi => ?_
    rw [hview, if_pos (by omega), Nat.add_sub_cancel_left]
  refine ⟨?_, fun i hi => ?_⟩
  · rw [← hsize, hbytes, hword, Bytes.list_ofList, Word.bigEndian_toBytes]
  · rw [hview, if_neg (by omega)]

/-- A word goes to its 32 bytes, and nowhere else. -/
theorem exec_memStore (cfg : Config) (f : Frame) : Ensures (exec cfg .memStore) f
    (fun q g => q = none ∧ ∃ position value rest, f.stack = position :: value :: rest ∧
      f.Stores position value g)
    (fun _ g => g.view = f.view) := by
  rw [exec]
  refine .bind (.pop (fun position s h₁ => .bind (.pop (fun value rest h₂ => ?_) fun _ => rfl))
    fun _ => rfl)
  obtain rfl : s = _ := h₂
  refine .bind (.extend (fun range m hm => ?_) rfl)
  have hsize : (Bytes.ofList value.toBytes.toList).size = 32 := by
    rw [Bytes.size_ofList, Vector.length_toList]
  have hlooks : Bytes.byteAt m = f.view := Memory.view_of_extend hm
  have hroom := Memory.end_le_of_extend hm
  rw [(Memory.eq_of_extend hm).1, ofWords_word] at hroom ⊢
  rw [writeWord]
  refine .bind (.write ?_ (.bind (.change (.pure ?_))))
  · rw [hsize]
    exact hroom
  · exact ⟨rfl, position, value, rest, h₁, stores_copySlice hlooks hroom rfl rfl⟩

/-- A range of memory is read as its code sees it. -/
theorem operandRange_reads {k : Bytes → Action β} {Q : β → Frame → Prop}
    (h : ∀ start size rest g, f.stack = start :: size :: rest → g.stack = rest →
      Ensures (k (f.bytesAt start.toNat size.toNat)) g Q Anyhow) :
    Ensures (operandRange >>= k) f Q Anyhow := by
  simp only [operandRange, bind_assoc]
  refine pop_ensures fun start s h₁ => pop_ensures fun size rest h₂ =>
    .bind (.extend (fun range m hm => .bind (.read (Memory.end_le_of_extend hm) ?_)) trivial)
  obtain rfl : s = _ := h₂
  rw [Memory.extract_of_extend hm]
  exact h start size rest _ h₁ rfl

theorem exec_memLoad (cfg : Config) (f : Frame) : Ensures (exec cfg .memLoad) f
    (fun q g => q = none ∧ ∃ position rest w, f.stack = position :: rest ∧ g.stack = w :: rest ∧
      w.toNat = bigEndian (f.bytesAt position.toNat 32).list) Anyhow := by
  rw [exec]
  refine pop_ensures fun position rest h => .bind (.extend (fun range m hm =>
    .bind (.read (Memory.end_le_of_extend hm) (.bind (.push (fun _ => .bind (.change (.pure
      ⟨rfl, position, rest, _, h, rfl, ?_⟩))) fun _ => trivial)))) trivial)
  have hsize : (Word.ofOffset 32).toNat = 32 := by decide
  rw [Memory.extract_of_extend hm, hsize]
  exact Word.toNat_ofBytes_of_length_le (Nat.le_of_eq (f.length_list_bytesAt position.toNat 32))

theorem exec_keccak (cfg : Config) (f : Frame) : Ensures (exec cfg .keccak) f
    (fun q g => q = none ∧ ∃ start size rest, f.stack = start :: size :: rest ∧ g.stack =
      Word.ofBytes (Keccak.hash (f.bytesAt start.toNat size.toNat)).toList :: rest) Anyhow := by
  rw [exec]
  refine operandRange_reads fun start size rest g hs hg => .bind (.push (fun _ =>
    .bind (.change (.pure ⟨rfl, start, size, rest, hs, ?_⟩))) fun _ => trivial)
  exact congrArg _ hg

theorem exec_ret_reads (cfg : Config) (f : Frame) : Ensures (exec cfg .ret) f
    (fun q g => q = none ∧ ∃ start size rest, f.stack = start :: size :: rest ∧
      g.output = f.bytesAt start.toNat size.toNat) Anyhow := by
  rw [exec]
  exact operandRange_reads fun start size rest g hs _ =>
    .bind (.change (.bind (.change (.bind (.change (.pure ⟨rfl, start, size, rest, hs, rfl⟩))))))

/-- A range that fits is read. -/
theorem operandRange_of_extend {start size : Word} {rest : Stack} {range : Range} {m : Memory}
    (hs : f.stack = start :: size :: rest)
    (hm : f.memory.extend f.memoryLimit start size = .ok (range, m)) :
    operandRange f =
      .ok (f.bytesAt start.toNat size.toNat) { f with stack := rest, memory := m } := by
  have hpop : pop { f with stack := size :: rest } = .ok size { f with stack := rest } :=
    pop_of_cons rfl
  have hextend : extend start size { f with stack := rest } =
      .ok range { f with stack := rest, memory := m } := by
    simp only [extend, hm]
  have hread : read range { f with stack := rest, memory := m } =
      .ok (m.extract range.start (range.start + range.size))
        { f with stack := rest, memory := m } := by
    simp only [read, slice, Bytes.slice?, Memory.end_le_of_extend hm, ↓reduceIte]
  rw [operandRange, bind_ok (pop_of_cons hs), bind_ok hpop, bind_ok hextend, hread,
    Memory.extract_of_extend hm]

theorem exec_revert_of_extend (cfg : Config) {start size : Word} {rest : Stack} {range : Range}
    {m : Memory} (hs : f.stack = start :: size :: rest)
    (hm : f.memory.extend f.memoryLimit start size = .ok (range, m)) :
    exec cfg .revert f = .error (.halt .revert) { f with
      stack := rest, memory := m, output := f.bytesAt start.toNat size.toNat } := by
  rw [exec, bind_ok (operandRange_of_extend hs hm)]
  rfl

/-- A call that asks for nothing lies as deep as calls may. -/
theorem order_deep (cfg : Config) (isStatic : Bool) (target : Word) (f : Frame) :
    Ensures (order cfg isStatic target) f
      (fun q _ => q = none → cfg.maxDepth < f.message.depth + 1) Anyhow := by
  refine pop_ensures fun _ _ _ => pop_ensures fun _ _ _ => pop_ensures fun _ _ _ =>
    pop_ensures fun _ _ _ => .bind (.extend (fun _ _ _ => .bind (.extend (fun _ _ _ =>
    .bind (.change (.bind (.get ?_)))) trivial)) trivial)
  split
  · rename_i deep
    exact .last fun _ _ => .last fun _ _ => .pure fun _ => deep
  · exact .last fun _ _ => .pure nofun

theorem exec_deep (cfg : Config) {i : Instruction} (hi : i = .call ∨ i = .staticCall) (f : Frame) :
    Ensures (exec cfg i) f (fun q _ => q = none → cfg.maxDepth < f.message.depth + 1) Anyhow := by
  rcases hi with rfl | rfl <;> rw [exec]
  · exact pop_ensures fun _ _ _ => pop_ensures fun _ _ _ => pop_ensures fun _ _ _ =>
      .bind (.get (order_deep cfg _ _ _))
  · exact pop_ensures fun _ _ _ => pop_ensures fun _ _ _ => order_deep cfg _ _ _

end Action

/-! ### Frames after an instruction -/

namespace Frame

variable {σ : Type} {cfg : Config} {f : Frame} {i : Instruction} {e : Env σ}

/-- The data of a call are the bytes of the range of its input. -/
theorem data_of_orders {o : CallOperands} {rest : Stack} {order : CallOrder} {g : Frame}
    (h : Orders i f o rest order g) :
    order.data = f.bytesAt o.inStart.toNat o.inSize.toNat := by
  rw [h.data]
  exact Memory.extract_ofWords (funext (f.byteAt_grownFor o)) h.inside

/-- What an instruction that the frame has executed has read from memory and written to it. -/
structure SeesMemory (cfg : Config) (f : Frame) (i : Instruction) (x : Executed σ) : Prop where
  /-- Only a write that succeeds changes memory. -/
  kept : i ≠ .memStore ∨ x.fault ≠ none → x.frame.view = f.view
  stored : i = .memStore → x.fault = none → ∃ position value rest,
    f.stack = position :: value :: rest ∧ f.Stores position value x.frame
  loaded : i = .memLoad → x.fault = none → ∃ position rest w, f.stack = position :: rest ∧
    x.frame.stack = w :: rest ∧ w.toNat = bigEndian (f.bytesAt position.toNat 32).list
  hashed : i = .keccak → x.fault = none → ∃ start size rest, f.stack = start :: size :: rest ∧
    x.frame.stack = Word.ofBytes (Keccak.hash (f.bytesAt start.toNat size.toNat)).toList :: rest
  returned : i = .ret → x.fault = none → ∃ start size rest, f.stack = start :: size :: rest ∧
    x.frame.output = f.bytesAt start.toNat size.toNat
  reverted : i = .revert → ∀ start size rest, f.stack = start :: size :: rest →
    (∃ r, f.memory.extend f.memoryLimit start size = .ok r) →
    x.fault = some (.halt .revert) ∧ x.frame.output = f.bytesAt start.toNat size.toNat
  /-- A call that succeeds is pending, unless it lies too deep. -/
  called : i = .call ∨ i = .staticCall → x.fault = none →
    (cfg.maxDepth < f.message.depth + 1 ∧ x.frame.pending = f.pending) ∨
    ∃ o rest call, i.callOperands? f.stack = some (o, rest) ∧ x.frame.pending = some call ∧
      call.message.data = f.bytesAt o.inStart.toNat o.inSize.toNat
  /-- An empty range lies anywhere. -/
  empty : ∀ start, f.memory.extend f.memoryLimit start 0 = .ok (⟨0, 0⟩, f.memory) ∧
    f.bytesAt start.toNat (0 : Word).toNat = .empty

variable [Backend σ]

/-- An instruction that asks nothing comes to what its action ensures. -/
theorem execute_alone {Q : Frame → Prop} {E : Fault → Frame → Prop}
    (h : Action.Ensures (Action.exec cfg i) f (fun q g => q = none ∧ Q g) E) :
    match (f.execute cfg i e).fault with
    | none => Q (f.execute cfg i e).frame
    | some fault => E fault (f.execute cfg i e).frame := by
  have hi := h.run
  have hx := executesTo_execute cfg f i e
  generalize f.execute cfg i e = x at hx
  cases hx with
  | fails ha =>
    rw [ha] at hi
    exact hi
  | alone ha =>
    rw [ha] at hi
    exact hi.2
  | answered ha =>
    rw [ha] at hi
    cases hi.1
  | refused ha =>
    rw [ha] at hi
    cases hi.1

/-- Memory looks the same after all instructions but the one that writes to it. -/
theorem view_execute (hi : i ≠ .memStore) : (f.execute cfg i e).frame.view = f.view := by
  have hkeeps := ((Action.keepsView_exec cfg hi).run f).run
  have hx := executesTo_execute cfg f i e
  generalize f.execute cfg i e = x at hx
  cases hx with
  | fails ha =>
    rw [ha] at hkeeps
    exact hkeeps
  | alone ha =>
    rw [ha] at hkeeps
    exact hkeeps
  | @answered q g answer ha =>
    rw [ha] at hkeeps
    have hcomplete := ((Action.keepsView_complete q answer).run g).run
    cases hr : Action.complete q answer g <;> rw [hr] at hcomplete <;>
      exact hcomplete.trans hkeeps
  | refused ha =>
    rw [ha] at hkeeps
    exact hkeeps

/-- A call that succeeds is pending, with bytes of memory as its data, unless it lies too deep. -/
theorem data_execute (hi : i = .call ∨ i = .staticCall) (ok : (f.execute cfg i e).fault = none) :
    (cfg.maxDepth < f.message.depth + 1 ∧ (f.execute cfg i e).frame.pending = f.pending) ∨
    ∃ o rest call, i.callOperands? f.stack = some (o, rest) ∧
      (f.execute cfg i e).frame.pending = some call ∧
      call.message.data = f.bytesAt o.inStart.toNat o.inSize.toNat := by
  have hdeep := (Action.exec_deep cfg hi f).run
  have hmoves := (Action.exec_moves cfg i f).run
  have hasks := (Action.exec_asks cfg i f).run
  have hx := executesTo_execute cfg f i e
  generalize f.execute cfg i e = x at hx ok
  cases hx with
  | fails ha => cases ok
  | alone ha =>
    rw [ha] at hdeep hmoves
    exact .inl ⟨hdeep rfl, hmoves.pending⟩
  | @answered q g answer ha =>
    rw [ha] at hasks
    -- calls ask for code only
    cases q with
    | load cell =>
      obtain ⟨rfl, -⟩ := hasks
      rcases hi with hi | hi <;> cases hi
    | store cell value =>
      obtain ⟨rfl, -⟩ := hasks
      rcases hi with hi | hi <;> cases hi
    | code order =>
      obtain ⟨o, rest, horders⟩ := hasks
      exact .inr ⟨o, rest, ⟨g.message.child order answer, order.output⟩, horders.operands, rfl,
        data_of_orders horders⟩
  | refused ha => cases ok

/-- **Memory without an end.**  Take any frame, any instruction and any environment, and let memory
be the function that gives every position its byte, and zero past the end.  Whatever comes of the
instruction, this function stays as it is, but for a write that succeeds, which sets the 32 bytes
of its position to those of its word.

What is read from memory is read from this function, as it was before the instruction: by a load,
by a hash, by an instruction that ends the frame with an output or reverts it with one, and by a
call for its data.  A range of no bytes is empty wherever it is said to start, and always fits. -/
theorem seesMemory_execute (cfg : Config) (f : Frame) (i : Instruction) (e : Env σ) :
    f.SeesMemory cfg i (f.execute cfg i e) where
  kept h := by
    by_cases hi : i = .memStore
    · subst hi
      have hstore := execute_alone (e := e) (Action.exec_memStore cfg f)
      have hfault := h.resolve_left (absurd rfl)
      generalize f.execute cfg .memStore e = x at hstore hfault
      obtain ⟨g, env, _ | fault⟩ := x
      · exact absurd rfl hfault
      · exact hstore
    · exact view_execute hi
  stored hi ok := by
    subst hi
    have h := execute_alone (e := e) (Action.exec_memStore cfg f)
    rwa [ok] at h
  loaded hi ok := by
    subst hi
    have h := execute_alone (e := e) (Action.exec_memLoad cfg f)
    rwa [ok] at h
  hashed hi ok := by
    subst hi
    have h := execute_alone (e := e) (Action.exec_keccak cfg f)
    rwa [ok] at h
  returned hi ok := by
    subst hi
    have h := execute_alone (e := e) (Action.exec_ret_reads cfg f)
    rwa [ok] at h
  reverted hi start size rest hs := by
    rintro ⟨⟨range, m⟩, hm⟩
    subst hi
    rw [execute, Action.exec_revert_of_extend cfg hs hm]
    exact ⟨rfl, rfl⟩
  called := data_execute
  empty start := by
    have hzero : (0 : Word).toNat = 0 := by decide
    rw [hzero]
    exact ⟨rfl, rfl⟩

end Frame

end ContractVM
