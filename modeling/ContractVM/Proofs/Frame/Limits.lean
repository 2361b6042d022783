import ContractVM.Proofs.Frame.Composes
import ContractVM.Proofs.Frame.Ensures
import ContractVM.Proofs.Machine.Steps

/-!
# Instructions keep to the limits of their frame

* `Frame.Fits` : memory is made of whole words and keeps to its limit, and the stack is no higher
  than a stack may be.
* `Frame.Continues f g` : whatever has been done to `f` has left the limit of its memory and how it
  was halted alone, and it fits as before.  All instructions do so (`Action.exec_continues`).
* `Frame.Quiet f g` : the output is the same, too.  The parts of instructions are quiet, and none
  of them reverts its frame or speaks for the backend (`Action.Quiet`).

Only two instructions set the output of their frame: one that ends it, and one that reverts it.
-/

namespace ContractVM

namespace Frame

/-- The memory of the frame is made of whole words and keeps to its limit, and its stack is no
higher than a stack may be. -/
structure Fits (f : Frame) : Prop where
  memory : f.memory.size ≤ f.memoryLimit
  words : 32 ∣ f.memory.size
  stack : f.stack.length ≤ Stack.limit

/-- The second frame has the limit of the first and is halted as it is, and it fits if that one
does. -/
structure Continues (f g : Frame) : Prop where
  memoryLimit : g.memoryLimit = f.memoryLimit
  halted : g.halted = f.halted
  fits : f.Fits → g.Fits

/-- The second frame continues the first, and has its output. -/
structure Quiet (f g : Frame) : Prop where
  continues : f.Continues g
  output : g.output = f.output

variable {f g h : Frame}

theorem Continues.trans (a : f.Continues g) (b : g.Continues h) : f.Continues h :=
  ⟨b.memoryLimit.trans a.memoryLimit, b.halted.trans a.halted, fun hf => b.fits (a.fits hf)⟩

/-- What takes no memory and no operands changes nothing. -/
theorem continues_of_eq (hl : g.memoryLimit = f.memoryLimit) (hh : g.halted = f.halted)
    (hm : g.memory = f.memory) (hs : g.stack = f.stack) : f.Continues g := by
  refine ⟨hl, hh, fun hf => ⟨?_, ?_, ?_⟩⟩
  · rw [hm, hl]
    exact hf.memory
  · rw [hm]
    exact hf.words
  · rw [hs]
    exact hf.stack

theorem Quiet.refl (f : Frame) : f.Quiet f := ⟨continues_of_eq rfl rfl rfl rfl, rfl⟩

theorem Quiet.trans (a : f.Quiet g) (b : g.Quiet h) : f.Quiet h :=
  ⟨a.continues.trans b.continues, b.output.trans a.output⟩

/-- A stack that fits may take the place of another. -/
theorem quiet_stack {s : Stack} (hs : f.stack.length ≤ Stack.limit → s.length ≤ Stack.limit) :
    f.Quiet { f with stack := s } :=
  ⟨⟨rfl, rfl, fun hf => ⟨hf.memory, hf.words, hs hf.stack⟩⟩, rfl⟩

/-- Memory of the same size may take the place of memory. -/
theorem quiet_memory {m : Memory} (hm : m.size = f.memory.size) :
    f.Quiet { f with memory := m } := by
  refine ⟨⟨rfl, rfl, fun hf => ⟨?_, ?_, hf.stack⟩⟩, rfl⟩
  · change m.size ≤ f.memoryLimit
    rw [hm]
    exact hf.memory
  · change 32 ∣ m.size
    rw [hm]
    exact hf.words

/-- Memory that was made to fit a range fits. -/
theorem quiet_extend {start size : Word} {range : Range} {m : Memory}
    (hm : f.memory.extend f.memoryLimit start size = .ok (range, m)) :
    f.Quiet { f with memory := m } := by
  obtain ⟨-, rfl, hlimit⟩ := Memory.eq_of_extend hm
  refine ⟨⟨rfl, rfl, fun hf => ⟨?_, ?_, hf.stack⟩⟩, rfl⟩
  · change (Bytes.zeroExtend f.memory range.wordEnd).size ≤ f.memoryLimit
    rw [Bytes.size_zeroExtend]
    exact Nat.max_le.2 ⟨hf.memory, hlimit⟩
  · change 32 ∣ (Bytes.zeroExtend f.memory range.wordEnd).size
    rw [Bytes.size_zeroExtend]
    rcases Nat.le_total f.memory.size range.wordEnd with hle | hle
    · rw [Nat.max_eq_right hle]
      exact Offset.dvd_ceil32 _
    · rw [Nat.max_eq_left hle]
      exact hf.words

end Frame

/-- The fault is neither a revert nor one of the backend. -/
def Fault.Plain : Fault → Prop
  | .halt .revert => False
  | .halt (.backend _) => False
  | _ => True

namespace Action

variable {α β : Type}

/-- The action is quiet, whether it fails or not, and its faults are plain. -/
structure Quiet (a : Action α) : Prop where
  run (f : Frame) : match a f with
    | .ok _ g => f.Quiet g
    | .error fault g => f.Quiet g ∧ fault.Plain

/-! ### Parts of instructions are quiet -/

theorem Quiet.bind {a : Action α} {k : α → Action β} (ha : Quiet a) (hk : ∀ x, Quiet (k x)) :
    Quiet (a >>= k) := by
  refine ⟨fun f => ?_⟩
  have h := ha.run f
  cases e : a f with
  | ok x g =>
    rw [e] at h
    have h' := (hk x).run g
    rw [bind_ok e]
    cases e' : k x g with
    | ok y g' =>
      rw [e'] at h'
      exact h.trans h'
    | error fault g' =>
      rw [e'] at h'
      exact ⟨h.trans h'.1, h'.2⟩
  | error fault g =>
    rw [e] at h
    rw [bind_error e]
    exact h

theorem quiet_pure (x : α) : Quiet (pure x) := ⟨.refl⟩

theorem quiet_get : Quiet (get : Action Frame) := ⟨.refl⟩

theorem quiet_fail {reason : Halt} (h : (Fault.halt reason).Plain) :
    Quiet (fail reason : Action α) := ⟨fun f => ⟨.refl f, h⟩⟩

theorem quiet_advance (n : Nat) : Quiet (advance n) :=
  ⟨fun _ => ⟨Frame.continues_of_eq rfl rfl rfl rfl, rfl⟩⟩

theorem quiet_stop : Quiet stop := ⟨fun _ => ⟨Frame.continues_of_eq rfl rfl rfl rfl, rfl⟩⟩

theorem quiet_setReturnData (data : Bytes) : Quiet (setReturnData data) :=
  ⟨fun _ => ⟨Frame.continues_of_eq rfl rfl rfl rfl, rfl⟩⟩

/-- What ensures a quiet frame, or a quiet fault, is quiet. -/
theorem quiet_of_ensures {a : Action α} (h : ∀ f : Frame,
    Ensures a f (fun _ g => f.Quiet g) (fun fault g => f.Quiet g ∧ fault.Plain)) : Quiet a :=
  ⟨fun f => (h f).run⟩

theorem quiet_pop : Quiet pop := by
  refine quiet_of_ensures fun f => .pop (fun w s hs => Frame.quiet_stack fun hf => ?_) fun _ =>
    ⟨.refl f, trivial⟩
  rw [hs] at hf
  exact Nat.le_of_succ_le hf

/-- A push that is not refused leaves the stack within its limit. -/
theorem quiet_push (w : Word) : Quiet (push w) := by
  refine quiet_of_ensures fun f => .push (fun hroom => Frame.quiet_stack fun hf => ?_) fun _ =>
    ⟨.refl f, trivial⟩
  exact Nat.lt_of_le_of_ne hf hroom

theorem quiet_dup (n : Nat) : Quiet (dup n) :=
  quiet_of_ensures fun f => .dup (fun _ => ⟨(quiet_push _).run f⟩) fun _ => ⟨.refl f, trivial⟩

theorem quiet_swap (n : Nat) : Quiet (swap n) := by
  refine quiet_of_ensures fun f => .swap (fun h₀ h => Frame.quiet_stack fun hf => ?_) fun _ =>
    ⟨.refl f, trivial⟩
  rw [List.length_set, List.length_set]
  exact hf

theorem quiet_extend (start size : Word) : Quiet (extend start size) :=
  quiet_of_ensures fun f => .extend (fun _ _ hm => Frame.quiet_extend hm) ⟨.refl f, trivial⟩

theorem quiet_slice (b : Bytes) (start size : Nat) : Quiet (slice b start size) := by
  refine ⟨fun f => ?_⟩
  unfold slice
  cases b.slice? start size with
  | some part => exact .refl f
  | none => exact ⟨.refl f, trivial⟩

theorem quiet_padded (v : Bytes) : Quiet (padded v) := by
  refine ⟨fun f => ?_⟩
  unfold padded
  cases (Bytes.zeroExtend .empty 32).overwrite? 0 v with
  | some word => exact .refl f
  | none => exact ⟨.refl f, trivial⟩

theorem quiet_read (range : Range) : Quiet (read range) :=
  ⟨fun f => (quiet_slice f.memory range.start range.size).run f⟩

/-- A write inside of memory does not change its size. -/
theorem quiet_write (start : Nat) (v : Bytes) : Quiet (write start v) := by
  refine ⟨fun f => ?_⟩
  unfold write
  cases h : f.memory.overwrite? start v with
  | some memory => exact Frame.quiet_memory (Bytes.size_of_overwrite? h)
  | none => exact ⟨.refl f, trivial⟩

/-- What quiet actions are put together to is quiet. -/
theorem composes_quiet : Composes fun _ a => Quiet a where
  bind := Quiet.bind
  pure := quiet_pure
  get := quiet_get
  pop := quiet_pop
  push := quiet_push
  dup := quiet_dup
  swap := quiet_swap
  slice := quiet_slice
  padded := quiet_padded
  read := quiet_read
  advance := quiet_advance
  stop := quiet_stop
  setReturnData := quiet_setReturnData
  fail {reason} hrevert hbackend := by
    refine quiet_fail ?_
    cases reason with
    | revert => exact hrevert rfl
    | backend error => exact hbackend error rfl
    | _ => trivial

/-! ### Instructions are quiet -/

/-- All instructions are quiet but the two that set the output. -/
theorem quiet_exec (cfg : Config) {i : Instruction} (hret : i ≠ .ret) (hrevert : i ≠ .revert) :
    Quiet (exec cfg i) := by
  refine composes_quiet.exec cfg (fun _ => quiet_extend) (fun _ => quiet_write) (fun h => ?_)
    fun h => absurd h hrevert
  rcases h with h | h
  · exact absurd h hret
  · exact absurd h hrevert

/-- The instruction that gives its frame an output and no error stops it, and asks nothing. -/
theorem exec_ret (cfg : Config) (f : Frame) : Ensures (exec cfg .ret) f
    (fun q g => f.Continues g ∧ q = none ∧ g.running = false)
    (fun fault g => f.Quiet g ∧ fault.Plain) := by
  rw [exec]
  refine .bind ⟨?_⟩
  have hquiet := (composes_quiet.operandRange quiet_extend).run f
  cases h : operandRange f with
  | ok bytes g =>
    rw [h] at hquiet
    have hends : f.Continues { g with output := bytes, running := false, pc := g.pc + 1 } :=
      hquiet.continues.trans (Frame.continues_of_eq rfl rfl rfl rfl)
    exact ⟨⟨hends, rfl, rfl⟩⟩
  | error fault g =>
    rw [h] at hquiet
    exact hquiet

/-- The instruction that reverts its frame never succeeds. -/
theorem exec_revert (cfg : Config) (f : Frame) : Ensures (exec cfg .revert) f
    (fun _ _ => False)
    (fun fault g => f.Continues g ∧ ∀ error, fault ≠ .halt (.backend error)) := by
  rw [exec]
  refine .bind ⟨?_⟩
  have hquiet := (composes_quiet.operandRange quiet_extend).run f
  cases h : operandRange f with
  | ok bytes g =>
    rw [h] at hquiet
    refine ⟨hquiet.continues.trans (Frame.continues_of_eq rfl rfl rfl rfl), ?_⟩
    rintro error he
    cases he
  | error fault g =>
    rw [h] at hquiet
    refine ⟨hquiet.1.continues, ?_⟩
    rintro error rfl
    exact hquiet.2

/-- An instruction continues its frame.  If it sets the output, it is the one that ends the frame;
it does not speak for the backend, and only the one for that reverts the frame. -/
theorem exec_continues (cfg : Config) (i : Instruction) (f : Frame) : Ensures (exec cfg i) f
    (fun q g => f.Continues g ∧
      (g.output = f.output ∨ i = .ret ∧ q = none ∧ g.running = false))
    (fun fault g => f.Continues g ∧ (∀ error, fault ≠ .halt (.backend error)) ∧
      (fault = .halt .revert → i = .revert)) := by
  have hplain (fault : Fault) (hf : fault.Plain) :
      (∀ error, fault ≠ .halt (.backend error)) ∧ (fault = .halt .revert → i = .revert) := by
    refine ⟨?_, ?_⟩
    · rintro error rfl
      exact hf.elim
    · rintro rfl
      exact hf.elim
  by_cases hret : i = .ret
  · subst hret
    refine (exec_ret cfg f).mono (fun q g hg => ⟨hg.1, .inr ⟨rfl, hg.2⟩⟩) ?_
    intro fault g hg
    exact ⟨hg.1.continues, hplain fault hg.2⟩
  by_cases hrevert : i = .revert
  · subst hrevert
    refine (exec_revert cfg f).mono (fun q g hg => hg.elim) ?_
    intro fault g hg
    exact ⟨hg.1, hg.2, fun _ => rfl⟩
  have hquiet : Ensures (exec cfg i) f _ _ := ⟨(quiet_exec cfg hret hrevert).run f⟩
  refine hquiet.mono (fun q g hg => ⟨hg.continues, .inl hg.output⟩) ?_
  intro fault g hg
  exact ⟨hg.1.continues, hplain fault hg.2⟩

/-- What goes on after an answer is quiet. -/
theorem quiet_complete (q : Query) (answer : q.Answer) : Quiet (complete q answer) := by
  cases q with
  | load cell => exact (quiet_push _).bind fun _ => quiet_advance _
  | store cell value => exact quiet_advance _
  | code order => exact ⟨fun _ => ⟨Frame.continues_of_eq rfl rfl rfl rfl, rfl⟩⟩

/-- What goes on after a call is quiet. -/
theorem quiet_resume (range : Range) (callee : Frame) : Quiet (resume range callee) :=
  (quiet_push _).bind fun _ => (quiet_setReturnData _).bind fun _ =>
    (quiet_slice _ _ _).bind fun _ => (quiet_write _ _).bind fun _ => quiet_advance _

end Action

/-! ### Frames after an instruction -/

namespace Frame

variable {σ : Type} {f g : Frame}

/-- What an instruction leaves of its frame. -/
structure Leaves (f : Frame) (i : Instruction) (x : Executed σ) : Prop where
  continues : f.Continues x.frame
  output : x.fault = none → x.frame.output = f.output ∨ i = .ret ∧ x.frame.running = false
  revert : x.fault = some (.halt .revert) → i = .revert

/-- What a quiet action leaves. -/
theorem quiet_after {α : Type} {a : Action α} (ha : Action.Quiet a) (f : Frame) (e : Env σ) :
    f.Quiet (after e (a f)).frame ∧ ∀ fault, (after e (a f)).fault = some fault → fault.Plain := by
  have h := ha.run f
  cases hr : a f with
  | ok x g =>
    rw [hr] at h
    exact ⟨h, nofun⟩
  | error fault g =>
    rw [hr] at h
    refine ⟨h.1, fun fault' hf => ?_⟩
    obtain rfl := Option.some.inj hf
    exact h.2

/-- What goes on after a call is quiet. -/
theorem quiet_resume (f : Frame) (range : Range) (callee : Frame) (e : Env σ) :
    f.Quiet (f.resume range callee e).frame ∧
      ∀ fault, (f.resume range callee e).fault = some fault → fault.Plain :=
  quiet_after (Action.quiet_resume range callee) f _

variable [Backend σ]

theorem leaves_execute (cfg : Config) (f : Frame) (i : Instruction) (e : Env σ) :
    f.Leaves i (f.execute cfg i e) := by
  have hi := (Action.exec_continues cfg i f).run
  have hx := executesTo_execute cfg f i e
  generalize f.execute cfg i e = x at hx
  cases hx with
  | fails h =>
    rw [h] at hi
    exact ⟨hi.1, nofun, fun hf => hi.2.2 (Option.some.inj hf)⟩
  | alone h =>
    rw [h] at hi
    exact ⟨hi.1, fun _ => hi.2.imp_right fun hret => ⟨hret.1, hret.2.2⟩, nofun⟩
  | @answered q g answer h ha =>
    rw [h] at hi
    obtain ⟨hquiet, hplain⟩ := quiet_after (Action.quiet_complete q answer) g (e.answer q).2
    refine ⟨hi.1.trans hquiet.continues, fun _ => ?_, fun hf => (hplain _ hf).elim⟩
    -- an instruction that ends its frame asks nothing
    rcases hi.2 with ho | ⟨-, hnone, -⟩
    · exact .inl (hquiet.output.trans ho)
    · cases hnone
  | refused h ha =>
    rw [h] at hi
    exact ⟨hi.1, nofun, nofun⟩

end Frame

end ContractVM
