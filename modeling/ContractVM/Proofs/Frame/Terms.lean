import ContractVM.Proofs.Frame.Queries
import ContractVM.Proofs.Frame.Unseen

/-!
# Frames that run on other terms

A frame runs on terms that it does not choose: the size up to which its memory may grow, and whether
it may write.  `Terms` makes them other ones, with more memory, or with writing forbidden.

* `Terms.frame` : the same frame on the other terms.  A call that it has made is on them, too.
* `Terms.Spares` : what came of an instruction had nothing to do with the terms.  It was not short
  of memory, and it did not ask for a write.
* `Action.Carries` : an instruction does the same on the other terms, if they spare it.

Main statement: `Frame.execute_terms`.  The settings may be other ones as well, as long as they
agree on whether a call nests too deep.
-/

namespace ContractVM

/-- Other terms for a frame. -/
structure Terms where
  /-- How much more memory there is. -/
  more : Nat
  /-- Writing is forbidden. -/
  reading : Bool

/-! ### On other terms -/

namespace Terms

variable {α β : Type} (t : Terms)

def order (o : CallOrder) : CallOrder := { o with isStatic := o.isStatic || t.reading }

def query : Query → Query
  | .code o => .code (t.order o)
  | q => q

def message (m : Message) : Message := { m with isStatic := m.isStatic || t.reading }

def call (c : PendingCall) : PendingCall := { c with message := t.message c.message }

/-- What the other terms change in a frame. -/
def change : Frame.Change := ⟨t.message, (· + t.more), Option.map t.call⟩

/-- The same frame on the other terms. -/
abbrev frame (f : Frame) : Frame := t.change.frame f

/-- The same outcome, with its frame on the other terms. -/
abbrev outcome (u : α → β) :
    EStateM.Result Fault Frame α → EStateM.Result Fault Frame β := t.change.outcome u

/-- The terms have nothing to do with what came of an instruction. -/
structure Spares (r : EStateM.Result Fault Frame (Option Query)) : Prop where
  memory : ∀ g, r = .error (.halt .memoryLimit) g → t.more = 0
  write : ∀ cell value g, r = .ok (some (.store cell value)) g → t.reading = false

theorem ready?_frame (f : Frame) : (t.frame f).ready? = f.ready? := by
  obtain ⟨_, _, _, _, _, _, _, _, _, pending⟩ := f
  cases pending <;> rfl

end Terms

/-- Memory that fits fits within a higher limit. -/
theorem Memory.extend_of_le {m m' : Memory} {limit limit' : Nat} {start size : Word}
    {range : Range} (h : m.extend limit start size = .ok (range, m')) (le : limit ≤ limit') :
    m.extend limit' start size = .ok (range, m') := by
  unfold extend at h ⊢
  split at h
  · rename_i hzero
    rw [if_pos hzero]
    exact h
  · rename_i hzero
    rw [if_neg hzero]
    split at h
    · split at h
      · rename_i hneeded hstop
        simp only [Nat.le_trans hstop le, ↓reduceIte]
        exact h
      · cases h
    · cases h

namespace Action

variable {α β : Type} {t : Terms} {f : Frame}

/-! ### Instructions on other terms -/

/-- From `f`, the second instruction does on the other terms what the first one does, if the terms
have nothing to do with it. -/
structure Carries (t : Terms) (a b : Action (Option Query)) (f : Frame) : Prop where
  run : t.Spares (a f) → b (t.frame f) = t.outcome (Option.map t.query) (a f)

theorem Unseen.carries {a : Action α} {k k' : α → Action (Option Query)} (ha : Unseen t.change a)
    (hk : ∀ x g, Carries t (k x) (k' x) g) : Carries t (a >>= k) (a >>= k') f := by
  refine ⟨fun spares => ?_⟩
  have h := ha.run f
  cases e : a f with
  | ok x g =>
    rw [e] at h
    rw [bind_ok e] at spares ⊢
    rw [bind_ok h]
    exact (hk x g).run spares
  | error fault g =>
    rw [e] at h
    rw [bind_error e, bind_error h]
    rfl

/-- What reads the frame carries over if what follows does the same with either frame. -/
theorem carries_get {k k' : Frame → Action (Option Query)}
    (h : Carries t (k f) (k' (t.frame f)) f) : Carries t (get >>= k) (get >>= k') f := by
  have hget (f : Frame) : (get : Action Frame) f = .ok f f := rfl
  refine ⟨fun spares => ?_⟩
  rw [bind_ok (hget f)] at spares ⊢
  rw [bind_ok (hget (t.frame f))]
  exact h.run spares

theorem carries_pop {k k' : Word → Action (Option Query)}
    (h : ∀ w s, f.stack = w :: s → Carries t (k w) (k' w) { f with stack := s }) :
    Carries t (pop >>= k) (pop >>= k') f := by
  refine ⟨fun spares => ?_⟩
  cases hs : f.stack with
  | nil =>
    have hpop : pop f = .error (.halt .stackUnderflow) f := by simp only [pop, hs, Stack.pop]
    have hpop' := (unseen_pop (c := t.change)).run f
    rw [hpop] at hpop'
    rw [bind_error hpop, bind_error hpop']
    rfl
  | cons w s =>
    have hpop : pop f = .ok w { f with stack := s } := by simp only [pop, hs, Stack.pop]
    have hpop' := (unseen_pop (c := t.change)).run f
    rw [hpop] at hpop'
    rw [bind_ok hpop] at spares ⊢
    rw [bind_ok hpop']
    exact (h w s hs).run spares

/-- Memory is made to fit as before, unless the frame is short of it. -/
theorem carries_extend {start size : Word} {k k' : Range → Action (Option Query)}
    (h : ∀ range m, Carries t (k range) (k' range) { f with memory := m }) :
    Carries t (extend start size >>= k) (extend start size >>= k') f := by
  refine ⟨fun spares => ?_⟩
  cases he : f.memory.extend f.memoryLimit start size with
  | ok r =>
    have hf : extend start size f = .ok r.1 { f with memory := r.2 } := by simp only [extend, he]
    have hf' := extend_change (c := t.change)
      ((Memory.extend_of_le he (Nat.le_add_right _ t.more)).trans he.symm)
    rw [hf] at hf'
    rw [bind_ok hf] at spares ⊢
    rw [bind_ok hf']
    exact (h r.1 r.2).run spares
  | error reason =>
    obtain rfl := Memory.extend_error he
    have hf : extend start size f = .error (.halt .memoryLimit) f := by simp only [extend, he]
    rw [bind_error hf] at spares ⊢
    have hlimit : t.change.memoryLimit f.memoryLimit = f.memoryLimit := by
      change f.memoryLimit + t.more = f.memoryLimit
      rw [spares.memory f rfl, Nat.add_zero]
    have hf' := extend_change (c := t.change) (congrArg (f.memory.extend · start size) hlimit)
    rw [hf] at hf'
    rw [bind_error hf']
    rfl

theorem carries_setReturnData {data : Bytes} {k k' : Unit → Action (Option Query)}
    (h : Carries t (k ()) (k' ()) { f with returnData := data }) :
    Carries t (setReturnData data >>= k) (setReturnData data >>= k') f :=
  ⟨fun spares => h.run spares⟩

theorem carries_ite {p p' : Prop} [Decidable p] [Decidable p'] {a a' b b' : Action (Option Query)}
    (same : p ↔ p') (ha : Carries t a a' f) (hb : Carries t b b' f) :
    Carries t (if p then a else b) (if p' then a' else b') f := by
  by_cases h : p
  · rw [if_pos h, if_pos (same.1 h)]
    exact ha
  · rw [if_neg h, if_neg (mt same.2 h)]
    exact hb

theorem carries_fail (reason : Halt) : Carries t (fail reason) (fail reason) f := ⟨fun _ => rfl⟩

theorem carries_next (size : Nat) : Carries t (next size) (next size) f := ⟨fun _ => rfl⟩

theorem carries_push_next (w : Word) (size : Nat) :
    Carries t (push w >>= fun _ => next size) (push w >>= fun _ => next size) f :=
  (unseen_push w).carries fun _ _ => carries_next size

theorem carries_operandRange {k k' : Bytes → Action (Option Query)}
    (h : ∀ bytes g, Carries t (k bytes) (k' bytes) g) :
    Carries t (operandRange >>= k) (operandRange >>= k') f := by
  simp only [operandRange, bind_assoc]
  exact carries_pop fun _ _ _ => carries_pop fun _ _ _ => carries_extend fun _ _ =>
    (unseen_read _).carries h

/-- Settings agree on whether a call by the frame nests too deep, if it has the operands of one. -/
def AgreeOnDepth (cfg cfg' : Config) (f : Frame) (i : Instruction) : Prop :=
  (i.callOperands? f.stack).isSome →
    (f.message.depth + 1 > cfg.maxDepth ↔ f.message.depth + 1 > cfg'.maxDepth)

variable {cfg cfg' : Config}

theorem carries_order (isStatic : Bool) (target : Word)
    (deep : ∀ a b c d s, f.stack = a :: b :: c :: d :: s →
      (f.message.depth + 1 > cfg.maxDepth ↔ f.message.depth + 1 > cfg'.maxDepth)) :
    Carries t (order cfg isStatic target) (order cfg' (isStatic || t.reading) target) f := by
  refine carries_pop fun inStart s₁ h₁ => carries_pop fun inSize s₂ h₂ =>
    carries_pop fun outStart s₃ h₃ => carries_pop fun outSize s₄ h₄ =>
    carries_extend fun input m => carries_extend fun output m' => ?_
  obtain rfl : s₁ = inSize :: s₂ := h₂
  obtain rfl : s₂ = outStart :: s₃ := h₃
  obtain rfl : s₃ = outSize :: s₄ := h₄
  have hdeep := deep _ _ _ _ _ h₁
  exact carries_setReturnData (carries_get (carries_ite hdeep (carries_push_next 0 1)
    ((unseen_read input).carries fun _ _ => ⟨fun _ => rfl⟩)))

/-- A write that is asked for was not forbidden. -/
theorem carries_store (cell : Cell) (value : Word) (isStatic : Bool) :
    Carries t (if isStatic then fail .staticWrite else return some (.store cell value))
      (if isStatic || t.reading then fail .staticWrite else return some (.store cell value)) f := by
  cases isStatic with
  | true => exact carries_fail .staticWrite
  | false =>
    refine ⟨fun spares => ?_⟩
    have hreading : t.reading = false := spares.write cell value f rfl
    rw [hreading]
    rfl

/-- An instruction does the same on other terms, and under settings that agree on its depth. -/
theorem carries_exec (i : Instruction) (deep : AgreeOnDepth cfg cfg' f i) :
    Carries t (exec cfg i) (exec cfg' i) f := by
  cases i <;> rw [exec, exec]
  case stop => exact unseen_stop.carries fun _ _ => carries_next 1
  case add | sub | lt | gt | eq =>
    exact unseen_pop.carries fun _ _ => unseen_pop.carries fun _ _ => carries_push_next _ 1
  case isZero => exact unseen_pop.carries fun _ _ => carries_push_next _ 1
  case keccak => exact carries_operandRange fun _ _ => carries_push_next _ 1
  case address | caller | callDataSize => exact carries_get (carries_push_next _ 1)
  case callDataLoad =>
    refine unseen_pop.carries fun position g => carries_get ?_
    cases position.toOffset? with
    | some start => exact (unseen_number _ _ _).carries fun _ _ => carries_push_next _ 1
    | none => exact carries_push_next 0 1
  case pop => exact unseen_pop.carries fun _ _ => carries_next 1
  case memLoad =>
    exact unseen_pop.carries fun _ _ => carries_extend fun _ _ => (unseen_read _).carries
      fun _ _ => carries_push_next _ 1
  case memStore =>
    exact unseen_pop.carries fun _ _ => unseen_pop.carries fun _ _ => carries_extend fun _ _ =>
      (unseen_write _ _).carries fun _ _ => carries_next 1
  case slotLoad => exact unseen_pop.carries fun _ g => carries_get ⟨fun _ => rfl⟩
  case slotStore =>
    refine unseen_pop.carries fun key _ => unseen_pop.carries fun value g => carries_get ?_
    exact carries_store ⟨g.message.self, .ofWord key⟩ value g.message.isStatic
  case push size =>
    exact carries_get ((unseen_number _ _ _).carries fun _ _ => carries_push_next _ _)
  case dup place => exact (unseen_dup place).carries fun _ _ => carries_next 1
  case swap place => exact (unseen_swap place).carries fun _ _ => carries_next 1
  case call =>
    refine carries_pop fun gas s₁ h₁ => carries_pop fun target s₂ h₂ => carries_pop
      fun value s₃ h₃ => carries_get (carries_order _ target fun a b c d s h₄ => deep ?_)
    obtain rfl : s₁ = target :: s₂ := h₂
    obtain rfl : s₂ = value :: s₃ := h₃
    obtain rfl : s₃ = a :: b :: c :: d :: s := h₄
    rw [h₁]
    rfl
  case ret =>
    exact carries_operandRange fun _ _ => (unseen_setOutput _).carries fun _ _ =>
      unseen_stop.carries fun _ _ => carries_next 1
  case staticCall =>
    refine carries_pop fun gas s₁ h₁ => carries_pop fun target s₂ h₂ =>
      carries_order true target fun a b c d s h₃ => deep ?_
    obtain rfl : s₁ = target :: s₂ := h₂
    obtain rfl : s₂ = a :: b :: c :: d :: s := h₃
    rw [h₁]
    rfl
  case revert =>
    exact carries_operandRange fun _ _ => (unseen_setOutput _).carries fun _ _ =>
      carries_fail .revert
  case invalid byte => exact carries_fail _

/-- A call that is begun on other terms has them, too. -/
theorem complete_code_terms (o : CallOrder) (code : Bytes) (f : Frame) :
    complete (.code (t.order o)) code (t.frame f) =
      t.outcome id (complete (.code o) code f) := rfl

end Action

/-! ### Frames after an instruction -/

variable {σ : Type} {t : Terms}

/-- The same has been executed, by a frame on the other terms. -/
def Terms.executed (t : Terms) (x : Executed σ) : Executed σ := { x with frame := t.frame x.frame }

namespace Frame

theorem after_terms {α : Type} (e : Env σ) (r : EStateM.Result Fault Frame α) :
    after e (t.outcome id r) = t.executed (after e r) := by
  cases r <;> rfl

theorem after_of_unseen {α : Type} {a : Action α} (ha : Action.Unseen t.change a) (e : Env σ)
    (f : Frame) : after e (a (t.frame f)) = t.executed (after e (a f)) := by
  rw [ha.run f]
  exact after_terms e (a f)

/-- A frame goes on after a call as it does on its own terms. -/
theorem resume_terms (f : Frame) (range : Range) (callee : Frame) (e : Env σ) :
    (t.frame f).resume range (t.frame callee) e = t.executed (f.resume range callee e) :=
  after_of_unseen (Action.unseen_resume range callee) _ f

/-- **An instruction does the same on other terms**, if they have nothing to do with what came of
it and the settings agree on whether a call nests too deep. -/
theorem execute_terms [Backend σ] {cfg cfg' : Config} {f : Frame} {i : Instruction}
    (spares : t.Spares (Action.exec cfg i f)) (deep : Action.AgreeOnDepth cfg cfg' f i)
    (e : Env σ) : (t.frame f).execute cfg' i e = t.executed (f.execute cfg i e) := by
  have h := (Action.carries_exec i deep).run spares
  unfold execute
  rw [h]
  cases Action.exec cfg i f with
  | error fault g => rfl
  | ok q g =>
    rcases q with _ | cell | ⟨cell, value⟩ | o
    · rfl
    · simp only [Frame.Change.outcome, Option.map_some, Terms.query]
      rcases e.answer (.load cell) with ⟨error | value, env⟩
      · rfl
      · exact after_of_unseen (Action.unseen_complete_load cell value) env g
    · simp only [Frame.Change.outcome, Option.map_some, Terms.query]
      rcases e.answer (.store cell value) with ⟨error | _, env⟩
      · rfl
      · exact after_of_unseen (Action.unseen_complete_store cell value) env g
    · simp only [Frame.Change.outcome, Option.map_some, Terms.query]
      have hsame : e.answer (.code (t.order o)) = e.answer (.code o) := rfl
      rw [hsame]
      rcases e.answer (.code o) with ⟨error | code, env⟩
      · rfl
      · exact (congrArg (after env) (Action.complete_code_terms o code g)).trans
          (after_terms env _)

end Frame

end ContractVM
