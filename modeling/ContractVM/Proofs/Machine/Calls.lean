import ContractVM.Proofs.Machine.Bounds

/-!
# The calls of a run

`Machine.Serves cfg callers m m'` says that steps lead from `m` to `m'` while the frames `callers`
wait all the time.  A call that the frame of `m` has made begins at `m.enter call`, and
`Machine.Returns` says that it has come to its end at `m'`.  The next step goes on with the frame
that made the call (`Machine.Returns.step`), and nothing keeps it from going on
(`Machine.Returns.resumes`).
-/

namespace ContractVM

/-- A frame whose output lies inside goes on behind its call, or has no room for the answer. -/
theorem Frame.resume_of_covers {σ : Type} {f : Frame} {range : Range} (callee : Frame)
    (env : Env σ) (h : f.Covers range) :
    ∃ events, f.resume range callee env = ⟨f.resumed range callee, env.report events, none⟩ ∨
      f.resume range callee env = ⟨f, env.report events, some (.halt .stackOverflow)⟩ ∧
        f.stack.length = Stack.limit := by
  obtain ⟨events, hx⟩ : ∃ events, f.resume range callee env =
      after (env.report events) (Action.resume range callee f) := ⟨_, rfl⟩
  have hr := (Action.resume_ensures callee h).run
  refine ⟨events, ?_⟩
  rw [hx]
  cases ha : Action.resume range callee f with
  | ok _ g =>
    rw [ha] at hr
    obtain rfl : g = f.resumed range callee := hr
    exact .inl rfl
  | error fault g =>
    rw [ha] at hr
    obtain ⟨rfl, rfl, hfull⟩ := hr
    exact .inr ⟨rfl, hfull⟩

namespace Machine

variable {σ : Type} [Backend σ] {cfg : Config}

/-! ### Runs while frames wait -/

/-- Steps lead from the first machine to the second, and all the while these frames wait. -/
def Serves (cfg : Config) (callers : List Suspended) : Machine σ → Machine σ → Prop :=
  Relation.ReflTransGen fun m m' => m.step cfg = .running m' ∧ callers <:+ m'.callers

variable {callers : List Suspended} {m m' : Machine σ}

theorem Serves.reaches (h : Serves cfg callers m m') : Reaches cfg m m' :=
  Relation.ReflTransGen.mono (fun _ _ hs => hs.1) _ _ h

/-- In a run as a whole no frame has to wait. -/
theorem Reaches.serves (h : Reaches cfg m m') : Serves cfg [] m m' :=
  Relation.ReflTransGen.mono (fun _ _ hs => ⟨hs, List.nil_suffix⟩) _ _ h

/-- What holds at the beginning, and is kept by every step that leaves these frames waiting, holds
at the end. -/
theorem Serves.invariant {I : Machine σ → Prop} (h : Serves cfg callers m m') (hm : I m)
    (hstep : ∀ m m', I m → m.step cfg = .running m' → callers <:+ m'.callers → I m') : I m' := by
  induction h with
  | refl => exact hm
  | tail _ hs ih => exact hstep _ _ ih hs.1 hs.2

/-! ### The life of a call -/

/-- The call that the frame of the first machine has made has come to its end at the second one. -/
structure Returns (cfg : Config) (m : Machine σ) (call : PendingCall) (m' : Machine σ) : Prop where
  pending : m.frame.pending = some call
  serves : Serves cfg (m.enter call).callers (m.enter call) m'
  callers : m'.callers = (m.enter call).callers
  ended : m'.frame.Ended

/-- The frame that has made a call goes on behind it, or has no room for the answer, with what
the callee has left of the environment. -/
structure GoesOn (m : Machine σ) (call : PendingCall) (m' next : Machine σ) : Prop where
  callers : next.callers = m.callers
  frame : next.frame = Frame.resumed { m.frame with pending := none } call.output m'.frame ∨
    next.frame = Frame.halt { m.frame with pending := none } .stackOverflow
  backend : next.env.backend = (m'.env.settle m'.frame).backend
  cache : next.env.cache = (m'.env.settle m'.frame).cache

/-- The frame stands behind its call, or executes nothing any more. -/
theorem GoesOn.moves {m m' next : Machine σ} {call : PendingCall} (h : GoesOn m call m' next) :
    m.frame.pc < next.frame.pc ∨ next.frame.running = false := by
  rcases h.frame with hf | hf
  · rw [hf]
    exact .inl (Nat.lt_succ_self _)
  · rw [hf]
    exact .inr rfl

namespace Returns

variable {call : PendingCall}

theorem reaches (h : Returns cfg m call m') : Reaches cfg m m' :=
  .head (step_of_pending cfg m h.pending) h.serves.reaches

/-- The next step goes on with the frame that made the call. -/
theorem step (h : Returns cfg m call m') :
    m'.step cfg = proceed m.callers (Frame.resume { m.frame with pending := none } call.output
      m'.frame (m'.env.settle m'.frame)) := by
  obtain ⟨-, -, hc, hr, hp⟩ := h
  obtain ⟨f, callers, env⟩ := m'
  obtain rfl : callers = _ := hc
  exact step_of_ended_cons cfg f _ _ env hr hp

theorem covers (h : Returns cfg m call m') (hin : m'.InBounds) :
    Frame.Covers { m.frame with pending := none } call.output := by
  have hmem : ⟨{ m.frame with pending := none }, call.output⟩ ∈ m'.callers := by
    rw [h.callers]
    exact List.mem_cons_self
  exact (hin.callers _ hmem).output

/-- In a machine that is in bounds, nothing keeps that frame from going on. -/
theorem resumes (h : Returns cfg m call m') (hin : m'.InBounds) :
    ∃ next, m'.step cfg = .running next ∧ GoesOn m call m' next := by
  rw [h.step]
  obtain ⟨events, hx | ⟨hx, -⟩⟩ := Frame.resume_of_covers m'.frame (m'.env.settle m'.frame)
    (h.covers hin)
  · rw [hx]
    exact ⟨_, rfl, rfl, .inl rfl, rfl, rfl⟩
  · rw [hx]
    exact ⟨_, rfl, rfl, .inr rfl, rfl, rfl⟩

/-- A frame that has room for the answer goes on behind its call. -/
theorem resumes_of_room (h : Returns cfg m call m') (hin : m'.InBounds)
    (hroom : m.frame.stack.length < Stack.limit) :
    ∃ next, m'.step cfg = .running next ∧ next.callers = m.callers ∧
      next.frame = Frame.resumed { m.frame with pending := none } call.output m'.frame := by
  rw [h.step]
  obtain ⟨events, hx | ⟨-, hfull⟩⟩ := Frame.resume_of_covers m'.frame (m'.env.settle m'.frame)
    (h.covers hin)
  · rw [hx]
    exact ⟨_, rfl, rfl, rfl⟩
  · exact absurd hfull (Nat.ne_of_lt hroom)

end Returns

/-- A run that is in bounds ends early only when a backend fails to answer an instruction. -/
theorem InBounds.aborted {m : Machine σ} {reason : Abort} {e : Env σ} (h : m.InBounds)
    (hs : m.step cfg = .aborted reason e) :
    ∃ byte error, m.frame.ready? = some byte ∧ reason = .backend error ∧
      (m.frame.execute cfg (.decode byte) m.env).fault = some (.halt (.backend error)) ∧
      e = unwind (m.frame.execute cfg (.decode byte) m.env).env m.callers := by
  have hto := stepsTo_step cfg m
  rw [hs] at hto
  cases hto with
  | @execute byte _ ready hx =>
    cases hx with
    | @refused error failed => exact ⟨byte, error, ready, rfl, failed, rfl⟩
    | outside failed =>
      have hin := Frame.staysInside_execute cfg (.decode byte) m.env
        (Frame.lt_size_of_ready? ready).2
      exact absurd failed hin.fault
  | @leave caller callers _ ended waits hx =>
    have hc := h.callers caller (waits ▸ List.mem_cons_self)
    obtain ⟨events, hr | ⟨hr, -⟩⟩ := Frame.resume_of_covers m.frame (m.env.settle m.frame) hc.output
    · rw [hr] at hx
      nomatch hx
    · rw [hr] at hx
      nomatch hx

/-! ### The calls that frames wait for -/

/-- Every frame that waits has made a call, and has waited ever since. -/
theorem Reaches.suspended {cfg : Config} {message : Message} {e : Env σ} {m : Machine σ}
    (h : Reaches cfg (start cfg message e) m) {caller : Suspended} {callers : List Suspended}
    (hc : caller :: callers <:+ m.callers) :
    ∃ m₁ call, Reaches cfg (start cfg message e) m₁ ∧ m₁.frame.pending = some call ∧
      (m₁.enter call).callers = caller :: callers ∧
      Serves cfg (caller :: callers) (m₁.enter call) m := by
  induction h with
  | refl => cases List.suffix_nil.1 hc
  | @tail m m' hr hs ih =>
    -- a frame that waited before the step has gone on waiting
    have hwaited (hm : caller :: callers <:+ m.callers) :
        ∃ m₁ call, Reaches cfg (start cfg message e) m₁ ∧ m₁.frame.pending = some call ∧
          (m₁.enter call).callers = caller :: callers ∧
          Serves cfg (caller :: callers) (m₁.enter call) m' := by
      obtain ⟨m₁, call, hr₁, hp, heq, hserves⟩ := ih hm
      exact ⟨m₁, call, hr₁, hp, heq, hserves.tail ⟨hs, hc⟩⟩
    have hto := stepsTo_step cfg m
    rw [hs] at hto
    cases hto with
    | execute ready hx =>
      rw [hx.place.1] at hc
      exact hwaited hc
    | @enter call pending =>
      rcases List.suffix_cons_iff.1 hc with heq | hm
      · exact ⟨m, call, hr, pending, heq.symm, .refl⟩
      · exact hwaited hm
    | leave ended waits hx =>
      rw [hx.place.1] at hc
      exact hwaited (waits ▸ hc.trans (List.suffix_cons _ _))

/-- A frame that ends while another waits for it ends a call of that one. -/
theorem Reaches.returns {cfg : Config} {message : Message} {e : Env σ} {m : Machine σ}
    (h : Reaches cfg (start cfg message e) m) (ended : m.frame.Ended) (waits : m.callers ≠ []) :
    ∃ m₁ call, Reaches cfg (start cfg message e) m₁ ∧ Returns cfg m₁ call m := by
  cases hc : m.callers with
  | nil => exact absurd hc waits
  | cons caller callers =>
    have hsuffix : caller :: callers <:+ m.callers := hc ▸ List.suffix_rfl
    obtain ⟨m₁, call, hr, hp, heq, hserves⟩ := h.suspended hsuffix
    exact ⟨m₁, call, hr, hp, heq ▸ hserves, hc.trans heq.symm, ended⟩

end Machine

end ContractVM
