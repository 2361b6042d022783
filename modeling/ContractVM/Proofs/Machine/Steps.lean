import ContractVM.Proofs.Machine.Reaches

/-!
# What a step leads to

The definitions of the machine branch on what they find.  Here each of them is turned into a list
of what can come of it, so that what steps keep is proved along these lists.

* `Frame.ExecutesTo` : an instruction fails or moves on by itself, or its query is answered, or
  the backend refuses to answer it.
* `Machine.ProceedsTo` : a frame that has executed something goes on, or halts, or ends the run.
* `Machine.StepsTo` : a step executes an instruction, begins the call that the frame has made, ends
  the frame and goes on with the one that waits for it, or finishes the run.
-/

namespace ContractVM

variable {σ : Type}

theorem Frame.env_after {α : Type} (e : Env σ) (r : EStateM.Result Fault Frame α) :
    (after e r).env = e := by
  cases r <;> rfl

/-- A frame that is ready for a byte runs, and stands at it. -/
theorem Frame.running_of_ready? {f : Frame} {byte : UInt8} (h : f.ready? = some byte) :
    f.running = true ∧ f.opcode? = some byte := by
  unfold ready? at h
  by_cases hr : f.running ∧ f.pc < f.code.size ∧ f.pending.isNone
  · rw [dif_pos hr] at h
    obtain rfl := Option.some.inj h
    exact ⟨hr.1, getElem?_pos f.code f.pc hr.2.1⟩
  · rw [dif_neg hr] at h
    cases h

variable [Backend σ] {cfg : Config}

namespace Frame

/-- What comes of executing an instruction. -/
inductive ExecutesTo (cfg : Config) (f : Frame) (i : Instruction) (e : Env σ) : Executed σ → Prop
  | fails {fault : Fault} {g : Frame} (h : Action.exec cfg i f = .error fault g) :
    ExecutesTo cfg f i e ⟨g, e, some fault⟩
  | alone {g : Frame} (h : Action.exec cfg i f = .ok none g) : ExecutesTo cfg f i e ⟨g, e, none⟩
  | answered {q : Query} {g : Frame} {answer : q.Answer} (h : Action.exec cfg i f = .ok (some q) g)
    (ha : (e.answer q).1 = .ok answer) :
    ExecutesTo cfg f i e (after (e.answer q).2 (Action.complete q answer g))
  | refused {q : Query} {g : Frame} {error : BackendError}
    (h : Action.exec cfg i f = .ok (some q) g) (ha : (e.answer q).1 = .error error) :
    ExecutesTo cfg f i e ⟨g, (e.answer q).2, some (.halt (.backend error))⟩

theorem executesTo_execute (cfg : Config) (f : Frame) (i : Instruction) (e : Env σ) :
    ExecutesTo cfg f i e (f.execute cfg i e) := by
  unfold execute
  cases h : Action.exec cfg i f with
  | error fault g => exact .fails h
  | ok q g =>
    cases q with
    | none => exact .alone h
    | some q =>
      dsimp only
      split
      · rename_i answer env ha
        obtain rfl : (e.answer q).2 = env := congrArg Prod.snd ha
        exact .answered h (congrArg Prod.fst ha)
      · rename_i error env ha
        obtain rfl : (e.answer q).2 = env := congrArg Prod.snd ha
        exact .refused h (congrArg Prod.fst ha)

end Frame

namespace Machine

/-- What comes of a frame that has executed something. -/
inductive ProceedsTo (callers : List Suspended) (x : Executed σ) : Progress σ → Prop
  | onward (ok : x.fault = none) : ProceedsTo callers x (.running ⟨x.frame, callers, x.env⟩)
  | halted {reason : Halt} (failed : x.fault = some (.halt reason))
    (own : ∀ error, reason ≠ .backend error) : ProceedsTo callers x
      (.running ⟨x.frame.halt reason, callers, x.env.report (haltEvents x.frame reason)⟩)
  | refused {error : BackendError} (failed : x.fault = some (.halt (.backend error))) :
    ProceedsTo callers x (.aborted (.backend error) (unwind x.env callers))
  | outside (failed : x.fault = some .outOfBounds) :
    ProceedsTo callers x (.aborted .outOfBounds x.env)

theorem proceedsTo_proceed (callers : List Suspended) (x : Executed σ) :
    ProceedsTo callers x (proceed callers x) := by
  obtain ⟨f, env, fault⟩ := x
  rcases fault with _ | reason | _
  · exact .onward rfl
  · cases reason with
    | backend error => exact .refused rfl
    | _ => exact .halted rfl nofun
  · exact .outside rfl

/-- What has been executed goes on at its message, with the call that it has made. -/
theorem ProceedsTo.place {callers : List Suspended} {x : Executed σ} {m : Machine σ}
    (h : ProceedsTo callers x (.running m)) :
    m.callers = callers ∧ m.frame.message = x.frame.message ∧
      m.frame.pending = x.frame.pending := by
  cases h with
  | onward => exact ⟨rfl, rfl, rfl⟩
  | halted => exact ⟨rfl, rfl, rfl⟩

end Machine

/-- The frame executes nothing any more, and has made no call. -/
structure Frame.Ended (f : Frame) : Prop where
  ready : f.ready? = none
  pending : f.pending = none

namespace Machine

/-- What comes of a step. -/
inductive StepsTo (cfg : Config) (m : Machine σ) : Progress σ → Prop
  | execute {byte : UInt8} {p : Progress σ} (ready : m.frame.ready? = some byte)
    (h : ProceedsTo m.callers (m.frame.execute cfg (.decode byte) m.env) p) : StepsTo cfg m p
  | enter {call : PendingCall} (pending : m.frame.pending = some call) :
    StepsTo cfg m (.running (m.enter call))
  | leave {caller : Suspended} {callers : List Suspended} {p : Progress σ} (ended : m.frame.Ended)
    (waits : m.callers = caller :: callers)
    (h : ProceedsTo callers
      (caller.frame.resume caller.output m.frame (m.env.settle m.frame)) p) : StepsTo cfg m p
  | finish (ended : m.frame.Ended) (none : m.callers = []) :
    StepsTo cfg m (.finished m.frame m.env)

theorem stepsTo_step (cfg : Config) (m : Machine σ) : StepsTo cfg m (m.step cfg) := by
  obtain ⟨f, callers, env⟩ := m
  cases hr : f.ready? with
  | some byte =>
    rw [step_of_ready cfg _ hr]
    exact .execute hr (proceedsTo_proceed _ _)
  | none =>
    cases hp : f.pending with
    | some call =>
      rw [step_of_pending cfg _ hp]
      exact .enter hp
    | none =>
      cases callers with
      | nil =>
        rw [step_of_ended_nil cfg f env hr hp]
        exact .finish ⟨hr, hp⟩ rfl
      | cons caller callers =>
        rw [step_of_ended_cons cfg f caller callers env hr hp]
        exact .leave ⟨hr, hp⟩ rfl (proceedsTo_proceed _ _)

end Machine

end ContractVM
