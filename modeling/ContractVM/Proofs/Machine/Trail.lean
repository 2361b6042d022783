import ContractVM.Proofs.Frame.Queries
import ContractVM.Proofs.Machine.Transactions

/-!
# What happens in a run, one step after another

`Machine.trail cfg m` lists the machines that a run comes to, in order, one for each step.  So what
a run does can be counted over its steps (`Machine.countP_calls_run`).

A step makes no call to the backend but the one for the query of its instruction, and those that
close transactions (`Machine.stepCalls_step`).
-/

namespace ContractVM

variable {σ : Type} [Backend σ]

namespace Machine

/-- The machines of a run, from the first to the last. -/
def trail (cfg : Config) (m : Machine σ) : List (Machine σ) :=
  match _h : m.step cfg with
  | .running m' => m :: trail cfg m'
  | .finished _ _ | .aborted _ _ => [m]
termination_by (⟨m⟩ : Under cfg σ)
decreasing_by exact _h

variable {cfg : Config} {m m' : Machine σ}

theorem trail_of_running (h : m.step cfg = .running m') : m.trail cfg = m :: m'.trail cfg := by
  rw [trail]
  split <;> simp_all

theorem trail_of_finished {f : Frame} {e : Env σ} (h : m.step cfg = .finished f e) :
    m.trail cfg = [m] := by
  rw [trail]
  split <;> simp_all

theorem trail_of_aborted {reason : Abort} {e : Env σ} (h : m.step cfg = .aborted reason e) :
    m.trail cfg = [m] := by
  rw [trail]
  split <;> simp_all

/-- The machines of a run are those that steps lead to. -/
theorem reaches_of_mem_trail (h : m' ∈ m.trail cfg) : Reaches cfg m m' := by
  -- along the run, which is never endless
  induction m using (wellFounded_follows (σ := σ) cfg).induction with
  | _ m ih =>
    cases hs : m.step cfg with
    | running next =>
      rw [trail_of_running hs] at h
      rcases List.mem_cons.1 h with rfl | h
      · exact .refl
      · exact .head hs (ih next hs h)
    | finished f e =>
      rw [trail_of_finished hs] at h
      rw [List.mem_singleton.1 h]
      exact .refl
    | aborted reason e =>
      rw [trail_of_aborted hs] at h
      rw [List.mem_singleton.1 h]
      exact .refl

/-- If one more call of a kind is made in just those steps that begin at machines of a kind, then as
many are made in the run as there are such machines. -/
theorem countP_calls_run {m : Machine (Logged σ)} {p : Call → Bool}
    {steps : Machine (Logged σ) → Bool}
    (h : ∀ m', Reaches cfg m m' → (m'.step cfg).env.calls.countP p =
      m'.env.calls.countP p + if steps m' then 1 else 0) :
    (m.run cfg).2.calls.countP p = m.env.calls.countP p + (m.trail cfg).countP steps := by
  induction m using (wellFounded_follows (σ := Logged σ) cfg).induction with
  | _ m ih =>
    have hm := h m .refl
    cases hs : m.step cfg with
    | running m' =>
      have hrest := ih m' hs fun m'' hr => h m'' (.head hs hr)
      rw [hs] at hm
      change m'.env.calls.countP p = _ at hm
      rw [run_of_running hs, trail_of_running hs, List.countP_cons, hrest, hm]
      omega
    | finished f e =>
      rw [hs] at hm
      rw [run_of_finished hs, trail_of_finished hs, List.countP_singleton]
      exact hm
    | aborted reason e =>
      rw [hs] at hm
      rw [run_of_aborted hs, trail_of_aborted hs, List.countP_singleton]
      exact hm

end Machine

/-- The machines of a message that is run in its own transaction.  There are none if it lies too
deep. -/
def Message.trail (cfg : Config) (m : Message) (e : Env σ) : List (Machine σ) :=
  if m.depth > cfg.maxDepth then [] else (Machine.start cfg m e.checkpoint).trail cfg

/-! ### The calls of one step -/

/-- What an instruction asks of the backend: nothing, or what its query asks. -/
inductive Frame.AsksFor (cfg : Config) (f : Frame) (i : Instruction) : List Call → Prop
  | nothing : AsksFor cfg f i []
  | query {q : Query} {g : Frame} (h : Action.exec cfg i f = .ok (some q) g)
    (answer : Except BackendError q.Answer) : AsksFor cfg f i [q.call answer]

theorem Frame.calls_execute (cfg : Config) (f : Frame) (i : Instruction) (e : Env (Logged σ)) :
    ∃ asked, f.AsksFor cfg i asked ∧ (f.execute cfg i e).env.calls = e.calls ++ asked := by
  have hx := executesTo_execute cfg f i e
  generalize f.execute cfg i e = x at hx
  have hanswer {q : Query} {g : Frame} (h : Action.exec cfg i f = .ok (some q) g) :
      ∃ asked, f.AsksFor cfg i asked ∧ (e.answer q).2.calls = e.calls ++ asked := by
    obtain ⟨hsame, -⟩ | hmore := e.calls_answer_eq q
    · exact ⟨[], .nothing, hsame.trans (List.append_nil _).symm⟩
    · exact ⟨[q.call _], .query h _, hmore⟩
  cases hx with
  | fails => exact ⟨[], .nothing, (List.append_nil _).symm⟩
  | alone => exact ⟨[], .nothing, (List.append_nil _).symm⟩
  | answered h =>
    rw [env_after]
    exact hanswer h
  | refused h => exact hanswer h

namespace Machine

/-- The calls of a step: those of the instruction that is executed, if one is, and then only calls
that open or close transactions. -/
inductive StepCalls (cfg : Config) (m : Machine (Logged σ)) : List Call → Prop
  | executes {byte : UInt8} (ready : m.frame.ready? = some byte) {asked more : List Call}
    (h : m.frame.AsksFor cfg (.decode byte) asked)
    (transactions : ∀ call ∈ more, call.isTransaction = true) : StepCalls cfg m (asked ++ more)
  | between {made : List Call} (ready : m.frame.ready? = none)
    (transactions : ∀ call ∈ made, call.isTransaction = true) : StepCalls cfg m made

variable {cfg : Config}

theorem isTransaction_closing (outcome : Except Abort Frame) :
    (closing outcome).isTransaction = true := by
  unfold closing
  split
  · split <;> rfl
  · rfl

/-- What has been executed makes no call, unless the backend failed and transactions are rolled
back. -/
theorem calls_of_proceedsTo {callers : List Suspended} {x : Executed (Logged σ)}
    {p : Progress (Logged σ)} (hx : ProceedsTo callers x p) :
    ∃ made, p.env.calls = x.env.calls ++ made ∧ ∀ call ∈ made, call.isTransaction = true := by
  cases hx with
  | onward => exact ⟨[], (List.append_nil _).symm, nofun⟩
  | halted => exact ⟨[], (List.append_nil _).symm, nofun⟩
  | refused =>
    refine ⟨_, x.env.calls_unwind callers, fun call hc => ?_⟩
    rw [List.eq_of_mem_replicate hc]
    rfl
  | outside => exact ⟨[], (List.append_nil _).symm, nofun⟩

/-- These are the calls of a step. -/
theorem stepCalls_step (cfg : Config) (m : Machine (Logged σ)) :
    ∃ made, m.StepCalls cfg made ∧ (m.step cfg).env.calls = m.env.calls ++ made := by
  have hto := stepsTo_step cfg m
  generalize m.step cfg = p at hto
  cases hto with
  | @execute byte _ ready hx =>
    obtain ⟨asked, hasked, hcalls⟩ := m.frame.calls_execute cfg (.decode byte) m.env
    obtain ⟨more, hmore, htransactions⟩ := calls_of_proceedsTo hx
    refine ⟨asked ++ more, .executes ready hasked htransactions, ?_⟩
    rw [hmore, hcalls, List.append_assoc]
  | enter pending =>
    refine ⟨[.checkpoint], .between (Frame.ready?_of_pending pending) fun call hc => ?_,
      m.env.calls_checkpoint⟩
    rw [List.mem_singleton.1 hc]
    rfl
  | leave ended waits hx =>
    obtain ⟨more, hmore, htransactions⟩ := calls_of_proceedsTo hx
    refine ⟨closing (.ok m.frame) :: more, .between ended.ready fun call hc => ?_, ?_⟩
    · rcases List.mem_cons.1 hc with rfl | hc
      · exact isTransaction_closing _
      · exact htransactions call hc
    · unfold Frame.resume at hmore
      rw [Frame.env_after] at hmore
      rw [hmore]
      change (m.env.settle m.frame).calls ++ more = _
      rw [Env.calls_settle, List.append_assoc]
      rfl
  | finish ended =>
    exact ⟨[], .between ended.ready nofun, (List.append_nil _).symm⟩

end Machine

end ContractVM
