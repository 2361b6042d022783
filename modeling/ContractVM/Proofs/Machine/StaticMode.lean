import ContractVM.Ledger.Basic
import ContractVM.Proofs.Machine.Terms

/-!
# Forbidding what is never done

A write is the only thing that a message that allows reading only does not do.  So a message whose
run never writes may as well be sent as such a message (`Message.call_of_no_stores`).

The run is known by the calls that reach its backend.  They only become more (`Machine.calls_run`),
and an instruction that asks for a write makes one (`Machine.exists_store_of_step`).
-/

namespace ContractVM

variable {σ : Type} [Backend σ] {cfg : Config}

namespace Machine

variable {m m₁ : Machine (Logged σ)}

/-- What has reached the backend before a step is still in the log behind it. -/
theorem calls_step (cfg : Config) (m : Machine (Logged σ)) :
    m.env.calls <+: (m.step cfg).env.calls := by
  obtain ⟨made, -, hcalls⟩ := stepCalls_step cfg m
  rw [hcalls]
  exact List.prefix_append _ _

/-- What has reached the backend before a run is still in the log behind it. -/
theorem calls_run (cfg : Config) (m : Machine (Logged σ)) :
    m.env.calls <+: (m.run cfg).2.calls := by
  induction m using (wellFounded_follows (σ := Logged σ) cfg).induction with
  | _ m ih =>
    have hstep := calls_step cfg m
    cases hs : m.step cfg with
    | running next =>
      rw [hs] at hstep
      rw [run_of_running hs]
      exact hstep.trans (ih next hs)
    | finished f e =>
      rw [hs] at hstep
      rw [run_of_finished hs]
      exact hstep
    | aborted reason e =>
      rw [hs] at hstep
      rw [run_of_aborted hs]
      exact hstep

/-- What a step of a run asks of the backend is in the log behind the run. -/
theorem calls_step_of_mem_trail (h : m₁ ∈ m.trail cfg) :
    (m₁.step cfg).env.calls <+: (m.run cfg).2.calls := by
  induction m using (wellFounded_follows (σ := Logged σ) cfg).induction with
  | _ m ih =>
    cases hs : m.step cfg with
    | running next =>
      rw [trail_of_running hs] at h
      rw [run_of_running hs]
      rcases List.mem_cons.1 h with rfl | h
      · rw [hs]
        exact calls_run cfg next
      · exact ih next hs h
    | finished f e =>
      rw [trail_of_finished hs] at h
      obtain rfl := List.mem_singleton.1 h
      rw [run_of_finished hs, hs]
      exact List.prefix_rfl
    | aborted reason e =>
      rw [trail_of_aborted hs] at h
      obtain rfl := List.mem_singleton.1 h
      rw [run_of_aborted hs, hs]
      exact List.prefix_rfl

/-- An instruction that asks for a write makes one. -/
theorem exists_store_of_step {byte : UInt8} {cell : Cell} {value : Word} {g : Frame}
    (ready : m.frame.ready? = some byte)
    (h : Action.exec cfg (.decode byte) m.frame = .ok (some (.store cell value)) g) :
    ∃ answer, Call.store cell value answer ∈ (m.step cfg).env.calls := by
  have hx : (m.frame.execute cfg (.decode byte) m.env).env.calls =
      m.env.calls ++ [.store cell value (m.env.store cell value).1] := by
    rw [← Env.calls_store]
    have hto := Frame.executesTo_execute cfg m.frame (.decode byte) m.env
    generalize m.frame.execute cfg (.decode byte) m.env = x at hto
    cases hto with
    | fails h' | alone h' => rw [h] at h'; cases h'
    | answered h' =>
      rw [h] at h'
      cases h'
      rw [Frame.env_after]
      rfl
    | refused h' =>
      rw [h] at h'
      cases h'
      rfl
  obtain ⟨more, hmore, -⟩ := calls_of_proceedsTo
    (proceedsTo_proceed m.callers (m.frame.execute cfg (.decode byte) m.env))
  refine ⟨(m.env.store cell value).1, ?_⟩
  rw [step_of_ready cfg m ready, hmore, hx]
  simp

end Machine

/-- The terms that forbid writing make a message that allows reading only. -/
theorem Terms.message_of_reading (more : Nat) (m : Message) :
    message ⟨more, true⟩ m = { m with isStatic := true } := by
  simp only [message, Bool.or_true]

namespace Message

/-- What has reached the backend before a transaction is closed is still in the log behind it. -/
theorem calls_prefix_close (r : Machine.Result (Logged σ)) : r.2.calls <+: (close r).2.calls := by
  obtain ⟨(error | _) | f, e⟩ := r
  · exact ⟨_, (Env.calls_rollback e).symm⟩
  · exact List.prefix_rfl
  · exact ⟨_, (Env.calls_settle e f).symm⟩

/-- **Forbidding writes changes nothing where none is made.**  Take any message, over any backend,
and assume that its run never sets a value.  If the same message allows reading only, the result is
the same, and so is all that is left: the backend, with the calls that have reached it in their
order, and the events. -/
theorem call_of_no_stores (cfg : Config) (m : Message) (e : Env σ)
    (reads : ∀ call ∈ (m.call cfg e.logged).2.calls, call.isStore = false) :
    { m with isStatic := true }.call cfg e.logged = m.call cfg e.logged := by
  rw [← Terms.message_of_reading 0]
  refine call_terms rfl rfl Iff.rfl fun m₁ hm₁ => ?_
  have hcalls : (m.call cfg e.logged).2.calls =
      (m.transact cfg (m.openCall cfg e.logged)).2.calls :=
    congrArg Logged.calls (backend_closeCall _)
  rw [hcalls] at reads
  unfold trail at hm₁
  by_cases hdepth : m.depth > cfg.maxDepth
  · rw [if_pos hdepth] at hm₁
    cases hm₁
  · rw [if_neg hdepth] at hm₁
    rw [transact, if_neg hdepth] at reads
    have hbudget := (Machine.reaches_of_mem_trail hm₁).budgeted.1.2
    refine ⟨fun byte ready => ⟨fun _ _ => rfl, fun cell value g hg => ?_⟩, fun _ _ _ => Iff.rfl,
      hbudget.memory⟩
    -- the write would be in the log
    obtain ⟨answer, hanswer⟩ := Machine.exists_store_of_step ready hg
    have hlog := (Machine.calls_step_of_mem_trail hm₁).trans (calls_prefix_close _)
    have hread := reads _ (hlog.subset hanswer)
    cases hread

/-- The message reads a cell and calls code that reads one, by a call that may write. -/
theorem call_of_no_stores_of_nested :
    let ledger : Ledger := (∅ : Ledger).setCode (.ofWord 1) (.ofList [0x5f, 0x54])
    let m := Message.new default default
      (.ofList [0x5f, 0x54, 0x5f, 0x5f, 0x5f, 0x5f, 0x5f, 0x60, 0x01, 0x5f, 0xf1])
    let e : Env Ledger := .new ledger
    (∀ call ∈ (m.call .standard e.logged).2.calls, call.isStore = false) ∧
      { m with isStatic := true }.call .standard e.logged = m.call .standard e.logged := by
  intro ledger m e
  let began := Machine.start .standard m (m.openCall .standard e.logged).checkpoint
  have hcall : m.call .standard e.logged = closeCall (close (began.run .standard)) := by
    rw [call, transact, if_neg (by decide)]
    rfl
  have hsteps : (began.advance .standard 20).result?.any
      (fun r => (closeCall (close r)).2.calls.all (!·.isStore)) = true := by
    decide +kernel
  have hreads : ∀ call ∈ (m.call .standard e.logged).2.calls, call.isStore = false := by
    intro call hc
    rw [hcall] at hc
    simpa using List.all_eq_true.1 (Machine.run_of_any_advance hsteps) call hc
  exact ⟨hreads, call_of_no_stores .standard m e hreads⟩

end Message

end ContractVM
