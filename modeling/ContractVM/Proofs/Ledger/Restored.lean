import ContractVM.Proofs.Ledger.Nesting
import ContractVM.Proofs.Machine.Finite

/-!
# What fails leaves no trace

A message that fails leaves the ledger as it found it, whatever its calls have done, kept or undone:
accounts and storage, and also the journal and the checkpoints of the transactions that were open
before.  So does every call within a run: when the frame that made a failed call goes on, the
ledger is the one that there was when that frame began to wait (`Machine.Returns.ledger_eq`).

`Message.failure_leaves_no_trace` is the statement about all messages, over any ledger that can come
about, and any backend in front of it.
-/

namespace ContractVM

variable {σ : Type} [Backend σ]

/-! ### The end of a transaction -/

/-- An error rolls the transaction back. -/
theorem Env.settle_of_halted (e : Env σ) {f : Frame} (h : f.halted ≠ none) :
    e.settle f = e.rollback := by
  unfold Env.settle
  rw [if_neg]
  intro hf
  exact h (Option.isNone_iff_eq_none.1 hf)

/-- A cache that is still there after a rollback is empty. -/
theorem Env.eq_empty_of_cache_rollback {e : Env σ} {cache : SlotCache}
    (h : e.rollback.cache = .active cache) : cache = ∅ := by
  unfold Env.rollback at h
  rw [Env.cache_updateCache] at h
  cases hc : e.cache with
  | absent =>
    rw [hc] at h
    cases h
  | active before =>
    rw [hc] at h
    exact (Attachment.active.inj h).symm

/-- The message has not come to an end without an error. -/
def Message.Failed : Except Abort Frame → Prop
  | .ok f => f.halted ≠ none
  | .error _ => True

instance (outcome : Except Abort Frame) : Decidable (Message.Failed outcome) :=
  match outcome with
  | .ok f => inferInstanceAs (Decidable (f.halted ≠ none))
  | .error _ => inferInstanceAs (Decidable True)

/-- The transaction of a message that fails is rolled back. -/
theorem Message.close_of_failed {r : Machine.Result σ} (hne : r.1 ≠ .error .outOfBounds)
    (h : Failed (close r).1) : (close r).2 = r.2.rollback := by
  obtain ⟨(error | _) | f, env⟩ := r
  · rfl
  · exact absurd rfl hne
  · exact env.settle_of_halted h

/-! ### Ledgers are restored -/

variable [Front σ] {cfg : Config}

/-- When the frame that made a failed call goes on, the ledger is as it was when the frame began to
wait. -/
theorem Machine.Returns.ledger_eq {m m' next : Machine σ} {call : PendingCall}
    (h : Returns cfg m call m') (hm : m.env.ledger.Canonical) (hf : m'.frame.halted ≠ none)
    (hnext : GoesOn m call m' next) : next.env.ledger = m.env.ledger := by
  have hopened : Ledger.Opened [m.env.ledger] m'.env.ledger := h.marked Ledger.nests_opened.env hm
  have hsettled : next.env.ledger = (m'.env.settle m'.frame).ledger :=
    congrArg Front.ledger hnext.backend
  rw [hsettled, m'.env.settle_of_halted hf, Env.ledger_rollback]
  exact hopened.rollback_eq

namespace Message

/-- A message that fails leaves the ledger as it was, and nothing in a cache. -/
theorem transact_of_failed {m : Message} {e : Env σ} (hdepth : ¬m.depth > cfg.maxDepth)
    (he : e.ledger.Canonical) (h : Failed (m.transact cfg e).1) :
    (m.transact cfg e).2.ledger = e.ledger ∧
      ∀ cache, (m.transact cfg e).2.cache = .active cache → cache = ∅ := by
  have htransact : m.transact cfg e = close (m.execute cfg e.checkpoint) := by
    unfold transact
    rw [if_neg hdepth]
  have hbegin : Ledger.Opened [e.ledger] e.checkpoint.ledger := by
    rw [Env.ledger_checkpoint]
    exact Ledger.Opened.checkpoint he
  have hend : Ledger.Opened [e.ledger] (m.execute cfg e.checkpoint).2.ledger :=
    Ledger.nests_opened.env.execute m hbegin
  rw [htransact] at h ⊢
  rw [close_of_failed (execute_ne_outOfBounds m e.checkpoint) h]
  refine ⟨?_, fun cache hc => Env.eq_empty_of_cache_rollback hc⟩
  rw [Env.ledger_rollback]
  exact hend.rollback_eq

/-- **What fails leaves no trace.**  Take any ledger that updates have led to, with any number of
transactions open, and any backend in front of it.  If a message fails, by an error of its frame or
of the backend, then the ledger is afterwards what it was before, and a cache is empty; a message
that lies too deep leaves all of its environment alone.  If a frame within the run ends with an
error while another waits for it, that other frame goes on with the ledger that there was when it
made the call. -/
theorem failure_leaves_no_trace (cfg : Config) (m : Message) (e : Env σ)
    (updates : List Ledger.Update) (h : e.ledger = updates.foldl Ledger.apply ∅) :
    (Failed (m.transact cfg e).1 →
      (m.transact cfg e).2.ledger = e.ledger ∧
        if m.depth > cfg.maxDepth then (m.transact cfg e).2 = e
        else ∀ cache, (m.transact cfg e).2.cache = .active cache → cache = ∅) ∧
    ∀ m₂, Machine.Reaches cfg (Machine.start cfg m e) m₂ → m₂.frame.Ended →
      m₂.frame.halted ≠ none → m₂.callers ≠ [] →
      ∃ m₁ call next, Machine.Reaches cfg (Machine.start cfg m e) m₁ ∧
        Machine.Returns cfg m₁ call m₂ ∧ m₂.step cfg = .running next ∧
        Machine.GoesOn m₁ call m₂ next ∧ next.env.ledger = m₁.env.ledger := by
  have hcanonical : e.ledger.Canonical := by
    rw [h]
    exact Ledger.canonical_foldl_apply updates
  refine ⟨fun hfailed => ?_, fun m₂ hr₂ ended hf waits => ?_⟩
  · by_cases hdepth : m.depth > cfg.maxDepth
    · have hsame : (m.transact cfg e).2 = e := by
        unfold transact
        rw [if_pos hdepth]
      rw [if_pos hdepth, hsame]
      exact ⟨rfl, rfl⟩
    · rw [if_neg hdepth]
      exact transact_of_failed hdepth hcanonical hfailed
  · obtain ⟨m₁, call, hr₁, hreturns⟩ := hr₂.returns ended waits
    obtain ⟨next, hs, hnext⟩ := hreturns.resumes hr₂.inBounds
    -- the ledger of every machine of the run can have come about, too
    have hbegin : Ledger.Opened [] e.ledger := hcanonical
    obtain ⟨opened, -, hopened⟩ := Ledger.nests_opened.env.reaches hr₁ hbegin
    exact ⟨m₁, call, next, hr₁, hreturns, hs, hnext,
      hreturns.ledger_eq hopened.canonical hf hnext⟩

/-- A transaction is open in the ledger, and has written.  The message calls code that writes and
keeps its write, and then halts at a byte that is no instruction. -/
theorem failure_leaves_no_trace_of_kept_call :
    let cell : Cell := ⟨.ofWord 1, default⟩
    let updates : List Ledger.Update :=
      [.setCode cell.address (.ofList [0x60, 0x07, 0x5f, 0x55]), .setValue cell 1, .checkpoint,
        .setValue cell 0]
    let m := Message.new default default
      (.ofList [0x5f, 0x5f, 0x5f, 0x5f, 0x5f, 0x60, 0x01, 0x5f, 0xf1, 0xfe])
    let e : Env (Scripted Ledger) := ⟨⟨updates.foldl Ledger.apply ∅, []⟩, .active ∅, []⟩
    Failed (m.transact .standard e).1 ∧ (m.transact .standard e).2.ledger = e.ledger := by
  intro cell updates m e
  have hrun : ((Machine.start .standard m e.checkpoint).advance .standard 15).result?.any
      (fun r => Failed (close r).1) = true := by decide +kernel
  have hfailed : Failed (m.transact .standard e).1 := by
    have htransact : m.transact .standard e = close (m.execute .standard e.checkpoint) :=
      if_neg (by decide)
    rw [htransact]
    exact of_decide_eq_true (Machine.run_of_any_advance hrun)
  have hledger : e.ledger = updates.foldl Ledger.apply ∅ := rfl
  obtain ⟨htransact, -⟩ := failure_leaves_no_trace .standard m e updates hledger
  exact ⟨hfailed, (htransact hfailed).1⟩

end Message

end ContractVM
