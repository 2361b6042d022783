import ContractVM.Backend.Logged
import ContractVM.Ledger.Basic
import ContractVM.Proofs.Machine.Terms

/-!
# Limits that are not met

`Machine.MeetsLimit` says that a limit is in the way of the next instruction: memory may not grow
as far as it asks for, or it is a call that would nest too deep.  A run in which this never happens
does not notice when the limits are raised (`Message.call_of_higher_limits`).

`Machine.trailWithin` computes the machines of a run that ends within a number of steps.
-/

namespace ContractVM

namespace Machine

variable {σ : Type} [Backend σ]

/-- A limit is in the way of the next instruction: memory is not enough, or the instruction is a
call, with all operands of one, that would lie too deep. -/
def MeetsLimit (cfg : Config) (m : Machine σ) : Prop :=
  ∃ byte ∈ m.frame.ready?,
    (m.frame.execute cfg (.decode byte) m.env).fault = some (.halt .memoryLimit) ∨
      ((Instruction.decode byte).callOperands? m.frame.stack).isSome ∧
        m.frame.message.depth + 1 > cfg.maxDepth

instance (cfg : Config) : DecidablePred (MeetsLimit (σ := σ) cfg) := fun m => by
  unfold MeetsLimit
  infer_instance

variable {cfg cfg' : Config} {m : Machine σ}

/-- Higher limits have nothing to do with a step that meets none. -/
theorem untouched_of_not_meetsLimit (unused : ¬ m.MeetsLimit cfg)
    (depth : cfg.maxDepth ≤ cfg'.maxDepth) (memory : m.frame.memory.size ≤ m.frame.memoryLimit)
    (more : Nat) : m.Untouched ⟨more, false⟩ cfg cfg' := by
  refine ⟨fun byte ready => ⟨fun g hg => ?_, fun _ _ _ _ => rfl⟩, fun byte ready hcall => ?_,
    memory⟩
  · refine absurd ⟨byte, ready, .inl ?_⟩ unused
    simp only [Frame.execute, hg]
  · have hdeep : ¬ m.frame.message.depth + 1 > cfg.maxDepth := fun hd =>
      unused ⟨byte, ready, .inr ⟨hcall, hd⟩⟩
    omega

/-! ### Runs of few steps -/

/-- The machines of a run, if it ends within so many steps. -/
def trailWithin (cfg : Config) : Nat → Machine σ → Option (List (Machine σ))
  | 0, _ => none
  | n + 1, m =>
    match m.step cfg with
    | .running m' => (trailWithin cfg n m').map (m :: ·)
    | .finished _ _ | .aborted _ _ => some [m]

theorem trail_of_trailWithin {n : Nat} {machines : List (Machine σ)}
    (h : m.trailWithin cfg n = some machines) : m.trail cfg = machines := by
  induction n generalizing m machines with
  | zero => cases h
  | succ n ih =>
    unfold trailWithin at h
    cases hs : m.step cfg with
    | running m' =>
      simp only [hs, Option.map_eq_some_iff] at h
      obtain ⟨rest, hrest, rfl⟩ := h
      rw [trail_of_running hs, ih hrest]
    | finished f e =>
      simp only [hs, Option.some.injEq] at h
      rw [trail_of_finished hs, h]
    | aborted reason e =>
      simp only [hs, Option.some.injEq] at h
      rw [trail_of_aborted hs, h]

/-- What can be seen of all machines of a short run holds of them. -/
theorem forall_mem_trail_of_trailWithin {n : Nat} {p : Machine σ → Bool}
    (h : (m.trailWithin cfg n).any (·.all p) = true) : ∀ m₁ ∈ m.trail cfg, p m₁ = true := by
  cases hm : m.trailWithin cfg n with
  | none =>
    rw [hm] at h
    cases h
  | some machines =>
    rw [hm] at h
    rw [trail_of_trailWithin hm]
    exact List.all_eq_true.1 h

end Machine

/-- More memory is nothing that a message tells of. -/
theorem Terms.message_of_writing (more : Nat) (m : Message) : message ⟨more, false⟩ m = m := by
  simp only [message, Bool.or_false]

namespace Message

variable {σ : Type} [Backend σ]

/-- **Raising limits that are not met changes nothing.**  Take a message that does not lie too deep,
over any backend, and a run of it in which no instruction is short of memory and no call would nest
too deep.  Under settings with higher limits, and a cache if and only if there was one, the result
is the same, and so is all that is left: the backend, with the calls that have reached it in their
order, and the events. -/
theorem call_of_higher_limits {cfg cfg' : Config} (slotCache : cfg'.slotCache = cfg.slotCache)
    (depth : cfg.maxDepth ≤ cfg'.maxDepth) (memory : cfg.maxMemory ≤ cfg'.maxMemory) (m : Message)
    (e : Env σ) (begins : m.depth ≤ cfg.maxDepth)
    (unused : ∀ m₁ ∈ m.trail cfg (m.openCall cfg e.logged), ¬ m₁.MeetsLimit cfg) :
    m.call cfg' e.logged = m.call cfg e.logged := by
  have hmemory : cfg'.maxMemory = cfg.maxMemory + (cfg'.maxMemory - cfg.maxMemory) := by omega
  have hcall := call_terms (t := ⟨cfg'.maxMemory - cfg.maxMemory, false⟩) slotCache hmemory
    (m := m) (e := e.logged) (by omega) fun m₁ hm₁ => ?_
  · rwa [Terms.message_of_writing] at hcall
  · refine Machine.untouched_of_not_meetsLimit (unused m₁ hm₁) depth ?_ _
    rw [trail, if_neg (Nat.not_lt.2 begins)] at hm₁
    exact (Machine.reaches_of_mem_trail hm₁).budgeted.1.2.memory

/-- The message holds three words of memory and calls code that holds one, and both limits are just
high enough for that. -/
theorem call_of_higher_limits_of_nested :
    let ledger : Ledger := (∅ : Ledger).setCode (.ofWord 1) (.ofList [0x5f, 0x5f, 0x52])
    let m := Message.new default default
      (.ofList [0x5f, 0x60, 0x21, 0x52, 0x5f, 0x5f, 0x5f, 0x5f, 0x5f, 0x60, 0x01, 0x5f, 0xf1])
    let cfg : Config := ⟨true, 1, 128⟩
    let cfg' : Config := ⟨true, 3, 256⟩
    let e : Env Ledger := .new ledger
    (∀ m₁ ∈ m.trail cfg (m.openCall cfg e.logged), ¬ m₁.MeetsLimit cfg) ∧
      m.call cfg' e.logged = m.call cfg e.logged := by
  intro ledger m cfg cfg' e
  have hsteps : ((Machine.start cfg m (m.openCall cfg e.logged).checkpoint).trailWithin cfg 20).any
      (·.all fun m₁ => !decide (m₁.MeetsLimit cfg)) = true := by
    decide +kernel
  have hunused : ∀ m₁ ∈ m.trail cfg (m.openCall cfg e.logged), ¬ m₁.MeetsLimit cfg := by
    intro m₁ hm₁
    simpa using Machine.forall_mem_trail_of_trailWithin hsteps m₁ hm₁
  have hcache : cfg'.slotCache = cfg.slotCache := rfl
  exact ⟨hunused, call_of_higher_limits hcache (by decide) (by decide) m e (by decide) hunused⟩

end Message

end ContractVM
