import ContractVM.Ledger.Basic
import ContractVM.Proofs.Machine.Budget

/-!
# Which runs are given up

A run is given up when bytes outside of a byte string are looked for, or when a bound is passed.
The first never happens: that is what `ContractVM.Proofs.Machine.Bounds` is about.  The second takes
settings that allow more memory than there is room for, or calls that lie deeper than all depths
(`Machine.ReachesChecked.of_overflows`).

`Message.given_up_iff_overflows` says for the three ways to run a message that nothing else gives a
run up.
-/

namespace ContractVM

namespace Machine

variable {σ : Type} [Backend σ] {cfg : Config} {message : Message} {e : Env σ} {m : Machine σ}

/-- In a run, a bound is passed only where the settings allow so much, or the message lies at the
last of all depths. -/
theorem ReachesChecked.of_overflows (h : ReachesChecked cfg (start cfg message e) m)
    (ho : m.overflows = true) :
    Bytes.maxSize < cfg.maxMemory ∨ Offset.bound ≤ max message.depth cfg.maxDepth + 1 := by
  have hnested := (Nested.start cfg message e).reaches h.reaches
  have hlimit : m.frame.memoryLimit ≤ cfg.maxMemory := by
    rw [h.reaches.budgeted.1.1]
    exact Nat.sub_le _ _
  have hdepth : m.frame.message.depth ≤ max message.depth cfg.maxDepth := by
    by_cases hc : m.callers = []
    · rw [hnested.depth, hc]
      exact Nat.le_max_left _ _
    · exact (hnested.deep hc).trans (Nat.le_max_right _ _)
  obtain ⟨byte, -, hframe⟩ := exists_ready_of_overflows ho
  rcases Frame.of_overflows hframe with hmemory | ⟨hdeep, -⟩
  · exact .inl (hmemory.trans_le hlimit)
  · exact .inr (hdeep.trans (Nat.succ_le_succ hdepth))

end Machine

namespace Frame

variable {σ : Type} [Backend σ] {cfg : Config} {f : Frame} {i : Instruction} {e : Env σ}

/-- A frame that has made no call gives up an instruction only to keep a bound: there would be no
room for its memory, or no depth for its call. -/
theorem fault_executeChecked_iff (hf : f.pending = none) :
    (f.executeChecked cfg i e).fault = some .outOfBounds ↔
      (f.memory.size < (f.execute cfg i e).frame.memory.size ∧
        Bytes.maxSize < (f.execute cfg i e).frame.memory.size) ∨ f.callsTooDeep i = true := by
  rw [← overflows_iff cfg f i e]
  refine ⟨fun h => ?_, fault_executeChecked_of_overflows⟩
  cases ho : f.overflows i with
  | true => rfl
  | false =>
    rw [executeChecked_of_not_overflows ho] at h
    exact absurd h (staysInside_execute cfg i e hf).fault

/-- An operand further down is copied or exchanged only if there is one. -/
theorem length_or_underflow {place : Nat} (h : i = .dup place ∨ i = .swap place) :
    place < f.stack.length ∨
      (f.executeChecked cfg i e).fault = some (.halt .stackUnderflow) := by
  by_cases hlt : place < f.stack.length
  · exact .inl hlt
  · rcases h with rfl | rfl
    · rw [executeChecked_of_not_overflows (overflows_of_not_extends id)]
      exact .inr (fault_execute_dup cfg e (Nat.le_of_not_lt hlt))
    · rw [executeChecked_of_not_overflows (overflows_of_not_extends id)]
      exact .inr (fault_execute_swap cfg e (Nat.le_of_not_lt hlt))

end Frame

namespace Message

variable {σ : Type} [Backend σ]

/-- **Only bounds give a run up.**  Whatever the message, the settings and the backend are, and
whichever way the message is run, the run is given up if and only if it comes to a machine whose
next instruction would pass a bound.  It never does under settings that allow no more memory than
there is room for, if neither they nor the message reach the end of all depths.

Nothing else is out of bounds.  At every machine of a run, the next instruction lies inside of the
code, and is given up if and only if it would leave more memory than there is room for, or make a
call for which there is no depth; an operand further down is looked at only if there is one, and
otherwise the frame halts; and every frame that waits can take what its callee will give it. -/
theorem given_up_iff_overflows (cfg : Config) (m : Message) (e : Env σ) :
    ((m.executeChecked cfg e).1 = .error .outOfBounds ↔
      ∃ m₁, Machine.ReachesChecked cfg (Machine.start cfg m e) m₁ ∧ m₁.overflows = true) ∧
    ((m.transactChecked cfg e).1 = .error .outOfBounds ↔ m.depth ≤ cfg.maxDepth ∧
      ∃ m₁, Machine.ReachesChecked cfg (Machine.start cfg m e.checkpoint) m₁ ∧
        m₁.overflows = true) ∧
    ((m.callChecked cfg e).1 = .error .outOfBounds ↔ m.depth ≤ cfg.maxDepth ∧
      ∃ m₁, Machine.ReachesChecked cfg (Machine.start cfg m (m.openCall cfg e).checkpoint) m₁ ∧
        m₁.overflows = true) ∧
    (cfg.maxMemory ≤ Bytes.maxSize → max m.depth cfg.maxDepth + 1 < Offset.bound →
      (m.executeChecked cfg e).1 ≠ .error .outOfBounds ∧
      (m.transactChecked cfg e).1 ≠ .error .outOfBounds ∧
      (m.callChecked cfg e).1 ≠ .error .outOfBounds) ∧
    ∀ m₁, Machine.ReachesChecked cfg (Machine.start cfg m e) m₁ →
      (∀ byte, m₁.frame.ready? = some byte →
        let x := m₁.frame.executeChecked cfg (.decode byte) m₁.env
        let grown := (m₁.frame.execute cfg (.decode byte) m₁.env).frame.memory.size
        m₁.frame.pc < m₁.frame.code.size ∧
        (x.fault = some .outOfBounds ↔
          m₁.frame.memory.size < grown ∧ Bytes.maxSize < grown ∨
            m₁.frame.callsTooDeep (.decode byte) = true) ∧
        ∀ place, Instruction.decode byte = .dup place ∨ Instruction.decode byte = .swap place →
          place < m₁.frame.stack.length ∨ x.fault = some (.halt .stackUnderflow)) ∧
      ∀ caller ∈ m₁.callers, ∀ (callee : Frame) (env : Env σ),
        (caller.frame.resume caller.output callee env).fault ≠ some .outOfBounds := by
  have hfits (e : Env σ) (hmemory : cfg.maxMemory ≤ Bytes.maxSize)
      (hdepth : max m.depth cfg.maxDepth + 1 < Offset.bound) :
      (m.executeChecked cfg e).1 ≠ .error .outOfBounds := by
    rw [ne_eq, executeChecked_eq_outOfBounds_iff]
    rintro ⟨m₁, hr, ho⟩
    rcases hr.of_overflows ho with hlow | hdeep
    · exact absurd hmemory (Nat.not_le.2 hlow)
    · exact absurd hdepth (Nat.not_lt.2 hdeep)
  refine ⟨executeChecked_eq_outOfBounds_iff, ?_, ?_,
    fun hmemory hdepth => ⟨hfits e hmemory hdepth, fun h => ?_, fun h => ?_⟩, fun m₁ hr => ⟨?_, ?_⟩⟩
  · rw [transactChecked_eq_outOfBounds_iff, executeChecked_eq_outOfBounds_iff]
  · rw [callChecked_eq_outOfBounds_iff, executeChecked_eq_outOfBounds_iff]
  · exact hfits _ hmemory hdepth (transactChecked_eq_outOfBounds_iff.1 h).2
  · exact hfits _ hmemory hdepth (callChecked_eq_outOfBounds_iff.1 h).2
  · intro byte ready x grown
    obtain ⟨hpc, hpending⟩ := Frame.lt_size_of_ready? ready
    exact ⟨hpc, Frame.fault_executeChecked_iff hpending, fun place => Frame.length_or_underflow⟩
  · intro caller hcaller callee env
    have hin := hr.reaches.inBounds.callers caller hcaller
    exact (Frame.staysInside_resume callee env hin.pending hin.output).fault

/-- A message that reads a word in the middle of all offsets, under settings that allow all memory,
is given up. -/
theorem given_up_of_high_load :
    let m := Message.new default default
      (.ofList [0x67, 0x80, 0, 0, 0, 0, 0, 0, 0, 0x51])
    let cfg : Config := ⟨false, Config.standard.maxDepth, Offset.bound - 1⟩
    (m.executeChecked cfg (.new (∅ : Ledger))).1 = .error .outOfBounds := by
  intro m cfg
  have hreaches : ((Machine.start cfg m (.new (∅ : Ledger))).advanceChecked cfg 1).machine?.any
      (·.overflows) = true := by decide +kernel
  exact executeChecked_eq_outOfBounds_iff.2 (Machine.exists_reachesChecked_of_advance hreaches)

end Message

end ContractVM
