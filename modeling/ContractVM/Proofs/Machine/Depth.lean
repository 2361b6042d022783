import ContractVM.Proofs.Machine.Calls

/-!
# How deep calls nest

A call lies one level deeper than the message that makes it, and it is not made where that would be
too deep (`Frame.CallFits`).  So the depth of the message that runs is the depth of the first one
plus the number of frames that wait (`Machine.Nested`).  Every step keeps that
(`Machine.Nested.step`), and it bounds the frames that can wait (`Machine.Nested.length_le`).
-/

namespace ContractVM

variable {σ : Type}

namespace Frame

variable {f : Frame} {x : Executed σ}

/-- A call that the frame has made lies one level deeper, and not too deep. -/
def CallFits (cfg : Config) (f : Frame) : Prop :=
  ∀ call, f.pending = some call →
    call.message.depth = f.message.depth + 1 ∧ f.message.depth + 1 ≤ cfg.maxDepth

theorem callFits_of_pending {cfg : Config} (h : f.pending = none) : f.CallFits cfg := by
  intro call hc
  rw [h] at hc
  cases hc

/-- An instruction stays at its message, and a call that it makes fits. -/
theorem callFits_execute [Backend σ] (cfg : Config) (i : Instruction) (e : Env σ)
    (h : f.pending = none) :
    (f.execute cfg i e).frame.message = f.message ∧ (f.execute cfg i e).frame.CallFits cfg := by
  obtain hx | ⟨call, hx⟩ := advanced_or_calls_execute cfg f i e
  · obtain ⟨hmessage, hpending⟩ := hx.message_pending
    exact ⟨hmessage, callFits_of_pending (hpending.trans h)⟩
  · refine ⟨hx.message, fun other ho => ?_⟩
    obtain rfl := Option.some.inj (hx.pending.symm.trans ho)
    rw [hx.message]
    exact ⟨hx.depth, hx.deep⟩

end Frame

namespace Machine

/-- The depth of every message is that of the first one plus the number of frames that wait for
it. -/
structure Nested (cfg : Config) (base : Nat) (m : Machine σ) : Prop where
  depth : m.frame.message.depth = base + m.callers.length
  deep : m.callers ≠ [] → m.frame.message.depth ≤ cfg.maxDepth
  call : m.frame.CallFits cfg
  callers : ∀ caller callers, caller :: callers <:+ m.callers →
    caller.frame.pending = none ∧ caller.frame.message.depth = base + callers.length

namespace Nested

variable {cfg : Config} {base : Nat} {m m' : Machine σ}

theorem start (cfg : Config) (message : Message) (e : Env σ) :
    Nested cfg message.depth (Machine.start cfg message e) := by
  refine ⟨rfl, fun h => absurd rfl h, Frame.callFits_of_pending rfl, ?_⟩
  intro caller callers h
  cases List.suffix_nil.1 h

/-- Only so many frames can wait. -/
theorem length_le (h : Nested cfg base m) : m.callers.length ≤ cfg.maxDepth - base := by
  by_cases hc : m.callers = []
  · rw [hc]
    exact Nat.zero_le _
  · have hdepth := h.depth
    have hdeep := h.deep hc
    omega

variable [Backend σ]

/-- What has been executed at a message keeps the depths, if they hold of that message. -/
theorem of_proceedsTo {callers : List Suspended} {x : Executed σ} {message : Message}
    (hx : ProceedsTo callers x (.running m')) (hmessage : x.frame.message = message)
    (hfits : x.frame.CallFits cfg) (hdepth : message.depth = base + callers.length)
    (hdeep : callers ≠ [] → message.depth ≤ cfg.maxDepth)
    (hcallers : ∀ caller others, caller :: others <:+ callers →
      caller.frame.pending = none ∧ caller.frame.message.depth = base + others.length) :
    Nested cfg base m' := by
  obtain ⟨rfl, hplace, hpending⟩ := hx.place
  have hm : m'.frame.message = message := hplace.trans hmessage
  refine ⟨hm ▸ hdepth, fun hc => hm ▸ hdeep hc, ?_, hcallers⟩
  intro call hc
  rw [hplace]
  exact hfits call (hpending ▸ hc)

/-- A step keeps the depths. -/
theorem step (h : Nested cfg base m) (hs : m.step cfg = .running m') : Nested cfg base m' := by
  have hto := stepsTo_step cfg m
  rw [hs] at hto
  cases hto with
  | @execute byte _ ready hx =>
    obtain ⟨hsame, hfits⟩ := Frame.callFits_execute cfg (.decode byte) m.env
      (Frame.lt_size_of_ready? ready).2
    exact of_proceedsTo hx hsame hfits h.depth h.deep h.callers
  | @enter call pending =>
    obtain ⟨hdepth, hdeep⟩ := h.call call pending
    have hcallee : call.message.depth = base + (m.callers.length + 1) := by
      rw [hdepth, h.depth, Nat.add_assoc]
    refine ⟨hcallee, fun _ => ?_, Frame.callFits_of_pending rfl, ?_⟩
    · change call.message.depth ≤ cfg.maxDepth
      rw [hdepth]
      exact hdeep
    · intro caller callers hc
      rcases List.suffix_cons_iff.1 hc with hc | hc
      · obtain ⟨rfl, rfl⟩ := List.cons.inj hc
        exact ⟨rfl, h.depth⟩
      · exact h.callers caller callers hc
  | @leave caller callers _ ended waits hx =>
    obtain ⟨hnone, hdepth⟩ := h.callers caller callers (waits ▸ List.suffix_rfl)
    obtain ⟨hsame, hkeeps⟩ := (Frame.advanced_resume caller.frame caller.output m.frame
      (m.env.settle m.frame)).message_pending
    refine of_proceedsTo hx hsame (Frame.callFits_of_pending (hkeeps.trans hnone)) hdepth
      (fun _ => ?_) fun other others ho => ?_
    · -- the callee lay one level deeper, and was not too deep
      have hcallee := h.depth
      have hdeep := h.deep (waits ▸ List.cons_ne_nil _ _)
      rw [waits, List.length_cons] at hcallee
      omega
    · exact h.callers other others (waits ▸ ho.trans (List.suffix_cons _ _))

/-- The depths hold at every machine of a run. -/
theorem reaches (h : Nested cfg base m) (hr : Reaches cfg m m') : Nested cfg base m' :=
  hr.serves.invariant h fun _ _ hm hs _ => hm.step hs

end Nested

end Machine

end ContractVM
