import ContractVM.Ledger.Basic
import ContractVM.Proofs.Frame.Limits
import ContractVM.Proofs.Machine.Finite

/-!
# The budget of a run

All frames that are live share one budget of memory, and a frame may use what the frames that wait
for it have left.

* `Machine.frames` : the frames that are live, the innermost first.
* `Frame.memoryOf` : how much memory some frames hold together.
* `Frame.Budgeted` : the limit of each frame is what the frames outside have left, and each frame
  fits.  No more than the budget is held then (`Frame.Budgeted.memoryOf_le`).  Every step keeps
  this (`Machine.budgeted_step`).

`Message.keeps_to_budget` is the statement about runs.
-/

namespace ContractVM

namespace Frame

/-- How much memory the frames hold together. -/
def memoryOf : List Frame → Nat
  | [] => 0
  | f :: outer => f.memory.size + memoryOf outer

theorem memoryOf_cons (f : Frame) (outer : List Frame) :
    memoryOf (f :: outer) = f.memory.size + memoryOf outer := rfl

/-- Each frame may use what the frames outside have left of the budget, and fits. -/
def Budgeted (budget : Nat) : List Frame → Prop
  | [] => True
  | f :: outer => (f.memoryLimit = budget - memoryOf outer ∧ f.Fits) ∧ Budgeted budget outer

namespace Budgeted

variable {budget : Nat} {f g : Frame} {outer frames : List Frame}

/-- No more than the budget is held. -/
theorem memoryOf_le (h : Budgeted budget frames) : memoryOf frames ≤ budget := by
  induction frames with
  | nil => exact Nat.zero_le _
  | cons f outer ih =>
    obtain ⟨⟨hlimit, hfits⟩, houter⟩ := h
    have hmemory := hfits.memory
    have hleft := ih houter
    rw [memoryOf_cons]
    omega

theorem of_suffix (h : Budgeted budget frames) (hs : outer <:+ frames) : Budgeted budget outer := by
  induction frames with
  | nil =>
    rw [List.suffix_nil.1 hs]
    trivial
  | cons f frames ih =>
    rcases List.suffix_cons_iff.1 hs with rfl | hs
    · exact h
    · exact ih h.2 hs

/-- Another frame with the same limit may take the place of the innermost one. -/
theorem replace (h : Budgeted budget (f :: outer)) (hlimit : g.memoryLimit = f.memoryLimit)
    (hfits : f.Fits → g.Fits) : Budgeted budget (g :: outer) :=
  ⟨⟨hlimit.trans h.1.1, hfits h.1.2⟩, h.2⟩

/-- A new frame may use what is left. -/
theorem new (h : Budgeted budget (f :: outer)) (message : Message) :
    Budgeted budget (.new message (f.memoryLimit - f.memory.size) :: f :: outer) := by
  refine ⟨⟨?_, Nat.zero_le _, Nat.dvd_zero 32, Nat.zero_le _⟩, h⟩
  change f.memoryLimit - f.memory.size = budget - memoryOf (f :: outer)
  rw [memoryOf_cons, h.1.1]
  omega

end Budgeted

/-- What halts a frame leaves its memory and its operands alone. -/
theorem fits_halt {f : Frame} (reason : Halt) (h : f.Fits) : (f.halt reason).Fits :=
  ⟨h.memory, h.words, h.stack⟩

end Frame

namespace Machine

variable {σ : Type}

/-- The frames that are live, the innermost first. -/
def frames (m : Machine σ) : List Frame := m.frame :: m.callers.map Suspended.frame

variable [Backend σ] {cfg : Config} {m m' : Machine σ} {budget : Nat}

/-- A frame that has executed something goes on within the budget. -/
theorem budgeted_of_proceedsTo {callers : List Suspended} {x : Executed σ}
    (hx : ProceedsTo callers x (.running m'))
    (h : Frame.Budgeted budget (x.frame :: callers.map Suspended.frame)) :
    Frame.Budgeted budget m'.frames := by
  cases hx with
  | onward => exact h
  | halted => exact h.replace rfl (Frame.fits_halt _)

/-- A step keeps to the budget. -/
theorem budgeted_step (h : Frame.Budgeted budget m.frames) (hs : m.step cfg = .running m') :
    Frame.Budgeted budget m'.frames := by
  have hto := stepsTo_step cfg m
  rw [hs] at hto
  cases hto with
  | @execute byte _ ready hx =>
    have hleaves := (m.frame.leaves_execute cfg (.decode byte) m.env).continues
    exact budgeted_of_proceedsTo hx (h.replace hleaves.memoryLimit hleaves.fits)
  | @enter call pending =>
    have hwaits : Frame.Budgeted budget
        ({ m.frame with pending := none } :: m.callers.map Suspended.frame) :=
      h.replace rfl fun hf => ⟨hf.memory, hf.words, hf.stack⟩
    exact hwaits.new call.message
  | @leave caller callers _ ended waits hx =>
    have hcallers : Frame.Budgeted budget (caller.frame :: callers.map Suspended.frame) := by
      have houter := h.2
      rwa [waits] at houter
    have hquiet := (caller.frame.quiet_resume caller.output m.frame
      (m.env.settle m.frame)).1.continues
    exact budgeted_of_proceedsTo hx (hcallers.replace hquiet.memoryLimit hquiet.fits)

/-- A run keeps to the budget of its settings. -/
theorem Reaches.budgeted {message : Message} {e : Env σ}
    (h : Reaches cfg (start cfg message e) m) : Frame.Budgeted cfg.maxMemory m.frames := by
  have hstart : Frame.Budgeted cfg.maxMemory (start cfg message e).frames :=
    ⟨⟨rfl, Nat.zero_le _, Nat.dvd_zero 32, Nat.zero_le _⟩, trivial⟩
  exact h.serves.invariant hstart fun _ _ hm hs _ => budgeted_step hm hs

/-- In a run there is room for a word in the place of an operand. -/
theorem Reaches.room {message : Message} {e : Env σ} (h : Reaches cfg (start cfg message e) m)
    {w : Word} {rest : Stack} (hs : w :: rest <:+ m.frame.stack) : rest.length ≠ Stack.limit := by
  have hlength := Nat.le_trans hs.length_le h.budgeted.1.2.stack
  intro hfull
  rw [List.length_cons, hfull] at hlength
  exact Nat.not_succ_le_self _ hlength

end Machine

/-- The frame keeps to what is left to it by the frames outside, in a run that began at this
depth. -/
structure Frame.InBudget (cfg : Config) (depth : Nat) (f : Frame) (outer : List Frame) : Prop where
  fits : f.Fits
  /-- The frames outside have not used more than there is. -/
  room : memoryOf outer ≤ cfg.maxMemory
  memoryLimit : f.memoryLimit = cfg.maxMemory - memoryOf outer
  depth : f.message.depth = depth + outer.length
  deep : outer ≠ [] → f.message.depth ≤ cfg.maxDepth

namespace Machine

variable {σ : Type} {cfg : Config} {m : Machine σ}

/-- The depth of each live frame is that of the first one plus the number of frames outside. -/
theorem Nested.depth_eq {base : Nat} (h : Nested cfg base m) {f : Frame} {outer : List Frame}
    (hf : f :: outer <:+ m.frames) : f.message.depth = base + outer.length ∧
      (outer ≠ [] → f.message.depth ≤ cfg.maxDepth) := by
  rcases List.suffix_cons_iff.1 hf with heq | hf
  · obtain ⟨rfl, rfl⟩ := List.cons.inj heq
    rw [List.length_map]
    refine ⟨h.depth, fun hne => h.deep ?_⟩
    rintro hnil
    exact hne (by rw [hnil]; rfl)
  · obtain ⟨waiting, hsuffix, heq⟩ := List.suffix_map_iff.1 hf
    cases waiting with
    | nil => cases heq
    | cons caller callers =>
      obtain ⟨rfl, rfl⟩ := List.cons.inj heq
      obtain ⟨-, hdepth⟩ := h.callers caller callers hsuffix
      rw [List.length_map]
      refine ⟨hdepth, fun _ => ?_⟩
      -- the innermost frame lies deeper still
      have hlen := hsuffix.length_le
      have hinner := h.depth
      have hdeep := h.deep fun hnil => by rw [hnil] at hsuffix; cases List.suffix_nil.1 hsuffix
      rw [List.length_cons] at hlen
      omega

end Machine

namespace Message

variable {σ : Type} [Backend σ]

/-- **A run keeps to its budget.**  At every machine of a run, all live frames together hold no
more memory than the settings allow; each of them may use what the frames outside have left, and
keeps to that in whole words, and to the limit of its stack; its depth is that of the message plus
the number of frames outside, which is bounded for all but the first; and so only so many frames
are live.  Whatever the settings allow, there is room for the memories of all of them, and if the
message has a depth, so have they. -/
theorem keeps_to_budget (cfg : Config) (m : Message) (e : Env σ) (m₁ : Machine σ)
    (h : Machine.ReachesChecked cfg (Machine.start cfg m e) m₁) :
    Frame.memoryOf m₁.frames ≤ cfg.maxMemory ∧
    (∀ f outer, f :: outer <:+ m₁.frames → f.InBudget cfg m.depth outer) ∧
    m₁.frames.length ≤ 1 + (cfg.maxDepth - m.depth) ∧
    (m.depth < Offset.bound → ∀ f ∈ m₁.frames, f.HasRoom) := by
  have hbudget := h.reaches.budgeted
  have hnested := (Machine.Nested.start cfg m e).reaches h.reaches
  refine ⟨hbudget.memoryOf_le, fun f outer hf => ?_, ?_, fun hdepth f hf => ?_⟩
  · obtain ⟨⟨hlimit, hfits⟩, houter⟩ := hbudget.of_suffix hf
    obtain ⟨hdepth, hdeep⟩ := hnested.depth_eq hf
    exact ⟨hfits, houter.memoryOf_le, hlimit, hdepth, hdeep⟩
  · have hlen := hnested.length_le
    simp only [Machine.frames, List.length_cons, List.length_map]
    omega
  · have hroom := h.hasRoom hdepth
    rcases List.mem_cons.1 hf with rfl | hwaits
    · exact hroom.frame
    · obtain ⟨caller, hcaller, rfl⟩ := List.mem_map.1 hwaits
      exact hroom.callers caller hcaller

/-- The message holds three words of memory and calls code that holds one. -/
theorem keeps_to_budget_of_nested :
    let address : Address := .ofWord 1
    let ledger : Ledger := (∅ : Ledger).setCode address (.ofList [0x5f, 0x5f, 0x52])
    let m := Message.new default default
      (.ofList [0x5f, 0x60, 0x21, 0x52, 0x5f, 0x5f, 0x5f, 0x5f, 0x5f, 0x60, 0x01, 0x5f, 0xf1])
    let cfg : Config := ⟨true, 1, 128⟩
    let e : Env Ledger := .new ledger
    ∃ m₁, Machine.ReachesChecked cfg (Machine.start cfg m e) m₁ ∧
      Frame.memoryOf m₁.frames = 128 ∧ m₁.frames.length = 2 ∧
      (∀ f outer, f :: outer <:+ m₁.frames → f.InBudget cfg m.depth outer) ∧
      ∀ f ∈ m₁.frames, f.HasRoom := by
  intro address ledger m cfg e
  have hreaches : ((Machine.start cfg m e).advanceChecked cfg 15).machine?.any
      (fun m₁ => Frame.memoryOf m₁.frames = 128 ∧ m₁.frames.length = 2) = true := by
    decide +kernel
  obtain ⟨m₁, hr, hm₁⟩ := Machine.exists_reachesChecked_of_advance hreaches
  obtain ⟨hmemory, hlen⟩ := of_decide_eq_true hm₁
  obtain ⟨-, hbudget, -, hroom⟩ := keeps_to_budget cfg m e m₁ hr
  exact ⟨m₁, hr, hmemory, hlen, hbudget, hroom (by decide)⟩

end Message

end ContractVM
