import ContractVM.Backend.Counted
import ContractVM.Proofs.Machine.Budget
import ContractVM.Proofs.Machine.Trail
import ContractVM.Proofs.SlotCache.Recall
import ContractVM.Proofs.SlotCache.Transparency

/-!
# Which reads reach the backend

A frame reads a cell when it stands at a read and has an operand for it (`Frame.reads?`).  Through a
cache, the backend is asked once for the value, or not at all:

* `Machine.ReadsBackend` : the next step asks the backend for the value of the cell, and for nothing
  else.
* `Machine.ReadsMemory` : the next step gives this value and makes no call.

Which of the two it is can be said from the calls so far (`Machine.readsBackend_of_needsBackend`,
`Machine.readsMemory_of_remembers`).  `Message.reads_reach_backend` is the statement about top-level
calls, with the reads counted.
-/

namespace ContractVM

namespace Frame

/-- The cell that the frame is about to read. -/
def reads? (f : Frame) : Option Cell :=
  match f.ready?.map Instruction.decode, f.stack with
  | some .slotLoad, key :: _ => some ⟨f.message.self, .ofWord key⟩
  | _, _ => none

/-- The frame behind a read that gave this value. -/
def afterRead (f : Frame) (value : Word) : Frame :=
  { f with stack := value :: f.stack.tail, pc := f.pc + 1 }

variable {f : Frame} {cell : Cell}

/-- A frame that reads stands at a read and has an operand. -/
theorem eq_of_reads? (h : f.reads? = some cell) : ∃ byte key rest, f.ready? = some byte ∧
    Instruction.decode byte = .slotLoad ∧ f.stack = key :: rest ∧
    cell = ⟨f.message.self, .ofWord key⟩ := by
  unfold reads? at h
  split at h
  · rename_i key rest hread hstack
    obtain ⟨byte, hbyte, hdecode⟩ := Option.map_eq_some_iff.1 hread
    exact ⟨byte, key, rest, hbyte, hdecode, hstack, (Option.some.inj h).symm⟩
  · cases h

/-- A read takes its operand and asks for the value. -/
theorem exec_slotLoad (cfg : Config) {key : Word} {rest : Stack} (h : f.stack = key :: rest) :
    Action.exec cfg .slotLoad f =
      .ok (some (.load ⟨f.message.self, .ofWord key⟩)) { f with stack := rest } := by
  rw [Action.exec, Action.bind_ok (Action.pop_of_cons h)]
  rfl

/-- A read without an operand asks for nothing. -/
theorem exec_slotLoad_of_nil (cfg : Config) (h : f.stack = []) :
    Action.exec cfg .slotLoad f = .error (.halt .stackUnderflow) f := by
  have hpop : Action.pop f = .error (.halt .stackUnderflow) f := by
    unfold Action.pop Stack.pop
    rw [h]
  rw [Action.exec, Action.bind_error hpop]

/-- A frame that asks for the value of a cell reads it. -/
theorem reads?_of_asksFor {cfg : Config} {byte : UInt8} (ready : f.ready? = some byte) {g : Frame}
    (h : Action.exec cfg (.decode byte) f = .ok (some (.load cell)) g) :
    ∃ cell, f.reads? = some cell := by
  have hasks := (Action.exec_asks cfg (.decode byte) f).run
  rw [h] at hasks
  obtain ⟨hread, -⟩ := hasks
  cases hs : f.stack with
  | nil =>
    rw [hread, exec_slotLoad_of_nil cfg hs] at h
    cases h
  | cons key rest =>
    refine ⟨⟨f.message.self, .ofWord key⟩, ?_⟩
    simp only [reads?, ready, Option.map_some, hread, hs]

variable {σ : Type} [Backend σ]

/-- What comes of a read by a frame that has no more operands than it may have. -/
theorem execute_slotLoad (cfg : Config) {key : Word} {rest : Stack} (h : f.stack = key :: rest)
    (hroom : f.stack.length ≤ Stack.limit) (e : Env σ) :
    f.execute cfg .slotLoad e =
      match e.load ⟨f.message.self, .ofWord key⟩ with
      | (.ok value, e') => ⟨f.afterRead value, e', none⟩
      | (.error error, e') => ⟨{ f with stack := rest }, e', some (.halt (.backend error))⟩ := by
  have hfree : rest.length ≠ Stack.limit := by
    rw [h, List.length_cons] at hroom
    omega
  unfold execute
  rw [exec_slotLoad cfg h]
  dsimp only [Env.answer]
  cases e.load ⟨f.message.self, .ofWord key⟩ with
  | mk answer e' =>
    cases answer with
    | error error => rfl
    | ok value =>
      -- the operand that was taken has left room for the value
      have hpush : Action.push value { f with stack := rest } =
          .ok () { f with stack := value :: rest } := by
        unfold Action.push Stack.push
        simp only [hfree, ↓reduceIte]
      have hcomplete : Action.complete (.load ⟨f.message.self, .ofWord key⟩) value
          { f with stack := rest } = .ok () (f.afterRead value) := by
        change (Action.push value >>= fun _ => Action.advance 1) { f with stack := rest } = _
        rw [Action.bind_ok hpush, afterRead, h]
        rfl
      dsimp only
      rw [hcomplete]
      rfl

end Frame

namespace Machine

variable {σ : Type} [Backend σ] {cfg : Config} {m : Machine (Logged σ)} {cell : Cell}

/-- The next step asks the backend once, for the value of the cell.  A backend that does not give
it ends the run. -/
inductive ReadsBackend (cfg : Config) (m : Machine (Logged σ)) (cell : Cell) : Prop
  | given (value : Word) (e : Env (Logged σ))
    (step : m.step cfg = .running ⟨m.frame.afterRead value, m.callers, e⟩)
    (calls : e.calls = m.env.calls ++ [.load cell (.ok value)])
  | refused (error : BackendError) (e : Env (Logged σ))
    (step : m.step cfg = .aborted (.backend error) e)
    (calls : e.calls = m.env.calls ++ .load cell (.error error) ::
      List.replicate m.callers.length .rollback)

/-- The next step gives this value, and makes no call. -/
structure ReadsMemory (cfg : Config) (m : Machine (Logged σ)) (value : Word) : Prop where
  step : ∃ e, m.step cfg = .running ⟨m.frame.afterRead value, m.callers, e⟩ ∧
    e.calls = m.env.calls

/-- What comes of a read. -/
theorem step_of_reads? (h : m.frame.reads? = some cell)
    (hroom : m.frame.stack.length ≤ Stack.limit) :
    m.step cfg =
      match m.env.load cell with
      | (.ok value, e) => .running ⟨m.frame.afterRead value, m.callers, e⟩
      | (.error error, e) => .aborted (.backend error) (unwind e m.callers) := by
  obtain ⟨byte, key, rest, ready, hread, hstack, rfl⟩ := Frame.eq_of_reads? h
  rw [step_of_ready cfg m ready, hread, Frame.execute_slotLoad cfg hstack hroom]
  cases m.env.load ⟨m.frame.message.self, .ofWord key⟩ with
  | mk answer e => cases answer <;> rfl

/-- Where the calls remember no value, the backend is asked. -/
theorem readsBackend_of_needsBackend (hm : m.env.Recalls) (h : m.frame.reads? = some cell)
    (hroom : m.frame.stack.length ≤ Stack.limit) (hneeds : NeedsBackend cell m.env.calls) :
    m.ReadsBackend cfg cell := by
  have hheld : m.env.held cell = none := (hm.held cell).trans (recalled_eq_none_iff.2 hneeds)
  have hstep : m.step cfg = _ := step_of_reads? h hroom
  have hcalls : (Backend.load m.env.backend cell).2.calls =
      m.env.calls ++ [.load cell (Backend.load m.env.backend cell).1] := List.reverse_cons
  cases hl : (Backend.load m.env.backend cell).1 with
  | error error =>
    rw [hl] at hcalls
    rw [Env.load_of_error hheld hl] at hstep
    refine .refused error _ hstep ?_
    rw [Env.calls_unwind]
    change (Backend.load m.env.backend cell).2.calls ++ _ = _
    rw [hcalls, List.append_assoc]
    rfl
  | ok value =>
    rw [hl] at hcalls
    rw [Env.load_of_ok hheld hl] at hstep
    exact .given value _ hstep hcalls

/-- Where they remember a value, that is what the read gives. -/
theorem readsMemory_of_not_needsBackend (hm : m.env.Recalls) (h : m.frame.reads? = some cell)
    (hroom : m.frame.stack.length ≤ Stack.limit) (hneeds : ¬NeedsBackend cell m.env.calls) :
    ∃ value, Remembers cell value m.env.calls ∧ m.ReadsMemory cfg value := by
  cases hr : recalled cell m.env.calls with
  | none => exact absurd (recalled_eq_none_iff.1 hr) hneeds
  | some value =>
    have hheld : m.env.held cell = some value := (hm.held cell).trans hr
    have hstep : m.step cfg = _ := step_of_reads? h hroom
    rw [Env.load_of_held hheld] at hstep
    exact ⟨value, remembers_of_recalled hr, ⟨_, hstep, rfl⟩⟩

/-! ### Counting reads -/

/-- Whether the frame is about to read a cell for which the backend is needed. -/
def needsBackend (m : Machine (Logged σ)) : Bool :=
  m.frame.reads?.any fun cell => NeedsBackend cell m.env.calls

omit [Backend σ] in
theorem isLoad_eq_false_of_isTransaction {call : Call} (h : call.isTransaction = true) :
    call.isLoad = false := by
  cases call with
  | load => cases h
  | _ => rfl

omit [Backend σ] in
/-- A step that is no read asks for no value. -/
theorem isLoad_eq_false_of_stepCalls {made : List Call} (h : m.StepCalls cfg made)
    (hnone : m.frame.reads? = none) : ∀ call ∈ made, call.isLoad = false := by
  intro call hc
  cases h with
  | executes ready hasked htransactions =>
    rcases List.mem_append.1 hc with hc | hc
    · cases hasked with
      | nothing => cases hc
      | @query q g hexec answer =>
        rw [List.mem_singleton.1 hc]
        cases q with
        | load cell =>
          obtain ⟨cell, hcell⟩ := Frame.reads?_of_asksFor ready hexec
          rw [hnone] at hcell
          cases hcell
        | store cell value => rfl
        | code order => rfl
    · exact isLoad_eq_false_of_isTransaction (htransactions call hc)
  | between ready htransactions => exact isLoad_eq_false_of_isTransaction (htransactions call hc)

/-- A step asks for one value if the backend is needed for it, and for none otherwise. -/
theorem countP_isLoad_step (hm : m.env.Recalls) (hroom : m.frame.stack.length ≤ Stack.limit) :
    (m.step cfg).env.calls.countP Call.isLoad =
      m.env.calls.countP Call.isLoad + if m.needsBackend then 1 else 0 := by
  unfold needsBackend
  cases hr : m.frame.reads? with
  | none =>
    obtain ⟨made, hmade, hcalls⟩ := stepCalls_step cfg m
    have hnone := List.countP_eq_zero.2 fun call hc =>
      ne_true_of_eq_false (isLoad_eq_false_of_stepCalls hmade hr call hc)
    rw [hcalls, List.countP_append, hnone]
    rfl
  | some cell =>
    rw [Option.any_some]
    by_cases hneeds : NeedsBackend cell m.env.calls
    · rw [decide_eq_true hneeds, if_pos rfl]
      have hreads : m.ReadsBackend cfg cell := readsBackend_of_needsBackend hm hr hroom hneeds
      cases hreads with
      | given value e hstep hcalls =>
        rw [hstep]
        change e.calls.countP Call.isLoad = _
        rw [hcalls, List.countP_append]
        rfl
      | refused error e hstep hcalls =>
        have hrollbacks : (List.replicate m.callers.length Call.rollback).countP Call.isLoad = 0 :=
          List.countP_replicate
        rw [hstep]
        change e.calls.countP Call.isLoad = _
        rw [hcalls, List.countP_append, List.countP_cons, hrollbacks]
        rfl
    · rw [decide_eq_false hneeds, if_neg Bool.false_ne_true]
      have hreads : ∃ value, Remembers cell value m.env.calls ∧ m.ReadsMemory cfg value :=
        readsMemory_of_not_needsBackend hm hr hroom hneeds
      obtain ⟨value, -, e, hstep, hcalls⟩ := hreads
      rw [hstep]
      change e.calls.countP Call.isLoad = _
      rw [hcalls]
      rfl

/-- Along a run, the cache holds what the calls remember, and reads have room for what they give. -/
theorem Reaches.recalls {message : Message} {e : Env (Logged σ)}
    (h : Reaches cfg (start cfg message e) m) (he : e.Recalls) :
    m.env.Recalls ∧ m.frame.stack.length ≤ Stack.limit :=
  ⟨Env.kept_recalls.reaches h he, h.budgeted.1.2.stack⟩

end Machine

/-! ### Top-level calls -/

/-- The counts of a backend have grown by the calls that are written down. -/
theorem Counted.alike_logged {σ : Type} [Backend σ] (loads stores : Nat) :
    Backend.Alike fun (c : Counted σ) (l : Logged (Counted σ)) => l.inner = c ∧
      c.loads = loads + l.log.countP Call.isLoad ∧
      c.stores = stores + l.log.countP Call.isStore where
  load _ h := by
    obtain ⟨rfl, hloads, hstores⟩ := h
    exact ⟨rfl, rfl, (congrArg (· + 1) hloads).trans
      (congrArg (loads + ·) (List.countP_cons_of_pos rfl).symm), hstores⟩
  store _ _ h := by
    obtain ⟨rfl, hloads, hstores⟩ := h
    exact ⟨rfl, rfl, hloads, (congrArg (· + 1) hstores).trans
      (congrArg (stores + ·) (List.countP_cons_of_pos rfl).symm)⟩
  code _ h := by
    obtain ⟨rfl, hloads, hstores⟩ := h
    exact ⟨rfl, rfl, hloads, hstores⟩
  checkpoint h := by
    obtain ⟨rfl, hloads, hstores⟩ := h
    exact ⟨rfl, hloads, hstores⟩
  commit h := by
    obtain ⟨rfl, hloads, hstores⟩ := h
    exact ⟨rfl, hloads, hstores⟩
  rollback h := by
    obtain ⟨rfl, hloads, hstores⟩ := h
    exact ⟨rfl, hloads, hstores⟩

namespace Message

variable {σ : Type} [Backend σ]

/-- A backend that counts counts the reads and writes among the calls that reach it. -/
theorem counts_call (cfg : Config) (m : Message) (e : Env (Counted σ)) :
    (m.call cfg e).2.backend.loads =
      e.backend.loads + (m.call cfg e.logged).2.calls.countP Call.isLoad ∧
    (m.call cfg e).2.backend.stores =
      e.backend.stores + (m.call cfg e.logged).2.calls.countP Call.isStore := by
  have hover : e.Over (fun (c : Counted σ) (l : Logged (Counted σ)) => l.inner = c ∧
      c.loads = e.backend.loads + l.log.countP Call.isLoad ∧
      c.stores = e.backend.stores + l.log.countP Call.isStore) e.logged :=
    ⟨⟨rfl, rfl, rfl⟩, rfl, rfl⟩
  obtain ⟨-, hloads, hstores⟩ := (call_over (Counted.alike_logged _ _) cfg m hover).2.backend
  unfold Env.calls Logged.calls
  rw [List.countP_reverse, List.countP_reverse]
  exact ⟨hloads, hstores⟩

/-- In a transaction of its own, a message asks for one value at each machine that needs the
backend. -/
theorem countP_isLoad_transact (cfg : Config) (m : Message) {e : Env (Logged σ)}
    (he : e.Recalls) : (m.transact cfg e).2.calls.countP Call.isLoad =
      e.calls.countP Call.isLoad + (m.trail cfg e).countP Machine.needsBackend := by
  unfold transact trail
  split
  · rfl
  · have hrun : (m.execute cfg e.checkpoint).2.calls.countP Call.isLoad =
        e.checkpoint.calls.countP Call.isLoad +
          ((Machine.start cfg m e.checkpoint).trail cfg).countP Machine.needsBackend :=
      Machine.countP_calls_run fun m' hr => by
        obtain ⟨hrecalls, hroom⟩ := hr.recalls (Env.kept_recalls.checkpoint he)
        exact Machine.countP_isLoad_step hrecalls hroom
    have hclosing (outcome : Except Abort Frame) : [closing outcome].countP Call.isLoad = 0 := by
      rw [List.countP_singleton, Machine.isLoad_eq_false_of_isTransaction
        (Machine.isTransaction_closing outcome)]
      rfl
    have hopening : e.checkpoint.calls.countP Call.isLoad = e.calls.countP Call.isLoad := by
      rw [Env.calls_checkpoint, List.countP_append]
      rfl
    rw [calls_close (execute_ne_outOfBounds m _), List.countP_append, hclosing, hrun, hopening]
    rfl

/-- **Which reads reach the backend.**  Take a top-level call with a cache, over any backend that
writes down its calls, which does not show in the run (`Message.execute_logged`).  At every machine
of the call, a frame that is about to read a cell asks the backend for its value, once, if no read
of the cell has succeeded in this call, or if since the latest one that has the cell was set or a
transaction was rolled back.  Otherwise it makes no call, and gets the value that the latest read
has given.

So a backend that counts counts one read for each of the former, and one write for each value that
is set. -/
theorem reads_reach_backend (cfg : Config) (m : Message) :
    let on : Config := { cfg with slotCache := true }
    (∀ e : Env σ, ∀ m₁ ∈ m.trail on (m.openCall on e.logged), ∀ cell,
      m₁.frame.reads? = some cell →
      (NeedsBackend cell m₁.env.calls → m₁.ReadsBackend on cell) ∧
      (¬NeedsBackend cell m₁.env.calls →
        ∃ value, Remembers cell value m₁.env.calls ∧ m₁.ReadsMemory on value)) ∧
    ∀ e : Env (Counted σ),
      (m.call on e).2.backend.loads = e.backend.loads +
        (m.trail on (m.openCall on e.logged)).countP Machine.needsBackend ∧
      (m.call on e).2.backend.stores = e.backend.stores +
        (m.call on e.logged).2.calls.countP Call.isStore := by
  intro on
  refine ⟨fun e m₁ hm₁ cell hcell => ?_, fun e => ?_⟩
  · have hbegin : (m.openCall on e.logged).Recalls := recalls_openCall rfl m e
    unfold trail at hm₁
    split at hm₁
    · cases hm₁
    · obtain ⟨hrecalls, hroom⟩ := (Machine.reaches_of_mem_trail hm₁).recalls
        (Env.kept_recalls.checkpoint hbegin)
      exact ⟨Machine.readsBackend_of_needsBackend hrecalls hcell hroom,
        Machine.readsMemory_of_not_needsBackend hrecalls hcell hroom⟩
  · have hbegin : (m.openCall on e.logged).Recalls := recalls_openCall rfl m e
    obtain ⟨hloads, hstores⟩ := counts_call on m e
    have hcalls : (m.call on e.logged).2.calls = (m.transact on (m.openCall on e.logged)).2.calls :=
      congrArg Logged.calls (backend_closeCall _)
    have hnone : (m.openCall on e.logged).calls.countP Call.isLoad = 0 := rfl
    rw [hcalls, countP_isLoad_transact on m hbegin, hnone, Nat.zero_add] at hloads
    exact ⟨hloads, hstores⟩

end Message

end ContractVM
