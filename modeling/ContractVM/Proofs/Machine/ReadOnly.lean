import ContractVM.Proofs.Backend.Alike
import ContractVM.Proofs.Frame.Queries
import ContractVM.Proofs.Ledger.Unwritten
import ContractVM.Proofs.Machine.Depth

/-!
# Messages that allow reading only

A message that allows reading only hands this on to all calls that its code makes, and a call that
allows reading only begins with such a message.  So whether the frame that runs may write can be
read off the frames that wait for it (`Frame.Inherits`).  Every step keeps this
(`Machine.Restricted.step`).

`Env.NoStores e e'` says that between two environments no value was set.  A frame that must not
write sets none (`Frame.noStores_execute`), and no other step sets any (`Machine.noStores_step`).

`Message.static_never_stores` is the statement about runs, and about the ledger that is left.
-/

namespace ContractVM

/-! ### No values are set -/

namespace Env

variable {σ : Type}

/-- From the first environment to the second, no value was set. -/
def NoStores (e e' : Env (Logged σ)) : Prop :=
  ∃ made, e'.calls = e.calls ++ made ∧ ∀ call ∈ made, call.isStore = false

namespace NoStores

variable {e e' e'' : Env (Logged σ)}

theorem of_calls_eq (h : e'.calls = e.calls) : NoStores e e' :=
  ⟨[], h.trans (List.append_nil _).symm, nofun⟩

theorem refl (e : Env (Logged σ)) : NoStores e e := of_calls_eq rfl

theorem of_call {call : Call} (h : e'.calls = e.calls ++ [call]) (hc : call.isStore = false) :
    NoStores e e' := by
  refine ⟨[call], h, fun other ho => ?_⟩
  rw [List.mem_singleton.1 ho]
  exact hc

theorem trans (h : NoStores e e') (h' : NoStores e' e'') : NoStores e e'' := by
  obtain ⟨made, hcalls, hmade⟩ := h
  obtain ⟨made', hcalls', hmade'⟩ := h'
  refine ⟨made ++ made', by rw [hcalls', hcalls, List.append_assoc], fun call hc => ?_⟩
  rcases List.mem_append.1 hc with hc | hc
  · exact hmade call hc
  · exact hmade' call hc

variable [Backend σ]

theorem settle (e : Env (Logged σ)) (f : Frame) : NoStores e (e.settle f) := by
  unfold Env.settle
  split
  · exact of_call e.calls_commit rfl
  · exact of_call e.calls_rollback rfl

theorem unwind (e : Env (Logged σ)) (callers : List Suspended) :
    NoStores e (Machine.unwind e callers) := by
  refine ⟨_, e.calls_unwind callers, fun call hc => ?_⟩
  rw [List.eq_of_mem_replicate hc]
  rfl

end NoStores

end Env

namespace Frame

variable {σ : Type} [Backend σ] {f : Frame}

/-- A frame that must not write sets no value. -/
theorem noStores_execute (hf : f.message.isStatic = true) (cfg : Config) (i : Instruction)
    (e : Env (Logged σ)) : e.NoStores (f.execute cfg i e).env := by
  have hasks := (Action.exec_asks cfg i f).run
  have hx := executesTo_execute cfg f i e
  generalize f.execute cfg i e = x at hx
  have hanswer {q : Query} {g : Frame} (h : Asks i f (some q) g) : e.NoStores (e.answer q).2 := by
    obtain ⟨hcalls, -⟩ | hcalls := e.calls_answer_eq q
    · exact .of_calls_eq hcalls
    · refine .of_call hcalls ?_
      cases q with
      | load cell => rfl
      | store cell value =>
        obtain ⟨-, -, hwrites⟩ := h
        rw [hf] at hwrites
        cases hwrites
      | code order => rfl
  cases hx with
  | fails => exact .refl e
  | alone => exact .refl e
  | answered h =>
    rw [h] at hasks
    rw [env_after]
    exact hanswer hasks
  | refused h =>
    rw [h] at hasks
    exact hanswer hasks

/-- A write with both operands fails in a frame that must not write, and asks nothing. -/
theorem exec_store_of_static (hf : f.message.isStatic = true) {key value : Word} {rest : Stack}
    (hs : f.stack = key :: value :: rest) (cfg : Config) :
    Action.Ensures (Action.exec cfg .slotStore) f (fun _ _ => False)
      (fun fault g => fault = .halt .staticWrite ∧ g = { f with stack := rest }) := by
  rw [Action.exec]
  refine .bind (.pop (fun w s hw => ?_) fun hnone => ?_)
  · obtain ⟨-, rfl⟩ := List.cons.inj (hs.symm.trans hw)
    refine .bind (.pop (fun w' s' hw' => ?_) fun hnone => ?_)
    · obtain ⟨-, rfl⟩ := List.cons.inj hw'
      refine .bind (.get ?_)
      dsimp only
      rw [if_pos hf]
      exact .fail ⟨rfl, rfl⟩
    · cases hnone
  · rw [hs] at hnone
    cases hnone

/-- The frame that must not write is halted by a write with both operands, and nothing else
happens. -/
theorem execute_store_of_static (hf : f.message.isStatic = true) {key value : Word} {rest : Stack}
    (hs : f.stack = key :: value :: rest) (cfg : Config) (e : Env σ) :
    f.execute cfg .slotStore e = ⟨{ f with stack := rest }, e, some (.halt .staticWrite)⟩ := by
  have hi := (exec_store_of_static hf hs cfg).run
  unfold execute
  cases h : Action.exec cfg .slotStore f with
  | ok q g =>
    rw [h] at hi
    exact hi.elim
  | error fault g =>
    rw [h] at hi
    obtain ⟨rfl, rfl⟩ := hi
    rfl

end Frame

namespace Machine

variable {σ : Type} [Backend σ] {cfg : Config}

theorem noStores_of_proceedsTo {callers : List Suspended} {x : Executed (Logged σ)}
    {p : Progress (Logged σ)} (hx : ProceedsTo callers x p) : x.env.NoStores p.env := by
  cases hx with
  | onward => exact .refl _
  | halted => exact .refl _
  | refused => exact .unwind _ _
  | outside => exact .refl _

/-- A step at a frame that must not write sets no value. -/
theorem noStores_step {m : Machine (Logged σ)} (h : m.frame.message.isStatic = true) :
    m.env.NoStores (m.step cfg).env := by
  have hto := stepsTo_step cfg m
  generalize m.step cfg = p at hto
  cases hto with
  | execute ready hx =>
    exact (Frame.noStores_execute h cfg _ _).trans (noStores_of_proceedsTo hx)
  | enter => exact .of_call m.env.calls_checkpoint rfl
  | leave ended waits hx =>
    refine (Env.NoStores.settle m.env m.frame).trans (.trans ?_ (noStores_of_proceedsTo hx))
    refine .of_calls_eq ?_
    unfold Frame.resume
    rw [Frame.env_after]
    rfl
  | finish => exact .refl _

end Machine

/-! ### What calls inherit -/

namespace Frame

/-- The instruction that the frame stands at. -/
def instruction? (f : Frame) : Option Instruction := f.opcode?.map .decode

/-- The frame stands at an instruction that calls. -/
def AtCall (f : Frame) : Prop := f.instruction? = some .call ∨ f.instruction? = some .staticCall

/-- A call by the frame must not write. -/
def Restricts (f : Frame) : Prop :=
  f.message.isStatic = true ∨ f.instruction? = some .staticCall

/-- What must not write, or calls what must not write, is waited for by none that may.  Outermost
stands a frame that must not write if `isStatic` is true. -/
def Inherits (isStatic : Bool) (f : Frame) : List Suspended → Prop
  | [] => isStatic = true → f.message.isStatic = true
  | caller :: callers => (caller.frame.Restricts → f.message.isStatic = true) ∧
      caller.frame.Inherits isStatic callers

variable {isStatic : Bool} {f g : Frame} {callers : List Suspended}

/-- Whether a frame may write is said by its message. -/
theorem Inherits.of_message_eq (h : f.Inherits isStatic callers) (hm : g.message = f.message) :
    g.Inherits isStatic callers := by
  cases callers with
  | nil => exact fun hs => hm ▸ h hs
  | cons caller callers => exact ⟨fun hr => hm ▸ h.1 hr, h.2⟩

/-- Below a frame that restricts its calls, no frame may write. -/
theorem Inherits.static (h : f.Inherits isStatic callers)
    (hr : isStatic = true ∨ ∃ caller ∈ callers, caller.frame.Restricts) :
    f.message.isStatic = true := by
  induction callers generalizing f with
  | nil =>
    rcases hr with hs | ⟨caller, hc, -⟩
    · exact h hs
    · cases hc
  | cons caller callers ih =>
    refine h.1 ?_
    rcases hr with hs | ⟨other, ho, hrestricts⟩
    · exact .inl (ih h.2 (.inl hs))
    · rcases List.mem_cons.1 ho with rfl | ho
      · exact hrestricts
      · exact .inl (ih h.2 (.inr ⟨other, ho, hrestricts⟩))

/-- The byte of the next instruction says which instruction that is. -/
theorem instruction?_of_ready? {byte : UInt8} (h : f.ready? = some byte) :
    f.instruction? = some (.decode byte) := by
  unfold instruction?
  rw [(running_of_ready? h).2]
  rfl

end Frame

namespace Machine

variable {σ : Type}

/-- The frames that wait stand at their calls and restrict the frames that they wait for, and so
does a frame that has made a call. -/
structure Restricted (isStatic : Bool) (m : Machine σ) : Prop where
  inherits : m.frame.Inherits isStatic m.callers
  call : ∀ call, m.frame.pending = some call →
    m.frame.AtCall ∧ (m.frame.Restricts → call.message.isStatic = true)
  callers : ∀ caller ∈ m.callers, caller.frame.AtCall

theorem restricted_start (cfg : Config) (message : Message) (e : Env σ) :
    Restricted message.isStatic (start cfg message e) :=
  ⟨id, nofun, nofun⟩

variable [Backend σ] {cfg : Config} {isStatic : Bool} {m m' : Machine σ}

/-- A frame that has made a call still stands there, and what restricts it restricts the call. -/
theorem restricts_of_pending {f : Frame} {byte : UInt8} {e : Env σ} (ready : f.ready? = some byte)
    {call : PendingCall} (h : (f.execute cfg (.decode byte) e).frame.pending = some call) :
    (f.execute cfg (.decode byte) e).frame.AtCall ∧
      ((f.execute cfg (.decode byte) e).frame.Restricts → call.message.isStatic = true) := by
  obtain ⟨o, rest, order, code, horders, -, rfl, hx⟩ :=
    Frame.pending_execute (Frame.lt_size_of_ready? ready).2 h
  have hstands : f.instruction? = some (.decode byte) := Frame.instruction?_of_ready? ready
  have hat : (f.execute cfg (.decode byte) e).frame.instruction? = some (.decode byte) := by
    rw [hx]
    exact hstands
  have hmessage : (f.execute cfg (.decode byte) e).frame.message = f.message := by
    rw [hx]
    rfl
  refine ⟨?_, fun hr => ?_⟩
  · unfold Frame.AtCall
    rw [hat]
    rcases Instruction.eq_call_of_callOperands? horders.operands with hi | hi
    · exact .inl (congrArg some hi)
    · exact .inr (congrArg some hi)
  · change order.isStatic = true
    rw [horders.isStatic, Bool.or_eq_true, decide_eq_true_iff]
    unfold Frame.Restricts at hr
    rw [hat, hmessage] at hr
    rcases hr with hs | hi
    · exact .inr hs
    · exact .inl (Option.some.inj hi)

/-- A step keeps the restrictions. -/
theorem Restricted.step (h : m.Restricted isStatic) (hin : m.InBounds)
    (hs : m.step cfg = .running m') : m'.Restricted isStatic := by
  have hto := stepsTo_step cfg m
  rw [hs] at hto
  cases hto with
  | @execute byte _ ready hx =>
    obtain ⟨hmessage, -⟩ := Frame.callFits_execute cfg (.decode byte) m.env
      (Frame.lt_size_of_ready? ready).2
    have hinherits := h.inherits.of_message_eq hmessage
    cases hx with
    | onward => exact ⟨hinherits, fun _ => restricts_of_pending ready, h.callers⟩
    | halted =>
      exact ⟨hinherits.of_message_eq rfl, fun _ => restricts_of_pending ready, h.callers⟩
  | @enter call pending =>
    obtain ⟨hat, hrestricts⟩ := h.call call pending
    refine ⟨⟨hrestricts, h.inherits.of_message_eq rfl⟩, nofun, fun caller hc => ?_⟩
    rcases List.mem_cons.1 hc with rfl | hc
    · exact hat
    · exact h.callers caller hc
  | @leave caller callers _ ended waits hx =>
    have hinherits := h.inherits
    rw [waits] at hinherits
    obtain ⟨hcallers, hmessage, hnone⟩ := hin.leave waits hx
    refine ⟨?_, fun call hc => ?_, fun other ho => ?_⟩
    · rw [hcallers]
      exact hinherits.2.of_message_eq hmessage
    · rw [hnone] at hc
      cases hc
    · rw [hcallers] at ho
      exact h.callers other (waits ▸ List.mem_cons_of_mem _ ho)

theorem Reaches.restricted {message : Message} {e : Env σ}
    (h : Reaches cfg (start cfg message e) m) : m.Restricted message.isStatic := by
  induction h with
  | refl => exact restricted_start cfg message e
  | tail hr hs ih => exact ih.step (Reaches.inBounds hr) hs

/-- What holds of a message that allows reading only: whatever it has led to must not write, and no
value was set since this environment. -/
structure ReadsOnly (e : Env (Logged σ)) (m : Machine (Logged σ)) : Prop where
  restricted : m.Restricted true
  noStores : e.NoStores m.env

/-- A step of such a run sets no value, and keeps it so. -/
theorem ReadsOnly.step {e : Env (Logged σ)} {m : Machine (Logged σ)} (h : m.ReadsOnly e)
    (hin : m.InBounds) : (m.step cfg).Holds (ReadsOnly e) fun r => e.NoStores r.2 := by
  have hstatic := h.restricted.inherits.static (.inl rfl)
  have hstores : e.NoStores (m.step cfg).env := h.noStores.trans (noStores_step hstatic)
  cases hs : m.step cfg with
  | running m' =>
    rw [hs] at hstores
    exact ⟨h.restricted.step hin hs, hstores⟩
  | finished f env =>
    rw [hs] at hstores
    exact hstores
  | aborted reason env =>
    rw [hs] at hstores
    exact hstores

end Machine

namespace Message

variable {σ : Type} [Backend σ] {m : Message}

/-- Code of a message that allows reading only sets no value. -/
theorem noStores_execute (hm : m.isStatic = true) (cfg : Config) (e : Env (Logged σ)) :
    e.NoStores (m.execute cfg e).2 := by
  have hstart : (Machine.start cfg m e).Restricted true := hm ▸ Machine.restricted_start cfg m e
  have hreads : (Machine.start cfg m e).ReadsOnly e := ⟨hstart, .refl e⟩
  exact (Machine.inBounds_start cfg m e).run_of_invariant hreads fun _ hin h => h.step hin

theorem noStores_close (r : Machine.Result (Logged σ)) : r.2.NoStores (close r).2 := by
  obtain ⟨(error | _) | f, e⟩ := r
  · exact .of_call e.calls_rollback rfl
  · exact .refl e
  · exact .settle e f

theorem noStores_transact (hm : m.isStatic = true) (cfg : Config) (e : Env (Logged σ)) :
    e.NoStores (m.transact cfg e).2 := by
  unfold transact
  split
  · exact .refl e
  · have hopen : e.NoStores e.checkpoint := .of_call e.calls_checkpoint rfl
    exact (hopen.trans (noStores_execute hm cfg e.checkpoint)).trans (noStores_close _)

theorem noStores_call (hm : m.isStatic = true) (cfg : Config) (e : Env (Logged σ)) :
    e.NoStores (m.call cfg e).2 := by
  have hopen : e.NoStores (m.openCall cfg e) := .of_calls_eq rfl
  refine (hopen.trans (noStores_transact hm cfg _)).trans (.of_calls_eq ?_)
  exact congrArg Logged.calls (backend_closeCall _)

end Message

/-! ### Runs -/

namespace Message

variable {m : Message}

/-- A log that begins empty holds no write if no value was set. -/
theorem not_isStore_of_noStores {σ : Type} {e : Env σ} {e' : Env (Logged σ)}
    (h : e.logged.NoStores e') : ∀ call ∈ e'.calls, call.isStore = false := by
  obtain ⟨made, hcalls, hmade⟩ := h
  intro call hc
  rw [hcalls] at hc
  exact hmade call hc

/-- A message that allows reading only writes nothing to the ledger. -/
theorem ledger_of_isStatic {σ : Type} [Backend σ] [Front σ] (hm : m.isStatic = true) (cfg : Config)
    (e : Env σ) :
    e.ledger.SameContents (m.execute cfg e).2.ledger ∧
    e.ledger.SameContents (m.transact cfg e).2.ledger ∧
    e.ledger.SameContents (m.call cfg e).2.ledger := by
  have hnests := Env.nests_leavesUnwritten (σ := σ) e.ledger
  have hover : e.Over (fun s (l : Logged σ) => l.inner = s) e.logged := ⟨rfl, rfl, rfl⟩
  -- the run over the log is the run itself
  have hsame {e' : Env σ} {l : Env (Logged σ)} (hl : l.backend.inner = e'.backend)
      (h : e.ledger.Unwritten [] l.ledger) : e.ledger.SameContents e'.ledger := by
    have hledger : l.ledger = e'.ledger := congrArg Front.ledger hl
    rw [hledger] at h
    exact h.contents
  have hbegin : Env.LeavesUnwritten e.ledger [] e.logged := fun _ => .refl _
  refine ⟨?_, ?_, ?_⟩
  · refine hsame (execute_over Backend.alike_logged cfg m hover).2.backend ?_
    exact hnests.execute m hbegin (not_isStore_of_noStores (noStores_execute hm cfg _))
  · refine hsame (transact_over Backend.alike_logged cfg m hover).2.backend ?_
    exact hnests.transact m hbegin (not_isStore_of_noStores (noStores_transact hm cfg _))
  · refine hsame (call_over Backend.alike_logged cfg m hover).2.backend ?_
    have hopen : Env.LeavesUnwritten e.ledger [] (m.openCall cfg e.logged) := fun _ => .refl _
    have hstores := not_isStore_of_noStores (noStores_call hm cfg e.logged)
    -- the edges of a top-level call do not concern the backend
    have hback := backend_closeCall (m.transact cfg (m.openCall cfg e.logged))
    have hledger : (m.call cfg e.logged).2.ledger =
        (m.transact cfg (m.openCall cfg e.logged)).2.ledger := congrArg Front.ledger hback
    rw [hledger]
    refine hnests.transact m hopen fun call hc => hstores call ?_
    have hcalls : (m.call cfg e.logged).2.calls =
        (m.transact cfg (m.openCall cfg e.logged)).2.calls := congrArg Logged.calls hback
    rw [hcalls]
    exact hc

/-- **Messages that allow reading only never write.**  Take any message, over any backend that
writes down its calls, which does not show in the run (`Message.execute_logged`).

* If the message allows reading only, no value is set, by its own code or by any that this calls,
  however the message is run.
* At every machine of a run, also of a message that may write, the frames that wait stand at their
  calls.  A frame that stands below a call that allows reading only sets no value.  If it is about
  to, and has both operands, it is halted, and the backend and the cache stay as they are.

So a message that allows reading only leaves the accounts and the storage of a ledger as they
are. -/
theorem static_never_stores {σ : Type} [Backend σ] (cfg : Config) (m : Message) (e : Env σ) :
    (m.isStatic = true →
      (∀ call ∈ (m.execute cfg e.logged).2.calls, call.isStore = false) ∧
      (∀ call ∈ (m.transact cfg e.logged).2.calls, call.isStore = false) ∧
      ∀ call ∈ (m.call cfg e.logged).2.calls, call.isStore = false) ∧
    (∀ (e : Env (Logged σ)) (m₁ : Machine (Logged σ)),
      Machine.Reaches cfg (Machine.start cfg m e) m₁ →
      (∀ caller ∈ m₁.callers, caller.frame.AtCall) ∧
      ((m.isStatic = true ∨
        ∃ caller ∈ m₁.callers, caller.frame.instruction? = some .staticCall) →
      m₁.frame.message.isStatic = true ∧ m₁.env.NoStores (m₁.step cfg).env ∧
      ∀ byte key value rest, m₁.frame.ready? = some byte → .decode byte = Instruction.slotStore →
        m₁.frame.stack = key :: value :: rest →
        ∃ next, m₁.step cfg = .running next ∧
          next.frame = Frame.halt { m₁.frame with stack := rest } .staticWrite ∧
          next.callers = m₁.callers ∧ next.env.backend = m₁.env.backend ∧
          next.env.cache = m₁.env.cache)) ∧
    ∀ (τ : Type) [Backend τ] [Front τ] (e : Env τ), m.isStatic = true →
      e.ledger.SameContents (m.execute cfg e).2.ledger ∧
      e.ledger.SameContents (m.transact cfg e).2.ledger ∧
      e.ledger.SameContents (m.call cfg e).2.ledger := by
  refine ⟨fun hm => ⟨?_, ?_, ?_⟩, fun e m₁ hr => ⟨hr.restricted.callers, fun hrestricts => ?_⟩,
    fun τ _ _ e hm => ledger_of_isStatic hm cfg e⟩
  · exact not_isStore_of_noStores (noStores_execute hm cfg e.logged)
  · exact not_isStore_of_noStores (noStores_transact hm cfg e.logged)
  · exact not_isStore_of_noStores (noStores_call hm cfg e.logged)
  · have hstatic : m₁.frame.message.isStatic = true := by
      refine hr.restricted.inherits.static (hrestricts.imp_right ?_)
      rintro ⟨caller, hc, hi⟩
      exact ⟨caller, hc, .inr hi⟩
    refine ⟨hstatic, Machine.noStores_step hstatic, fun byte key value rest ready hbyte hs => ?_⟩
    rw [Machine.step_of_ready cfg _ ready, hbyte,
      Frame.execute_store_of_static hstatic hs cfg m₁.env]
    exact ⟨_, rfl, rfl, rfl, rfl, rfl⟩

end Message

end ContractVM
