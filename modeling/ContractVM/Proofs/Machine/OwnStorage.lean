import ContractVM.Proofs.Backend.Alike
import ContractVM.Proofs.Frame.Queries
import ContractVM.Proofs.Ledger.Within
import ContractVM.Proofs.Machine.Depth

/-!
# Storage belongs to its own code

Code is called at the address whose storage it works on, and it is the code that is stored there.
So only the code of an account, and the first message, which brings its code along, can set cells
of an account, and code without the byte of a write sets none.

`Machine.Spares address m` says that all code that is live and works on the storage of the account
lacks this byte, and that no cell of the account was set.  As the accounts of the ledger never
change, every step keeps that (`Machine.Spares.step`).

`Message.call_keeps_foreign_storage` is the statement about top-level calls.
-/

namespace ContractVM

/-- Only one byte is a write. -/
theorem Instruction.eq_of_decode_eq_slotStore {byte : UInt8} (h : decode byte = .slotStore) :
    byte = 0x55 := by
  unfold decode at h
  split at h
  case h_17 => rfl
  all_goals try cases h
  -- what is left are the ranges of bytes
  split at h
  · cases h
  · split at h
    · cases h
    · split at h <;> cases h

/-- The code has no byte that is a write. -/
def Bytes.WritesNothing (code : Bytes) : Prop := 0x55 ∉ Bytes.list code

/-- If the message works on the storage of the account, its code writes nothing. -/
def Message.Spares (address : Address) (m : Message) : Prop :=
  m.self = address → Bytes.WritesNothing m.code

namespace Frame

variable {σ : Type} [Backend σ] {f : Frame} {address : Address}

/-- The byte that a frame stands at is a byte of its code. -/
theorem mem_code_of_ready? {byte : UInt8} (h : f.ready? = some byte) :
    byte ∈ Bytes.list f.code := by
  obtain ⟨hpc, rfl⟩ := getElem?_eq_some_iff.1 (running_of_ready? h).2
  exact Array.mem_toList_iff.2 (Array.getElem_mem hpc)

/-- A frame sets no cell of an account that its message spares. -/
theorem storesIn_execute (hf : f.message.Spares address) {byte : UInt8}
    (ready : f.ready? = some byte) (cfg : Config) {e : Env (Logged σ)}
    (he : e.StoresIn fun cell => cell.address ≠ address) :
    (f.execute cfg (.decode byte) e).env.StoresIn fun cell => cell.address ≠ address := by
  have hasks := (Action.exec_asks cfg (.decode byte) f).run
  have hx := executesTo_execute cfg f (.decode byte) e
  generalize f.execute cfg (.decode byte) e = x at hx
  have hanswer {q : Query} {g : Frame} (h : Asks (.decode byte) f (some q) g) :
      (e.answer q).2.StoresIn fun cell => cell.address ≠ address := by
    refine he.answer q fun answer => ?_
    cases q with
    | load cell => trivial
    | store cell value =>
      obtain ⟨hi, hself, -⟩ := h
      intro hcell
      -- the code at hand would be that of the account, and stands at a write
      refine hf (hself.symm.trans hcell) ?_
      rw [← Instruction.eq_of_decode_eq_slotStore hi]
      exact mem_code_of_ready? ready
    | code order => trivial
  cases hx with
  | fails => exact he
  | alone => exact he
  | answered h =>
    rw [h] at hasks
    rw [env_after]
    exact hanswer hasks
  | refused h =>
    rw [h] at hasks
    exact hanswer hasks

end Frame

namespace Machine

variable {σ : Type}

/-- All code that is live, or about to be called, spares the account, and no cell of the account was
set. -/
structure Spares (address : Address) (m : Machine (Logged σ)) : Prop where
  frame : m.frame.message.Spares address
  call : ∀ call, m.frame.pending = some call → call.message.Spares address
  callers : ∀ caller ∈ m.callers, caller.frame.message.Spares address
  env : m.env.StoresIn fun cell => cell.address ≠ address

variable [Backend σ] {cfg : Config} {address : Address}

/-- A call by a frame brings the code of the account that it works on. -/
theorem spares_of_pending [Front σ] {f : Frame} {byte : UInt8} {e : Env σ}
    (ready : f.ready? = some byte) (hcode : Bytes.WritesNothing (e.ledger.account address).code)
    {call : PendingCall} (h : (f.execute cfg (.decode byte) e).frame.pending = some call) :
    call.message.Spares address := by
  obtain ⟨o, rest, order, code, horders, hfound, rfl, -⟩ :=
    Frame.pending_execute (Frame.lt_size_of_ready? ready).2 h
  intro hself
  have haccount : (e.ledger.account order.target).code = code :=
    Front.code_of_code e.backend order.target code hfound
  change order.target = address at hself
  change Bytes.WritesNothing code
  rw [← haccount, hself]
  exact hcode

variable {m : Machine (Logged σ)}

/-- A frame that has executed something goes on with code that spares the account. -/
theorem spares_of_proceedsTo {callers : List Suspended} {x : Executed (Logged σ)}
    {p : Progress (Logged σ)} (hx : ProceedsTo callers x p)
    (frame : x.frame.message.Spares address)
    (call : ∀ call, x.frame.pending = some call → call.message.Spares address)
    (waiting : ∀ caller ∈ callers, caller.frame.message.Spares address)
    (env : x.env.StoresIn fun cell => cell.address ≠ address) :
    p.Holds (Spares address) fun r => r.2.StoresIn fun cell => cell.address ≠ address := by
  cases hx with
  | onward => exact ⟨frame, call, waiting, env⟩
  | halted => exact ⟨frame, call, waiting, env⟩
  | refused => exact env.unwind callers
  | outside => exact env

/-- A step spares an account whose code writes nothing. -/
theorem Spares.step [Front σ] (h : m.Spares address) (hin : m.InBounds)
    (hcode : Bytes.WritesNothing (m.env.ledger.account address).code) :
    (m.step cfg).Holds (Spares address)
      fun r => r.2.StoresIn fun cell => cell.address ≠ address := by
  have hto := stepsTo_step cfg m
  generalize m.step cfg = p at hto
  cases hto with
  | @execute byte _ ready hx =>
    obtain ⟨hmessage, -⟩ := Frame.callFits_execute cfg (.decode byte) m.env
      (Frame.lt_size_of_ready? ready).2
    exact spares_of_proceedsTo hx (hmessage ▸ h.frame) (fun _ => spares_of_pending ready hcode)
      h.callers (Frame.storesIn_execute h.frame ready cfg h.env)
  | @enter call pending =>
    refine ⟨h.call call pending, nofun, fun caller hc => ?_, h.env.checkpoint⟩
    rcases List.mem_cons.1 hc with rfl | hc
    · exact h.frame
    · exact h.callers caller hc
  | @leave caller callers _ ended waits hx =>
    have hcaller : caller ∈ m.callers := waits ▸ List.mem_cons_self
    obtain ⟨hmessage, hpending⟩ := (Frame.advanced_resume caller.frame caller.output m.frame
      (m.env.settle m.frame)).message_pending
    refine spares_of_proceedsTo hx (hmessage ▸ h.callers caller hcaller) ?_ ?_ ?_
    · intro call hc
      rw [hpending, (hin.callers caller hcaller).pending] at hc
      cases hc
    · exact fun other ho => h.callers other (waits ▸ List.mem_cons_of_mem _ ho)
    · unfold Frame.resume
      rw [Frame.env_after]
      exact h.env.settle m.frame
  | finish => exact h.env

end Machine

namespace Message

variable {σ : Type} [Backend σ] [Front σ] {address : Address} {m : Message}

/-- A run sets no cell of an account whose code writes nothing, unless it is the code of the first
message that does. -/
theorem storesIn_execute (hm : m.Spares address) (cfg : Config) {e : Env (Logged σ)}
    (hcode : Bytes.WritesNothing (e.ledger.account address).code)
    (he : e.StoresIn fun cell => cell.address ≠ address) :
    (m.execute cfg e).2.StoresIn fun cell => cell.address ≠ address := by
  have hstart : (Machine.start cfg m e).Spares address :=
    ⟨hm, nofun, fun _ hc => absurd hc List.not_mem_nil, he⟩
  unfold execute
  refine Machine.run_of_reaches hstart fun m' hr h => h.step hr.inBounds ?_
  -- the code of the account is what it was
  unfold Ledger.account at hcode ⊢
  rw [hr.accounts]
  exact hcode

theorem storesIn_transact (hm : m.Spares address) (cfg : Config) {e : Env (Logged σ)}
    (hcode : Bytes.WritesNothing (e.ledger.account address).code)
    (he : e.StoresIn fun cell => cell.address ≠ address) :
    (m.transact cfg e).2.StoresIn fun cell => cell.address ≠ address := by
  unfold transact
  split
  · exact he
  · have hopened : Bytes.WritesNothing (e.checkpoint.ledger.account address).code := by
      rw [Env.ledger_checkpoint]
      exact hcode
    have hrun := storesIn_execute hm cfg hopened he.checkpoint
    generalize m.execute cfg e.checkpoint = r at hrun
    obtain ⟨(error | _) | f, env⟩ := r
    · exact hrun.rollback
    · exact hrun
    · exact hrun.settle f

/-- **Storage belongs to its own code.**  A top-level call over a ledger, behind anything that may
refuse calls, changes no account.  If the code of an account writes nothing, and the message does
not work on the storage of that account itself, then all its cells have the values that they had,
however often its code and any other code are called, and however the call ends. -/
theorem call_keeps_foreign_storage (cfg : Config) (m : Message) (e : Env σ) :
    (m.call cfg e).2.ledger.accounts = e.ledger.accounts ∧
    ∀ address, address ≠ m.self → Bytes.WritesNothing (e.ledger.account address).code →
      ∀ key, (m.call cfg e).2.ledger.value ⟨address, key⟩ = e.ledger.value ⟨address, key⟩ := by
  refine ⟨accounts_call cfg m e, fun address hforeign hcode => ?_⟩
  have hspares : m.Spares address := fun hself => absurd hself.symm hforeign
  let opened := m.openCall cfg e.logged
  have hopened : opened.StoresIn fun cell => cell.address ≠ address :=
    fun _ hc => absurd hc List.not_mem_nil
  have hsame : Bytes.WritesNothing (opened.ledger.account address).code := hcode
  have hstores := storesIn_transact hspares cfg hsame hopened
  have hbegin : Ledger.Everywhere (fun c => ∀ key, c.values ⟨address, key⟩ =
      e.ledger.value ⟨address, key⟩) [] opened.ledger := Ledger.everywhere_nil fun _ => rfl
  have hend := (Ledger.nestsWithin_values address e.ledger.value).env.transact m
    (fun _ => hbegin) hstores
  -- the log does not show, and the edges of a call do not concern the ledger
  have hover : e.Over (fun s (l : Logged σ) => l.inner = s) e.logged := ⟨rfl, rfl, rfl⟩
  have hledger : (m.call cfg e.logged).2.ledger = (m.call cfg e).2.ledger :=
    congrArg Front.ledger (call_over Backend.alike_logged cfg m hover).2.backend
  rw [← hledger, Ledger.ledger_call]
  exact hend.current

end Message

end ContractVM
