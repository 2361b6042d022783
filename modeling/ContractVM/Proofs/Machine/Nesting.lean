import ContractVM.Proofs.Machine.Calls

/-!
# Transactions belong to the frames that wait

A run opens a transaction when it begins a call and closes it when the call ends, so those that it
has opened and not closed belong to the frames that wait.  Many properties of an environment are
about its open transactions: `P marks e` says something of the environment `e` with a mark for
each of them, the innermost first, where a mark is what `e` was when the transaction began.
`Env.Nests P mark` says that whatever is done to an environment keeps such a property.

`Machine.Marked P callers marks m` says that `P` holds of a machine `m` whose last frames that wait
are `callers`: the marks of the transactions opened since then come before `marks`.  Every step
keeps this as long as these frames wait (`Machine.Marked.step`), and so does all that serves them
(`Machine.Marked.serves`).  A run leaves no transaction open (`Env.Nests.run`), whatever its
outcome.

A property that does not look at transactions (`Env.Kept P`) is the case of marks that say nothing.
-/

namespace ContractVM

variable {σ α : Type} {P : List α → Env σ → Prop}

namespace Machine

/-- The property holds of the machine, with marks for the frames that wait inside of `callers`
before those for the transactions that were open already. -/
def Marked (P : List α → Env σ → Prop) (callers : List Suspended) (marks : List α)
    (m : Machine σ) : Prop :=
  ∃ inner opened, m.callers = inner ++ callers ∧ opened.length = inner.length ∧
    P (opened ++ marks) m.env

variable {callers : List Suspended} {marks : List α} {m : Machine σ}

/-- At the beginning no frame waits inside of those that wait. -/
theorem marked_of_callers (h : P marks m.env) : Marked P m.callers marks m :=
  ⟨[], [], rfl, rfl, h⟩

/-- When no frame waits inside, there are no more transactions. -/
theorem Marked.of_callers_eq (h : Marked P callers marks m) (hc : m.callers = callers) :
    P marks m.env := by
  obtain ⟨inner, opened, hcallers, hlen, hp⟩ := h
  have hinner : inner = [] := List.append_left_eq_self.1 (hcallers.symm.trans hc)
  subst hinner
  obtain rfl := List.eq_nil_of_length_eq_zero hlen
  exact hp

end Machine

variable [Backend σ] {mark : Env σ → α} {cfg : Config}

/-- Whatever is done to an environment keeps what is said of it and its open transactions. -/
structure Env.Nests (P : List α → Env σ → Prop) (mark : Env σ → α) : Prop where
  report : ∀ {marks e} (events : List Event), P marks e → P marks (e.report events)
  answer : ∀ {marks e} (q : Query), P marks e → P marks (e.answer q).2
  checkpoint : ∀ {marks e}, P marks e → P (mark e :: marks) e.checkpoint
  commit : ∀ {a marks e}, P (a :: marks) e → P marks e.commit
  rollback : ∀ {a marks e}, P (a :: marks) e → P marks e.rollback

namespace Env.Nests

variable {marks : List α} {a : α} {e : Env σ}

theorem settle (h : Nests P mark) (f : Frame) (he : P (a :: marks) e) : P marks (e.settle f) := by
  unfold Env.settle
  split
  · exact h.commit he
  · exact h.rollback he

/-- Every frame that waits closes one transaction. -/
theorem unwind (h : Nests P mark) {callers : List Suspended} {opened : List α}
    (hlen : opened.length = callers.length) (he : P (opened ++ marks) e) :
    P marks (Machine.unwind e callers) := by
  induction callers generalizing e opened with
  | nil =>
    obtain rfl := List.eq_nil_of_length_eq_zero hlen
    exact he
  | cons caller callers ih =>
    cases opened with
    | nil => cases hlen
    | cons a opened => exact ih (Nat.succ.inj hlen) (h.rollback he)

/-- An instruction opens no transaction and closes none. -/
theorem frameExecute (h : Nests P mark) (f : Frame) (i : Instruction) (he : P marks e) :
    P marks (f.execute cfg i e).env := by
  have hx := Frame.executesTo_execute cfg f i e
  generalize f.execute cfg i e = x at hx
  cases hx with
  | fails => exact he
  | alone => exact he
  | answered =>
    rw [Frame.env_after]
    exact h.answer _ he
  | refused => exact h.answer _ he

theorem frameResume (h : Nests P mark) (f : Frame) (range : Range) (callee : Frame)
    (he : P marks e) : P marks (f.resume range callee e).env := by
  unfold Frame.resume
  rw [Frame.env_after]
  exact h.report _ he

end Env.Nests

namespace Machine

variable {callers : List Suspended} {marks : List α} {m m' : Machine σ}

/-- What has been executed leaves the marks as they are. -/
theorem marked_of_proceedsTo (h : Env.Nests P mark) {waiting inner : List Suspended}
    {opened : List α} {x : Executed σ} (hx : ProceedsTo waiting x (.running m'))
    (hc : waiting = inner ++ callers) (hlen : opened.length = inner.length)
    (hp : P (opened ++ marks) x.env) : Marked P callers marks m' := by
  cases hx with
  | onward => exact ⟨inner, opened, hc, hlen, hp⟩
  | halted => exact ⟨inner, opened, hc, hlen, h.report _ hp⟩

/-- A step keeps the property as long as these frames wait. -/
theorem Marked.step (h : Env.Nests P mark) (hm : Marked P callers marks m)
    (hs : m.step cfg = .running m') (hc : callers <:+ m'.callers) : Marked P callers marks m' := by
  obtain ⟨inner, opened, hcallers, hlen, hp⟩ := hm
  have hto := stepsTo_step cfg m
  rw [hs] at hto
  cases hto with
  | execute ready hx => exact marked_of_proceedsTo h hx hcallers hlen (h.frameExecute _ _ hp)
  | @enter call =>
    refine ⟨⟨{ m.frame with pending := none }, call.output⟩ :: inner, mark m.env :: opened, ?_, ?_,
      h.checkpoint hp⟩
    · exact congrArg (List.cons _) hcallers
    · exact congrArg Nat.succ hlen
  | @leave caller outer _ ended waits hx =>
    have houter : m'.callers = outer := by cases hx <;> rfl
    cases inner with
    | nil =>
      -- the frame that goes on would be one of those that are to wait
      have hlen := hc.length_le
      rw [houter, ← show caller :: outer = callers from waits.symm.trans hcallers] at hlen
      exact absurd hlen (Nat.not_succ_le_self _)
    | cons first inner =>
      cases opened with
      | nil => cases hlen
      | cons a opened =>
        have hwait : caller :: outer = first :: inner ++ callers := waits.symm.trans hcallers
        refine marked_of_proceedsTo h hx (List.cons.inj hwait).2 (Nat.succ.inj hlen) ?_
        exact h.frameResume _ _ _ (h.settle _ hp)

/-- What serves these frames keeps the property. -/
theorem Marked.serves (h : Env.Nests P mark) (hs : Serves cfg callers m m')
    (hm : Marked P callers marks m) : Marked P callers marks m' :=
  hs.invariant hm fun _ _ hm hs hc => hm.step h hs hc

/-- While a call is served, there is a mark for its transaction. -/
theorem Returns.marked {call : PendingCall} (h : Env.Nests P mark) (hr : Returns cfg m call m')
    (hp : P marks m.env) : P (mark m.env :: marks) m'.env := by
  have hm : Marked P (m.enter call).callers (mark m.env :: marks) (m.enter call) :=
    marked_of_callers (h.checkpoint hp)
  exact (hm.serves h hr.serves).of_callers_eq hr.callers

end Machine

namespace Env.Nests

variable {marks : List α} {e : Env σ}

/-- A step of a run keeps the property, and its last step leaves no transaction open. -/
theorem holds_step (h : Nests P mark) (m : Machine σ) (hm : Machine.Marked P [] marks m) :
    (m.step cfg).Holds (Machine.Marked P [] marks)
      (fun r => r.1 ≠ .error .outOfBounds → P marks r.2) := by
  cases hs : m.step cfg with
  | running m' => exact hm.step h hs List.nil_suffix
  | finished f env =>
    intro _
    have hto := Machine.stepsTo_step cfg m
    rw [hs] at hto
    cases hto with
    | execute ready hx => cases hx
    | leave ended waits hx => cases hx
    | finish ended none => exact hm.of_callers_eq none
  | aborted reason env =>
    intro hne
    obtain ⟨inner, opened, hcallers, hlen, hp⟩ := hm
    rw [List.append_nil] at hcallers
    have hto := Machine.stepsTo_step cfg m
    rw [hs] at hto
    cases hto with
    | execute ready hx =>
      cases hx with
      | refused =>
        rw [hcallers]
        exact h.unwind hlen (h.frameExecute _ _ hp)
      | outside => exact absurd rfl hne
    | leave ended waits hx =>
      cases hx with
      | refused =>
        cases inner with
        | nil => rw [waits] at hcallers; cases hcallers
        | cons first inner =>
          cases opened with
          | nil => cases hlen
          | cons a opened =>
            obtain ⟨-, rfl⟩ := List.cons.inj (waits.symm.trans hcallers)
            exact h.unwind (Nat.succ.inj hlen) (h.frameResume _ _ _ (h.settle _ hp))
      | outside => exact absurd rfl hne

/-- At every machine of a run there is a mark for every frame that waits. -/
theorem reaches (h : Nests P mark) {m : Message} {m' : Machine σ}
    (hr : Machine.Reaches cfg (Machine.start cfg m e) m') (he : P marks e) :
    ∃ opened, opened.length = m'.callers.length ∧ P (opened ++ marks) m'.env := by
  have hstart : Machine.Marked P [] marks (Machine.start cfg m e) := Machine.marked_of_callers he
  obtain ⟨inner, opened, hcallers, hlen, hp⟩ := hstart.serves h hr.serves
  rw [List.append_nil] at hcallers
  exact ⟨opened, hcallers ▸ hlen, hp⟩

/-- A run leaves no transaction open. -/
theorem run (h : Nests P mark) {m : Machine σ} (hm : Machine.Marked P [] marks m)
    (hne : (m.run cfg).1 ≠ .error .outOfBounds) : P marks (m.run cfg).2 :=
  Machine.run_of_invariant (Q := fun r => r.1 ≠ .error .outOfBounds → P marks r.2) hm
    h.holds_step hne

theorem execute (h : Nests P mark) (m : Message) (he : P marks e) : P marks (m.execute cfg e).2 :=
  h.run (Machine.marked_of_callers he) (Message.execute_ne_outOfBounds m e)

/-- A message closes its own transaction, too. -/
theorem transact (h : Nests P mark) (m : Message) (he : P marks e) :
    P marks (m.transact cfg e).2 := by
  unfold Message.transact
  split
  · exact he
  · have hp : P (mark e :: marks) (m.execute cfg e.checkpoint).2 := h.execute m (h.checkpoint he)
    have hne : (m.execute cfg e.checkpoint).1 ≠ .error .outOfBounds :=
      Message.execute_ne_outOfBounds m e.checkpoint
    generalize m.execute cfg e.checkpoint = r at hp hne
    obtain ⟨(error | _) | f, env⟩ := r
    · exact h.rollback hp
    · exact absurd rfl hne
    · exact h.settle f hp

end Env.Nests

/-! ### Properties without marks -/

/-- The property as one that may have marks, which it does not look at. -/
def Env.Unmarked (P : Env σ → Prop) (_ : List Unit) (e : Env σ) : Prop := P e

namespace Env.Kept

variable {P : Env σ → Prop} {e : Env σ}

theorem nests (h : Kept P) : Nests (Unmarked P) (fun _ => ()) where
  report events he := h.report events he
  answer q he := h.answer q he
  checkpoint he := h.checkpoint he
  commit he := h.commit he
  rollback he := h.rollback he

/-- The property holds at every machine of a run. -/
theorem reaches (h : Kept P) {m m' : Machine σ} (hr : Machine.Reaches cfg m m') (hm : P m.env) :
    P m'.env := by
  have hmarked : Machine.Marked (Unmarked P) [] [] m :=
    ⟨m.callers, List.replicate m.callers.length (), (List.append_nil _).symm,
      List.length_replicate, hm⟩
  obtain ⟨_, _, _, _, hp⟩ := hmarked.serves h.nests hr.serves
  exact hp

/-- The property holds of what a run leaves, whatever its outcome. -/
theorem execute (h : Kept P) (m : Message) (he : P e) : P (m.execute cfg e).2 := by
  have hbegin : Unmarked P [] e := he
  exact h.nests.execute m hbegin

theorem transact (h : Kept P) (m : Message) (he : P e) : P (m.transact cfg e).2 := by
  have hbegin : Unmarked P [] e := he
  exact h.nests.transact m hbegin

end Env.Kept

end ContractVM
