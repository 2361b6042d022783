import ContractVM.Proofs.Backend.Front
import ContractVM.Proofs.Machine.Simulation
import ContractVM.Proofs.MessageCall

/-!
# Backends that answer alike

`Backend.Alike S` says that backends related by `S` answer alike and stay related.  Messages in
environments over such backends come to the same end, with the same cache and the same events
(`Message.execute_over`, `Message.transact_over`, `Message.call_over`).

A backend whose calls are written down, and one whose policy refuses nothing, answer like the
backend behind them (`Backend.alike_logged`, `Backend.alike_permissive`).
-/

namespace ContractVM

/-- Related backends answer alike and stay related. -/
structure Backend.Alike {σ τ : Type} [Backend σ] [Backend τ] (S : σ → τ → Prop) : Prop where
  load : ∀ {s t} (cell : Cell), S s t →
    (Backend.load s cell).1 = (Backend.load t cell).1 ∧
      S (Backend.load s cell).2 (Backend.load t cell).2
  store : ∀ {s t} (cell : Cell) (value : Word), S s t →
    (Backend.store s cell value).1 = (Backend.store t cell value).1 ∧
      S (Backend.store s cell value).2 (Backend.store t cell value).2
  code : ∀ {s t} (address : Address), S s t →
    (Backend.code s address).1 = (Backend.code t address).1 ∧
      S (Backend.code s address).2 (Backend.code t address).2
  checkpoint : ∀ {s t}, S s t → S (Backend.checkpoint s) (Backend.checkpoint t)
  commit : ∀ {s t}, S s t → S (Backend.commit s) (Backend.commit t)
  rollback : ∀ {s t}, S s t → S (Backend.rollback s) (Backend.rollback t)

/-- Environments over related backends that agree in all else. -/
structure Env.Over {σ τ : Type} (S : σ → τ → Prop) (e : Env σ) (e' : Env τ) : Prop where
  backend : S e.backend e'.backend
  cache : e.cache = e'.cache
  events : e.events = e'.events

variable {σ τ : Type} {S : σ → τ → Prop}

namespace Env.Over

variable {e : Env σ} {e' : Env τ}

theorem report (h : Over S e e') (events : List Event) :
    Over S (e.report events) (e'.report events) :=
  ⟨h.backend, h.cache, congrArg (events.reverse ++ ·) h.events⟩

theorem updateCache (h : Over S e e') (f : Attachment → Attachment × List Event) :
    Over S (e.updateCache f) (e'.updateCache f) := by
  unfold Env.updateCache
  rw [h.cache]
  exact ⟨h.backend, rfl, congrArg (_ ++ ·) h.events⟩

theorem touchCache (h : Over S e e') (f : SlotCache → SlotCache) (event : Event) :
    Over S (e.touchCache f event) (e'.touchCache f event) := h.updateCache _

theorem held (h : Over S e e') (cell : Cell) : e.held cell = e'.held cell := by
  unfold Env.held
  rw [h.cache]

/-- The backends are replaced by others that are related. -/
theorem withBackend (h : Over S e e') {s : σ} {t : τ} (hs : S s t) :
    Over S { e with backend := s } { e' with backend := t } := ⟨hs, h.cache, h.events⟩

variable [Backend σ] [Backend τ]

theorem load (hS : Backend.Alike S) (h : Over S e e') (cell : Cell) :
    (e.load cell).1 = (e'.load cell).1 ∧ Over S (e.load cell).2 (e'.load cell).2 := by
  obtain ⟨ha, hs⟩ := hS.load cell h.backend
  have hh := h.held cell
  cases hc : e.held cell with
  | some value =>
    rw [load_of_held hc, load_of_held (hh ▸ hc)]
    exact ⟨rfl, h.report _⟩
  | none =>
    cases hl : (Backend.load e.backend cell).1 with
    | error error =>
      rw [load_of_error hc hl, load_of_error (hh ▸ hc) (ha ▸ hl)]
      exact ⟨rfl, h.withBackend hs⟩
    | ok value =>
      rw [load_of_ok hc hl, load_of_ok (hh ▸ hc) (ha ▸ hl)]
      exact ⟨rfl, (h.withBackend hs).touchCache _ _⟩

theorem store (hS : Backend.Alike S) (h : Over S e e') (cell : Cell) (value : Word) :
    (e.store cell value).1 = (e'.store cell value).1 ∧
      Over S (e.store cell value).2 (e'.store cell value).2 := by
  obtain ⟨ha, hs⟩ := hS.store cell value h.backend
  cases hl : (Backend.store e.backend cell value).1 with
  | error error =>
    rw [store_of_error hl, store_of_error (ha ▸ hl)]
    exact ⟨rfl, h.withBackend hs⟩
  | ok =>
    rw [store_of_ok hl, store_of_ok (ha ▸ hl)]
    exact ⟨rfl, (h.withBackend hs).touchCache _ _⟩

theorem code (hS : Backend.Alike S) (h : Over S e e') (address : Address) :
    (e.code address).1 = (e'.code address).1 ∧ Over S (e.code address).2 (e'.code address).2 := by
  obtain ⟨ha, hs⟩ := hS.code address h.backend
  exact ⟨ha, h.withBackend hs⟩

/-- Environments over backends that answer alike stay alike in all that a run does to them. -/
theorem simulation (hS : Backend.Alike S) : Simulation (Over S) where
  report events h := h.report events
  answer q h := by
    cases q with
    | load cell => exact h.load hS cell
    | store cell value => exact h.store hS cell value
    | code order => exact h.code hS order.target
  checkpoint h := h.withBackend (hS.checkpoint h.backend)
  commit h := h.withBackend (hS.commit h.backend)
  rollback h := (h.withBackend (hS.rollback h.backend)).updateCache _

end Env.Over

namespace Message

theorem closeCall_over {r : Machine.Result σ} {r' : Machine.Result τ} (hr : r.1 = r'.1)
    (h : r.2.Over S r'.2) :
    (closeCall r).1 = (closeCall r').1 ∧ (closeCall r).2.Over S (closeCall r').2 := by
  refine ⟨fst_closeCall hr, ?_⟩
  obtain ⟨outcome, e⟩ := r
  obtain ⟨outcome', e'⟩ := r'
  obtain rfl : outcome = outcome' := hr
  rcases outcome with (error | _) | f
  · exact (h.updateCache _).report _
  · exact h
  · exact (h.updateCache _).report _

variable [Backend σ] [Backend τ] {e : Env σ} {e' : Env τ}

theorem execute_over (hS : Backend.Alike S) (cfg : Config) (m : Message) (h : e.Over S e') :
    (m.execute cfg e).1 = (m.execute cfg e').1 ∧ (m.execute cfg e).2.Over S (m.execute cfg e').2 :=
  (Env.Over.simulation hS).execute rfl rfl m h

theorem transact_over (hS : Backend.Alike S) (cfg : Config) (m : Message) (h : e.Over S e') :
    (m.transact cfg e).1 = (m.transact cfg e').1 ∧
      (m.transact cfg e).2.Over S (m.transact cfg e').2 :=
  (Env.Over.simulation hS).transact rfl rfl m h

/-- **Top-level calls cannot tell backends apart that answer alike.** -/
theorem call_over (hS : Backend.Alike S) (cfg : Config) (m : Message) (h : e.Over S e') :
    (m.call cfg e).1 = (m.call cfg e').1 ∧ (m.call cfg e).2.Over S (m.call cfg e').2 := by
  have ho : (m.openCall cfg e).Over S (m.openCall cfg e') := (h.report _).updateCache _
  obtain ⟨hr, ht⟩ := transact_over hS cfg m ho
  exact closeCall_over hr ht

end Message

/-! ### Backends in front of others -/

namespace Backend

variable [Backend σ]

/-- A log does not show in the answers. -/
theorem alike_logged : Alike fun (s : σ) (l : Logged σ) => l.inner = s where
  load _ h := h ▸ ⟨rfl, rfl⟩
  store _ _ h := h ▸ ⟨rfl, rfl⟩
  code _ h := h ▸ ⟨rfl, rfl⟩
  checkpoint h := h ▸ rfl
  commit h := h ▸ rfl
  rollback h := h ▸ rfl

/-- A policy that refuses nothing does not show in the answers. -/
theorem alike_permissive : Alike fun (s : σ) (r : Refusing σ) => r = ⟨s, .permissive⟩ where
  load _ h := h ▸ ⟨rfl, rfl⟩
  store _ _ h := h ▸ ⟨rfl, rfl⟩
  code _ h := h ▸ ⟨rfl, rfl⟩
  checkpoint h := h ▸ rfl
  commit h := h ▸ rfl
  rollback h := h ▸ rfl

end Backend

/-- The environment with a backend that writes down its calls. -/
def Env.logged (e : Env σ) : Env (Logged σ) := ⟨.new e.backend, e.cache, e.events⟩

/-- The environment with a backend behind a policy. -/
def Env.refusing (e : Env σ) (policy : Policy) : Env (Refusing σ) :=
  ⟨⟨e.backend, policy⟩, e.cache, e.events⟩

namespace Message

variable [Backend σ]

/-- Code runs over a backend that writes down its calls as it does over the backend itself. -/
theorem execute_logged (cfg : Config) (m : Message) (e : Env σ) :
    (m.execute cfg e).1 = (m.execute cfg e.logged).1 ∧
      (m.execute cfg e.logged).2.backend.inner = (m.execute cfg e).2.backend ∧
      (m.execute cfg e).2.cache = (m.execute cfg e.logged).2.cache := by
  have h : e.Over (fun s (l : Logged σ) => l.inner = s) e.logged := ⟨rfl, rfl, rfl⟩
  obtain ⟨hr, hb, hc, -⟩ := execute_over Backend.alike_logged cfg m h
  exact ⟨hr, hb, hc⟩

/-- A policy that refuses nothing is no policy: a top-level call behind it is one over the backend
itself. -/
theorem call_permissive (cfg : Config) (m : Message) (e : Env σ) :
    (m.call cfg e).1 = (m.call cfg (e.refusing .permissive)).1 ∧
      (m.call cfg (e.refusing .permissive)).2 = (m.call cfg e).2.refusing .permissive := by
  have h : e.Over (fun s (r : Refusing σ) => r = ⟨s, .permissive⟩) (e.refusing .permissive) :=
    ⟨rfl, rfl, rfl⟩
  obtain ⟨hr, hb, hc, he⟩ := call_over Backend.alike_permissive cfg m h
  refine ⟨hr, ?_⟩
  generalize m.call cfg e = x at hb hc he ⊢
  generalize m.call cfg (e.refusing .permissive) = y at hb hc he ⊢
  obtain ⟨outcome, b, c, ev⟩ := x
  obtain ⟨outcome', b', c', ev'⟩ := y
  subst hb hc he
  rfl

end Message

end ContractVM
