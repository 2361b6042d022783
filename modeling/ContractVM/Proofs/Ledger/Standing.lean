import ContractVM.Proofs.Ledger.Snapshots

/-!
# Writes that stand

What becomes of a write is told here by the sequence of updates alone, by positions in it.

* `Ledger.depthAt updates k` : how many transactions are open before position `k`.
* `Ledger.Open updates b k` : one of them is the one that began at position `b`.  The innermost one
  began where only one less was open, and the outermost one where none was.
* `Ledger.Standing updates p` : at position `p` there is a write that stands.  It was made since the
  outermost of the open transactions began, and no rollback has undone it: none has closed a
  transaction that had begun before the write.

A `Ledger.Tally` lists the positions where the open transactions began and those of the writes that
stand.  It follows the updates one by one (`Ledger.Tally.Lists.apply`).
-/

namespace ContractVM

namespace Ledger

/-! ### Positions in a sequence of updates -/

/-- The update writes a value, or code. -/
def Update.IsWrite : Update → Prop
  | .store _ _ | .setValue _ _ | .setCode _ _ => True
  | .checkpoint | .commit | .rollback => False

/-- How many transactions are open after an update, if there are `n` before it. -/
def Update.depth (n : Nat) : Update → Nat
  | .checkpoint => n + 1
  | .commit | .rollback => n - 1
  | .store _ _ | .setValue _ _ | .setCode _ _ => n

/-- How many transactions are open after the updates. -/
def depthAfter (updates : List Update) : Nat := updates.foldl Update.depth 0

/-- How many transactions are open before position `k`. -/
def depthAt (updates : List Update) (k : Nat) : Nat := depthAfter (updates.take k)

/-- Before position `k`, the transaction is open that began at position `b`. -/
structure Open (updates : List Update) (b k : Nat) : Prop where
  begins : updates[b]? = some .checkpoint
  before : b < k
  /-- It has not been closed in between. -/
  still : ∀ j, b < j → j ≤ k → depthAt updates b < depthAt updates j

/-- Before position `k`, this is the innermost transaction. -/
def Innermost (updates : List Update) (b k : Nat) : Prop :=
  Open updates b k ∧ depthAt updates k = depthAt updates b + 1

/-- Before position `k`, this is the outermost transaction. -/
def Outermost (updates : List Update) (b k : Nat) : Prop :=
  Open updates b k ∧ depthAt updates b = 0

/-- The rollback at position `r` closes the transaction that began at position `b`. -/
def RollsBack (updates : List Update) (b r : Nat) : Prop :=
  updates[r]? = some .rollback ∧ Innermost updates b r

/-- At position `p` there is a write that stands after all updates. -/
structure Standing (updates : List Update) (p : Nat) : Prop where
  write : ∃ update, updates[p]? = some update ∧ update.IsWrite
  since : ∃ b < p, Outermost updates b updates.length
  kept : ∀ b r, RollsBack updates b r → ¬ (b < p ∧ p < r)

/-! ### One more update -/

section

variable {updates : List Update} {u : Update} {b k p r : Nat}

theorem depthAfter_concat (updates : List Update) (u : Update) :
    depthAfter (updates ++ [u]) = u.depth (depthAfter updates) := by
  simp only [depthAfter, List.foldl_append, List.foldl_cons, List.foldl_nil]

@[simp] theorem depthAt_length (updates : List Update) :
    depthAt updates updates.length = depthAfter updates := by
  simp only [depthAt, List.take_length]

theorem depthAt_concat (h : k ≤ updates.length) :
    depthAt (updates ++ [u]) k = depthAt updates k := by
  simp only [depthAt, List.take_append_of_le_length h]

theorem depthAt_concat_length (updates : List Update) (u : Update) :
    depthAt (updates ++ [u]) (updates.length + 1) = depthAfter (updates ++ [u]) := by
  rw [← depthAt_length, List.length_append, List.length_singleton]

theorem Open.lt_length (h : Open updates b k) : b < updates.length :=
  (List.getElem?_eq_some_iff.1 h.begins).1

theorem Open.depthAt_lt (h : Open updates b k) : depthAt updates b < depthAt updates k :=
  h.still k h.before (Nat.le_refl k)

theorem Update.depth_of_isWrite (h : u.IsWrite) (n : Nat) : u.depth n = n := by
  cases u with
  | store | setValue | setCode => rfl
  | checkpoint | commit | rollback => exact h.elim

/-- What was open before a position does not depend on what comes after it. -/
theorem open_concat (hk : k ≤ updates.length) :
    Open (updates ++ [u]) b k ↔ Open updates b k := by
  constructor
  · intro h
    have hb : b < updates.length := Nat.lt_of_lt_of_le h.before hk
    refine ⟨?_, h.before, fun j hj hjk => ?_⟩
    · rw [← h.begins, List.getElem?_append_left hb]
    · have hstill := h.still j hj hjk
      rwa [depthAt_concat (Nat.le_of_lt hb), depthAt_concat (Nat.le_trans hjk hk)] at hstill
  · intro h
    have hb := h.lt_length
    refine ⟨?_, h.before, fun j hj hjk => ?_⟩
    · rw [List.getElem?_append_left hb, h.begins]
    · rw [depthAt_concat (Nat.le_of_lt hb), depthAt_concat (Nat.le_trans hjk hk)]
      exact h.still j hj hjk

/-- After one more update, a transaction is open that has just begun, or one that was open and has
not been closed. -/
theorem open_concat_length : Open (updates ++ [u]) b (updates.length + 1) ↔
    (b = updates.length ∧ u = .checkpoint) ∨
      (Open updates b updates.length ∧ depthAt updates b < depthAfter (updates ++ [u])) := by
  constructor
  · intro h
    rcases Nat.lt_succ_iff_lt_or_eq.1 h.before with hb | rfl
    · refine .inr ⟨?_, ?_⟩
      · rw [← open_concat (Nat.le_refl _)]
        exact ⟨h.begins, hb, fun j hj hjk => h.still j hj (Nat.le_succ_of_le hjk)⟩
      · rw [← depthAt_concat (Nat.le_of_lt hb), ← depthAt_concat_length]
        exact h.depthAt_lt
    · have hu := h.begins
      rw [List.getElem?_concat_length] at hu
      exact .inl ⟨rfl, Option.some.inj hu⟩
  · rintro (⟨rfl, rfl⟩ | ⟨h, hdepth⟩)
    · refine ⟨List.getElem?_concat_length, Nat.lt_succ_self _, fun j hj hjk => ?_⟩
      obtain rfl : j = updates.length + 1 := by omega
      rw [depthAt_concat_length, depthAt_concat (Nat.le_refl _), depthAt_length,
        depthAfter_concat]
      exact Nat.lt_succ_self _
    · have h' := (open_concat (u := u) (Nat.le_refl _)).2 h
      refine ⟨h'.begins, Nat.lt_succ_of_lt h.before, fun j hj hjk => ?_⟩
      rcases Nat.le_succ_iff.1 hjk with hjk | rfl
      · exact h'.still j hj hjk
      · rw [depthAt_concat (Nat.le_of_lt h.lt_length), depthAt_concat_length]
        exact hdepth

/-- One more update rolls a transaction back if it is a rollback and the transaction is the
innermost one. -/
theorem rollsBack_concat : RollsBack (updates ++ [u]) b r ↔ RollsBack updates b r ∨
    (r = updates.length ∧ u = .rollback ∧ Innermost updates b updates.length) := by
  have hinner (hr : r ≤ updates.length) :
      Innermost (updates ++ [u]) b r ↔ Innermost updates b r := by
    unfold Innermost
    rw [open_concat hr, depthAt_concat hr]
    refine and_congr_right fun h => ?_
    rw [depthAt_concat (Nat.le_of_lt h.lt_length)]
  constructor
  · rintro ⟨hr, h⟩
    have hlt := (List.getElem?_eq_some_iff.1 hr).1
    rw [List.length_append, List.length_singleton] at hlt
    rcases Nat.lt_succ_iff_lt_or_eq.1 hlt with hlt | rfl
    · rw [List.getElem?_append_left hlt] at hr
      exact .inl ⟨hr, (hinner (Nat.le_of_lt hlt)).1 h⟩
    · rw [List.getElem?_concat_length] at hr
      exact .inr ⟨rfl, Option.some.inj hr, (hinner (Nat.le_refl _)).1 h⟩
  · rintro (⟨hr, h⟩ | ⟨rfl, rfl, h⟩)
    · have hlt := (List.getElem?_eq_some_iff.1 hr).1
      refine ⟨?_, (hinner (Nat.le_of_lt hlt)).2 h⟩
      rw [List.getElem?_append_left hlt, hr]
    · exact ⟨List.getElem?_concat_length, (hinner (Nat.le_refl _)).2 h⟩

/-- A transaction that was the outermost one is so after one more update, as long as any is open. -/
theorem outermost_concat (hb : b < updates.length) :
    Outermost (updates ++ [u]) b (updates.length + 1) ↔
      Outermost updates b updates.length ∧ 0 < depthAfter (updates ++ [u]) := by
  unfold Outermost
  rw [open_concat_length, depthAt_concat (Nat.le_of_lt hb)]
  constructor
  · rintro ⟨⟨rfl, -⟩ | ⟨h, hdepth⟩, hzero⟩
    · exact absurd hb (Nat.lt_irrefl _)
    · exact ⟨⟨h, hzero⟩, Nat.zero_lt_of_lt hdepth⟩
  · rintro ⟨⟨h, hzero⟩, hdepth⟩
    exact ⟨.inr ⟨h, hzero ▸ hdepth⟩, hzero⟩

theorem Standing.lt_length (h : Standing updates p) : p < updates.length := by
  obtain ⟨update, hp, -⟩ := h.write
  exact (List.getElem?_eq_some_iff.1 hp).1

/-- A write that has just been made in an open transaction stands. -/
theorem standing_concat_length (hu : u.IsWrite) (ho : ∃ b, Outermost updates b updates.length) :
    Standing (updates ++ [u]) updates.length := by
  obtain ⟨b, hb⟩ := ho
  have hdepth : 0 < depthAfter (updates ++ [u]) := by
    rw [depthAfter_concat, Update.depth_of_isWrite hu, ← depthAt_length]
    exact Nat.zero_lt_of_lt hb.1.depthAt_lt
  refine ⟨⟨u, List.getElem?_concat_length, hu⟩, ⟨b, hb.1.before, ?_⟩, fun b' r hr => ?_⟩
  · rw [List.length_append]
    exact (outermost_concat hb.1.before).2 ⟨hb, hdepth⟩
  · -- no rollback comes after it
    have hlt := (List.getElem?_eq_some_iff.1 hr.1).1
    rw [List.length_append, List.length_singleton] at hlt
    omega

/-- After one more update, a write stands that has just been made in an open transaction, or one
that stood, as long as a transaction is open and the one that holds it was not rolled back. -/
theorem standing_concat : Standing (updates ++ [u]) p ↔
    (Standing updates p ∧ 0 < depthAfter (updates ++ [u]) ∧
      (u = .rollback → ∀ b, Innermost updates b updates.length → ¬ b < p)) ∨
    (p = updates.length ∧ u.IsWrite ∧ ∃ b, Outermost updates b updates.length) := by
  constructor
  · intro h
    obtain ⟨b, hbp, ho⟩ := h.since
    obtain ⟨update, hp, hw⟩ := h.write
    have hlt := h.lt_length
    rw [List.length_append, List.length_singleton] at ho hlt
    obtain ⟨ho, hdepth⟩ := (outermost_concat (by omega)).1 ho
    rcases Nat.lt_succ_iff_lt_or_eq.1 hlt with hlt | rfl
    · rw [List.getElem?_append_left hlt] at hp
      refine .inl ⟨⟨⟨update, hp, hw⟩, ⟨b, hbp, ho⟩, fun b' r hr => ?_⟩, hdepth, fun hu b' hi hb' => ?_⟩
      · exact h.kept b' r (rollsBack_concat.2 (.inl hr))
      · exact h.kept b' _ (rollsBack_concat.2 (.inr ⟨rfl, hu, hi⟩)) ⟨hb', hlt⟩
    · rw [List.getElem?_concat_length] at hp
      obtain rfl := Option.some.inj hp
      exact .inr ⟨rfl, hw, b, ho⟩
  · rintro (⟨h, hdepth, hrollback⟩ | ⟨rfl, hu, ho⟩)
    · obtain ⟨b, hbp, ho⟩ := h.since
      obtain ⟨update, hp, hw⟩ := h.write
      refine ⟨⟨update, ?_, hw⟩, ⟨b, hbp, ?_⟩, fun b' r hr => ?_⟩
      · rw [List.getElem?_append_left h.lt_length, hp]
      · rw [List.length_append]
        exact (outermost_concat ho.1.before).2 ⟨ho, hdepth⟩
      · rcases rollsBack_concat.1 hr with hr | ⟨rfl, hu, hi⟩
        · exact h.kept b' r hr
        · exact fun hin => hrollback hu b' hi hin.1
    · exact standing_concat_length hu ho

end

/-! ### The positions as lists -/

/-- Where the open transactions began, the innermost first, and where the writes that stand were
made, the latest first. -/
structure Tally where
  begins : List Nat
  writes : List Nat

namespace Tally

/-- No open transaction, and no write that stands. -/
def empty : Tally := ⟨[], []⟩

/-- Follows an update at position `n`. -/
def apply (t : Tally) (n : Nat) : Update → Tally
  | .store _ _ | .setValue _ _ | .setCode _ _ =>
    if t.begins = [] then t else { t with writes := n :: t.writes }
  | .checkpoint => { t with begins := n :: t.begins }
  | .commit =>
    match t.begins.tail with
    | [] => empty
    | rest => { t with begins := rest }
  | .rollback =>
    match t.begins with
    | [] => t
    | b :: rest => ⟨rest, t.writes.filter (· < b)⟩

/-- Transactions that are nested: before each of them only those further out were open, and began
before it. -/
def Nested (updates : List Update) : List Nat → Prop
  | [] => True
  | b :: rest => (depthAt updates b = rest.length ∧ ∀ c ∈ rest, c < b) ∧ Nested updates rest

/-- The tally is that of these updates. -/
structure Lists (t : Tally) (updates : List Update) : Prop where
  begins : ∀ b, b ∈ t.begins ↔ Open updates b updates.length
  nested : Nested updates t.begins
  depth : t.begins.length = depthAfter updates
  writes : ∀ p, p ∈ t.writes ↔ Standing updates p
  nodup : t.writes.Nodup

variable {updates : List Update} {u : Update} {t : Tally} {begins rest : List Nat} {b c p : Nat}

theorem apply_of_isWrite (hu : u.IsWrite) (n : Nat) :
    t.apply n u = if t.begins = [] then t else { t with writes := n :: t.writes } := by
  cases u with
  | store | setValue | setCode => rfl
  | checkpoint | commit | rollback => exact hu.elim

theorem Nested.depthAt_lt (h : Nested updates begins) (hb : b ∈ begins) :
    depthAt updates b < begins.length := by
  induction begins with
  | nil => cases hb
  | cons c rest ih =>
    rcases List.mem_cons.1 hb with rfl | hb
    · rw [h.1.1]
      exact Nat.lt_succ_self _
    · exact Nat.lt_succ_of_lt (ih h.2 hb)

/-- The outermost transaction is the last one. -/
theorem Nested.exists_zero (h : Nested updates begins) (hne : begins ≠ []) :
    ∃ b ∈ begins, depthAt updates b = 0 := by
  induction begins with
  | nil => exact absurd rfl hne
  | cons c rest ih =>
    by_cases hrest : rest = []
    · refine ⟨c, List.mem_cons_self, ?_⟩
      rw [h.1.1, hrest]
      rfl
    · obtain ⟨b, hb, hzero⟩ := ih h.2 hrest
      exact ⟨b, List.mem_cons_of_mem _ hb, hzero⟩

theorem Nested.concat (h : Nested updates begins) (hlt : ∀ b ∈ begins, b < updates.length)
    (u : Update) : Nested (updates ++ [u]) begins := by
  induction begins with
  | nil => trivial
  | cons c rest ih =>
    refine ⟨⟨?_, h.1.2⟩, ih h.2 fun b hb => hlt b (List.mem_cons_of_mem _ hb)⟩
    rw [depthAt_concat (Nat.le_of_lt (hlt c List.mem_cons_self))]
    exact h.1.1

theorem Nested.pairwise (h : Nested updates begins) : begins.Pairwise fun b c => c < b := by
  induction begins with
  | nil => exact .nil
  | cons b rest ih => exact .cons h.1.2 (ih h.2)

theorem lists_empty : empty.Lists [] := by
  refine ⟨fun b => ⟨nofun, fun h => ?_⟩, trivial, rfl, fun p => ⟨nofun, fun h => ?_⟩, List.nodup_nil⟩
  · exact absurd h.lt_length (Nat.not_lt_zero b)
  · exact absurd h.lt_length (Nat.not_lt_zero p)

namespace Lists

theorem lt_of_mem_begins (h : t.Lists updates) (hb : b ∈ t.begins) : b < updates.length :=
  ((h.begins b).1 hb).lt_length

theorem lt_of_mem_writes (h : t.Lists updates) (hp : p ∈ t.writes) : p < updates.length :=
  ((h.writes p).1 hp).lt_length

/-- The innermost transaction is the first one. -/
theorem innermost_iff (h : t.Lists updates) (ht : t.begins = b :: rest) :
    Innermost updates c updates.length ↔ c = b := by
  have hnested := h.nested
  have hdepth := h.depth
  rw [ht] at hnested hdepth
  unfold Innermost
  rw [← h.begins, ht, depthAt_length, ← hdepth, List.length_cons]
  constructor
  · rintro ⟨hc, heq⟩
    rcases List.mem_cons.1 hc with rfl | hc
    · rfl
    · have hlt := hnested.2.depthAt_lt hc
      omega
  · rintro rfl
    exact ⟨List.mem_cons_self, by rw [hnested.1.1]⟩

/-- There is an outermost transaction if there is any. -/
theorem exists_outermost_iff (h : t.Lists updates) :
    (∃ b, Outermost updates b updates.length) ↔ t.begins ≠ [] := by
  constructor
  · rintro ⟨b, hb, -⟩
    exact List.ne_nil_of_mem ((h.begins b).2 hb)
  · intro hne
    obtain ⟨b, hb, hzero⟩ := h.nested.exists_zero hne
    exact ⟨b, (h.begins b).1 hb, hzero⟩

/-- A write that stands was made in an open transaction. -/
theorem exists_begin_lt (h : t.Lists updates) (hp : p ∈ t.writes) : ∃ b ∈ t.begins, b < p := by
  obtain ⟨b, hbp, ho⟩ := ((h.writes p).1 hp).since
  exact ⟨b, (h.begins b).2 ho.1, hbp⟩

/-- A write does not begin a transaction. -/
theorem ne_of_mem (h : t.Lists updates) (hp : p ∈ t.writes) (hb : b ∈ t.begins) : p ≠ b := by
  rintro rfl
  obtain ⟨update, hupdate, hw⟩ := ((h.writes p).1 hp).write
  rw [((h.begins p).1 hb).begins] at hupdate
  obtain rfl := Option.some.inj hupdate
  exact hw

theorem writes_eq_nil (h : t.Lists updates) (ht : t.begins = []) : t.writes = [] := by
  refine List.eq_nil_iff_forall_not_mem.2 fun p hp => ?_
  obtain ⟨b, hb, -⟩ := h.exists_begin_lt hp
  rw [ht] at hb
  cases hb

/-! One more update -/

theorem write (h : t.Lists updates) (hu : u.IsWrite) :
    (t.apply updates.length u).Lists (updates ++ [u]) := by
  have hdepth : depthAfter (updates ++ [u]) = depthAfter updates := by
    rw [depthAfter_concat, Update.depth_of_isWrite hu]
  have hbegins (b : Nat) : b ∈ t.begins ↔ Open (updates ++ [u]) b (updates ++ [u]).length := by
    rw [h.begins, List.length_append, List.length_singleton, open_concat_length, hdepth]
    refine ⟨fun hb => .inr ⟨hb, depthAt_length updates ▸ hb.depthAt_lt⟩, ?_⟩
    rintro (⟨-, rfl⟩ | hb)
    · exact hu.elim
    · exact hb.1
  have hstanding (p : Nat) : Standing (updates ++ [u]) p ↔
      (p ∈ t.writes ∧ t.begins ≠ []) ∨ (p = updates.length ∧ t.begins ≠ []) := by
    rw [standing_concat, h.exists_outermost_iff, h.writes, hdepth, ← h.depth,
      List.length_pos_iff]
    simp only [hu, true_and]
    refine or_congr_left (and_congr_right fun _ => and_iff_left ?_)
    rintro rfl
    exact hu.elim
  rw [apply_of_isWrite hu]
  by_cases ht : t.begins = []
  · rw [if_pos ht]
    refine ⟨hbegins, h.nested.concat (fun _ => h.lt_of_mem_begins) u, hdepth ▸ h.depth, fun p => ?_,
      h.nodup⟩
    simp [hstanding, ht, h.writes_eq_nil ht]
  · rw [if_neg ht]
    refine ⟨hbegins, h.nested.concat (fun _ => h.lt_of_mem_begins) u, hdepth ▸ h.depth, fun p => ?_,
      List.nodup_cons.2 ⟨fun hmem => ?_, h.nodup⟩⟩
    · simp [hstanding, ht, or_comm]
    · exact absurd (h.lt_of_mem_writes hmem) (Nat.lt_irrefl _)

theorem checkpoint (h : t.Lists updates) :
    (t.apply updates.length .checkpoint).Lists (updates ++ [.checkpoint]) := by
  have hdepth : depthAfter (updates ++ [.checkpoint]) = depthAfter updates + 1 :=
    depthAfter_concat updates .checkpoint
  refine ⟨fun b => ?_, ⟨⟨?_, fun c => h.lt_of_mem_begins⟩,
    h.nested.concat (fun _ => h.lt_of_mem_begins) _⟩, ?_, fun p => ?_, h.nodup⟩
  · rw [List.length_append, List.length_singleton, open_concat_length, hdepth, ← h.begins]
    simp only [apply, List.mem_cons, and_true]
    refine or_congr_right (and_iff_left_iff_imp.2 fun hb => ?_).symm
    have hlt := h.nested.depthAt_lt hb
    have hlen := h.depth
    omega
  · rw [depthAt_concat (Nat.le_refl _), depthAt_length, h.depth]
  · rw [hdepth, ← h.depth]
    rfl
  · rw [standing_concat, hdepth, ← h.writes]
    simp [apply, Update.IsWrite]

/-- When a transaction is closed, those around it are left. -/
theorem begins_tail (h : t.Lists updates) (hu : u = .commit ∨ u = .rollback) :
    (∀ b, b ∈ t.begins.tail ↔ Open (updates ++ [u]) b (updates ++ [u]).length) ∧
      Nested (updates ++ [u]) t.begins.tail ∧ t.begins.tail.length = depthAfter (updates ++ [u]) := by
  have hdepth : depthAfter (updates ++ [u]) = depthAfter updates - 1 := by
    rw [depthAfter_concat]
    rcases hu with rfl | rfl <;> rfl
  have hne : u ≠ .checkpoint := by
    rcases hu with rfl | rfl <;> nofun
  have hnested := h.nested.concat (fun _ => h.lt_of_mem_begins) u
  have hopen (b : Nat) : Open (updates ++ [u]) b (updates ++ [u]).length ↔
      b ∈ t.begins ∧ depthAt updates b < t.begins.length - 1 := by
    rw [List.length_append, List.length_singleton, open_concat_length, hdepth, ← h.begins,
      ← h.depth]
    simp only [hne, and_false, false_or]
  cases ht : t.begins with
  | nil =>
    refine ⟨fun b => ?_, trivial, ?_⟩
    · rw [hopen, ht]
      simp
    · rw [hdepth, ← h.depth, ht]
      rfl
  | cons c rest =>
    have houter := h.nested
    rw [ht] at houter hnested
    refine ⟨fun b => ?_, hnested.2, ?_⟩
    · rw [hopen, ht, List.tail_cons, List.length_cons, Nat.add_sub_cancel]
      refine ⟨fun hb => ⟨List.mem_cons_of_mem _ hb, houter.2.depthAt_lt hb⟩, ?_⟩
      rintro ⟨hb, hlt⟩
      rcases List.mem_cons.1 hb with rfl | hb
      · exact absurd houter.1.1 (Nat.ne_of_lt hlt)
      · exact hb
    · rw [hdepth, ← h.depth, ht]
      rfl

/-- When a transaction is closed, writes that stood are left as long as any is open. -/
theorem standing_close (h : t.Lists updates) (hu : u = .commit ∨ u = .rollback) :
    Standing (updates ++ [u]) p ↔ p ∈ t.writes ∧ t.begins.tail ≠ [] ∧
      (u = .rollback → ∀ b, Innermost updates b updates.length → ¬ b < p) := by
  have hw : ¬ u.IsWrite := by
    rcases hu with rfl | rfl <;> exact id
  rw [standing_concat, ← (h.begins_tail hu).2.2, ← h.writes, List.length_pos_iff]
  simp only [hw, false_and, and_false, or_false]

theorem commit (h : t.Lists updates) :
    (t.apply updates.length .commit).Lists (updates ++ [.commit]) := by
  obtain ⟨hbegins, hnested, hdepth⟩ := h.begins_tail (.inl rfl)
  have hstanding (p : Nat) := h.standing_close (p := p) (.inl rfl)
  unfold apply
  cases ht : t.begins.tail with
  | nil =>
    rw [ht] at hbegins hnested hdepth
    refine ⟨hbegins, hnested, hdepth, fun p => ?_, List.nodup_nil⟩
    simp [hstanding, ht, empty]
  | cons b rest =>
    rw [ht] at hbegins hnested hdepth
    refine ⟨hbegins, hnested, hdepth, fun p => ?_, h.nodup⟩
    simp [hstanding, ht]

theorem rollback (h : t.Lists updates) :
    (t.apply updates.length .rollback).Lists (updates ++ [.rollback]) := by
  obtain ⟨hbegins, hnested, hdepth⟩ := h.begins_tail (.inr rfl)
  have hstanding (p : Nat) := h.standing_close (p := p) (.inr rfl)
  unfold apply
  cases ht : t.begins with
  | nil =>
    have hnone : t.begins.tail = t.begins := by rw [ht]; rfl
    rw [hnone] at hbegins hnested hdepth
    refine ⟨hbegins, hnested, hdepth, fun p => ?_, h.nodup⟩
    simp [hstanding, ht, h.writes_eq_nil ht]
  | cons b rest =>
    rw [ht] at hbegins hnested hdepth
    refine ⟨hbegins, hnested, hdepth, fun p => ?_, h.nodup.filter _⟩
    rw [hstanding, ht, List.mem_filter, decide_eq_true_iff]
    simp only [true_imp_iff, h.innermost_iff ht, forall_eq, List.tail_cons]
    refine and_congr_right fun hp => ?_
    have hne : p ≠ b := h.ne_of_mem hp (ht ▸ List.mem_cons_self)
    constructor
    · intro hlt
      -- the write was made in a transaction that began before this one
      obtain ⟨c, hc, hcp⟩ := h.exists_begin_lt hp
      rw [ht] at hc
      rcases List.mem_cons.1 hc with rfl | hc
      · omega
      · exact ⟨List.ne_nil_of_mem hc, by omega⟩
    · rintro ⟨-, hle⟩
      omega

/-- The tally follows every update. -/
theorem apply (h : t.Lists updates) (u : Update) :
    (t.apply updates.length u).Lists (updates ++ [u]) := by
  cases u with
  | store | setValue | setCode => exact h.write trivial
  | checkpoint => exact h.checkpoint
  | commit => exact h.commit
  | rollback => exact h.rollback

end Lists

end Tally

end Ledger

end ContractVM
