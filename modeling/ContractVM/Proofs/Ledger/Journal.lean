import Mathlib.Data.Set.Card
import ContractVM.Proofs.Ledger.Canonical
import ContractVM.Proofs.Ledger.Standing

/-!
# The journal holds the writes that stand

However a ledger came about, balanced or not, its journal has one record for each write that stands
(`Ledger.Standing`), and each checkpoint is the number of those that were made before its
transaction began.  `Ledger.Tally.Counts` says so of a tally, and every update keeps it
(`Ledger.Tally.Counts.apply`).

`Ledger.foldl_apply_invariant` puts this together with what holds of the storage.
-/

namespace ContractVM

namespace Ledger

/-- A write leaves the checkpoints as they are, and is recorded if a transaction is open. -/
theorem exists_record_of_isWrite {u : Update} (hu : u.IsWrite) (l : Ledger) : ∃ undo,
    (l.apply u).checkpoints = (l.record undo).checkpoints ∧
      (l.apply u).journal = (l.record undo).journal := by
  cases u with
  | store | setValue | setCode => exact ⟨_, rfl, rfl⟩
  | checkpoint | commit | rollback => exact hu.elim

namespace Tally

/-- The ledger counts what the tally lists. -/
structure Counts (t : Tally) (l : Ledger) : Prop where
  checkpoints : l.checkpoints = t.begins.map fun b => t.writes.countP (· < b)
  journal : l.journal.length = t.writes.length

theorem counts_empty : empty.Counts ∅ := ⟨rfl, rfl⟩

namespace Counts

variable {t : Tally} {l : Ledger} {updates : List Update} {u : Update}

theorem write (h : t.Counts l) (ht : t.Lists updates) (hu : u.IsWrite) :
    (t.apply updates.length u).Counts (l.apply u) := by
  obtain ⟨undo, hcheckpoints, hjournal⟩ := exists_record_of_isWrite hu l
  rw [checkpoints_record] at hcheckpoints
  rw [apply_of_isWrite hu]
  by_cases hb : t.begins = []
  · have hnone : l.checkpoints = [] := by rw [h.checkpoints, hb]; rfl
    have hsame : (l.record undo).journal = l.journal := by
      simp only [Ledger.record, hnone, List.isEmpty_nil, ↓reduceIte]
    rw [if_pos hb]
    exact ⟨hcheckpoints.trans h.checkpoints, by rw [hjournal, hsame, h.journal]⟩
  · obtain ⟨b, rest, hbegins⟩ := List.exists_cons_of_ne_nil hb
    have hmarks := h.checkpoints
    rw [hbegins] at hmarks
    rw [if_neg hb]
    refine ⟨?_, ?_⟩
    · rw [hcheckpoints, h.checkpoints]
      refine List.map_congr_left fun b hb => ?_
      have hlt := ht.lt_of_mem_begins hb
      simp only [List.countP_cons, decide_eq_true_iff]
      rw [if_neg (by omega), Nat.add_zero]
    · rw [hjournal, journal_record hmarks, List.length_cons, h.journal, List.length_cons]

theorem checkpoint (h : t.Counts l) (ht : t.Lists updates) :
    (t.apply updates.length .checkpoint).Counts (l.apply .checkpoint) := by
  have hall : t.writes.countP (· < updates.length) = t.writes.length :=
    List.countP_eq_length.2 fun p hp => decide_eq_true (ht.lt_of_mem_writes hp)
  refine ⟨?_, h.journal⟩
  change l.journal.length :: l.checkpoints = _
  rw [h.checkpoints, h.journal, ← hall]
  rfl

theorem commit (h : t.Counts l) (n : Nat) : (t.apply n .commit).Counts (l.apply .commit) := by
  have htail : l.checkpoints.tail = t.begins.tail.map fun b => t.writes.countP (· < b) := by
    rw [h.checkpoints, List.map_tail]
  change (t.apply n .commit).Counts l.commit
  unfold Ledger.commit Tally.apply
  cases hb : t.begins.tail with
  | nil =>
    rw [hb] at htail
    rw [htail]
    exact ⟨rfl, rfl⟩
  | cons b rest =>
    rw [hb] at htail
    rw [htail]
    exact ⟨rfl, h.journal⟩

theorem rollback (h : t.Counts l) (ht : t.Lists updates) :
    (t.apply updates.length .rollback).Counts (l.apply .rollback) := by
  have hmarks := h.checkpoints
  change (t.apply updates.length .rollback).Counts l.rollback
  unfold Ledger.rollback Tally.apply
  cases hb : t.begins with
  | nil =>
    rw [hb] at hmarks
    rw [hmarks]
    exact h
  | cons b rest =>
    rw [hb] at hmarks
    rw [hmarks]
    have hnested := ht.nested
    rw [hb] at hnested
    refine ⟨List.map_congr_left fun c hc => ?_, ?_⟩
    · -- a transaction further out began before, so none of its writes are gone
      have hlt := hnested.1.2 c hc
      rw [List.countP_filter]
      refine List.countP_congr fun p _ => ?_
      simp only [Bool.and_eq_true, decide_eq_true_iff]
      omega
    · have hle : t.writes.countP (· < b) ≤ t.writes.length := List.countP_le_length
      change (l.journal.drop (l.journal.length - t.writes.countP (· < b))).length = _
      rw [List.length_drop, h.journal, ← List.countP_eq_length_filter]
      omega

/-- Every update keeps the counts. -/
theorem apply (h : t.Counts l) (ht : t.Lists updates) (u : Update) :
    (t.apply updates.length u).Counts (l.apply u) := by
  cases u with
  | store | setValue | setCode => exact h.write ht trivial
  | checkpoint => exact h.checkpoint ht
  | commit => exact h.commit _
  | rollback => exact h.rollback ht

end Counts

/-- The checkpoints do not decrease from the outside in. -/
theorem Counts.pairwise {t : Tally} {l : Ledger} {updates : List Update} (h : t.Counts l)
    (ht : t.Lists updates) : l.checkpoints.Pairwise (· ≥ ·) := by
  rw [h.checkpoints, List.pairwise_map]
  refine ht.nested.pairwise.imp fun hlt => List.countP_mono_left fun p _ hp => ?_
  simp only [decide_eq_true_iff] at hp ⊢
  omega

/-- Every sequence of updates has a tally, which the ledger counts. -/
theorem exists_tally (updates : List Update) :
    ∃ t : Tally, t.Lists updates ∧ t.Counts (updates.foldl Ledger.apply ∅) := by
  induction updates using List.reverseRecOn with
  | nil => exact ⟨empty, lists_empty, counts_empty⟩
  | append_singleton updates u ih =>
    obtain ⟨t, hlists, hcounts⟩ := ih
    refine ⟨t.apply updates.length u, hlists.apply u, ?_⟩
    rw [List.foldl_append]
    exact hcounts.apply hlists u

end Tally

/-- The transactions that are open by position are those of the ledger. -/
theorem depth_foldl_apply (updates : List Update) :
    (updates.foldl Ledger.apply ∅).depth = depthAfter updates := by
  obtain ⟨t, hlists, hcounts⟩ := Tally.exists_tally updates
  unfold Ledger.depth
  rw [hcounts.checkpoints, List.length_map, hlists.depth]

/-- **What holds of every ledger, however it came about.**  Take any sequence of updates of the
empty ledger: writes of values and code, and beginnings, commits and rollbacks of transactions,
balanced or not.

* No cell that is held is zero, and no table of slots that is held is empty.  So another such ledger
  with the same values has the same storage.
* The checkpoints do not decrease from the outermost to the innermost, and none of them is more than
  the journal has records.
* The journal is empty if no transaction is open.  Otherwise it has as many records as there are
  writes, since the outermost open transaction began, that no rollback has undone. -/
theorem foldl_apply_invariant (updates : List Update) :
    let l := updates.foldl Ledger.apply ∅
    l.Canonical ∧
    (∀ updates' : List Update, (∀ cell, l.value cell = (updates'.foldl Ledger.apply ∅).value cell) →
      l.storage = (updates'.foldl Ledger.apply ∅).storage) ∧
    l.checkpoints.Pairwise (· ≥ ·) ∧
    (∀ mark ∈ l.checkpoints, mark ≤ l.journal.length) ∧
    (l.depth = 0 → l.journal.length = 0) ∧
    (l.depth ≠ 0 → l.journal.length = {p | Standing updates p}.ncard) := by
  intro l
  obtain ⟨t, hlists, hcounts⟩ := Tally.exists_tally updates
  have hcanonical : l.Canonical := canonical_foldl_apply updates
  refine ⟨hcanonical, fun updates' hv => ?_, hcounts.pairwise hlists, fun mark hmark => ?_,
    fun hdepth => ?_, fun _ => ?_⟩
  · exact hcanonical.storage_eq (canonical_foldl_apply updates') hv
  · rw [hcounts.checkpoints] at hmark
    obtain ⟨b, -, rfl⟩ := List.mem_map.1 hmark
    rw [hcounts.journal]
    exact List.countP_le_length
  · have hnone : t.begins = [] := by
      rw [depth_foldl_apply, ← hlists.depth] at hdepth
      exact List.length_eq_zero_iff.1 hdepth
    rw [hcounts.journal, hlists.writes_eq_nil hnone]
    rfl
  · have hset : {p | Standing updates p} = ↑t.writes.toFinset := by
      ext p
      simp [hlists.writes]
    rw [hset, Set.ncard_coe_finset, List.toFinset_card_of_nodup hlists.nodup, hcounts.journal]

end Ledger

end ContractVM
