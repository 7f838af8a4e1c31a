-- The order in which rows are reverted: the latest text of a time first, and among equal
-- times the greatest version first. No version comes twice, so there is one such order.
import Mathlib.Algebra.Group.Nat.Defs
import SchemaLedger.Migration.RollbackCount
import SchemaLedger.Migration.Ledger

namespace SchemaLedger

namespace LedgerRow

/-- `a` was applied after `b`, or at the same time and has the greater version. -/
def Newer (a b : LedgerRow) : Prop :=
  b.appliedAt < a.appliedAt ∨ b.appliedAt = a.appliedAt ∧ b.version < a.version

variable {a b c : LedgerRow}

theorem Newer.asymm (h : a.Newer b) (h' : b.Newer a) : False := by
  rcases h with h | ⟨he, h⟩
  · rcases h' with h' | ⟨he', _⟩
    · exact String.lt_irrefl _ (String.lt_trans h h')
    · exact String.lt_irrefl _ (he' ▸ h)
  · rcases h' with h' | ⟨_, h'⟩
    · exact String.lt_irrefl _ (he ▸ h')
    · exact String.lt_irrefl _ (String.lt_trans h h')

theorem notAfter_iff :
    a.notAfter b = true ↔
      a.appliedAt < b.appliedAt ∨ a.appliedAt = b.appliedAt ∧ a.version ≤ b.version := by
  simp [notAfter]

theorem notAfter_trans (h : a.notAfter b = true) (h' : b.notAfter c = true) :
    a.notAfter c = true := by
  rw [notAfter_iff] at *
  rcases h with h | ⟨he, h⟩
  · rcases h' with h' | ⟨he', _⟩
    · exact .inl (String.lt_trans h h')
    · exact .inl (he' ▸ h)
  · rcases h' with h' | ⟨he', h'⟩
    · exact .inl (he ▸ h')
    · exact .inr ⟨he.trans he', String.le_trans h h'⟩

theorem notAfter_total (a b : LedgerRow) : (a.notAfter b || b.notAfter a) = true := by
  rw [Bool.or_eq_true, notAfter_iff, notAfter_iff]
  by_cases he : a.appliedAt = b.appliedAt
  · rcases String.le_total a.version b.version with h | h
    · exact .inl (.inr ⟨he, h⟩)
    · exact .inr (.inr ⟨he.symm, h⟩)
  · by_cases h : a.appliedAt < b.appliedAt
    · exact .inl (.inl h)
    · refine .inr (.inl (String.not_le.mp fun h' => he ?_))
      exact String.le_antisymm h' (String.not_lt.mp h)

/-- Rows in order that have different versions are strictly in order. -/
theorem newer_of_notAfter (h : b.notAfter a = true) (hne : a.version ≠ b.version) :
    a.Newer b := by
  rcases notAfter_iff.mp h with h | ⟨he, h⟩
  · exact .inl h
  · refine .inr ⟨he, String.not_le.mp fun h' => hne ?_⟩
    exact String.le_antisymm h' h

end LedgerRow

namespace Ledger

variable {rows found : List LedgerRow}

theorem sort_perm (order : Order) (rows : List LedgerRow) : (sort order rows).Perm rows := by
  cases order with
  | oldestFirst => exact List.mergeSort_perm rows _
  | newestFirst => exact List.mergeSort_perm rows _

/-- Sorting keeps the versions apart. -/
theorem sort_distinct (order : Order) (h : (rows.map LedgerRow.version).Nodup) :
    (sort order rows).Pairwise fun a b => a.version ≠ b.version :=
  List.pairwise_map.mp (((sort_perm order rows).map LedgerRow.version).nodup_iff.mpr h)

theorem sort_newer (h : (rows.map LedgerRow.version).Nodup) :
    (sort .newestFirst rows).Pairwise LedgerRow.Newer := by
  have htrans : ∀ a b c : LedgerRow,
      b.notAfter a = true → c.notAfter b = true → c.notAfter a = true :=
    fun a b c hab hbc => LedgerRow.notAfter_trans hbc hab
  have htotal : ∀ a b : LedgerRow, (b.notAfter a || a.notAfter b) = true :=
    fun a b => LedgerRow.notAfter_total b a
  have hsorted : (sort .newestFirst rows).Pairwise fun a b => b.notAfter a = true :=
    List.pairwise_mergeSort htrans htotal rows
  refine (hsorted.and (sort_distinct _ h)).imp ?_
  rintro a b ⟨hle, hne⟩
  exact LedgerRow.newer_of_notAfter hle hne

theorem sort_older (h : (rows.map LedgerRow.version).Nodup) :
    (sort .oldestFirst rows).Pairwise fun a b => b.Newer a := by
  have htrans : ∀ a b c : LedgerRow,
      a.notAfter b = true → b.notAfter c = true → a.notAfter c = true :=
    fun a b c => LedgerRow.notAfter_trans
  have hsorted : (sort .oldestFirst rows).Pairwise fun a b => a.notAfter b = true :=
    List.pairwise_mergeSort htrans LedgerRow.notAfter_total rows
  refine (hsorted.and (sort_distinct _ h)).imp ?_
  rintro a b ⟨hle, hne⟩
  exact LedgerRow.newer_of_notAfter hle (Ne.symm hne)

/-- What is asked of a reading: the rows are put in order by the texts in them, and texts are in
the order of their characters' numbers. -/
structure Ordered (sort : Order → List LedgerRow → List LedgerRow) : Prop where
  texts (a b : String) : a < b ↔ List.Lex (fun c d => c.toNat < d.toNat) a.toList b.toList
  same (order : Order) (rows : List LedgerRow) : (sort order rows).Perm rows
  newest {rows : List LedgerRow} : (rows.map LedgerRow.version).Nodup →
    (sort .newestFirst rows).Pairwise LedgerRow.Newer
  oldest {rows : List LedgerRow} : (rows.map LedgerRow.version).Nodup →
    (sort .oldestFirst rows).Pairwise fun a b => b.Newer a

theorem sort_ordered : Ordered sort where
  texts _ _ := Iff.rfl
  same := sort_perm
  newest := sort_newer
  oldest := sort_older

namespace Ordered

variable {sort : Order → List LedgerRow → List LedgerRow} (hsort : Ordered sort)
include hsort

/-- There is one order with the newest first. -/
theorem eq_newest (h : (rows.map LedgerRow.version).Nodup) (hp : found.Perm rows)
    (hn : found.Pairwise LedgerRow.Newer) : sort .newestFirst rows = found := by
  refine List.Perm.eq_of_pairwise ?_ (hsort.newest h) hn ((hsort.same _ rows).trans hp.symm)
  intro a b _ _ hab hba
  exact (hab.asymm hba).elim

/-- With the newest first the rows stand the other way round than with the oldest first. -/
theorem newest_eq_reverse (h : (rows.map LedgerRow.version).Nodup) :
    sort .newestFirst rows = (sort .oldestFirst rows).reverse := by
  refine hsort.eq_newest h ?_ ?_
  · exact (List.reverse_perm _).trans (hsort.same .oldestFirst rows)
  · rw [List.pairwise_reverse]
    exact hsort.oldest h

/-- Rows that were added by version, at times that do not go back, stand first and the other
way round when the newest is first. -/
theorem newest_append {new : List LedgerRow}
    (hd : ((rows ++ new).map LedgerRow.version).Nodup)
    (hv : new.Pairwise fun a b => a.version < b.version)
    (ht : new.Pairwise fun a b => a.appliedAt ≤ b.appliedAt)
    (hlater : ∀ r ∈ rows, ∀ q ∈ new, r.appliedAt < q.appliedAt) :
    sort .newestFirst (rows ++ new) = new.reverse ++ sort .newestFirst rows := by
  have hold := hsort.same .newestFirst rows
  have hdold : (rows.map LedgerRow.version).Nodup :=
    hd.sublist ((List.sublist_append_left rows new).map _)
  refine hsort.eq_newest hd ?_ ?_
  · exact (new.reverse_perm.append hold).trans List.perm_append_comm
  · rw [List.pairwise_append, List.pairwise_reverse]
    refine ⟨(hv.and ht).imp ?_, hsort.newest hdold, ?_⟩
    · rintro a b ⟨hlt, hle⟩
      by_cases he : a.appliedAt = b.appliedAt
      · exact .inr ⟨he, hlt⟩
      · exact .inl (String.not_le.mp fun hge => he (String.le_antisymm hle hge))
    · intro a ha b hb
      exact .inl (hlater b (hold.subset hb) a (List.mem_reverse.mp ha))

end Ordered
end Ledger

/-! ## How many of them -/

namespace RollbackCount

theorem ofValue_length {α : Type} {xs : List α} (h : xs ≠ []) :
    ofValue (.int xs.length) = .ok (.exactly xs.length) := by
  have hpos : 0 < xs.length := List.length_pos_iff.mpr h
  simp only [ofValue, ofInt]
  rw [if_pos (by omega)]
  rfl

/-- The rows that a count asks for, of rows that stand in order. -/
def first : RollbackCount → List LedgerRow → List LedgerRow
  | .all, rows => rows
  | .exactly n, rows => rows.take n

theorem first_sublist (count : RollbackCount) (rows : List LedgerRow) :
    (count.first rows).Sublist rows := by
  cases count with
  | all => exact .refl rows
  | exactly n => exact List.take_sublist n rows

/-- The store can count so far. -/
def Countable (count : RollbackCount) : Prop := ∀ n, count = .exactly n → n < 2 ^ 63

theorem cutTo_limit? (count : RollbackCount) (rows : List LedgerRow) :
    Ledger.cutTo count.limit? rows = count.first rows := by
  cases count with
  | all => rfl
  | exactly n =>
    simp only [Ledger.cutTo, limit?, first]
    rw [if_neg (by omega)]
    rfl

theorem Countable.fits {count : RollbackCount} (h : count.Countable) :
    count.limit?.all Ledger.fits = true := by
  cases count with
  | all => rfl
  | exactly n =>
    have hn := h n rfl
    simp only [limit?, Option.all_some, Ledger.fits, Bool.and_eq_true, decide_eq_true_eq]
    omega

end RollbackCount
end SchemaLedger
