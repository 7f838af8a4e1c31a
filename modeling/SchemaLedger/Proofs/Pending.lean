-- Which migrations are pending, and in what order: those of the catalog that no row of the
-- ledger names, by version, and no version comes twice.
import SchemaLedger.Migration.Migrator

namespace SchemaLedger

namespace Catalog

theorem mem_sorted {c : Catalog} {x : Migration} : x ∈ c.sorted ↔ x ∈ c.entries :=
  (List.mergeSort_perm c.entries _).mem_iff

theorem sorted_le (c : Catalog) : c.sorted.Pairwise fun a b => a.version ≤ b.version := by
  have h : (c.entries.mergeSort fun a b => decide (a.version ≤ b.version)).Pairwise
      fun a b => decide (a.version ≤ b.version) = true :=
    List.pairwise_mergeSort
      (fun a b c hab hbc => by simpa using String.le_trans (by simpa using hab) (by simpa using hbc))
      (fun a b => by simpa using String.le_total a.version b.version) c.entries
  unfold sorted
  simpa using h

theorem sorted_distinct (c : Catalog) :
    c.sorted.Pairwise fun a b => a.version ≠ b.version :=
  List.pairwise_map.mp (((List.mergeSort_perm c.entries _).map Migration.version).nodup_iff.mpr
    c.distinct)

/-- The migrations stand by version, each after those of smaller versions only. -/
theorem sorted_lt (c : Catalog) : c.sorted.Pairwise fun a b => a.version < b.version := by
  refine (c.sorted_le.and c.sorted_distinct).imp ?_
  rintro a b ⟨hle, hne⟩
  exact String.not_le.mp fun hge => hne (String.le_antisymm hle hge)

end Catalog

namespace Migrator

variable {m : Migrator} {rows found : List LedgerRow}

theorem mem_pendingIn {x : Migration} :
    x ∈ m.pendingIn rows ↔ x ∈ m.catalog.entries ∧ x.version ∉ rows.map LedgerRow.version := by
  simp [pendingIn, Catalog.mem_sorted]

theorem pendingIn_lt (m : Migrator) (rows : List LedgerRow) :
    (m.pendingIn rows).Pairwise fun a b => a.version < b.version :=
  m.catalog.sorted_lt.filter _

/-- Which migrations are pending does not depend on the order of the rows. -/
theorem pendingIn_perm (h : found.Perm rows) : m.pendingIn found = m.pendingIn rows := by
  unfold pendingIn
  congr 1
  funext x
  rw [h.any_eq]

theorem pendingIn_append (m : Migrator) (rows new : List LedgerRow) :
    m.pendingIn (rows ++ new) =
      (m.pendingIn rows).filter fun x => !new.any (·.version == x.version) := by
  unfold pendingIn
  rw [List.filter_filter]
  congr 1
  funext x
  rw [List.any_append, Bool.not_or, Bool.and_comm]

/-- When the first of the pending migrations are recorded, the others are pending. -/
theorem pendingIn_done {new : List LedgerRow} {done rest : List Migration}
    (h : m.pendingIn rows = done ++ rest)
    (hnew : new.map LedgerRow.version = done.map Migration.version) :
    m.pendingIn (rows ++ new) = rest := by
  have hlt := m.pendingIn_lt rows
  have named : ∀ x : Migration,
      new.any (·.version == x.version) = true ↔ x.version ∈ done.map Migration.version := by
    intro x
    rw [← hnew]
    simp
  rw [h, List.pairwise_append] at hlt
  rw [pendingIn_append, h, List.filter_append]
  have hdone : done.filter (fun x => !new.any (·.version == x.version)) = [] := by
    rw [List.filter_eq_nil_iff]
    intro x hx hnot
    rw [(named x).mpr (List.mem_map_of_mem hx)] at hnot
    exact nomatch hnot
  have hrest : rest.filter (fun x => !new.any (·.version == x.version)) = rest := by
    rw [List.filter_eq_self]
    intro x hx
    rw [Bool.not_eq_true', Bool.eq_false_iff]
    intro hany
    obtain ⟨y, hy, hxy⟩ := List.mem_map.mp ((named x).mp hany)
    exact absurd (hxy ▸ hlt.2.2 y hy x hx) (String.lt_irrefl _)
  rw [hdone, hrest, List.nil_append]

end Migrator
end SchemaLedger
