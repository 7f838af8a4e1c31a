-- The status beside the ledger. It splits the registered migrations into applied and
-- pending ones, and the rows of the ledger into those of registered migrations and orphans;
-- what is pending in it is what is asked for as pending, and what a run calls next.
import SchemaLedger.Proofs.CalmRun
import SchemaLedger.Proofs.Rollback

namespace SchemaLedger

namespace Status

variable {c : Catalog} {rows : List LedgerRow}

/-! ## Rows of distinct versions -/

/-- Rows of distinct versions are kept as they are. -/
theorem byVersion_distinct (h : (rows.map LedgerRow.version).Nodup) : byVersion rows = rows := by
  have go (kept rows : List LedgerRow) (h : ((kept ++ rows).map LedgerRow.version).Nodup) :
      rows.foldl
        (fun kept r =>
          if kept.any (·.version == r.version) then
            kept.map fun k => if k.version == r.version then r else k
          else kept ++ [r])
        kept = kept ++ rows := by
    induction rows generalizing kept with
    | nil => simp
    | cons r rest ih =>
      have hnew : kept.any (·.version == r.version) = false := by
        simp only [List.map_append, List.map_cons, List.nodup_append] at h
        simp only [List.any_eq_false, beq_iff_eq]
        exact fun k hk he => h.2.2 _ (List.mem_map_of_mem hk) _ List.mem_cons_self he
      rw [List.foldl_cons, hnew, if_neg (by simp), ih _ (by simpa using h)]
      simp
  exact go [] rows (by simpa using h)

theorem find?_version_iff (h : (rows.map LedgerRow.version).Nodup) (v : String) (r : LedgerRow) :
    rows.find? (·.version == v) = some r ↔ r ∈ rows ∧ r.version = v := by
  constructor
  · intro hfind
    exact ⟨List.mem_of_find?_eq_some hfind, by simpa using List.find?_some hfind⟩
  · rintro ⟨hr, hv⟩
    rcases hfind : rows.find? (·.version == v) with _ | q
    · exact absurd hv (by simpa using List.find?_eq_none.mp hfind r hr)
    · have hq : q.version = v := by simpa using List.find?_some hfind
      rw [hfind, List.inj_on_of_nodup_map h (List.mem_of_find?_eq_some hfind) hr (hq.trans hv.symm)]

/-! ## What a status says -/

/-- The versions that a status gives as pending. -/
def pendingVersions (st : Status) : List String :=
  (st.entries.filter fun e => !e.isApplied).map (·.version)

theorem length_pendingVersions (st : Status) : st.pendingVersions.length = st.pending := by
  rw [pendingVersions, List.length_map, ← List.countP_eq_length_filter]
  rfl

/-- A status says of registered migrations and of the rows of a ledger what is so. -/
structure Mirrors (c : Catalog) (rows : List LedgerRow) (st : Status) : Prop where
  /-- One entry for each registered migration, by version. -/
  registered : (st.entries.map fun e => (e.version, e.description)).Perm
    (c.entries.map fun x => (x.version, x.description))
  ascending : st.entries.Pairwise fun a b => a.version < b.version
  appliedAt : ∀ e ∈ st.entries, ∀ a, e.appliedAt = some a ↔
    ∃ r ∈ rows, r.version = e.version ∧ r.appliedAt = a
  state : ∀ e ∈ st.entries,
    e.state = if e.version ∈ rows.map LedgerRow.version then "APPLIED" else "PENDING"
  orphans : st.orphans.Perm (rows.filter fun r => r.version ∉ c.versions)
  oldestFirst : st.orphans.Pairwise fun a b => b.Newer a
  allRows : st.applied + st.orphans.length = rows.length
  allEntries : st.applied + st.pending = st.total

theorem applied_add_pending (st : Status) : st.applied + st.pending = st.total := by
  unfold applied pending total
  rw [List.length_eq_countP_add_countP StatusEntry.isApplied]
  congr 2
  funext e
  simp

/-- The status of rows of distinct versions, as a list. -/
theorem of_distinct (h : (rows.map LedgerRow.version).Nodup) :
    Status.of c rows =
      { entries := c.sorted.map fun x =>
          ⟨x.version, x.description, (rows.find? (·.version == x.version)).map (·.appliedAt)⟩,
        orphans := rows.filter fun r => (c.find? r.version).isNone } := by
  unfold Status.of
  rw [byVersion_distinct h]

theorem isNone_find?_iff (v : String) : (c.find? v).isNone = true ↔ v ∉ c.versions := by
  rw [Option.isNone_iff_eq_none]
  refine ⟨Catalog.not_mem_of_find?_eq_none, fun h => ?_⟩
  rcases hfind : c.find? v with _ | x
  · rfl
  · obtain ⟨hx, rfl⟩ := Catalog.find?_eq_some hfind
    exact absurd (List.mem_map_of_mem hx) h

/-- The entry of a migration is applied when some row has its version. -/
theorem isApplied_entry (x : Migration) :
    (⟨x.version, x.description, (rows.find? (·.version == x.version)).map (·.appliedAt)⟩ :
      StatusEntry).isApplied = decide (x.version ∈ rows.map LedgerRow.version) := by
  rw [StatusEntry.isApplied, Bool.eq_iff_iff]
  simp

/-- As many migrations are applied as rows have a registered version: both are told apart
by their versions, and these are the same. -/
theorem applied_of (h : (rows.map LedgerRow.version).Nodup) :
    (Status.of c rows).applied = (rows.filter fun r => decide (r.version ∈ c.versions)).length := by
  have hsorted : (c.sorted.map Migration.version).Nodup := List.pairwise_map.mpr c.sorted_distinct
  have hperm : ((c.sorted.filter fun x => decide (x.version ∈ rows.map LedgerRow.version)).map
      Migration.version).Perm
        ((rows.filter fun r => decide (r.version ∈ c.versions)).map LedgerRow.version) := by
    rw [List.perm_ext_iff_of_nodup (hsorted.sublist (List.filter_sublist.map _))
      (h.sublist (List.filter_sublist.map _))]
    intro v
    simp only [List.mem_map, List.mem_filter, decide_eq_true_eq, Catalog.mem_sorted,
      Catalog.versions]
    constructor
    · rintro ⟨x, ⟨hx, r, hr, hv⟩, rfl⟩
      exact ⟨r, ⟨hr, x, hx, hv.symm⟩, hv⟩
    · rintro ⟨r, ⟨hr, x, hx, hv⟩, rfl⟩
      exact ⟨x, ⟨hx, r, hr, hv.symm⟩, hv⟩
  have hlength := hperm.length_eq
  rw [List.length_map, List.length_map] at hlength
  rw [← hlength, of_distinct h, applied, List.countP_map, List.countP_eq_length_filter]
  exact congrArg List.length (List.filter_congr fun x _ => isApplied_entry x)

theorem orphans_of (h : (rows.map LedgerRow.version).Nodup) :
    (Status.of c rows).orphans = rows.filter fun r => !decide (r.version ∈ c.versions) := by
  rw [of_distinct h]
  refine List.filter_congr fun r _ => ?_
  rw [Bool.eq_iff_iff, isNone_find?_iff, Bool.not_eq_true', decide_eq_false_iff_not]

/-- A status of all rows of a ledger in order mirrors it, in whatever order they were found. -/
theorem of_mirrors {found : List LedgerRow} (h : (rows.map LedgerRow.version).Nodup)
    (hp : found.Perm rows) (hsorted : found.Pairwise fun a b => b.Newer a) :
    Mirrors c rows (Status.of c found) := by
  have hd : (found.map LedgerRow.version).Nodup := (hp.map LedgerRow.version).nodup_iff.mpr h
  refine ⟨?_, ?_, ?_, ?_, ?_, ?_, ?_, applied_add_pending _⟩
  · rw [of_distinct hd, List.map_map]
    exact (List.mergeSort_perm c.entries _).map _
  · rw [of_distinct hd]
    exact List.pairwise_map.mpr c.sorted_lt
  · rw [of_distinct hd]
    intro e he a
    obtain ⟨x, _, rfl⟩ := List.mem_map.mp he
    simp only [Option.map_eq_some_iff, find?_version_iff hd, hp.mem_iff, and_assoc]
  · rw [of_distinct hd]
    intro e he
    obtain ⟨x, _, rfl⟩ := List.mem_map.mp he
    unfold StatusEntry.state
    rw [isApplied_entry]
    simp only [decide_eq_true_eq, (hp.map LedgerRow.version).mem_iff]
  · rw [orphans_of hd]
    simpa only [decide_not] using hp.filter fun r => !decide (r.version ∈ c.versions)
  · rw [orphans_of hd]
    exact hsorted.sublist List.filter_sublist
  · rw [applied_of hd, orphans_of hd, ← hp.length_eq]
    exact (List.length_eq_length_filter_add _).symm

/-- The pending versions are those of the pending migrations. -/
theorem pendingVersions_of {m : Migrator} {found : List LedgerRow}
    (h : (rows.map LedgerRow.version).Nodup) (hp : found.Perm rows) :
    (Status.of m.catalog found).pendingVersions = (m.pendingIn rows).map Migration.version := by
  have hd : (found.map LedgerRow.version).Nodup := (hp.map LedgerRow.version).nodup_iff.mpr h
  rw [of_distinct hd, ← Migrator.pendingIn_perm hp]
  unfold pendingVersions Migrator.pendingIn
  rw [List.filter_map, List.map_map]
  refine congrArg (List.map Migration.version) (List.filter_congr fun x _ => ?_)
  rw [Function.comp_apply, isApplied_entry, Bool.eq_iff_iff]
  simp

end Status

namespace Migrator

variable {m : Migrator} {s : Session} {rows : List LedgerRow}

theorem reports_ok (events : List Event) (s : Session) :
    events.forM Work.report s = .ok () { s with events := s.events ++ events } := by
  induction events generalizing s with
  | nil => simp [pure, EStateM.pure]
  | cons e rest ih =>
    refine (Work.bind_ok (Work.report_ok e s) _).trans ((ih _).trans ?_)
    rw [List.append_assoc]
    rfl

/-- Asking for the status makes the ledger's table and reports. -/
theorem status_calm (hc : s.Calm) (hu : m.ledger.Usable s) (hl : m.ledger.Has s.store rows) :
    ∃ s₁, m.status s = .ok (Status.of m.catalog (Ledger.sort .oldestFirst rows)) s₁ ∧
      s.Leaves (m.ledger.made s.store) s₁ ∧ m.ledger.Holds s₁.store rows ∧ s₁.calls = s.calls := by
  obtain ⟨s₁, hleaves, hholds, hcalls, hstatus⟩ :=
    m.ledger.asking_all_calm hc hu hl m.statusOn
  rw [← status_eq] at hstatus
  exact ⟨_, hstatus.trans (Work.bind_ok (reports_ok _ _) _), ⟨hleaves.settled, hleaves.clock⟩,
    hholds, hcalls⟩

end Migrator
end SchemaLedger
