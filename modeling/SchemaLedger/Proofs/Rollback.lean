-- The law of rollbacks. The rows asked for are reverted in order, the newest first, up to
-- the first that cannot be: what is before it is undone and its rows are gone, it and what
-- is after it are as they were.
import Mathlib.Data.List.Forall2
import Mathlib.Data.List.Nodup
import SchemaLedger.Migration.Migrator
import SchemaLedger.Proofs.Calm
import SchemaLedger.Proofs.Newest

namespace SchemaLedger

/-! ## What a rollback may come to -/

/-- Reverting a migration neither ends its transaction nor names the ledger's table, and fails
with plain failures only. -/
structure Migration.FairBack (l : Ledger) (m : Migration) : Prop where
  leavesOpen : m.down.LeavesOpen
  avoids : m.down.Avoids l.table
  plain : m.down.Plain

namespace Migrator

/-- `us` is what the reverses of migrations make of `ts` one after another: each succeeds,
and then its one row is removed. -/
inductive Undone (l : Ledger) : Tables → List Migration → Tables → Prop
  | nil (ts : Tables) : Undone l ts [] ts
  | cons {ts us vs : Tables} {x : Migration} {rest : List Migration} :
      (x.down.alone ts).result = .ok () →
      (l.removal x.version).run (x.down.alone ts).tables = .ok (1, us) →
      Undone l us rest vs → Undone l ts (x :: rest) vs

/-- Why a row stops a rollback in a store: what is raised, and which calls were made for it. -/
inductive Halt (m : Migrator) (r : LedgerRow) (ts : Tables) : Failure → List UnitCall → Prop
  /-- No registered migration has its version. -/
  | unregistered :
      r.version ∉ m.catalog.versions → Halt m r ts (.unregistered r.version) []
  /-- The reverse of its migration failed. -/
  | down {x : Migration} {f : Failure} :
      x ∈ m.catalog.entries → x.version = r.version → (x.down.alone ts).result = .error f →
      Halt m r ts (.execution r.version .down f) [x.downCall]

/-- `x` is the registered migration that a row is about. -/
def Owns (m : Migrator) (r : LedgerRow) (x : Migration) : Prop :=
  x ∈ m.catalog.entries ∧ x.version = r.version

/-- How a rollback of `chosen` rows can end: with all of them gone, or at the first that
stops it. -/
structure Withdrawn (m : Migrator) (s : Session) (rows chosen gone : List LedgerRow)
    (units : List Migration) (s' : Session) (r : EStateM.Result Failure Session (List Outcome)) :
    Prop where
  leaves : s.Leaves s'.store s'
  owned : List.Forall₂ m.Owns gone units
  undone : Undone m.ledger s.store units s'.store
  holds : m.ledger.Holds s'.store (rows.filter (· ∉ gone))
  ends :
    (chosen = gone ∧ s'.calls = s.calls ++ units.map Migration.downCall ∧
      ∃ outs, r = .ok outs s' ∧
        outs.map (fun o => (o.version, o.description)) =
          units.map fun x => (x.version, x.description)) ∨
    ∃ row later f calls, chosen = gone ++ row :: later ∧ Halt m row s'.store f calls ∧
      s'.calls = s.calls ++ units.map Migration.downCall ++ calls ∧ r = .error f s'

end Migrator

/-! ## One row -/

namespace Catalog

theorem find?_eq_some {c : Catalog} {v : String} {x : Migration} (h : c.find? v = some x) :
    x ∈ c.entries ∧ x.version = v := by
  unfold find? at h
  exact ⟨List.mem_of_find?_eq_some h, by simpa using List.find?_some h⟩

theorem find?_of_mem {c : Catalog} {x : Migration} (h : x ∈ c.entries) :
    c.find? x.version = some x := by
  rcases hfind : c.find? x.version with _ | y
  · exact absurd (List.mem_map_of_mem h) (not_mem_of_find?_eq_none hfind)
  · obtain ⟨hy, hv⟩ := find?_eq_some hfind
    rw [List.inj_on_of_nodup_map c.distinct hy h hv]

end Catalog

namespace Ledger

variable {l : Ledger} {ts : Tables} {rows : List LedgerRow}

/-- In a ledger in order a row is known by its version. -/
theorem Holds.version_inj (h : l.Holds ts rows) {q r : LedgerRow} (hq : q ∈ rows) (hr : r ∈ rows) :
    q.version = r.version ↔ q = r :=
  ⟨fun hv => List.inj_on_of_nodup_map h.distinct hq hr hv, fun he => he ▸ rfl⟩

/-- Removing the version of a row takes out that row alone. -/
theorem Holds.run_removal_row (h : l.Holds ts rows) {r : LedgerRow} (hr : r ∈ rows) :
    ∃ us, (l.removal r.version).run ts = .ok (1, us) ∧ l.Holds us (rows.filter (· ≠ r)) := by
  obtain ⟨us, hrun, hus⟩ := h.run_removal r.version
  have hone : rows.filter (·.version == r.version) = rows.filter (· == r) := by
    apply List.filter_congr
    intro q hq
    rw [Bool.eq_iff_iff, beq_iff_eq, beq_iff_eq]
    exact h.version_inj hq hr
  have hothers : (rows.filter fun q => !(q.version == r.version)) = rows.filter (· ≠ r) := by
    apply List.filter_congr
    intro q hq
    by_cases he : q = r
    · simp [he]
    · simp [he, (h.version_inj hq hr).not.mpr he]
  have hcount : (rows.filter (· == r)).length = 1 := by
    rw [← List.countP_eq_length_filter]
    exact List.count_eq_one_of_mem h.distinct.of_map hr
  rw [hone, hcount] at hrun
  rw [hothers] at hus
  exact ⟨us, hrun, hus⟩

end Ledger

/-! ## Any number of rows -/

namespace Migrator

variable {m : Migrator} {s s₁ s' : Session} {rows rest gone : List LedgerRow} {r : LedgerRow}
  {units : List Migration}

/-- A rollback of nothing is done. -/
theorem Withdrawn.nil (hc : s.Calm) (hl : m.ledger.Holds s.store rows) :
    Withdrawn m s rows [] [] [] s (.ok [] s) := by
  refine ⟨⟨.refl hc.idle, .refl _⟩, .nil, .nil _, ?_,
    .inl ⟨rfl, (List.append_nil _).symm, [], rfl, rfl⟩⟩
  simpa using hl

/-- A rollback whose first row stops it leaves everything. -/
theorem Withdrawn.first {f : Failure} {calls : List UnitCall} (hl : m.ledger.Holds s.store rows)
    (hhalt : Halt m r s.store f calls) (hleaves : s.Leaves s.store s')
    (hcalls : s'.calls = s.calls ++ calls) :
    Withdrawn m s rows (r :: rest) [] [] s' (.error f s') := by
  have hstore : s'.store = s.store := hleaves.store_eq
  rw [← hstore] at hleaves hl hhalt
  refine ⟨hleaves, .nil, ?_, ?_, .inr ⟨r, rest, f, calls, rfl, hhalt, ?_, rfl⟩⟩
  · rw [hstore]
    exact .nil _
  · simpa using hl
  · rw [hcalls, List.map_nil, List.append_nil]

/-- A rollback whose first row is gone goes on like one of the rest. -/
theorem Withdrawn.cons {x : Migration} {o : Outcome} {w : Work (List Outcome)}
    (hown : m.Owns r x) (hok : (x.down.alone s.store).result = .ok ())
    (hrow : (m.ledger.removal x.version).run (x.down.alone s.store).tables = .ok (1, s₁.store))
    (hleaves : s.Leaves s₁.store s₁) (hv : o.version = x.version)
    (hd : o.description = x.description) (hcalls : s₁.calls = s.calls ++ [x.downCall])
    (h : Withdrawn m s₁ (rows.filter (· ≠ r)) rest gone units s' (w s₁)) :
    Withdrawn m s rows (r :: rest) (r :: gone) (x :: units) s'
      ((do return o :: (← w) : Work (List Outcome)) s₁) := by
  refine ⟨hleaves.trans h.leaves, .cons hown h.owned, .cons hok hrow h.undone, ?_, ?_⟩
  · have hholds := h.holds
    rw [List.filter_filter] at hholds
    have hrows : (rows.filter fun q => decide (q ∉ gone) && decide (q ≠ r)) =
        rows.filter (· ∉ r :: gone) := by
      apply List.filter_congr
      intro q _
      by_cases hq : q = r
      · simp [hq]
      · simp [hq]
    rw [← hrows]
    exact hholds
  · rcases h.ends with ⟨rfl, hcs, outs, hw, houts⟩ | ⟨row, later, f, calls, rfl, hhalt, hcs, hw⟩
    · refine .inl ⟨rfl, ?_, o :: outs, Work.bind_ok hw _, ?_⟩
      · rw [hcs, hcalls, List.append_assoc s.calls]
        rfl
      · rw [List.map_cons, List.map_cons, hv, hd, houts]
    · refine .inr ⟨row, later, f, calls, rfl, hhalt, ?_, Work.bind_error hw _⟩
      rw [hcs, hcalls, List.append_assoc s.calls [_]]
      rfl

/-- A report at the end changes nothing of how a rollback ends. -/
theorem Withdrawn.reported {chosen : List LedgerRow} {w : Work (List Outcome)}
    (h : Withdrawn m s rows chosen gone units s' (w s)) (last : List Outcome → Event) :
    ∃ s₂, Withdrawn m s rows chosen gone units s₂
      ((do
        let outs ← w
        Work.report (last outs)
        return outs : Work (List Outcome)) s) := by
  rcases h.ends with ⟨hgone, hcalls, outs, hw, houts⟩ | ⟨row, later, f, calls, hgone, hhalt, hcalls, hw⟩
  · rw [Work.bind_ok hw]
    exact ⟨{ s' with events := s'.events ++ [last outs] }, ⟨h.leaves.settled, h.leaves.clock⟩,
      h.owned, h.undone, h.holds, .inl ⟨hgone, hcalls, outs, rfl, houts⟩⟩
  · rw [Work.bind_error hw]
    exact ⟨s', h.leaves, h.owned, h.undone, h.holds,
      .inr ⟨row, later, f, calls, hgone, hhalt, hcalls, rfl⟩⟩

/-- Rows of a ledger in order are reverted one after another up to the first that cannot be. -/
theorem revertAll_withdrawn {chosen : List LedgerRow} (hc : s.Calm)
    (hb : s.handle.connection.blocked = none) (hl : m.ledger.Holds s.store rows)
    (hf : ∀ x ∈ m.catalog.entries, x.FairBack m.ledger) (hmem : ∀ r ∈ chosen, r ∈ rows)
    (hd : chosen.Nodup) :
    ∃ gone units s', Withdrawn m s rows chosen gone units s' (m.revertAll chosen s) := by
  induction chosen generalizing s rows with
  | nil => exact ⟨[], [], s, .nil hc hl⟩
  | cons r rest ih =>
    obtain ⟨hnotin, hdrest⟩ := List.nodup_cons.mp hd
    have hr : r ∈ rows := hmem r List.mem_cons_self
    unfold revertAll
    rcases hfind : m.catalog.find? r.version with _ | x
    · have hhalt : Halt m r s.store (.unregistered r.version) [] :=
        .unregistered (Catalog.not_mem_of_find?_eq_none hfind)
      exact ⟨[], [], { s with events := s.events ++ [.notRegistered r.version] },
        .first hl hhalt ⟨.refl hc.idle, .refl _⟩ (List.append_nil _).symm⟩
    · obtain ⟨hx, hv⟩ := Catalog.find?_eq_some hfind
      have hfair := hf x hx
      dsimp only
      rcases hres : (x.down.alone s.store).result with f | _
      · obtain ⟨s', hrun, hleaves, hcalls⟩ :=
          Migration.revert_calm_failed (l := m.ledger) hc hb hfair.leavesOpen hfair.plain hres
        rw [Work.bind_error hrun, hv]
        exact ⟨[], [], s', .first hl (.down hx hv hres) hleaves hcalls⟩
      · have hl' : m.ledger.Holds (x.down.alone s.store).tables rows :=
          hl.of_find? (Routine.find?_effect hfair.avoids _ _ _)
        obtain ⟨us, hrow, hus⟩ := hl'.run_removal_row hr
        rw [← hv] at hrow
        obtain ⟨o, s₁, hrun, hov, hod, hleaves, hcalls⟩ :=
          Migration.revert_calm_done hc hb hfair.leavesOpen hres hrow (by omega)
        obtain rfl : s₁.store = us := hleaves.store_eq
        -- the row that is gone is none of the later ones
        have hmem' : ∀ q ∈ rest, q ∈ rows.filter (· ≠ r) := by
          intro q hq
          have hne : q ≠ r := fun he => hnotin (he ▸ hq)
          simpa [hne] using hmem q (List.mem_cons_of_mem _ hq)
        obtain ⟨gone, units, s', hend⟩ := ih (hleaves.calm hc)
          (hleaves.settled.blocked.trans hb) hus hmem' hdrest
        rw [Work.bind_ok hrun]
        exact ⟨r :: gone, x :: units, s',
          hend.cons ⟨hx, hv⟩ hres hrow hleaves hov hod hcalls⟩

/-! ## A whole rollback -/

/-- A rollback without faults reverts the rows that the count asks for. Before and after
that it only reports. -/
theorem rollBack_calm {count : RollbackCount} (hc : s.Calm) (hu : m.ledger.Usable s)
    (hl : m.ledger.Has s.store rows) (hcount : count.Countable) :
    ∃ s₁, ∃ last : List Outcome → Event, s.Leaves (m.ledger.made s.store) s₁ ∧
      s₁.calls = s.calls ∧
      m.rollBack count s =
        (do
          let outs ← m.revertAll (count.first (Ledger.sort .newestFirst rows))
          Work.report (last outs)
          return outs : Work (List Outcome)) s₁ := by
  obtain ⟨s₁, hleaves, _, hcalls, hrun⟩ :=
    m.ledger.asking_calm hc hu hl .newestFirst hcount.fits (m.rollBackOn count)
  rw [rollBack_eq, hrun, RollbackCount.cutTo_limit?]
  unfold rollBackOn
  generalize count.first (Ledger.sort .newestFirst rows) = chosen
  cases chosen with
  | nil => exact ⟨s₁, fun _ => .nothingToRevert, hleaves, hcalls, rfl⟩
  | cons r rest =>
    rw [if_neg (by simp)]
    cases count with
    | all => exact ⟨s₁, fun outs => .allReverted outs.length, hleaves, hcalls, rfl⟩
    | exactly n =>
      dsimp only
      split
      · exact ⟨{ s₁ with events := s₁.events ++ [.fewerThanAsked (r :: rest).length n] },
          fun outs => .allReverted outs.length, ⟨hleaves.settled, hleaves.clock⟩, hcalls, rfl⟩
      · exact ⟨s₁, fun outs => .allReverted outs.length, hleaves, hcalls, rfl⟩

/-- The rows that a rollback goes through are the newest, as many as the count asks for. -/
theorem rollBack_withdrawn {count : RollbackCount} (hc : s.Calm) (hu : m.ledger.Usable s)
    (hl : m.ledger.Has s.store rows) (hf : ∀ x ∈ m.catalog.entries, x.FairBack m.ledger)
    (hcount : count.Countable) :
    ∃ s₁ gone units s', s.Leaves (m.ledger.made s.store) s₁ ∧ s₁.calls = s.calls ∧
      Withdrawn m s₁ rows (count.first (Ledger.sort .newestFirst rows)) gone units s'
        (m.rollBack count s) := by
  have hperm := Ledger.sort_ordered.same .newestFirst rows
  have hd : (rows.map LedgerRow.version).Nodup := hl.made.distinct
  obtain ⟨s₁, last, hleaves, hcalls, hrun⟩ := rollBack_calm hc hu hl hcount
  have hholds : m.ledger.Holds s₁.store rows := hl.of_leaves hleaves
  have hfirst := count.first_sublist (Ledger.sort .newestFirst rows)
  have hmem : ∀ r ∈ count.first (Ledger.sort .newestFirst rows), r ∈ rows :=
    fun r hr => hperm.subset (hfirst.subset hr)
  have hnodup : (count.first (Ledger.sort .newestFirst rows)).Nodup :=
    (hperm.nodup_iff.mpr hd.of_map).sublist hfirst
  obtain ⟨gone, units, s', hend⟩ := revertAll_withdrawn (hleaves.calm hc)
    (hu.of_leaves hleaves).opens hholds hf hmem hnodup
  rw [hrun]
  obtain ⟨s₂, hreported⟩ := hend.reported last
  exact ⟨s₁, gone, units, s₂, hleaves, hcalls, hreported⟩

end Migrator
end SchemaLedger
