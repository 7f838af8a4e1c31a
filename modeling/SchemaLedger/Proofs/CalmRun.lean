-- Runs without planned faults, whatever the clock shows. The ledger is asked in calm; each
-- pending migration is called in its turn, up to the first that cannot be applied, and a row
-- is added for each one before it.
import SchemaLedger.Proofs.Calm
import SchemaLedger.Proofs.Fates
import SchemaLedger.Proofs.FullRun
import SchemaLedger.Proofs.Newest

namespace SchemaLedger

/-! ## One migration -/

variable {l : Ledger} {s : Session} {rows : List LedgerRow}

/-- A migration cannot be applied to a store without faults: it fails itself, there is no
description of it to record, or there is no date to record it with. -/
def Migration.Halts (m : Migration) (clock : Readings) (ts : Tables) : Prop :=
  (∃ f, (m.up.alone ts).result = .error f) ∨
    (∀ text, describe m.description ≠ .ok (some text)) ∨
    ∃ n, Calendar.timestamp? (clock.nth n) = none

/-- A new migration that could be applied would have been. -/
theorem Migration.halts_of_failed {m : Migration} (hc : s.Calm)
    (hb : s.handle.connection.blocked = none) (hf : m.Fair l) (hl : l.Holds s.store rows)
    (hv : m.version ∉ rows.map LedgerRow.version) {f : Failure} {s' : Session}
    (hfails : m.apply l s = .error f s') : m.Halts s.clock s.store := by
  by_contra hhalts
  unfold Halts at hhalts
  push Not at hhalts
  obtain ⟨hgood, ⟨text, htext⟩, hdates⟩ := hhalts
  have hok : (m.up.alone s.store).result = .ok () := by
    rcases hres : (m.up.alone s.store).result with g | _
    · exact absurd hres (hgood g)
    · rfl
  obtain ⟨a, ha⟩ := Option.ne_none_iff_exists'.mp (hdates (s.clock.taken + 1))
  obtain ⟨o, s₁, _, hdone, _⟩ :=
    apply_calm_done hc hb hf.leavesOpen hok (hf.holds_alone hl) hv htext ha
  cases hdone.symm.trans hfails

/-- A new migration is called. Its row is added, or it cannot be applied and the store is as it
was. -/
theorem Migration.apply_calm {m : Migration} (hc : s.Calm)
    (hb : s.handle.connection.blocked = none) (hf : m.Fair l) (hl : l.Holds s.store rows)
    (hv : m.version ∉ rows.map LedgerRow.version) :
    (∃ o s' r, m.apply l s = .ok o s' ∧ s.Leaves s'.store s' ∧ r.version = m.version ∧
        l.Holds s'.store (rows ++ [r]) ∧ s'.calls = s.calls ++ [m.upCall]) ∨
      ∃ f s', m.apply l s = .error f s' ∧ s'.store = s.store ∧
        s'.calls = s.calls ++ [m.upCall] ∧ m.Halts s.clock s.store := by
  have hopens : s.handle.Opens := ⟨hc.idle, hc.opens hb⟩
  have hfate := Job.run_fate (j := Job.applying l m)
    (s := s.begun (.applying m.version m.description.shown)) (Job.applying_sturdy l m)
    hf.leavesOpen hopens
  rcases hrun : (Job.applying l m).run (s.begun (.applying m.version m.description.shown)) with
    ⟨⟨⟩, s₁⟩ | ⟨f, s₁⟩
  · rw [hrun] at hfate
    obtain ⟨hfate, hcalls⟩ := hfate
    obtain ⟨o, hperform, _⟩ := Job.perform_done hrun .applied
    rw [← apply_eq] at hperform
    cases hfate with
    | @kept us _ _ hpart _ hleaves =>
      have hbefore : l.Holds ((Job.applying l m).effect
          (s.begun (.applying m.version m.description.shown))).tables rows :=
        hl.of_find? (Routine.find?_effect hf.avoids _ _ _)
      obtain ⟨text, a, _, _, _, hafter⟩ := hbefore.of_recorded? hpart
      obtain rfl : s₁.store = us := hleaves.store_eq
      exact .inl ⟨o, _, _, hperform, ⟨hleaves.settled,
        s.clock.before_next.trans (hleaves.clock.trans s₁.clock.before_next)⟩, rfl, hafter, hcalls⟩
  · rw [hrun] at hfate
    obtain ⟨hfate, hcalls⟩ := hfate
    have hfails : m.apply l s = .error f s₁ := by
      rw [apply_eq]
      exact Job.perform_failed hrun _
    have hstore : s₁.store = s.store := by
      cases hfate with
      | undone _ hleaves => exact hleaves.store_eq
      | adrift _ i => exact i.base
    exact .inr ⟨f, s₁, hfails, hstore, hcalls, Migration.halts_of_failed hc hb hf hl hv hfails⟩

/-! ## Any number of them -/

namespace Migrator

/-- Of the migrations `todo` those of `done` were applied and have rows beside the old ones,
and the first of the rest, if there is one, was called and could not be applied. -/
structure Advanced (l : Ledger) (s : Session) (rows : List LedgerRow) (todo done rest : List Migration)
    (s' : Session) (r : EStateM.Result Failure Session (List Outcome)) : Prop where
  split : todo = done ++ rest
  holds : ∃ new, new.map LedgerRow.version = done.map Migration.version ∧
    l.Holds s'.store (rows ++ new)
  calls : s'.calls = s.calls ++ (done ++ rest.take 1).map Migration.upCall
  ends : (rest = [] ∧ s.Leaves s'.store s' ∧ ∃ outs, r = .ok outs s') ∨
    ∃ x later f, rest = x :: later ∧ x.Halts s.clock s'.store ∧ r = .error f s'

theorem applyAll_calm {todo : List Migration} (hc : s.Calm)
    (hb : s.handle.connection.blocked = none) (hl : l.Holds s.store rows)
    (hf : ∀ x ∈ todo, x.Fair l) (hnew : ∀ x ∈ todo, x.version ∉ rows.map LedgerRow.version)
    (hd : todo.Pairwise fun a b => a.version ≠ b.version) :
    ∃ done rest s', Advanced l s rows todo done rest s' (applyAll l todo s) := by
  induction todo generalizing s rows with
  | nil =>
    exact ⟨[], [], s, rfl, ⟨[], rfl, by simpa using hl⟩, (List.append_nil _).symm,
      .inl ⟨rfl, hc.between.leaves, [], rfl⟩⟩
  | cons x todo ih =>
    unfold applyAll
    rcases Migration.apply_calm hc hb (hf x List.mem_cons_self) hl (hnew x List.mem_cons_self) with
      ⟨o, s₁, r, hrun, hleaves, hv, hholds, hcalls⟩ | ⟨f, s₁, hrun, hstore, hcalls, hhalts⟩
    · obtain ⟨hxrest, hdrest⟩ := List.pairwise_cons.mp hd
      have hnew₁ : ∀ y ∈ todo, y.version ∉ (rows ++ [r]).map LedgerRow.version := by
        intro y hy hmem
        rw [List.map_append, List.mem_append] at hmem
        rcases hmem with hmem | hmem
        · exact hnew y (List.mem_cons_of_mem _ hy) hmem
        · exact hxrest y hy (hv.symm.trans (List.mem_singleton.mp hmem).symm)
      obtain ⟨done, rest, s', hend⟩ := ih (hleaves.calm hc) (hleaves.settled.blocked.trans hb) hholds
        (fun y hy => hf y (List.mem_cons_of_mem _ hy)) hnew₁ hdrest
      rw [Work.bind_ok hrun]
      obtain ⟨new, hnew, hafter⟩ := hend.holds
      refine ⟨x :: done, rest, s', by rw [hend.split, List.cons_append], ⟨r :: new, ?_, ?_⟩, ?_, ?_⟩
      · rw [List.map_cons, List.map_cons, hv, hnew]
      · rw [List.append_cons]
        exact hafter
      · rw [hend.calls, hcalls, List.append_assoc s.calls]
        rfl
      · rcases hend.ends with ⟨hrest, hleaves', outs, hall⟩ | ⟨y, later, f, hrest, hhalts, hall⟩
        · exact .inl ⟨hrest, hleaves.trans hleaves', o :: outs, Work.bind_ok hall _⟩
        · unfold Migration.Halts at hhalts
          rw [hleaves.clock.nth] at hhalts
          exact .inr ⟨y, later, f, hrest, hhalts, Work.bind_error hall _⟩
    · rw [Work.bind_error hrun]
      rw [← hstore] at hhalts hl
      exact ⟨[], x :: todo, s₁, rfl, ⟨[], rfl, by simpa using hl⟩, hcalls,
        .inr ⟨x, todo, f, rfl, hhalts, rfl⟩⟩

variable {m : Migrator}

/-- A run goes through the pending migrations. Before and after that it only reports. -/
theorem run_calm (hc : s.Calm) (hu : m.ledger.Usable s) (hl : m.ledger.Has s.store rows)
    (hf : ∀ x ∈ m.catalog.entries, x.Fair m.ledger) :
    ∃ done rest s', Advanced m.ledger s rows (m.pendingIn rows) done rest s' (m.run s) := by
  obtain ⟨s₁, hleaves, hholds, hcalls, hrun⟩ :=
    m.ledger.asking_all_calm hc hu hl m.runOn
  have hpending : m.pendingIn (Ledger.sort .oldestFirst rows) = m.pendingIn rows :=
    pendingIn_perm (Ledger.sort_ordered.same .oldestFirst rows)
  have hc₁ := hleaves.calm hc
  have hstays : s.Leaves s₁.store s₁ := by
    rw [hleaves.store_eq]
    exact hleaves
  rw [run_eq, hrun]
  unfold runOn
  rw [hpending]
  by_cases hnil : m.pendingIn rows = []
  · rw [if_pos (by simp [hnil]), hnil]
    have hrows : m.ledger.Holds s₁.store (rows ++ []) := by simpa using hholds
    exact ⟨[], [], { s₁ with events := s₁.events ++ [.nothingPending] }, rfl, ⟨[], rfl, hrows⟩,
      by simpa using hcalls, .inl ⟨rfl, ⟨hstays.settled, hstays.clock⟩, [], rfl⟩⟩
  · rw [if_neg (by simpa using hnil)]
    have hfair : ∀ x ∈ m.pendingIn rows, x.Fair m.ledger :=
      fun x hx => hf x (mem_pendingIn.mp hx).1
    obtain ⟨done, rest, s', hend⟩ := applyAll_calm
      (s := { s₁ with events := s₁.events ++ [.running (m.pendingIn rows).length] })
      ⟨hc₁.idle, hc₁.plan⟩ (hu.of_leaves hleaves).opens hholds hfair
      (fun x hx => (mem_pendingIn.mp hx).2)
      ((m.pendingIn_lt rows).imp fun h e => absurd (e ▸ h) (String.lt_irrefl _))
    have hcallsEnd : s'.calls = s.calls ++ (done ++ rest.take 1).map Migration.upCall := by
      rw [hend.calls]
      exact congrArg (· ++ _) hcalls
    rw [Work.bind_ok (Work.report_ok ..)]
    rcases hend.ends with ⟨hrest, hleaves', outs, hall⟩ | ⟨x, later, f, hrest, hhalts, hall⟩
    · rw [Work.bind_ok hall]
      exact ⟨done, rest, { s' with events := s'.events ++ [.allApplied outs.length] }, hend.split,
        hend.holds, hcallsEnd, .inl ⟨hrest, ⟨hstays.settled.trans hleaves'.settled,
          hstays.clock.trans hleaves'.clock⟩, outs, rfl⟩⟩
    · rw [Work.bind_error hall]
      unfold Migration.Halts at hhalts
      rw [show s₁.clock.nth = s.clock.nth from hleaves.clock.nth] at hhalts
      exact ⟨done, rest, s', hend.split, hend.holds, hcallsEnd,
        .inr ⟨x, later, f, hrest, hhalts, rfl⟩⟩

end Migrator
end SchemaLedger
