-- The law of interrupted runs. Runs that faults cut short anywhere, and then one without
-- faults, leave what one run without faults leaves from the start, and end as it does;
-- only the times in the ledger tell the difference.
import SchemaLedger.Proofs.FullRun
import SchemaLedger.Proofs.Timeless

namespace SchemaLedger

/-! ## Units that are functions of the store -/

namespace Routine

/-- Where a routine succeeds although faults of the store strike, it has done what it does
without them. -/
def Determined (r : Routine) : Prop :=
  ∀ plan, Handle.StoreFaults plan → ∀ n ts,
    (r.effect (Handle.faultAt plan .execute) n ts).result = .ok () →
      (r.alone ts).result = .ok () ∧
        (r.alone ts).tables = (r.effect (Handle.faultAt plan .execute) n ts).tables

/-- Listed actions stop at the first fault, so they are functions of the store. -/
theorem Determined.ofActions (actions : List Action) : (Routine.ofActions actions).Determined := by
  intro plan hp n ts h
  induction actions generalizing n ts with
  | nil => exact ⟨rfl, rfl⟩
  | cons a rest ih =>
    cases a with
    | send c =>
      unfold alone
      simp only [Routine.ofActions, effect, Command.answer] at h ⊢
      rcases hf : Handle.faultAt plan .execute n with _ | f
      · rw [hf] at h
        rcases hrun : c.run ts with f | us
        · rw [hrun] at h
          cases h
        · rw [hrun] at h
          obtain ⟨hok, htables⟩ := ih _ _ h
          obtain ⟨hres, htab⟩ := effect_unrefused (Routine.ofActions rest) 1 0 us
          exact ⟨hres.trans hok, htab.trans htables⟩
      · rw [hf] at h
        cases h
    | fail f => cases h
    | commit => exact ih _ _ h
    | rollback => exact ih _ _ h

end Routine

/-- Applying a migration is a function of the store. It neither ends its transaction nor
names the ledger's table nor looks at the times in it, and faults make it fail or nothing. -/
structure Migration.Steady (l : Ledger) (m : Migration) : Prop extends Migration.Fair l m where
  overlooks : m.up.Overlooks l
  determined : m.up.Determined

/-! ## Runs in circumstances -/

/-- What a run meets: the faults that are planned for it, and its clock. -/
structure Circumstances where
  plan : List PlannedFault
  clock : Readings
  faults : Handle.StoreFaults plan
  dated : clock.Dated

/-- A session in other circumstances. -/
def Session.under (s : Session) (c : Circumstances) : Session :=
  { s with handle := { s.handle with plan := c.plan }, clock := c.clock }

theorem Ledger.usable_under {l : Ledger} {s : Session} (c : Circumstances) :
    l.Usable (s.under c) ↔ l.Usable s :=
  ⟨fun h => ⟨h.opens, h.allowed⟩, fun h => ⟨h.opens, h.allowed⟩⟩

theorem Session.ready_under {s : Session} (hi : s.handle.Idle) (c : Circumstances) :
    (s.under c).Ready :=
  ⟨hi, c.faults, c.dated⟩

/-! ## Runs without faults -/

namespace Migrator

variable {l : Ledger}

/-- A run of migrations without faults ends in a store: each that succeeds is recorded, and
the first that fails, or that has no description to record, ends it. -/
inductive Finishes (l : Ledger) : Tables → List Migration → Tables → Ending → Prop
  | nil (ts : Tables) : Finishes l ts [] ts none
  | cons {ts us vs : Tables} {x : Migration} {rest : List Migration} {o : Ending} {d : Cell}
      {a : String} {k : Nat} :
      (x.up.alone ts).result = .ok () → Migration.describe x.description = .ok d →
      (l.entry x.version d a).run (x.up.alone ts).tables = .ok (k, us) →
      Finishes l us rest vs o → Finishes l ts (x :: rest) vs o
  | failed {ts : Tables} {x : Migration} {rest : List Migration} {f : Failure} :
      (x.up.alone ts).result = .error f →
      Finishes l ts (x :: rest) ts (some (some .execution, some x.version))
  | unrecorded {ts : Tables} {x : Migration} {rest : List Migration} :
      (x.up.alone ts).result = .ok () →
      (∀ text, Migration.describe x.description ≠ .ok (some text)) →
      Finishes l ts (x :: rest) ts (some (some .ledger, some x.version))

/-- Stores that differ in the times of the ledger alone are led to such stores again, and
to the same end. -/
theorem Finishes.of_timeless {todo : List Migration} {ts us vs ws : Tables} {o o' : Ending}
    {rows rows' : List LedgerRow} (hs : ∀ x ∈ todo, x.Steady l) (hts : l.Holds ts rows)
    (hus : l.Holds us rows') (h : l.timeless ts = l.timeless us) (ht : Finishes l ts todo vs o)
    (hu : Finishes l us todo ws o') : l.timeless vs = l.timeless ws ∧ o = o' := by
  induction ht generalizing us rows rows' with
  | nil ts =>
    cases hu
    exact ⟨h, rfl⟩
  | @cons ts ts' vs x rest o d a k hok hd hrun _ ih =>
    have hx := hs x List.mem_cons_self
    obtain ⟨hres, htab⟩ := Routine.effect_of_timeless hx.overlooks hx.avoids h (fun _ => none) 0
    have hxts := hx.holds_alone hts
    have hxus := hx.holds_alone hus
    obtain ⟨text, rfl, _, hts'⟩ := hxts.of_run_entry hrun
    cases hu with
    | cons _ hd' hrun' hrest =>
      obtain rfl := Except.ok.inj (hd.symm.trans hd')
      obtain ⟨_, _, _, hus'⟩ := hxus.of_run_entry hrun'
      exact ih (fun y hy => hs y (List.mem_cons_of_mem _ hy)) hts' hus'
        (Ledger.entry_of_timeless hxts hxus htab hrun hrun') hrest
    | failed hf => exact nomatch hok.symm.trans (hres.trans hf)
    | unrecorded _ hnone => exact absurd hd (hnone text)
  | failed hf =>
    rename_i ts x rest f
    have hx := hs x List.mem_cons_self
    obtain ⟨hres, _⟩ := Routine.effect_of_timeless hx.overlooks hx.avoids h (fun _ => none) 0
    cases hu with
    | cons hok _ _ _ => exact nomatch hf.symm.trans (hres.trans hok)
    | failed _ => exact ⟨h, rfl⟩
    | unrecorded hok _ => exact nomatch hf.symm.trans (hres.trans hok)
  | unrecorded hok hnone =>
    rename_i ts x rest
    have hx := hs x List.mem_cons_self
    obtain ⟨hres, _⟩ := Routine.effect_of_timeless hx.overlooks hx.avoids h (fun _ => none) 0
    cases hu with
    | cons _ hd hrun _ =>
      obtain ⟨text, rfl, _⟩ := (hx.holds_alone hus).of_run_entry hrun
      exact absurd hd (hnone text)
    | failed hf => exact nomatch hok.symm.trans (hres.trans hf)
    | unrecorded _ _ => exact ⟨h, rfl⟩

/-- What was built under faults is what runs without faults pass through. -/
theorem Built.finishes {plan : List PlannedFault} {ts us vs : Tables} {done rest : List Migration}
    {o : Ending} (h : Built l plan ts done us) (hp : Handle.StoreFaults plan)
    (hs : ∀ x ∈ done, x.up.Determined) (hrest : Finishes l us rest vs o) :
    Finishes l ts (done ++ rest) vs o := by
  induction h with
  | nil ts => exact hrest
  | @cons ts us ws x done n k d a hok hd hrun _ ih =>
    obtain ⟨halone, htables⟩ := hs x List.mem_cons_self plan hp n ts hok
    rw [show x.upEffect plan n ts = x.up.effect (Handle.faultAt plan .execute) n ts from rfl,
      ← htables] at hrun
    exact .cons halone hd hrun (ih (fun y hy => hs y (List.mem_cons_of_mem _ hy)) hrest)

/-- Without planned faults a run is one without faults. -/
theorem Stopped.finishes {s s' : Session} {rows new : List LedgerRow} {todo done : List Migration}
    {r : EStateM.Result Failure Session (List Outcome)}
    (h : Stopped l s rows todo done new s' r) (hp : s.handle.plan = [])
    (hs : ∀ x ∈ todo, x.up.Determined) :
    Finishes l s.store todo (Session.after r).store (ending r) := by
  have hbuilt := h.built
  rw [hp] at hbuilt
  rcases h.ends with ⟨rfl, _, outs, rfl, _⟩ | ⟨p, later, f, calls, rfl, hstop, _, rfl⟩
  · have hfin := hbuilt.finishes Handle.storeFaults_nil hs (.nil _)
    rw [List.append_nil] at hfin
    exact hfin
  · refine hbuilt.finishes Handle.storeFaults_nil
      (fun x hx => hs x (List.mem_append_left _ hx)) ?_
    rw [hp] at hstop
    cases hstop with
    | begin hf => exact nomatch hf
    | commit _ hf => exact nomatch hf
    | @up n f hres =>
      have halone := (Routine.effect_unrefused p.up n 0 s'.store).1
      exact .failed (halone.symm.trans hres)
    | @record n g hok hwhy hg =>
      have halone := (Routine.effect_unrefused p.up n 0 s'.store).1
      have hend : ending (.error (.ledger g) s' : EStateM.Result Failure Session (List Outcome)) =
          some (some .ledger, some p.version) := by
        rw [← hg]
        rfl
      rw [hend]
      exact .unrecorded (halone.symm.trans hok) (hwhy.resolve_left fun hf => hf rfl)

/-! ## Interrupted runs -/

variable {m : Migrator} {s : Session} {rows : List LedgerRow}

/-- Runs one after another, each in circumstances of its own, and the session after them. -/
def runs (m : Migrator) : List Circumstances → Session → Session
  | [], s => s
  | c :: rest, s => m.runs rest (Session.after (m.run (s.under c)))

/-- A run without faults goes through the pending migrations, unless the ledger is not
usable and nothing is done. -/
theorem run_alone (hr : s.Ready) (hp : s.handle.plan = []) (hl : m.ledger.Has s.store rows)
    (hs : ∀ x ∈ m.catalog.entries, x.Steady m.ledger) :
    (m.ledger.Usable s ∧
        Finishes m.ledger (m.ledger.made s.store) (m.pendingIn rows)
          (Session.after (m.run s)).store (ending (m.run s))) ∨
      (¬ m.ledger.Usable s ∧ (Session.after (m.run s)).store = s.store ∧
        ending (m.run s) = some (some .ledger, none)) := by
  rcases run_cases hr hl (fun x hx => (hs x hx).toFair) with
    ⟨f, s', _, hrun, _, _, hstore, hwhy⟩ | ⟨_, s₁, done, new, s', _, _, husable, hleaves, hend⟩
  · obtain ⟨hnot, g, rfl, hg⟩ := hwhy hp
    rw [hrun]
    refine .inr ⟨hnot, hstore.resolve_right fun h => hnot h.1, ?_⟩
    rw [← hg]
    rfl
  · have hfin := hend.finishes (hleaves.settled.plan.trans hp)
      fun x hx => (hs x (mem_pendingIn.mp hx).1).determined
    rw [hleaves.store_eq] at hfin
    exact .inl ⟨husable, hfin⟩

/-- After a run under faults, what is still to be done comes to what was to be done
before it. -/
theorem run_resumable (hr : s.Ready) (hl : m.ledger.Has s.store rows)
    (hs : ∀ x ∈ m.catalog.entries, x.Steady m.ledger) :
    ∃ s' rows', Session.after (m.run s) = s' ∧ s.Leaves s'.store s' ∧
      m.ledger.Has s'.store rows' ∧ (s'.store = s.store ∨ m.ledger.Usable s) ∧
      ∀ vs o, Finishes m.ledger (m.ledger.made s'.store) (m.pendingIn rows') vs o →
        Finishes m.ledger (m.ledger.made s.store) (m.pendingIn rows) vs o := by
  rcases run_cases hr hl (fun x hx => (hs x hx).toFair) with
    ⟨f, s', _, hrun, _, hleaves, hstore, _⟩ | ⟨_, s₁, done, new, s', _, _, husable, hleaves, hend⟩
  · refine ⟨s', rows, by rw [hrun]; rfl, hleaves, ?_⟩
    rcases hstore with hstore | ⟨husable, hstore⟩
    · rw [hstore]
      exact ⟨hl, .inl rfl, fun _ _ h => h⟩
    · rw [hstore, hl.made.made_eq]
      exact ⟨.inl hl.made, .inr husable, fun _ _ h => h⟩
  · obtain ⟨rest, htodo, hafter⟩ :
        ∃ rest, m.pendingIn rows = done ++ rest ∧ Session.after (m.run s) = s' := by
      rcases hend.ends with ⟨htodo, _, outs, hrun, _⟩ | ⟨p, later, f, calls, htodo, _, _, hrun⟩
      · exact ⟨[], by rw [htodo, List.append_nil], by rw [hrun]; rfl⟩
      · exact ⟨p :: later, htodo, by rw [hrun]; rfl⟩
    refine ⟨s', rows ++ new, hafter, hleaves.trans hend.leaves, .inl hend.holds, .inr husable, ?_⟩
    intro vs o hfin
    rw [hend.holds.made_eq, pendingIn_done htodo (versions_of_rowOf hend.entered.each)] at hfin
    have hbuilt := hend.built
    rw [hleaves.store_eq] at hbuilt
    rw [htodo]
    exact hbuilt.finishes (hleaves.ready hr).faults (fun x hx => (hs x (mem_pendingIn.mp
      (htodo ▸ List.mem_append_left rest hx)).1).determined) hfin

/-- After any number of runs under faults, what is still to be done comes to what was to be
done before them. -/
theorem runs_resumable (hi : s.handle.Idle) (hl : m.ledger.Has s.store rows)
    (hs : ∀ x ∈ m.catalog.entries, x.Steady m.ledger) (cs : List Circumstances) :
    ∃ rows', (m.runs cs s).handle.Idle ∧ (m.ledger.Usable (m.runs cs s) ↔ m.ledger.Usable s) ∧
      m.ledger.Has (m.runs cs s).store rows' ∧
      ((m.runs cs s).store = s.store ∨ m.ledger.Usable s) ∧
      ∀ vs o, Finishes m.ledger (m.ledger.made (m.runs cs s).store) (m.pendingIn rows') vs o →
        Finishes m.ledger (m.ledger.made s.store) (m.pendingIn rows) vs o := by
  induction cs generalizing s rows with
  | nil => exact ⟨rows, hi, Iff.rfl, hl, .inl rfl, fun _ _ h => h⟩
  | cons c rest ih =>
    obtain ⟨s', rows', hafter, hleaves, hhas, hstore, hfin⟩ :=
      run_resumable (s := s.under c) (Session.ready_under hi c) hl hs
    have husable : m.ledger.Usable s' ↔ m.ledger.Usable s := by
      have hb : s'.handle.connection.blocked = s.handle.connection.blocked :=
        hleaves.settled.blocked
      exact ⟨fun h => ⟨hb.symm.trans h.opens, h.allowed⟩, fun h => ⟨hb.trans h.opens, h.allowed⟩⟩
    obtain ⟨rows₂, hidle, husable₂, hhas₂, hstore₂, hfin₂⟩ := ih hleaves.settled.idle hhas
    unfold runs
    rw [hafter]
    refine ⟨rows₂, hidle, husable₂.trans husable, hhas₂, ?_,
      fun vs o h => hfin vs o (hfin₂ vs o h)⟩
    rcases hstore with hstore | h
    · exact hstore₂.imp (fun h => h.trans hstore) husable.mp
    · exact .inr ((Ledger.usable_under c).mp h)

end Migrator
end SchemaLedger
