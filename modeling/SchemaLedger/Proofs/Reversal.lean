-- The law of reversal. Where the migrations of a run are restored by their reverses, rolling
-- back the last of them leads back to the store as it was before these were applied, also
-- when all of them were recorded at the same time.
import Mathlib.Data.List.Induction
import SchemaLedger.Proofs.Restoring

namespace SchemaLedger

/-! ## Any number of migrations -/

/-- The session when a run of migrations was announced. -/
def Session.announced (s : Session) (todo : List Migration) : Session :=
  { s with events := s.events ++ [.running todo.length] }

namespace Migrator

/-- Wherever the first of some migrations have led from `start`, what applying the next one
makes is restored by its reverse. -/
def Reversible (l : Ledger) (start : Session) (done : List Migration) : Prop :=
  ∀ before x, before ++ [x] <+: done → ∀ outs q o q₁, applyAll l before start = .ok outs q →
    x.apply l q = .ok o q₁ → x.Restores l q.store q₁.store

/-- `r` is a rollback from `q` that reverts `units` in that order, ends well in `q'` and
leaves the tables `ts`. -/
structure TakesBack (q : Session) (units : List Migration) (ts : Tables) (q' : Session)
    (r : EStateM.Result Failure Session (List Outcome)) : Prop where
  ends : ∃ outs, r = .ok outs q' ∧
    outs.map (fun o => (o.version, o.description)) = units.map fun x => (x.version, x.description)
  calls : q'.calls = q.calls ++ units.map Migration.downCall
  leaves : q.Leaves q'.store q'
  same : ts.Same q'.store

/-- A run from `s` applies `done` one after another, from `start` to `last`: that is all
that is pending, or the next one fails. -/
inductive RunApplies (m : Migrator) (s : Session) : Session → List Migration → Session → Prop
  | all {s₁ last : Session} {done : List Migration} {outs : List Outcome} :
      m.pending s = .ok done s₁ → applyAll m.ledger done (s₁.announced done) = .ok outs last →
      RunApplies m s (s₁.announced done) done last
  | upTo {s₁ last s' : Session} {done later : List Migration} {p : Migration}
      {outs : List Outcome} {f : Failure} :
      m.pending s = .ok (done ++ p :: later) s₁ →
      applyAll m.ledger done (s₁.announced (done ++ p :: later)) = .ok outs last →
      p.apply m.ledger last = .error f s' →
      RunApplies m s (s₁.announced (done ++ p :: later)) done last

variable {l : Ledger} {m : Migrator} {s s' start last q : Session} {rows : List LedgerRow}
  {done kept undone : List Migration} {outs : List Outcome}

theorem applyAll_append (l : Ledger) (a b : List Migration) :
    applyAll l (a ++ b) =
      (do
        let first ← applyAll l a
        let second ← applyAll l b
        return first ++ second) := by
  have cons : ∀ x rest, applyAll l (x :: rest) =
      (do
        let o ← x.apply l
        return o :: (← applyAll l rest)) := fun _ _ => rfl
  induction a with
  | nil => simp [applyAll]
  | cons x rest ih => simp only [List.cons_append, cons, ih, bind_assoc, pure_bind]

theorem applyAll_snoc {x : Migration} (h : applyAll l (done ++ [x]) s = .ok outs s') :
    ∃ outs₁ s₁ o, applyAll l done s = .ok outs₁ s₁ ∧ x.apply l s₁ = .ok o s' := by
  rw [applyAll_append] at h
  obtain ⟨outs₁, s₁, hdone, hrest⟩ := Work.eq_ok_of_bind h
  obtain ⟨outs₂, s₂, hlast, hend⟩ := Work.eq_ok_of_bind hrest
  cases hend
  obtain ⟨o, s₂, happ, hnil⟩ := Work.eq_ok_of_bind hlast
  cases hnil
  exact ⟨outs₁, s₁, o, hdone, happ⟩

theorem applyAll_failed {p : Migration} {later : List Migration} {f : Failure}
    (h : applyAll l done s = .ok outs last) (hp : p.apply l last = .error f s') :
    applyAll l (done ++ p :: later) s = .error f s' := by
  have hrest : applyAll l (p :: later) last = .error f s' := Work.bind_error hp _
  rw [applyAll_append, Work.bind_ok h]
  exact Work.bind_error hrest _

/-- Where the first of the pending migrations were applied, each has its row. -/
theorem applyAll_done (hr : s.Ready) (hb : s.handle.connection.blocked = none)
    (hl : m.ledger.Holds s.store rows) (hf : ∀ x ∈ m.catalog.entries, x.Fair m.ledger)
    (hpre : done <+: m.pendingIn rows) (h : applyAll m.ledger done s = .ok outs s') :
    ∃ new, s.Leaves s'.store s' ∧ m.ledger.Holds s'.store (rows ++ new) ∧
      new.map LedgerRow.version = done.map Migration.version := by
  have hpending : ∀ x ∈ done, x ∈ m.catalog.entries ∧ x.version ∉ rows.map LedgerRow.version :=
    fun x hx => mem_pendingIn.mp (hpre.subset hx)
  have hd : done.Pairwise fun a b => a.version ≠ b.version :=
    ((m.pendingIn_lt rows).sublist hpre.sublist).imp fun h e => absurd (e ▸ h) (String.lt_irrefl _)
  obtain ⟨done', new, s₁, hend⟩ := applyAll_stopped hr hb hl
    (fun x hx => hf x (hpending x hx).1) (fun x hx => (hpending x hx).2) hd
  rcases hend.ends with ⟨rfl, _, outs', hw, _⟩ | ⟨p, later, f, calls, _, _, _, hw⟩
  · rw [hw] at h
    cases h
    exact ⟨new, hend.leaves, hend.holds, versions_of_rowOf hend.entered.each⟩
  · exact nomatch h.symm.trans hw

/-- As many of the newest rows as there are in `undone` are those of `undone`, the last first. -/
theorem first_newest {new : List LedgerRow} (hd : ((rows ++ new).map LedgerRow.version).Nodup)
    (hv : new.map LedgerRow.version = (kept ++ undone).map Migration.version)
    (hlt : (kept ++ undone).Pairwise fun a b => a.version < b.version)
    (ht : new.Pairwise fun a b => a.appliedAt ≤ b.appliedAt)
    (hlater : ∀ r ∈ rows, ∀ r' ∈ new, r.appliedAt < r'.appliedAt) :
    ∃ back : List LedgerRow, back.map LedgerRow.version = undone.map Migration.version ∧
      (RollbackCount.exactly undone.length).first (Ledger.sort .newestFirst (rows ++ new)) =
        back.reverse := by
  have hltnew : new.Pairwise fun a b => a.version < b.version := by
    rw [← List.pairwise_map (R := (· < ·)), hv]
    exact List.pairwise_map.mpr hlt
  rw [Ledger.sort_ordered.newest_append hd hltnew ht hlater]
  rw [List.map_append, List.map_eq_append_iff] at hv
  obtain ⟨front, back, rfl, _, hback⟩ := hv
  have hlength : back.reverse.length = undone.length := by
    simpa using congrArg List.length hback
  refine ⟨back, hback, ?_⟩
  rw [List.reverse_append, List.append_assoc]
  exact List.take_left' hlength

/-! ## A run and a rollback -/

/-- A rollback whose first migration is taken back goes on like one of the rest. -/
theorem TakesBack.cons {x : Migration} {r : LedgerRow} {rest : List LedgerRow}
    {units : List Migration} {ts : Tables} {o : Outcome} {q₁ q' : Session}
    (hfind : m.catalog.find? r.version = some x) (hrevert : x.revert m.ledger q = .ok o q₁)
    (hv : o.version = x.version) (hd : o.description = x.description)
    (hleaves : q.Leaves q₁.store q₁) (hcalls : q₁.calls = q.calls ++ [x.downCall])
    (h : TakesBack q₁ units ts q' (m.revertAll rest q₁)) :
    TakesBack q (x :: units) ts q' (m.revertAll (r :: rest) q) := by
  obtain ⟨outs, hrest, houts⟩ := h.ends
  refine ⟨⟨o :: outs, ?_, ?_⟩, ?_, hleaves.trans h.leaves, h.same⟩
  · unfold revertAll
    rw [hfind]
    dsimp only
    rw [Work.bind_ok hrevert, Work.bind_ok hrest]
    rfl
  · rw [List.map_cons, List.map_cons, hv, hd, houts]
  · rw [h.calls, hcalls, List.append_assoc]
    rfl

/-- Migrations that are restored wherever they are applied are so in a run. -/
theorem reversible_of_restores (hr : start.Ready)
    (hb : start.handle.connection.blocked = none) (hl : m.ledger.Holds start.store rows)
    (hf : ∀ x ∈ m.catalog.entries, x.Fair m.ledger) (hdone : done <+: m.pendingIn rows)
    (h : ∀ x ∈ done, ∀ q rows' o q₁, q.Ready → m.ledger.Holds q.store rows' →
      x.apply m.ledger q = .ok o q₁ → x.Restores m.ledger q.store q₁.store) :
    Reversible m.ledger start done := by
  intro before x hpre outs q o q₁ hbefore happ
  have hprefix : before <+: m.pendingIn rows :=
    ((List.prefix_append _ _).trans hpre).trans hdone
  obtain ⟨new, hleaves, hholds, _⟩ := applyAll_done hr hb hl hf hprefix hbefore
  exact h x (hpre.subset (by simp)) q (rows ++ new) o q₁ (hleaves.ready hr) hholds happ

section

variable (hr : start.Ready) (hb : start.handle.connection.blocked = none)
  (hl : m.ledger.Holds start.store rows) (hf : ∀ x ∈ m.catalog.entries, x.Fair m.ledger)
  (hfb : ∀ x ∈ m.catalog.entries, x.FairBack m.ledger) (hdone : done <+: m.pendingIn rows)
  (hback : Reversible m.ledger start done)

include hr hb hl hf hfb hdone hback

/-- Reverting the rows of the migrations that were applied last, the last one first, leads
back to where they had not been applied. -/
theorem revertAll_takesBack {new : List LedgerRow} (hpre : kept ++ undone <+: done)
    (hall : applyAll m.ledger (kept ++ undone) start = .ok outs last)
    (hnew : new.map LedgerRow.version = undone.map Migration.version)
    (hsame : last.store.Same q.store) (hc : q.Calm)
    (hq : q.handle.connection.blocked = none) :
    ∃ outs₁ mid q', applyAll m.ledger kept start = .ok outs₁ mid ∧
      TakesBack q undone.reverse mid.store q' (m.revertAll new.reverse q) := by
  -- on the migrations to take back, the last of which goes first
  induction undone using List.reverseRecOn generalizing new last outs q with
  | nil =>
    obtain rfl : new = [] := by simpa using hnew
    rw [List.append_nil] at hall
    exact ⟨outs, last, q, hall, ⟨[], rfl, rfl⟩, (List.append_nil _).symm,
      ⟨.refl hc.idle, .refl _⟩, hsame⟩
  | append_singleton xs x ih =>
    rw [List.map_append, List.map_eq_append_iff] at hnew
    obtain ⟨new, tail, rfl, hnew, htail⟩ := hnew
    obtain ⟨r, rfl, hv⟩ := List.map_eq_singleton_iff.mp htail
    rw [← List.append_assoc] at hall hpre
    have hpre' : kept ++ xs <+: done := (List.prefix_append _ _).trans hpre
    have hx : x ∈ m.catalog.entries :=
      (mem_pendingIn.mp (hdone.subset (hpre.subset (by simp)))).1
    obtain ⟨outs', before, o, hbefore, happ⟩ := applyAll_snoc hall
    obtain ⟨added, hleaves, hholds, _⟩ := applyAll_done hr hb hl hf (hpre'.trans hdone) hbefore
    obtain ⟨o', q₁, hrevert, hov, hod, hleavesq, hcalls, hsame'⟩ :=
      Migration.revert_applied (hleaves.ready hr) hholds (hf x hx) (hfb x hx) happ
        (hback _ x hpre outs' before o last hbefore happ) hc hq hsame
    obtain ⟨outs₁, mid, q', hkept, htakes⟩ := ih hpre' hbefore hnew hsame' (hleavesq.calm hc)
      (hleavesq.settled.blocked.trans hq)
    refine ⟨outs₁, mid, q', hkept, ?_⟩
    rw [List.reverse_append, List.reverse_append]
    have hfind : m.catalog.find? r.version = some x := by
      rw [hv]
      exact Catalog.find?_of_mem hx
    exact htakes.cons hfind hrevert hov hod hleavesq hcalls

/-- A rollback of as many migrations as were applied last leads back to where they had not
been applied. -/
theorem rollBack_takesBack {new : List LedgerRow} (hdone' : kept ++ undone = done)
    (hall : applyAll m.ledger done start = .ok outs last)
    (hnew : m.ledger.Holds last.store (rows ++ new))
    (ht : new.Pairwise fun a b => a.appliedAt ≤ b.appliedAt)
    (hlater : ∀ r ∈ rows, ∀ r' ∈ new, r.appliedAt < r'.appliedAt)
    (hfits : undone.length < 2 ^ 63) (hc : q.Calm) (hu : m.ledger.Usable q)
    (hstore : q.store = last.store) :
    ∃ outs₁ mid q', applyAll m.ledger kept start = .ok outs₁ mid ∧
      TakesBack q undone.reverse mid.store q' (m.rollBack (.exactly undone.length) q) := by
  subst hdone'
  obtain ⟨added, _, hadded, hv⟩ := applyAll_done hr hb hl hf hdone hall
  obtain rfl : new = added :=
    List.append_cancel_left (Except.ok.inj (hnew.rowsIn.symm.trans hadded.rowsIn))
  obtain ⟨back, hback', hfirst⟩ := first_newest hnew.distinct hv
    ((m.pendingIn_lt rows).sublist hdone.sublist) ht hlater
  rw [← hstore] at hnew
  have hcount : (RollbackCount.exactly undone.length).Countable := by
    intro n hn
    cases hn
    exact hfits
  obtain ⟨q₁, report, hleaves, hcalls, hrun⟩ := rollBack_calm hc hu (.inl hnew) hcount
  rw [hnew.made_eq, hstore] at hleaves
  have hsame : last.store.Same q₁.store := by
    rw [hleaves.store_eq]
    exact fun _ => rfl
  obtain ⟨outs₁, mid, q', hkept, htakes⟩ := revertAll_takesBack hr hb hl hf hfb hdone hback
    List.prefix_rfl hall hback' hsame (hleaves.calm hc) (hu.of_leaves hleaves).opens
  obtain ⟨outs', hrevert, houts⟩ := htakes.ends
  rw [hrun, hfirst, Work.bind_ok hrevert]
  have hleaves' := hleaves.trans htakes.leaves
  exact ⟨outs₁, mid, { q' with events := q'.events ++ [report outs'] }, hkept, ⟨outs', rfl, houts⟩,
    by rw [← hcalls]; exact htakes.calls, ⟨hleaves'.settled, hleaves'.clock⟩, htakes.same⟩

end

/-- What is pending is known only where the ledger is usable, and then its table is there. -/
theorem pending_ok (hr : s.Ready) (hl : m.ledger.Has s.store rows) {todo : List Migration}
    (h : m.pending s = .ok todo s') :
    todo = m.pendingIn rows ∧ m.ledger.Usable s ∧ s.Leaves (m.ledger.made s.store) s' := by
  obtain ⟨found, s₁, happlied, hfound⟩ := Work.eq_ok_of_bind h
  cases hfound
  rcases applied_cases hr hl with
    ⟨f, _, hrun, _⟩ | ⟨found', _, hrun, _, husable, hleaves, hperm⟩
  · exact nomatch happlied.symm.trans hrun
  · rw [happlied] at hrun
    cases hrun
    exact ⟨pendingIn_perm hperm, husable, hleaves⟩

/-- What a run applied first among the pending stays, whether the run ends well or not. -/
theorem RunApplies.settled (h : RunApplies m s start done last) (hdone : done ≠ [])
    (hlast : last.Ready) (hl : m.ledger.Holds last.store rows)
    (hf : ∀ x ∈ m.catalog.entries, x.Fair m.ledger)
    (hpending : ∀ todo s₁, m.pending s = .ok todo s₁ → ∀ x ∈ todo, x ∈ m.catalog.entries) :
    last.handle.Settled last.store (Session.after (m.run s)).handle := by
  cases h with
  | @all s₁ _ _ outs hp hall =>
    have hrun : m.run s =
        .ok outs { last with events := last.events ++ [.allApplied outs.length] } := by
      unfold run
      rw [Work.bind_ok hp, if_neg (by simpa using hdone), Work.bind_ok (Work.report_ok ..)]
      exact Work.bind_ok hall _
    rw [hrun]
    exact .refl hlast.idle
  | @upTo s₁ _ s' _ later p outs f hp hall hfail =>
    have hrun : m.run s = .error f s' := by
      unfold run
      rw [Work.bind_ok hp, if_neg (by simp), Work.bind_ok (Work.report_ok ..)]
      exact Work.bind_error (applyAll_failed hall hfail) _
    have hfair := hf p (hpending _ s₁ hp p (by simp))
    rw [hrun]
    rcases Migration.apply_cases hlast hfair hl with
      ⟨_, _, _, _, _, hp', hleaves, _⟩ | ⟨_, _, _, _, _, _, hp', _⟩
    · rw [hfail] at hp'
      cases hp'
      exact hleaves.settled
    · exact nomatch hfail.symm.trans hp'

end Migrator
end SchemaLedger
