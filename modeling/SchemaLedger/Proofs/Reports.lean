-- What was reported plays no part in what is done. Two pieces of work are alike if they come
-- to the same but for their reports, in sessions that differ in nothing but what was reported;
-- joining keeps that, so a rollback does the same whatever stands in the log before it.
import SchemaLedger.Proofs.Discipline

namespace SchemaLedger

/-- `t` is the session `s` but for what was reported. -/
structure Session.Matches (s t : Session) : Prop where
  handle : t.handle = s.handle
  clock : t.clock = s.clock
  calls : t.calls = s.calls

theorem Session.Matches.refl (s : Session) : s.Matches s := ⟨rfl, rfl, rfl⟩

/-- Two runs end with the same result or the same failure, in sessions that are the same but
for what was reported. -/
inductive EndsAlike {α : Type} :
    EStateM.Result Failure Session α → EStateM.Result Failure Session α → Prop
  | ok {a : α} {s t : Session} : s.Matches t → EndsAlike (.ok a s) (.ok a t)
  | error {f : Failure} {s t : Session} : s.Matches t → EndsAlike (.error f s) (.error f t)

theorem EndsAlike.refl {α : Type} (r : EStateM.Result Failure Session α) : EndsAlike r r := by
  cases r with
  | ok a s => exact .ok (.refl s)
  | error f s => exact .error (.refl s)

namespace Work

/-! ## Alike work -/

/-- Two pieces of work come to the same but for what they report, whatever was reported before. -/
def Alike {α : Type} (w v : Work α) : Prop := ∀ s t : Session, s.Matches t → EndsAlike (w s) (v t)

variable {α β : Type} {w v : Work α}

theorem alike_pure (a : α) : Alike (pure a : Work α) (pure a) := fun _ _ h => .ok h

theorem alike_throw (f : Failure) : Alike (throw f : Work α) (throw f) := fun _ _ h => .error h

theorem alike_report (e e' : Event) : Alike (report e) (report e') :=
  fun _ _ h => .ok ⟨h.handle, h.clock, h.calls⟩

theorem alike_reportOf (f : Failure) (e : Event) : Alike (reportOf f e) (reportOf f e) := by
  unfold reportOf
  split
  · exact alike_report e e
  · exact alike_pure ()

theorem alike_noteCall (o : Operation) (u : String) (form : Form) :
    Alike (noteCall o u form) (noteCall o u form) :=
  fun _ _ h => .ok ⟨h.handle, h.clock, by rw [h.calls]⟩

theorem alike_now : Alike now now := by
  intro s t h
  rw [now_ok, now_ok, h.clock]
  exact .ok ⟨h.handle, rfl, h.calls⟩

theorem alike_onHandle (call : Handle → Except Failure α × Handle) :
    Alike (onHandle call) (onHandle call) := by
  intro s t h
  unfold onHandle
  rw [h.handle]
  rcases call s.handle with ⟨f | a, handle⟩
  · exact .error ⟨rfl, h.clock, h.calls⟩
  · exact .ok ⟨rfl, h.clock, h.calls⟩

theorem Alike.bind (hw : Alike w v) {k k' : α → Work β} (hk : ∀ a, Alike (k a) (k' a)) :
    Alike (w >>= k) (v >>= k') := by
  intro s t hst
  have h := hw s t hst
  generalize hs : w s = r, ht : v t = r' at h
  cases h with
  | ok h =>
    rw [bind_ok hs, bind_ok ht]
    exact hk _ _ _ h
  | error h =>
    rw [bind_error hs, bind_error ht]
    exact .error h

/-- Work that goes on after a report is alike to what it goes on with. -/
theorem Alike.after_report (hw : Alike w v) (e : Event) : Alike (report e >>= fun _ => w) v := by
  intro s t hst
  rw [bind_ok (report_ok e s)]
  exact hw _ _ ⟨hst.handle, hst.clock, hst.calls⟩

theorem Alike.attempt (hw : Alike w v) : Alike (attempt w) (attempt v) := by
  intro s t hst
  have h := hw s t hst
  generalize hs : w s = r, ht : v t = r' at h
  cases h with
  | ok h =>
    rw [attempt_ok hs, attempt_ok ht]
    exact .ok h
  | error h =>
    rw [attempt_error hs, attempt_error ht]
    exact .ok h

theorem Alike.rescue (hw : Alike w v) : Alike (rescue w) (rescue v) := by
  intro s t hst
  have h := hw s t hst
  generalize hs : w s = r, ht : v t = r' at h
  cases h with
  | ok h =>
    rw [rescue_ok hs, rescue_ok ht]
    exact .ok h
  | @error f _ _ h =>
    rcases hf : f.isInterrupt with _ | _
    · rw [rescue_error hs hf, rescue_error ht hf]
      exact .ok h
    · rw [rescue_interrupt hs hf, rescue_interrupt ht hf]
      exact .error h

theorem Alike.orStore (hw : Alike w v) {k k' : StoreError → Work α}
    (hk : ∀ e, Alike (k e) (k' e)) : Alike (w.orStore k) (v.orStore k') := by
  intro s t hst
  have h := hw s t hst
  generalize hs : w s = r, ht : v t = r' at h
  cases h with
  | ok h =>
    rw [orStore_ok hs, orStore_ok ht]
    exact .ok h
  | @error f _ _ h =>
    rcases hf : f.store? with _ | e
    · rw [orStore_passed hs hf, orStore_passed ht hf]
      exact .error h
    · obtain rfl := Failure.eq_store hf
      rw [orStore_refused hs, orStore_refused ht]
      exact hk e _ _ h

/-! ## Reverting -/

theorem alike_routine (t : Ticket) (r : Routine) : Alike (r.run t) (r.run t) := by
  induction r with
  | done => exact alike_pure ()
  | fail f => exact alike_throw f
  | send c next ih => exact (alike_onHandle _).attempt.bind fun answer => ih answer
  | commit next ih => exact (alike_onHandle _).attempt.bind fun answer => ih answer
  | rollback next ih => exact (alike_onHandle _).attempt.bind fun answer => ih answer

theorem alike_openFor (v : String) : Alike (Migration.openFor v) (Migration.openFor v) :=
  (alike_onHandle _).orStore fun _ => (alike_report _ _).bind fun _ => alike_throw _

theorem alike_commitFor (v : String) (t : Ticket) :
    Alike (Migration.commitFor v t) (Migration.commitFor v t) :=
  (alike_onHandle _).orStore fun _ => (alike_report _ _).bind fun _ => alike_throw _

theorem alike_giveUp (v : String) (t : Ticket) :
    Alike (Migration.giveUp v t) (Migration.giveUp v t) :=
  (alike_onHandle _).orStore fun _ => alike_report _ _

theorem alike_runRoutine (m : Migration) (o : Operation) (step : MigrationStep) (t : Ticket)
    (r : Routine) : Alike (m.runRoutine o step t r) (m.runRoutine o step t r) := by
  unfold Migration.runRoutine
  refine (alike_noteCall _ _ _).bind fun _ => (alike_routine t r).rescue.bind fun answer => ?_
  rcases answer with f | _
  · exact (alike_giveUp _ t).bind fun _ => (alike_reportOf _ _).bind fun _ => alike_throw _
  · exact alike_pure ()

theorem alike_keepLedger (v : String) (step : MigrationStep) (t : Ticket) {w : Work Unit}
    (hw : Alike w w) :
    Alike (Migration.keepLedger v step t w) (Migration.keepLedger v step t w) := by
  unfold Migration.keepLedger
  refine hw.attempt.bind fun answer => ?_
  rcases answer with f | _
  · dsimp only
    split
    · exact (alike_giveUp _ t).bind fun _ => (alike_report _ _).bind fun _ => alike_throw _
    · exact alike_throw _
  · exact alike_pure ()

theorem alike_send (t : Ticket) (st : Statement) : Alike (Ledger.send t st) (Ledger.send t st) := by
  unfold Ledger.send execute
  exact alike_onHandle _

theorem alike_delete (l : Ledger) (t : Ticket) (v : String) :
    Alike (l.delete t v) (l.delete t v) := by
  unfold Ledger.delete
  refine ((alike_send t _).orStore fun _ => alike_throw _).bind fun removed => ?_
  split
  · exact alike_throw _
  · exact alike_pure ()

theorem alike_revert (l : Ledger) (m : Migration) : Alike (m.revert l) (m.revert l) :=
  alike_now.bind fun _ => (alike_report _ _).bind fun _ => (alike_openFor _).bind fun t =>
    (alike_runRoutine m _ _ t _).bind fun _ =>
      (alike_keepLedger _ _ t (alike_delete l t _)).bind fun _ =>
        (alike_commitFor _ t).bind fun _ => alike_now.bind fun _ =>
          (alike_report _ _).bind fun _ => alike_pure _

theorem alike_revertAll (m : Migrator) (rows : List LedgerRow) :
    Alike (m.revertAll rows) (m.revertAll rows) := by
  induction rows with
  | nil => exact alike_pure []
  | cons r rest ih =>
    unfold Migrator.revertAll
    split
    · exact (alike_report _ _).bind fun _ => alike_throw _
    · exact (alike_revert _ _).bind fun _ => ih.bind fun _ => alike_pure _

/-- What a rollback does with the rows that it has read is up to the rows alone: how many were
asked for is only reported. -/
theorem alike_rollBackOn (m : Migrator) (count : RollbackCount) (rows : List LedgerRow) :
    Alike (m.rollBackOn count rows) (m.rollBackOn .all rows) := by
  unfold Migrator.rollBackOn
  split
  · exact (alike_report _ _).bind fun _ => alike_pure []
  · have hrest := (alike_revertAll m rows).bind fun done =>
      (alike_report (.allReverted done.length) (.allReverted done.length)).bind fun _ =>
        alike_pure done
    cases count with
    | all => exact hrest
    | exactly n =>
      dsimp only
      split
      · exact hrest.after_report _
      · exact hrest

end Work
end SchemaLedger
