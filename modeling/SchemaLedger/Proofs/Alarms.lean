-- Records of errors. Each is about the unit that failed and holds its name. Work is accountable if,
-- under faults of the store, it records errors just when it raises a failure that is about a unit,
-- and all of them are about that unit; this goes from one piece of work to the next. A failure
-- without a text is no failure about a unit when it is raised, and only what its rollback was
-- refused with is recorded.
import SchemaLedger.Proofs.Wrapping

namespace SchemaLedger

/-! ## Records of errors -/

/-- The unit that an event is about as the one that failed. -/
def Event.failing? : Event → Option String
  | .migrationFailed v _ _ | .notRegistered v => some v
  | .seederFailed n _ _ => some n
  | _ => none

theorem MigrationStep.infix_failureText (step : MigrationStep) (v : String) :
    v.toList <:+: (step.failureText v).toList := by
  unfold failureText
  cases step <;> rw [String.toList_append] <;> exact (List.suffix_append _ _).isInfix

theorem SeederStep.infix_failureText (step : SeederStep) (n : String) :
    n.toList <:+: (step.failureText n).toList := by
  unfold failureText
  cases step with
  | run =>
    rw [String.toList_append, String.toList_append]
    exact List.infix_append _ _ _
  | _ =>
    rw [String.toList_append]
    exact (List.suffix_append _ _).isInfix

/-- Such an event is an error, and its text holds the name of the unit. -/
theorem Event.error_of_failing? {e : Event} {u : String} (h : e.failing? = some u) :
    e.level = .error ∧ u.toList <:+: e.text.toList := by
  have hfront {a b c : String} (h : u.toList <:+: a.toList) :
      u.toList <:+: (a ++ b ++ c).toList := by
    rw [String.toList_append, String.toList_append, List.append_assoc]
    exact h.trans (List.prefix_append _ _).isInfix
  cases e with
  | migrationFailed v step cause =>
    obtain rfl := Option.some.inj h
    exact ⟨rfl, hfront (step.infix_failureText v)⟩
  | seederFailed n step cause =>
    obtain rfl := Option.some.inj h
    exact ⟨rfl, hfront (step.infix_failureText n)⟩
  | notRegistered v =>
    obtain rfl := Option.some.inj h
    have htext : (notRegistered v).text =
        "Cannot roll back " ++ v ++ ": migration is not registered" := rfl
    rw [htext, String.toList_append, String.toList_append]
    exact ⟨rfl, List.infix_append _ _ _⟩
  | _ => cases h

/-- The unit whose transaction could not be rolled back, if an event says that. -/
def Event.unclosed? : Event → Option String
  | .migrationFailed v .rollback _ => some v
  | .seederFailed n .rollback _ => some n
  | _ => none

theorem Event.failing?_of_unclosed? {e : Event} {u : String} (h : e.unclosed? = some u) :
    e.failing? = some u := by
  cases e with
  | migrationFailed v step cause =>
    cases step with
    | rollback => exact h
    | _ => cases h
  | seederFailed n step cause =>
    cases step with
    | rollback => exact h
    | _ => cases h
  | _ => cases h

/-- The records of errors. -/
def Session.alarms (s : Session) : List Event := s.events.filter fun e => e.level = .error

/-- Records of errors are all about `unit`, and there are some just if there is one. -/
structure Concern (unit : Option String) (records : List Event) : Prop where
  about : ∀ e ∈ records, e.failing? = unit
  some_iff : records ≠ [] ↔ unit ≠ none

/-- The unit that the failure of some work is about. -/
def blamed {α : Type} : EStateM.Result Failure Session α → Option String
  | .ok _ _ => none
  | .error f _ => f.unit?

theorem Concern.nothing : Concern none [] :=
  ⟨fun _ h => absurd h List.not_mem_nil, by simp⟩

theorem Concern.eq_nil {records : List Event} (h : Concern none records) : records = [] := by
  by_cases hnil : records = []
  · exact hnil
  · exact absurd rfl (h.some_iff.mp hnil)

theorem blamed_eq_some {α : Type} {r : EStateM.Result Failure Session α} {v : String} :
    blamed r = some v ↔ ∃ f s, r = .error f s ∧ f.unit? = some v := by
  cases r with
  | ok a s => simp [blamed]
  | error f s =>
    constructor
    · exact fun h => ⟨f, s, rfl, h⟩
    · rintro ⟨f', s', h, hv⟩
      cases h
      exact hv

/-- Just the one unit is spoken of as the one that failed. -/
theorem Concern.failing_iff {u n : String} {records : List Event} (h : Concern (some u) records) :
    (∃ e ∈ records, e.failing? = some n) ↔ n = u := by
  constructor
  · rintro ⟨e, he, hn⟩
    rw [h.about e he] at hn
    exact (Option.some.inj hn).symm
  · rintro rfl
    obtain ⟨e, he⟩ := List.exists_mem_of_ne_nil _ (h.some_iff.mpr (by simp))
    exact ⟨e, he, h.about e he⟩

/-- What records of errors tell of what some work came to: they are about the unit that it raises a
failure about, and about none if there is none. Or else a unit's failure had no text, `U` says of
which one what is raised in its place, and that the transaction could not be rolled back is all
that is recorded. -/
inductive Tells {α : Type} (U : String → Failure → Prop) (r : EStateM.Result Failure Session α)
    (records : List Event) : Prop
  | concern : Concern (blamed r) records → Tells U r records
  | untold {u : String} {f : Failure} {s : Session} :
    r = .error f s → U u f → f.unit? = none → (∀ e ∈ records, e.unclosed? = some u) →
    Tells U r records

theorem Tells.nothing {α : Type} {U : String → Failure → Prop}
    {r : EStateM.Result Failure Session α} (h : blamed r = none) : Tells U r [] :=
  .concern (h ▸ .nothing)

/-- Work that returns has recorded no errors. -/
theorem Tells.eq_nil {α : Type} {U : String → Failure → Prop} {a : α} {s : Session}
    {records : List Event} (h : Tells U (.ok a s) records) : records = [] := by
  rcases h with h | ⟨h, _⟩
  · exact h.eq_nil
  · cases h

/-- What follows a failure does not change what is told of it. -/
theorem Tells.error {α β : Type} {U : String → Failure → Prop} {f : Failure} {s : Session}
    {records : List Event} (h : Tells U (.error f s : EStateM.Result Failure Session α) records) :
    Tells U (.error f s : EStateM.Result Failure Session β) records := by
  rcases h with h | ⟨h, hu, hunit, hrecords⟩
  · exact .concern h
  · cases h
    exact .untold rfl hu hunit hrecords

namespace Work

variable {α β : Type} {readings : Nat → Int} {U : String → Failure → Prop} {R : Failure → Prop}
  {w : Work α} {s s' : Session} {a : α} {f : Failure} {e : Event} {u : String}

/-! ## Work without records of errors -/

theorem alarms_report (e : Event) (s : Session) :
    (Session.after (report e s)).alarms = s.alarms ++ if e.level = .error then [e] else [] := by
  rw [report_ok]
  simp only [Session.after, Session.alarms, List.filter_append]
  split
  next h => rw [List.filter_cons_of_pos (by simpa using h), List.filter_nil]
  next h => rw [List.filter_cons_of_neg (by simpa using h), List.filter_nil]

theorem report_keeps_alarms (e : Event) (h : e.level ≠ .error := by simp [Event.level]) :
    Keeps Session.alarms (report e) := by
  intro s
  rw [alarms_report, if_neg h, List.append_nil]

theorem onHandle_keeps_alarms (call : Handle → Except Failure α × Handle) :
    Keeps Session.alarms (onHandle call) := by
  intro s
  rw [onHandle_after]
  rfl

theorem now_keeps_alarms : Keeps Session.alarms now := fun _ => rfl

theorem noteCall_keeps_alarms (o : Operation) (u : String) (form : Form) :
    Keeps Session.alarms (noteCall o u form) := fun _ => rfl

theorem routine_keeps_alarms (t : Ticket) (r : Routine) : Keeps Session.alarms (r.run t) := by
  induction r with
  | done => exact keeps_pure ()
  | fail f => exact keeps_throw f
  | send c next ih => exact (onHandle_keeps_alarms _).attempt.bind ih
  | commit next ih => exact (onHandle_keeps_alarms _).attempt.bind ih
  | rollback next ih => exact (onHandle_keeps_alarms _).attempt.bind ih

theorem report_obeys (e : Event) : Obeys (Session.Steady readings) R (report e) := fun _ hs =>
  ⟨⟨hs.faults, hs.clock⟩, fun _ _ he => nomatch he⟩

theorem now_obeys : Obeys (Session.Steady readings) R now := fun _ hs =>
  ⟨⟨hs.faults, hs.clock⟩, fun _ _ he => nomatch he⟩

theorem noteCall_obeys (o : Operation) (u : String) (form : Form) :
    Obeys (Session.Steady readings) R (noteCall o u form) := fun _ hs =>
  ⟨⟨hs.faults, hs.clock⟩, fun _ _ he => nomatch he⟩

/-! ## Accountable work -/

/-- Under faults of the store, the errors that some work records tell of what it came to. -/
def Accountable (readings : Nat → Int) (U : String → Failure → Prop) (w : Work α) : Prop :=
  ∀ s, s.Steady readings → (Session.after (w s)).Steady readings ∧
    ∃ records, (Session.after (w s)).alarms = s.alarms ++ records ∧ Tells U (w s) records

/-- Work that records no errors is accountable if its failures are about no unit. -/
theorem accountable_of_keeps (hkeeps : Keeps Session.alarms w)
    (hw : Obeys (Session.Steady readings) (fun f => f.unit? = none) w) :
    Accountable readings U w := by
  intro s hs
  obtain ⟨hsteady, hraised⟩ := hw s hs
  refine ⟨hsteady, [], by rw [hkeeps s, List.append_nil], .nothing ?_⟩
  rcases h : w s with ⟨a, s'⟩ | ⟨f, s'⟩
  · rfl
  · exact hraised f s' h

theorem accountable_pure (a : α) : Accountable readings U (pure a : Work α) :=
  accountable_of_keeps (keeps_pure a) (obeys_pure a)

theorem accountable_throw (h : f.unit? = none) : Accountable readings U (throw f : Work α) :=
  accountable_of_keeps (keeps_throw f) (obeys_throw h)

theorem accountable_report (e : Event) (h : e.level ≠ .error := by simp [Event.level]) :
    Accountable readings U (report e) :=
  accountable_of_keeps (report_keeps_alarms e h) (report_obeys e)

theorem accountable_now : Accountable readings U now :=
  accountable_of_keeps now_keeps_alarms now_obeys

theorem accountable_noteCall (o : Operation) (u : String) (form : Form) :
    Accountable readings U (noteCall o u form) :=
  accountable_of_keeps (noteCall_keeps_alarms o u form) (noteCall_obeys o u form)

/-- What returns has recorded no errors, so what follows accounts for all of them. -/
theorem Accountable.bind (hw : Accountable readings U w) {k : α → Work β}
    (hk : ∀ a, Accountable readings U (k a)) : Accountable readings U (w >>= k) := by
  intro s hs
  obtain ⟨hsteady, records, hrecords, htells⟩ := hw s hs
  rcases h : w s with ⟨a, s₁⟩ | ⟨f, s₁⟩
  · rw [bind_ok h]
    rw [h] at hsteady hrecords htells
    obtain rfl := htells.eq_nil
    rw [List.append_nil] at hrecords
    obtain ⟨hsteady', later, hlater, htells'⟩ := hk a s₁ hsteady
    exact ⟨hsteady', later, hlater.trans (by rw [← hrecords]; rfl), htells'⟩
  · rw [bind_error h]
    rw [h] at hsteady hrecords htells
    exact ⟨hsteady, records, hrecords, htells.error⟩

/-- Work that records no errors may raise what it likes if its answer is taken up. -/
theorem Accountable.answer (hkeeps : Keeps Session.alarms w)
    (hw : Obeys (Session.Steady readings) R w) {k : Except Failure α → Work β}
    (hok : ∀ a, Accountable readings U (k (.ok a)))
    (herror : ∀ f, R f → Accountable readings U (k (.error f))) :
    Accountable readings U (attempt w >>= k) := by
  intro s hs
  rcases h : w s with ⟨a, s₁⟩ | ⟨f, s₁⟩
  · rw [bind_ok (attempt_ok h)]
    rw [← hkeeps.ok h]
    exact hok a s₁ (hw.ok hs h)
  · rw [bind_ok (attempt_error h)]
    rw [← hkeeps.error h]
    obtain ⟨hsteady, hraised⟩ := hw.error hs h
    exact herror f hraised s₁ hsteady

/-- A request to stop passes unrecorded, and is about no unit. -/
theorem Accountable.rescued (hkeeps : Keeps Session.alarms w)
    (hw : Obeys (Session.Steady readings) R w) {k : Except Failure α → Work β}
    (hok : ∀ a, Accountable readings U (k (.ok a)))
    (herror : ∀ f, R f → f.isInterrupt = false → Accountable readings U (k (.error f))) :
    Accountable readings U (rescue w >>= k) := by
  intro s hs
  rcases h : w s with ⟨a, s₁⟩ | ⟨f, s₁⟩
  · rw [bind_ok (rescue_ok h)]
    rw [← hkeeps.ok h]
    exact hok a s₁ (hw.ok hs h)
  · obtain ⟨hsteady, hraised⟩ := hw.error hs h
    rcases hint : f.isInterrupt with _ | _
    · rw [bind_ok (rescue_error h hint)]
      rw [← hkeeps.error h]
      exact herror f hraised hint s₁ hsteady
    · rw [bind_error (rescue_interrupt h hint)]
      have hsame : s₁.alarms = s.alarms := hkeeps.error h
      refine ⟨hsteady, [], hsame.trans (List.append_nil _).symm, .nothing ?_⟩
      cases f with
      | interrupt => rfl
      | _ => cases hint

/-- Errors of the store that are taken up. -/
theorem Accountable.orStore (hkeeps : Keeps Session.alarms w)
    (hw : Obeys (Session.Steady readings) (fun f => ∃ e, f = .store e) w)
    {k : StoreError → Work α} (hk : ∀ e, Accountable readings U (k e)) :
    Accountable readings U (w.orStore k) := by
  intro s hs
  rcases h : w s with ⟨a, s₁⟩ | ⟨f, s₁⟩
  · rw [orStore_ok h, ← hkeeps.ok h]
    exact accountable_pure a s₁ (hw.ok hs h)
  · obtain ⟨hsteady, e, rfl⟩ := hw.error hs h
    rw [orStore_refused h, ← hkeeps.error h]
    exact hk e s₁ hsteady

/-! ## Failures of a unit -/

/-- Some work returns, and it records no errors but that `u`'s transaction could not be rolled
back. -/
def Closes (readings : Nat → Int) (u : String) (w : Work Unit) : Prop :=
  ∀ s, s.Steady readings → ∃ s', w s = .ok () s' ∧ s'.Steady readings ∧
    ∃ records, s'.alarms = s.alarms ++ records ∧ ∀ e ∈ records, e.unclosed? = some u

/-- A rollback that is refused is recorded, and nothing else comes of it. -/
theorem giveUp_closes {refused : StoreError → Event} (h : ∀ e, (refused e).unclosed? = some u)
    (t : Ticket) : Closes readings u ((rollback t).orStore fun e => report (refused e)) := by
  intro s hs
  have hrollback := (Session.steady_discipline readings .empty).rollback t
  rcases hroll : rollback t s with ⟨⟨⟩, s₁⟩ | ⟨f, s₁⟩
  · refine ⟨s₁, orStore_ok hroll _, hrollback.ok hs hroll, [], ?_, fun e he => ?_⟩
    · rw [(onHandle_keeps_alarms _).ok hroll, List.append_nil]
    · exact absurd he List.not_mem_nil
  · obtain ⟨hsteady, e, rfl⟩ := hrollback.error hs hroll
    have hrecord := alarms_report (refused e) s₁
    rw [if_pos (Event.error_of_failing? (Event.failing?_of_unclosed? (h e))).1] at hrecord
    rw [orStore_refused hroll, ← (onHandle_keeps_alarms _).error hroll]
    refine ⟨_, report_ok (refused e) s₁, ⟨hsteady.faults, hsteady.clock⟩, [refused e], hrecord, ?_⟩
    intro e' he'
    rw [List.mem_singleton.mp he']
    exact h e

/-- A unit's failure is recorded before it is raised, whatever was recorded of it before. -/
theorem accountable_failure {x : Work Unit} (hx : Closes readings u x) (he : e.failing? = some u)
    (hf : f.unit? = some u) :
    Accountable readings U (x >>= fun _ => report e >>= fun _ => (throw f : Work α)) := by
  intro s hs
  obtain ⟨s₁, hok, hsteady, before, hbefore, habout⟩ := hx s hs
  have hrecord := alarms_report e s₁
  rw [if_pos (Event.error_of_failing? he).1, hbefore, List.append_assoc] at hrecord
  rw [bind_ok hok, bind_ok (report_ok e s₁)]
  refine ⟨⟨hsteady.faults, hsteady.clock⟩, before ++ [e], hrecord, .concern ?_⟩
  have hblamed : blamed ((throw f : Work α) { s₁ with events := s₁.events ++ [e] }) = some u := hf
  rw [hblamed]
  refine ⟨fun e' he' => ?_, by simp⟩
  rcases List.mem_append.mp he' with hmem | hmem
  · exact Event.failing?_of_unclosed? (habout e' hmem)
  · rw [List.mem_singleton.mp hmem]
    exact he

theorem accountable_raise (he : e.failing? = some u) (hf : f.unit? = some u) :
    Accountable readings U (report e >>= fun _ => (throw f : Work α)) := by
  have hx : Closes readings u (pure ()) := fun s hs =>
    ⟨s, rfl, hs, [], (List.append_nil _).symm, fun e he => absurd he List.not_mem_nil⟩
  have hraise := accountable_failure (U := U) (α := α) hx he hf
  rwa [pure_bind] at hraise

/-- A failure that has a text is recorded and raised as the unit's, one that has none is neither. -/
theorem accountable_ofUnit {x : Work Unit} (hx : Closes readings u x) (he : e.failing? = some u)
    {o : Operation} (hu : ∀ kind message, f = .untold kind message → U u (.raised kind message)) :
    Accountable readings U
      (x >>= fun _ => reportOf f e >>= fun _ => (throw (.ofUnit u o f) : Work α)) := by
  cases f with
  | untold kind message =>
    intro s hs
    obtain ⟨s₁, hok, hsteady, records, hrecords, habout⟩ := hx s hs
    rw [bind_ok hok]
    exact ⟨hsteady, records, hrecords, .untold rfl (hu kind message rfl) rfl habout⟩
  | _ => exact accountable_failure hx he rfl

end Work
end SchemaLedger
