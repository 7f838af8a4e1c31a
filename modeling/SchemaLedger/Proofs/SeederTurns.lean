-- The turns of a run of seeders. Each seeder has one turn, in running order, and starts it
-- in the session that the turn before left. A turn that is carried through leaves what its
-- seeder did, any other leaves the store as it was; a run that stops at the first failure and
-- one that goes on take the same turns up to there. Where a turn is broken off, every run ends.
import SchemaLedger.Proofs.SeederAttempt

namespace SchemaLedger

/-- The failure of one seeder's run: it could not start, or it failed or could not be committed. -/
def Failure.OfRun (name : String) (f : Failure) : Prop :=
  (∃ cause, f = .execution name .run cause) ∨ ∃ e, f = .cannotStart name e

theorem Failure.OfRun.isEngine {name : String} {f : Failure} (h : f.OfRun name) :
    f.isEngine = true := by
  rcases h with ⟨cause, rfl⟩ | ⟨e, rfl⟩ <;> rfl

/-- What is raised where a failure is taken up and told, if that is not a failure of the engine
about it: a request to stop as it is, and in place of a failure without a text the one that
asking for the text raises. -/
def Failure.passing? : Failure → Option Failure
  | .interrupt kind message => some (.interrupt kind message)
  | .untold kind message => some (.raised kind message)
  | _ => none

namespace Failure

variable {f g : Failure}

theorem passing?_of_isInterrupt (h : f.isInterrupt = true) : f.passing? = some f := by
  cases f with
  | interrupt => rfl
  | _ => cases h

theorem passing?_of_isPlain (h : f.isPlain = true) : f.passing? = none := by
  cases f with
  | interrupt => cases h
  | untold => cases h
  | _ => rfl

theorem not_isEngine_of_passing? (h : f.passing? = some g) : g.isEngine = false := by
  cases f with
  | interrupt =>
    obtain rfl := Option.some.inj h
    rfl
  | untold =>
    obtain rfl := Option.some.inj h
    rfl
  | _ => cases h

/-- What a seeder's failure that is no request to stop is raised as. -/
theorem ofUnit_run (name : String) (h : f.isInterrupt = false) :
    (f.passing? = none ∧ (ofUnit name .run f).OfRun name) ∨
      ∃ g, f.passing? = some g ∧ ofUnit name .run f = g ∧ g.isInterrupt = false := by
  cases f with
  | interrupt => cases h
  | untold kind message => exact .inr ⟨_, rfl, rfl, rfl⟩
  | _ => exact .inl ⟨rfl, .inl ⟨_, rfl⟩⟩

end Failure

/-- The engine's commands call no unit, and a routine sends nothing else. -/
theorem Routine.run_keeps_calls (t : Ticket) (r : Routine) : (r.run t).Keeps Session.calls := by
  induction r with
  | done => exact Work.keeps_pure ()
  | fail f => exact Work.keeps_throw f
  | send c next ih => exact (Work.onHandle_keeps_calls _).attempt.bind ih
  | commit next ih => exact (Work.onHandle_keeps_calls _).attempt.bind ih
  | rollback next ih => exact (Work.onHandle_keeps_calls _).attempt.bind ih

namespace Seeding

/-! ## One turn -/

/-- One seeder's turn in a run, with the session in which it starts. -/
structure Turn where
  seeder : Seeder
  start : Session

namespace Turn

variable {t : Turn}

/-- The seeder gets a transaction. -/
def opens (t : Turn) : Bool := t.start.handle.begin.1.isOk

/-- What the seeder's own statements make of tables, under the faults that strike them in
this turn. -/
def effect (t : Turn) (ts : Tables) : Effect :=
  t.seeder.run.effect (Handle.faultAt t.start.handle.plan .execute) t.start.handle.counts.execute ts

/-- The tables after the seeder's own statements. -/
def change (t : Turn) (ts : Tables) : Tables := (t.effect ts).tables

/-- The turn is carried through: the seeder gets a transaction, it succeeds, and the commit
is not refused. -/
def passes (t : Turn) : Bool :=
  t.opens && (t.effect t.start.store).result.isOk && (t.start.handle.planned? .commit).isNone

/-- What breaks the turn off, and with it the run: what the seeder raises, once it has got its
transaction, and that is not taken up or has no text. -/
def breaksOff? (t : Turn) : Option Failure :=
  match t.opens, (t.effect t.start.store).result with
  | true, .error f => f.passing?
  | _, _ => none

/-- The session in which the next turn starts. A failure that the run goes on after is reported. -/
def next (t : Turn) : Session :=
  match runOne t.seeder t.start with
  | .ok _ s => s
  | .error f s => s.saying [.seederSkipped t.seeder.name f]

/-- The seeder's run raises nothing. -/
def Returns (t : Turn) : Prop := runOne t.seeder t.start = .ok () t.next

/-- The calls of units in a turn. -/
def calls (t : Turn) : List UnitCall := if t.opens then [t.seeder.call] else []

theorem calls_sublist (t : Turn) : t.calls.Sublist [t.seeder.call] := by
  unfold calls
  split
  · exact .refl _
  · exact List.nil_sublist _

theorem opens_iff (hi : t.start.handle.Idle) :
    t.opens = true ↔ t.start.handle.beginRefusal? = none := by
  unfold opens
  rcases hb : t.start.handle.beginRefusal? with _ | f
  · obtain ⟨_, _, hbegin, _⟩ := Handle.begin_opened hi hb
    simp [hbegin, Except.isOk, Except.toBool]
  · obtain ⟨_, hbegin, _⟩ := Handle.begin_refused hi hb
    simp [hbegin, Except.isOk, Except.toBool]

theorem passes_iff (hi : t.start.handle.Idle) :
    t.passes = true ↔ t.start.handle.beginRefusal? = none ∧
      (t.effect t.start.store).result = .ok () ∧ t.start.handle.planned? .commit = none := by
  unfold passes
  rw [Bool.and_eq_true, Bool.and_eq_true, opens_iff hi, Option.isNone_iff_eq_none, and_assoc]
  rcases (t.effect t.start.store).result with f | _ <;> simp [Except.isOk, Except.toBool]

/-- What breaks a turn off comes from what its seeder raises in its transaction. -/
theorem breaksOff?_of_error (hb : t.opens = true) {f : Failure}
    (hres : (t.effect t.start.store).result = .error f) : t.breaksOff? = f.passing? := by
  unfold breaksOff?
  rw [hb, hres]

theorem breaksOff?_of_ok (hres : (t.effect t.start.store).result = .ok ()) :
    t.breaksOff? = none := by
  unfold breaksOff?
  rw [hres]
  cases t.opens <;> rfl

theorem breaksOff?_of_passes (h : t.passes = true) : t.breaksOff? = none := by
  unfold passes at h
  rw [Bool.and_eq_true, Bool.and_eq_true] at h
  obtain ⟨⟨_, hok⟩, _⟩ := h
  rcases hres : (t.effect t.start.store).result with f | ⟨⟩
  · rw [hres] at hok
    cases hok
  · exact breaksOff?_of_ok hres

theorem passes_of_breaksOff? {g : Failure} (h : t.breaksOff? = some g) : t.passes = false := by
  rw [Bool.eq_false_iff]
  intro hpasses
  cases (breaksOff?_of_passes hpasses).symm.trans h

/-- Under faults of the store a plain seeder breaks nothing off. -/
theorem breaksOff?_of_plain (hp : Handle.StoreFaults t.start.handle.plan)
    (hx : t.seeder.run.Plain) : t.breaksOff? = none := by
  unfold breaksOff?
  split
  · rename_i hres
    exact Failure.passing?_of_isPlain (hx.of_effect hp hres)
  · rfl

/-- The run of a turn's seeder raises what breaks the turn off. The store is as it was, and the
transaction is closed but for a request to stop. -/
structure Broken (t : Turn) (g : Failure) (s' : Session) : Prop where
  raises : runOne t.seeder t.start = .error g s'
  passing : g.isEngine = false
  store : s'.store = t.start.store
  idle : s'.handle.Idle ↔ g.isInterrupt = false

/-- A request to stop breaks a turn off. -/
theorem broken_of_interrupted (hs : t.start.Between) (ho : t.seeder.run.LeavesOpen)
    (hb : t.start.handle.beginRefusal? = none) {f : Failure}
    (hres : (t.effect t.start.store).result = .error f) (hf : f.isInterrupt = true) :
    t.breaksOff? = some f ∧ ∃ s', t.Broken f s' := by
  obtain ⟨_, s', hrun, i, _⟩ := runOne_interrupted ⟨hs.idle, hb⟩ ho hres hf
  have hpassing := Failure.passing?_of_isInterrupt hf
  have hidle : s'.handle.Idle ↔ f.isInterrupt = false :=
    iff_of_false i.not_idle (ne_false_of_eq_true hf)
  exact ⟨(breaksOff?_of_error ((opens_iff hs.idle).mpr hb) hres).trans hpassing,
    s', hrun, Failure.not_isEngine_of_passing? hpassing, i.base, hidle⟩

/-- A turn that is attempted and fails is not carried through. It has its seeder's failure, or it
is broken off. -/
theorem not_passes_of_attempt (hs : t.start.Between) {e : Event} {f : Failure}
    {calls : List UnitCall} {events : List Event} {s' : Session}
    (hatt : t.seeder.Attempt (t.start.begun e) (.error f) calls events)
    (hrun : runOne t.seeder t.start = .error f s') (hleaves : t.start.Leaves t.start.store s') :
    t.passes = false ∧ ((t.breaksOff? = none ∧ f.OfRun t.seeder.name) ∨
      (t.breaksOff? = some f ∧ t.Broken f s')) := by
  cases hatt with
  | unopened hrefused =>
    have hshut : t.opens = false := by
      rw [Bool.eq_false_iff, Ne, opens_iff hs.idle]
      intro hb
      cases hb.symm.trans hrefused
    refine ⟨by simp [passes, hshut], .inl ⟨?_, .inr ⟨_, rfl⟩⟩⟩
    unfold breaksOff?
    rw [hshut]
  | @failed f _ hb hwhy hint _ =>
    have hopens : t.opens = true := (opens_iff hs.idle).mpr hb
    have hfails : t.passes = false := by
      rw [Bool.eq_false_iff, Ne, passes_iff hs.idle]
      rintro ⟨_, hok, hcommit⟩
      rcases hwhy with hres | ⟨_, hrefused⟩
      · cases hok.symm.trans hres
      · cases hcommit.symm.trans hrefused
    -- a refused commit breaks nothing off: it is an error of the store, which has a text
    have hbreaks : t.breaksOff? = f.passing? := by
      rcases hwhy with hres | ⟨hok, hrefused⟩
      · exact breaksOff?_of_error hopens hres
      · obtain ⟨e, rfl⟩ := hs.faults.of_faultAt hrefused
        exact breaksOff?_of_ok hok
    refine ⟨hfails, ?_⟩
    rcases Failure.ofUnit_run t.seeder.name hint with ⟨hnone, hof⟩ | ⟨g, hsome, hraised, hg⟩
    · exact .inl ⟨hbreaks.trans hnone, hof⟩
    · rw [hraised] at hrun ⊢
      exact .inr ⟨hbreaks.trans hsome, hrun, Failure.not_isEngine_of_passing? hsome,
        hleaves.store_eq, iff_of_true hleaves.settled.idle hg⟩

/-- A turn is carried through and its seeder's run returns; or the run raises the seeder's
failure, and the store is as it was; or the turn is broken off. -/
theorem step (hs : t.start.Between) (ho : t.seeder.run.LeavesOpen) :
    (t.passes = true ∧ t.Returns ∧ t.start.Leaves (t.change t.start.store) t.next) ∨
      (t.passes = false ∧ t.breaksOff? = none ∧
        ∃ f s', runOne t.seeder t.start = .error f s' ∧ f.OfRun t.seeder.name ∧
          t.next = s'.saying [.seederSkipped t.seeder.name f] ∧ t.start.Leaves t.start.store s') ∨
      t.passes = false ∧ ∃ g s', t.breaksOff? = some g ∧ t.Broken g s' := by
  by_cases hbroken : t.start.handle.beginRefusal? = none ∧ (t.seeder.effect t.start).Interrupted
  · obtain ⟨hb, f, hres, hf⟩ := hbroken
    obtain ⟨hbreaks, s', h⟩ := broken_of_interrupted hs ho hb hres hf
    exact .inr (.inr ⟨passes_of_breaksOff? hbreaks, f, s', hbreaks, h⟩)
  · rcases runOne_cases hs ho fun hb h => hbroken ⟨hb, h⟩ with
      ⟨f, calls, events, s', hatt, hrun, hreach⟩ | ⟨ms, s', hatt, hrun, hreach⟩
    · obtain ⟨hfails, ⟨hnone, hof⟩ | ⟨hsome, h⟩⟩ :=
        not_passes_of_attempt hs hatt hrun hreach.leaves
      · have hnext : t.next = s'.saying [.seederSkipped t.seeder.name f] := by
          simp only [next, hrun]
        exact .inr (.inl ⟨hfails, hnone, f, s', hrun, hof, hnext, hreach.leaves⟩)
      · exact .inr (.inr ⟨hfails, f, s', hsome, h⟩)
    · have hnext : t.next = s' := by simp only [next, hrun]
      refine .inl ⟨(passes_iff hs.idle).mpr ?_, ?_, ?_⟩
      · cases hatt with
        | done hb hres hc => exact ⟨hb, hres, hc⟩
      · unfold Returns
        rw [hnext]
        exact hrun
      · rw [hnext]
        exact hreach.leaves

/-- A turn that is not carried through has its seeder's failure, unless it is broken off. -/
theorem fails (hs : t.start.Between) (ho : t.seeder.run.LeavesOpen) (hb : t.breaksOff? = none)
    (h : t.passes = false) :
    ∃ f s', runOne t.seeder t.start = .error f s' ∧ f.OfRun t.seeder.name ∧
      t.next = s'.saying [.seederSkipped t.seeder.name f] ∧ t.start.Leaves t.start.store s' := by
  rcases t.step hs ho with ⟨hpass, _⟩ | ⟨_, _, hfails⟩ | ⟨_, g, _, hbreaks, _⟩
  · exact nomatch hpass.symm.trans h
  · exact hfails
  · exact nomatch hb.symm.trans hbreaks

theorem broken (hs : t.start.Between) (ho : t.seeder.run.LeavesOpen) {g : Failure}
    (hb : t.breaksOff? = some g) : ∃ s', t.Broken g s' := by
  rcases t.step hs ho with ⟨hpass, _⟩ | ⟨_, hnone, _⟩ | ⟨_, g', s', hsome, hbroken⟩
  · exact nomatch (breaksOff?_of_passes hpass).symm.trans hb
  · exact nomatch hnone.symm.trans hb
  · obtain rfl := Option.some.inj (hb.symm.trans hsome)
    exact ⟨s', hbroken⟩

theorem next_leaves (hs : t.start.Between) (ho : t.seeder.run.LeavesOpen)
    (hb : t.breaksOff? = none) :
    t.start.Leaves (if t.passes then t.change t.start.store else t.start.store) t.next := by
  rcases hpass : t.passes with _ | _
  · obtain ⟨f, s', _, _, hnext, hleaves⟩ := t.fails hs ho hb hpass
    rw [hnext]
    exact hleaves.saying _
  · rcases t.step hs ho with ⟨_, _, hleaves⟩ | ⟨hfails, _⟩ | ⟨hfails, _⟩
    · exact hleaves
    · exact nomatch hpass.symm.trans hfails
    · exact nomatch hpass.symm.trans hfails

theorem next_between (hs : t.start.Between) (ho : t.seeder.run.LeavesOpen)
    (hb : t.breaksOff? = none) : t.next.Between :=
  (t.next_leaves hs ho hb).between hs

/-! ### The calls of a turn -/

theorem body_calls (x : Seeder) (t : Ticket) (s : Session) :
    (Session.after (body x t s)).calls = s.calls ++ [x.call] := by
  have hkeeps : Work.Keeps Session.calls (x.run.run t >>= fun _ => Work.commit t) :=
    (x.run.run_keeps_calls t).bind fun _ => Work.onHandle_keeps_calls _
  exact hkeeps { s with calls := s.calls ++ [x.call] }

theorem settle_keeps_calls (x : Seeder) (t : Ticket) (start : Int) (answer : Except Failure Unit) :
    (settle x t start answer).Keeps Session.calls := by
  have hgive : (giveUp x.name t).Keeps Session.calls :=
    (Work.onHandle_keeps_calls _).orStore fun _ => Work.report_keeps_calls _
  cases answer with
  | error f =>
    exact hgive.bind fun _ => (Work.reportOf_keeps_calls f _).bind fun _ => Work.keeps_throw _
  | ok _ =>
    have hnow : Work.now.Keeps Session.calls := fun _ => rfl
    exact hnow.bind fun _ => Work.report_keeps_calls _

theorem openFor_keeps_calls (x : Seeder) : (openFor x).Keeps Session.calls :=
  (Work.onHandle_keeps_calls _).orStore fun _ =>
    (Work.report_keeps_calls _).bind fun _ => Work.keeps_throw _

theorem openFor_isOk (x : Seeder) (s : Session) :
    (s.handle.begin.1.isOk = true ∧ ∃ ticket s₁, openFor x s = .ok ticket s₁) ∨
      (s.handle.begin.1.isOk = false ∧ ∃ f s₁, openFor x s = .error f s₁) := by
  rcases hb : s.handle.begin with ⟨f | ticket, h'⟩
  · have hbegin : Work.begin s = .error f { s with handle := h' } := Work.onHandle_error hb
    refine .inr ⟨rfl, ?_⟩
    unfold openFor Work.orStore
    rw [hbegin]
    cases f <;> exact ⟨_, _, rfl⟩
  · exact .inl ⟨rfl, _, _, Work.orStore_ok (Work.onHandle_ok hb) _⟩

/-- The unit is called once, when its transaction is open, and not at all without one;
whatever the unit does, and whatever the handle answers. -/
theorem runOne_calls (t : Turn) :
    (Session.after (runOne t.seeder t.start)).calls = t.start.calls ++ t.calls := by
  obtain ⟨x, s⟩ := t
  rw [runOne_eq]
  -- What an attempt begins with leaves the handle and the calls.
  have hhandle : (s.begun (.seederRunning x.name)).handle = s.handle := rfl
  have hbegun : (s.begun (.seederRunning x.name)).calls = s.calls := rfl
  rcases openFor_isOk x (s.begun (.seederRunning x.name)) with
    ⟨hopen, ticket, s₁, hok⟩ | ⟨hopen, f, s₁, hfail⟩
  · rw [hhandle] at hopen
    have hcalls : (Turn.mk x s).calls = [x.call] := if_pos hopen
    have hkept : s₁.calls = s.calls := ((openFor_keeps_calls x).ok hok).trans hbegun
    have hbody := body_calls x ticket s₁
    rw [Work.bind_ok hok, hcalls, ← hkept, ← hbody]
    rcases hrun : body x ticket s₁ with ⟨_, s₂⟩ | ⟨f, s₂⟩
    · rw [Work.bind_ok (Work.rescue_ok hrun)]
      exact settle_keeps_calls x ticket _ _ s₂
    · rcases hf : f.isInterrupt with _ | _
      · rw [Work.bind_ok (Work.rescue_error hrun hf)]
        exact settle_keeps_calls x ticket _ _ s₂
      · rw [Work.bind_error (Work.rescue_interrupt hrun hf)]
  · rw [hhandle] at hopen
    have hcalls : (Turn.mk x s).calls = [] := if_neg (ne_true_of_eq_false hopen)
    rw [Work.bind_error hfail, hcalls, List.append_nil]
    exact ((openFor_keeps_calls x).error hfail).trans hbegun

theorem Returns.opens (h : t.Returns) : t.opens = true := by
  rcases openFor_isOk t.seeder (t.start.begun (.seederRunning t.seeder.name)) with
    ⟨hopen, _⟩ | ⟨_, f, s₁, hfail⟩
  · exact hopen
  · unfold Returns at h
    rw [runOne_eq, Work.bind_error hfail] at h
    cases h

theorem calls_of_breaksOff {g : Failure} (h : t.breaksOff? = some g) :
    t.calls = [t.seeder.call] := by
  unfold breaksOff? at h
  split at h
  · rename_i hopens _
    exact if_pos hopens
  · cases h

theorem opens_of_passes (h : t.passes = true) : t.opens = true := by
  unfold passes at h
  rw [Bool.and_eq_true, Bool.and_eq_true] at h
  exact h.1.1

theorem next_calls (t : Turn) : t.next.calls = t.start.calls ++ t.calls := by
  rw [← t.runOne_calls]
  unfold next
  rcases runOne t.seeder t.start with ⟨_, s'⟩ | ⟨f, s'⟩ <;> rfl

end Turn

/-! ## The turns of a run -/

/-- The turns that seeders take one after another from `s`, if no failure ends the run. -/
def turns : List Seeder → Session → List Turn
  | [], _ => []
  | x :: rest, s => ⟨x, s⟩ :: turns rest (Turn.mk x s).next

/-- The session when all of them have had their turn. -/
def afterTurns (order : List Seeder) (s : Session) : Session :=
  order.foldl (fun s x => (Turn.mk x s).next) s

/-- The calls of units in some turns. -/
def called (ts : List Turn) : List UnitCall := (ts.filter Turn.opens).map fun t => t.seeder.call

/-- The tables after the statements of those seeders alone whose turns were carried through. -/
def carried (ts : List Turn) (us : Tables) : Tables :=
  (ts.filter Turn.passes).foldl (fun us t => t.change us) us

/-- The names of the seeders in some turns. -/
def namesOf (ts : List Turn) : List String := ts.map fun t => t.seeder.name

variable {order before after : List Seeder} {s : Session} {x : Seeder} {report : SeedReport}

@[simp]
theorem map_seeder_turns (order : List Seeder) (s : Session) :
    (turns order s).map Turn.seeder = order := by
  induction order generalizing s with
  | nil => rfl
  | cons x rest ih => simp [turns, ih]

theorem namesOf_turns (order : List Seeder) (s : Session) :
    namesOf (turns order s) = order.map Seeder.name := by
  have h := congrArg (List.map Seeder.name) (map_seeder_turns order s)
  rwa [List.map_map] at h

theorem turns_append (before after : List Seeder) (s : Session) :
    turns (before ++ after) s = turns before s ++ turns after (afterTurns before s) := by
  induction before generalizing s with
  | nil => rfl
  | cons x rest ih => simp [turns, afterTurns, ih]

theorem called_cons (t : Turn) (ts : List Turn) : called (t :: ts) = t.calls ++ called ts := by
  unfold called Turn.calls
  rcases h : t.opens <;> simp [h]

theorem called_append (ts us : List Turn) : called (ts ++ us) = called ts ++ called us := by
  simp [called]

theorem called_sublist (order : List Seeder) (s : Session) :
    (called (turns order s)).Sublist (order.map Seeder.call) := by
  have h : (called (turns order s)).Sublist ((turns order s).map fun t => t.seeder.call) :=
    List.filter_sublist.map _
  have hcall := congrArg (List.map Seeder.call) (map_seeder_turns order s)
  rw [List.map_map] at hcall
  exact hcall ▸ h

theorem calls_afterTurns (order : List Seeder) (s : Session) :
    (afterTurns order s).calls = s.calls ++ called (turns order s) := by
  induction order generalizing s with
  | nil => exact (List.append_nil _).symm
  | cons x rest ih =>
    have hrest := ih (Turn.mk x s).next
    rw [Turn.next_calls, List.append_assoc] at hrest
    rw [turns, called_cons]
    exact hrest

/-- What all turns come to is what those that were carried through made of the store. -/
theorem afterTurns_leaves (hs : s.Between) (ho : ∀ x ∈ order, x.run.LeavesOpen)
    (hb : ∀ t ∈ turns order s, t.breaksOff? = none) :
    s.Leaves (carried (turns order s) s.store) (afterTurns order s) := by
  induction order generalizing s with
  | nil => exact hs.leaves
  | cons x rest ih =>
    obtain ⟨hbx, hbrest⟩ := List.forall_mem_cons.mp hb
    have hx : x.run.LeavesOpen := ho x List.mem_cons_self
    have hleaves := (Turn.mk x s).next_leaves hs hx hbx
    have hrest := ih (hleaves.between hs) (fun y hy => ho y (List.mem_cons_of_mem _ hy)) hbrest
    unfold carried at hrest ⊢
    rw [hleaves.store_eq] at hrest
    refine hleaves.trans ?_
    rcases hpass : (Turn.mk x s).passes with _ | _
    · rw [hpass] at hrest
      rw [turns, List.filter_cons_of_neg (by simp [hpass])]
      exact hrest
    · rw [hpass] at hrest
      rw [turns, List.filter_cons_of_pos hpass]
      exact hrest

/-- Either every turn has a property, or there is a first one that has not. -/
theorem all_or_first_not (p : Turn → Bool) (order : List Seeder) (s : Session) :
    (∀ t ∈ turns order s, p t = true) ∨
      ∃ before x after, order = before ++ x :: after ∧ (∀ t ∈ turns before s, p t = true) ∧
        p (Turn.mk x (afterTurns before s)) = false := by
  induction order generalizing s with
  | nil => exact .inl fun t ht => absurd ht List.not_mem_nil
  | cons x rest ih =>
    rcases hx : p (Turn.mk x s) with _ | _
    · exact .inr ⟨[], x, rest, rfl, fun t ht => absurd ht List.not_mem_nil, hx⟩
    · rcases ih (Turn.mk x s).next with hall | ⟨before, y, after, rfl, hall, hy⟩
      · exact .inl (List.forall_mem_cons.mpr ⟨hx, hall⟩)
      · exact .inr ⟨x :: before, y, after, rfl, List.forall_mem_cons.mpr ⟨hx, hall⟩, hy⟩

/-- Either no turn is broken off, or there is a first one that is. -/
theorem none_or_first_breaks_off (order : List Seeder) (s : Session) :
    (∀ t ∈ turns order s, t.breaksOff? = none) ∨
      ∃ before x after g, order = before ++ x :: after ∧
        (∀ t ∈ turns before s, t.breaksOff? = none) ∧
        (Turn.mk x (afterTurns before s)).breaksOff? = some g := by
  rcases all_or_first_not (·.breaksOff?.isNone) order s with
    hall | ⟨before, x, after, horder, hall, hx⟩
  · exact .inl fun t ht => Option.isNone_iff_eq_none.mp (hall t ht)
  · have hall' : ∀ t ∈ turns before s, t.breaksOff? = none :=
      fun t ht => Option.isNone_iff_eq_none.mp (hall t ht)
    rcases hg : (Turn.mk x (afterTurns before s)).breaksOff? with _ | g
    · simp [hg] at hx
    · exact .inr ⟨before, x, after, g, horder, hall', hg⟩

theorem none_breaks_off_of_passes (h : ∀ t ∈ turns order s, t.passes = true) :
    ∀ t ∈ turns order s, t.breaksOff? = none :=
  fun t ht => Turn.breaksOff?_of_passes (h t ht)

theorem called_of_opens (h : ∀ t ∈ turns order s, t.opens = true) :
    called (turns order s) = order.map Seeder.call := by
  have hcall := congrArg (List.map Seeder.call) (map_seeder_turns order s)
  rw [List.map_map] at hcall
  unfold called
  rw [List.filter_eq_self.mpr h]
  exact hcall

theorem called_of_passes (h : ∀ t ∈ turns order s, t.passes = true) :
    called (turns order s) = order.map Seeder.call :=
  called_of_opens fun t ht => Turn.opens_of_passes (h t ht)

/-- All calls, cut after those of the turns up to `x`. -/
theorem calls_afterTurns_cut (h : ∀ t ∈ turns before s, t.passes = true) (x : Seeder)
    (after : List Seeder) :
    (afterTurns (before ++ x :: after) s).calls =
      s.calls ++ (before.map Seeder.call ++ (Turn.mk x (afterTurns before s)).calls) ++
        called (turns after (Turn.mk x (afterTurns before s)).next) := by
  rw [calls_afterTurns, turns_append, called_append, called_of_passes h, turns, called_cons]
  simp only [List.append_assoc]

/-! ## Runs -/

theorem runEach_returned (failFast : Bool) (report : SeedReport) (h : (Turn.mk x s).Returns)
    (rest : List Seeder) :
    runEach failFast report (x :: rest) s =
      runEach failFast { report with executed := report.executed ++ [x.name] } rest
        (Turn.mk x s).next := by
  have hrun : runOne x s = .ok () (Turn.mk x s).next := h
  rw [runEach, Work.bind_ok (Work.attempt_ok hrun)]

theorem runEach_stopped {failFast : Bool} {f : Failure} {s' : Session}
    (h : runOne x s = .error f s') (hstop : (failFast || !f.isEngine) = true) (report : SeedReport)
    (rest : List Seeder) : runEach failFast report (x :: rest) s = .error f s' := by
  rw [runEach, Work.bind_ok (Work.attempt_error h)]
  simp only [hstop, if_true]
  rfl

theorem runEach_went_on {failFast : Bool} {f : Failure} {s' : Session}
    (h : runOne x s = .error f s') (hgo : (failFast || !f.isEngine) = false) (report : SeedReport)
    (rest : List Seeder) :
    runEach failFast report (x :: rest) s =
      runEach failFast { report with failed := report.failed ++ [x.name] } rest
        (Turn.mk x s).next := by
  have hnext : (Turn.mk x s).next = s'.saying [.seederSkipped x.name f] := by
    simp only [Turn.next, h]
  rw [runEach, Work.bind_ok (Work.attempt_error h), hnext]
  simp only [hgo, Bool.false_eq_true, if_false]
  rfl

/-- A seeder's failure ends a run, or the run goes on with the next turn. -/
theorem runEach_step (failFast : Bool) (report : SeedReport) (x : Seeder) (rest : List Seeder)
    (s : Session) :
    (∃ f s', runOne x s = .error f s' ∧
        runEach failFast report (x :: rest) s = .error f s') ∨
      ∃ report', runEach failFast report (x :: rest) s =
        runEach failFast report' rest (Turn.mk x s).next := by
  rcases hrun : runOne x s with ⟨_, s'⟩ | ⟨f, s'⟩
  · have hret : (Turn.mk x s).Returns := by simp only [Turn.Returns, Turn.next, hrun]
    exact .inr ⟨_, runEach_returned failFast report hret rest⟩
  · rcases hstop : (failFast || !f.isEngine) with _ | _
    · exact .inr ⟨_, runEach_went_on hrun hstop report rest⟩
    · exact .inl ⟨f, s', rfl, runEach_stopped hrun hstop report rest⟩

/-- Whatever seeders do and whatever the handle answers, a run calls some of them, each at most
once and in running order. -/
theorem runEach_calls (failFast : Bool) (report : SeedReport) (order : List Seeder) (s : Session) :
    ∃ later, (Session.after (runEach failFast report order s)).calls = s.calls ++ later ∧
      later.Sublist (order.map Seeder.call) := by
  induction order generalizing report s with
  | nil => exact ⟨[], (List.append_nil _).symm, .slnil⟩
  | cons x rest ih =>
    have hx := (Turn.mk x s).calls_sublist
    rcases runEach_step failFast report x rest s with ⟨f, s', hfail, hrun⟩ | ⟨report', hrun⟩
    · have hcalls := (Turn.mk x s).runOne_calls
      rw [hfail] at hcalls
      rw [hrun]
      exact ⟨_, hcalls, hx.trans (List.sublist_append_left [x.call] _)⟩
    · obtain ⟨later, hcalls, hsub⟩ := ih report' (Turn.mk x s).next
      rw [Turn.next_calls, List.append_assoc] at hcalls
      rw [hrun]
      exact ⟨_, hcalls, hx.append hsub⟩

/-- As long as nothing is raised, both kinds of runs take the same turns. -/
theorem runEach_append (failFast : Bool) (report : SeedReport) (after : List Seeder)
    (h : ∀ t ∈ turns before s, t.Returns) :
    runEach failFast report (before ++ after) s =
      runEach failFast { report with executed := report.executed ++ before.map Seeder.name } after
        (afterTurns before s) := by
  induction before generalizing s report with
  | nil => simp [afterTurns]
  | cons x rest ih =>
    obtain ⟨hx, hrest⟩ := List.forall_mem_cons.mp h
    rw [List.cons_append, runEach_returned failFast report hx, ih _ hrest]
    simp [afterTurns]

theorem returns_of_passes (hs : s.Between) (ho : ∀ x ∈ order, x.run.LeavesOpen)
    (h : ∀ t ∈ turns order s, t.passes = true) : ∀ t ∈ turns order s, t.Returns := by
  induction order generalizing s with
  | nil => exact fun t ht => absurd ht List.not_mem_nil
  | cons x rest ih =>
    obtain ⟨hpass, hrest⟩ := List.forall_mem_cons.mp h
    have hx : x.run.LeavesOpen := ho x List.mem_cons_self
    refine List.forall_mem_cons.mpr ⟨?_, ih ((Turn.mk x s).next_between hs hx
      (Turn.breaksOff?_of_passes hpass)) (fun y hy => ho y (List.mem_cons_of_mem _ hy)) hrest⟩
    rcases (Turn.mk x s).step hs hx with ⟨_, hret, _⟩ | ⟨hfails, _⟩ | ⟨hfails, _⟩
    · exact hret
    · exact nomatch hpass.symm.trans hfails
    · exact nomatch hpass.symm.trans hfails

/-- Where every turn is carried through, both kinds of runs return the same. -/
theorem runEach_all_pass (hs : s.Between) (ho : ∀ x ∈ order, x.run.LeavesOpen)
    (h : ∀ t ∈ turns order s, t.passes = true) (failFast : Bool) :
    runEach failFast {} order s =
      .ok { executed := order.map Seeder.name } (afterTurns order s) := by
  have hrun := runEach_append failFast {} [] (returns_of_passes hs ho h)
  rw [List.append_nil] at hrun
  exact hrun

/-- The first turn that is not carried through ends a run that stops. -/
theorem runEach_first_failure (hs : s.Between)
    (ho : ∀ y ∈ before ++ x :: after, y.run.LeavesOpen)
    (h : ∀ t ∈ turns before s, t.passes = true)
    (hx : (Turn.mk x (afterTurns before s)).passes = false)
    (hb : (Turn.mk x (afterTurns before s)).breaksOff? = none) :
    ∃ f s', f.OfRun x.name ∧ runEach true {} (before ++ x :: after) s = .error f s' ∧
      s'.calls =
        s.calls ++ (before.map Seeder.call ++ (Turn.mk x (afterTurns before s)).calls) ∧
      s.Leaves (carried (turns before s) s.store) s' := by
  have hbefore : ∀ y ∈ before, y.run.LeavesOpen := fun y hy => ho y (List.mem_append_left _ hy)
  have hleaves := afterTurns_leaves hs hbefore (none_breaks_off_of_passes h)
  obtain ⟨f, s', hrun, hf, _, hkept⟩ :=
    (Turn.mk x (afterTurns before s)).fails (hleaves.between hs) (ho x (by simp)) hb hx
  refine ⟨f, s', hf, ?_, ?_, ?_⟩
  · rw [runEach_append true {} _ (returns_of_passes hs hbefore h), runEach_stopped hrun rfl]
  · have hcalls := (Turn.mk x (afterTurns before s)).runOne_calls
    rw [hrun] at hcalls
    rw [← List.append_assoc, ← called_of_passes h, ← calls_afterTurns]
    exact hcalls
  · rw [← hleaves.store_eq]
    exact hleaves.trans hkept

/-- A run of seeders ends with `g`, which breaks off the turn of `x` after those of `before`. The
seeders up to `x` were called where they got their transactions, and what is carried through
before is all that the store holds. The transaction of `x` is closed but for a request to stop. -/
structure BrokenOff (before : List Seeder) (x : Seeder) (g : Failure) (s s' : Session) : Prop where
  breaks : (Turn.mk x (afterTurns before s)).breaksOff? = some g
  passing : g.isEngine = false
  calls : s'.calls = s.calls ++ called (turns before s) ++ [x.call]
  store : s'.store = carried (turns before s) s.store
  idle : s'.handle.Idle ↔ g.isInterrupt = false

/-- A turn that is broken off ends every run that comes to it. -/
theorem runEach_broken_off (hs : s.Between) (ho : ∀ y ∈ before ++ x :: after, y.run.LeavesOpen)
    (h : ∀ t ∈ turns before s, t.breaksOff? = none) {g : Failure}
    (hx : (Turn.mk x (afterTurns before s)).breaksOff? = some g) :
    ∃ s', BrokenOff before x g s s' ∧ ∀ failFast report,
      runEach failFast report (x :: after) (afterTurns before s) = .error g s' := by
  have hleaves := afterTurns_leaves hs (fun y hy => ho y (List.mem_append_left _ hy)) h
  obtain ⟨s', hbroken⟩ := (Turn.mk x (afterTurns before s)).broken (hleaves.between hs)
    (ho x (by simp)) hx
  refine ⟨s', ⟨hx, hbroken.passing, ?_, hbroken.store.trans hleaves.store_eq, hbroken.idle⟩,
    fun failFast report => runEach_stopped hbroken.raises (by simp [hbroken.passing]) report after⟩
  have hcalls := (Turn.mk x (afterTurns before s)).runOne_calls
  rw [hbroken.raises, Turn.calls_of_breaksOff hx] at hcalls
  rw [← calls_afterTurns]
  exact hcalls

/-- The report of some turns: each seeder by how its turn went. -/
def reportOf (ts : List Turn) : SeedReport :=
  { executed := namesOf (ts.filter Turn.passes), failed := namesOf (ts.filter fun t => !t.passes) }

/-- A run that goes on after failures takes every turn and adds it to its report. -/
theorem runEach_adds (hs : s.Between) (ho : ∀ x ∈ before, x.run.LeavesOpen)
    (hb : ∀ t ∈ turns before s, t.breaksOff? = none) (report : SeedReport) (after : List Seeder) :
    runEach false report (before ++ after) s =
      runEach false
        { executed := report.executed ++ (reportOf (turns before s)).executed,
          failed := report.failed ++ (reportOf (turns before s)).failed }
        after (afterTurns before s) := by
  induction before generalizing s report with
  | nil => simp [turns, reportOf, namesOf, afterTurns]
  | cons x rest ih =>
    obtain ⟨hbx, hbrest⟩ := List.forall_mem_cons.mp hb
    have hx : x.run.LeavesOpen := ho x List.mem_cons_self
    have hrest := fun report => ih ((Turn.mk x s).next_between hs hx hbx)
      (fun y hy => ho y (List.mem_cons_of_mem _ hy)) hbrest report
    rcases (Turn.mk x s).step hs hx with
      ⟨hpass, hret, _⟩ | ⟨hpass, _, f, s', hrun, hf, _, _⟩ | ⟨_, g, _, hbreaks, _⟩
    · rw [List.cons_append, runEach_returned false report hret, hrest]
      simp [turns, reportOf, afterTurns, namesOf, hpass]
    · rw [List.cons_append, runEach_went_on hrun (by simp [hf.isEngine]), hrest]
      simp [turns, reportOf, afterTurns, namesOf, hpass]
    · exact nomatch hbx.symm.trans hbreaks

theorem runEach_best_effort (hs : s.Between) (ho : ∀ x ∈ order, x.run.LeavesOpen)
    (hb : ∀ t ∈ turns order s, t.breaksOff? = none) :
    runEach false {} order s = .ok (reportOf (turns order s)) (afterTurns order s) := by
  have hadds := runEach_adds hs ho hb {} []
  rw [List.append_nil, List.nil_append, List.nil_append] at hadds
  exact hadds

end Seeding
end SchemaLedger
