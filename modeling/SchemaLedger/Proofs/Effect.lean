-- What a routine does, said on tables alone. Inside a transaction of the engine a
-- routine comes to exactly this, under every plan of faults; and a table that no
-- command of the routine names is as it was.
import SchemaLedger.Routine
import SchemaLedger.Proofs.StoreContract
import SchemaLedger.Proofs.Work

namespace SchemaLedger

/-! ## The effect of a routine -/

/-- The tables after something that gives new tables or fails and changes nothing. -/
def Tables.after (ts : Tables) : Except Failure Tables → Tables
  | .ok us => us
  | .error _ => ts

namespace Command

/-- The answer to a command that may be refused from outside. -/
def answer (c : Command) (refusal : Option Failure) (ts : Tables) : Except Failure Tables :=
  match refusal with
  | some f => .error f
  | none => c.run ts

theorem run_eq {c : Command} {ts us : Tables} (h : c.run ts = .ok us) :
    ∃ s k, c.read = .ok s ∧ s.run ts = .ok (k, us) := by
  unfold Command.run at h
  split at h
  · cases h
  · rename_i s hs
    unfold Statement.step at h
    rcases hr : s.run ts with e | ⟨k, vs⟩
    · rw [hr] at h
      cases h
    · rw [hr] at h
      obtain rfl : vs = us := Except.ok.inj h
      exact ⟨s, k, hs, hr⟩

/-- A command is refused by an error of the store. -/
theorem eq_store_of_run {c : Command} {ts : Tables} {f : Failure} (h : c.run ts = .error f) :
    ∃ e, f = .store e := by
  unfold Command.run at h
  split at h
  · rename_i e _
    exact ⟨e, (Except.error.inj h).symm⟩
  · rename_i s _
    unfold Statement.step at h
    rcases hr : s.run ts with e | p
    · rw [hr] at h
      exact ⟨e, (Except.error.inj h).symm⟩
    · rw [hr] at h
      cases h

/-- A table is created where there is none of its name. -/
theorem answer_create {table : Table} {spelled : String} {refused : Option Failure} {ts us : Tables}
    (h : answer (.statement (.create table spelled false)) refused ts = .ok us) :
    ts.find? table.name = none ∧ us = ts ++ [table] := by
  unfold answer at h
  split at h
  · cases h
  · obtain ⟨st, k, hread, hrun⟩ := run_eq h
    cases hread
    simp only [Statement.run] at hrun
    split at hrun
    · cases hrun
    · split at hrun
      · cases hrun
      · rename_i hnone
        cases hrun
        exact ⟨by simpa using hnone, rfl⟩

end Command

/-- What a routine comes to: its result, the tables after it, and how many commands
were sent by then. -/
structure Effect where
  result : Except Failure Unit
  tables : Tables
  sent : Nat

/-- A routine was broken off by a request to stop. -/
def Effect.Interrupted (e : Effect) : Prop := ∃ f, e.result = .error f ∧ f.isInterrupt = true

namespace Routine

/-- What a routine does to tables. `refused n` is the failure from outside, if any, that
strikes a command sent after `n` others. Ending the transaction is the engine's part,
so here it counts as done. -/
def effect (refused : Nat → Option Failure) : Routine → Nat → Tables → Effect
  | .done, n, ts => ⟨.ok (), ts, n⟩
  | .fail f, n, ts => ⟨.error f, ts, n⟩
  | .send c next, n, ts =>
    (next (c.answer (refused n) ts)).effect refused (n + 1)
      (Tables.after ts (c.answer (refused n) ts))
  | .commit next, n, ts => (next (.ok ())).effect refused n ts
  | .rollback next, n, ts => (next (.ok ())).effect refused n ts

end Routine

/-! ## A routine inside a transaction -/

namespace Session

/-- The session when a routine has come to `e` in the open transaction. -/
def inWork (s : Session) (e : Effect) : Session :=
  { s with handle := s.handle.inWork e.tables e.sent }

/-- The outcome of a routine together with its session. -/
def outcomeOf (s : Session) (e : Effect) : EStateM.Result Failure Session Unit :=
  match e.result with
  | .ok _ => .ok () (s.inWork e)
  | .error f => .error f (s.inWork e)

end Session

namespace Work

/-- What the handle answers to a command inside a transaction. -/
theorem attempt_command {s : Session} {h₀ : Handle} {t : Ticket} {ts : Tables}
    (i : Handle.Inside h₀ t ts s.handle) (c : Command) :
    let answer := c.answer (Handle.faultAt s.handle.plan .execute s.handle.counts.execute) ts
    attempt (execute t fun ts => (c.run ts).map fun ts => (ts, ts)) s =
      .ok answer { s with
        handle := s.handle.inWork (Tables.after ts answer) (s.handle.counts.execute + 1) } := by
  have he := Handle.execute_inside i fun ts => (c.run ts).map fun ts => (ts, ts)
  unfold Command.answer
  rcases hp : Handle.faultAt s.handle.plan .execute s.handle.counts.execute with _ | f
  · rcases hr : c.run ts with f | us
    · rw [hp, hr] at he
      exact attempt_error (onHandle_error he)
    · rw [hp, hr] at he
      exact attempt_ok (onHandle_ok he)
  · rw [hp] at he
    exact attempt_error (onHandle_error he)

end Work

namespace Routine

/-- A routine that leaves the end of its transaction to the engine comes to its effect. -/
theorem run_inside {r : Routine} (hr : r.LeavesOpen) {s : Session} {h₀ : Handle} {t : Ticket}
    {ts : Tables} (i : Handle.Inside h₀ t ts s.handle) :
    r.run t s =
      s.outcomeOf (r.effect (Handle.faultAt s.handle.plan .execute) s.handle.counts.execute ts) := by
  induction hr generalizing s ts with
  | done =>
    simp only [run, effect, Session.outcomeOf, Session.inWork, i.inWork_self]
    rfl
  | fail f =>
    simp only [run, effect, Session.outcomeOf, Session.inWork, i.inWork_self]
    rfl
  | send c _ ih =>
    simp only [run, effect]
    rw [Work.bind_ok (Work.attempt_command i c)]
    exact ih _ (i.inWork _ _)

/-- What a routine comes to without faults. -/
def alone (r : Routine) (ts : Tables) : Effect := r.effect (fun _ => none) 0 ts

/-- Without faults it does not matter how many commands there were before. -/
theorem effect_unrefused (r : Routine) (n k : Nat) (ts : Tables) :
    (r.effect (fun _ => none) n ts).result = (r.effect (fun _ => none) k ts).result ∧
      (r.effect (fun _ => none) n ts).tables = (r.effect (fun _ => none) k ts).tables := by
  induction r generalizing n k ts with
  | done => exact ⟨rfl, rfl⟩
  | fail f => exact ⟨rfl, rfl⟩
  | send c next ih => exact ih _ (n + 1) (k + 1) _
  | commit next ih => exact ih _ n k ts
  | rollback next ih => exact ih _ n k ts

/-- A routine that avoids a table leaves it as it was. -/
theorem find?_effect {r : Routine} {table : String} (hr : r.Avoids table)
    (refused : Nat → Option Failure) (n : Nat) (ts : Tables) :
    (r.effect refused n ts).tables.find? table = ts.find? table := by
  induction hr generalizing n ts with
  | done => rfl
  | fail f => rfl
  | send c hc _ ih =>
    simp only [effect]
    rw [ih]
    unfold Command.answer
    rcases refused n with _ | f
    · rcases ha : c.run ts with f | us
      · rfl
      · obtain ⟨s, k, hs, hrun⟩ := Command.run_eq ha
        exact Statement.run_tabular.frame (hc s hs) hrun
    · rfl
  | commit _ ih => exact ih _ n ts
  | rollback _ ih => exact ih _ n ts

/-! ## What a routine raises -/

/-- `Raises R r f`: the routine `r` can fail with `f`, if the failures that it is answered with
are among `R`. -/
inductive Raises (R : Failure → Prop) : Routine → Failure → Prop where
  | fail (f : Failure) : Raises R (.fail f) f
  | send {c : Command} {next : Except Failure Tables → Routine} {f : Failure}
      (answer : Except Failure Tables) :
    (∀ g, answer = .error g → R g) → Raises R (next answer) f → Raises R (.send c next) f
  | commit {next : Except Failure Unit → Routine} {f : Failure} (answer : Except Failure Unit) :
    (∀ g, answer = .error g → R g) → Raises R (next answer) f → Raises R (.commit next) f
  | rollback {next : Except Failure Unit → Routine} {f : Failure} (answer : Except Failure Unit) :
    (∀ g, answer = .error g → R g) → Raises R (next answer) f → Raises R (.rollback next) f

/-- What is raised where the failures of a routine are taken up and told: a request to stop as
it is, and in place of a failure without a text the one that asking for the text raises. -/
inductive Passes (R : Failure → Prop) (r : Routine) : Failure → Prop where
  | interrupt {f : Failure} : r.Raises R f → f.isInterrupt = true → Passes R r f
  | untold {kind message : String} :
    r.Raises R (.untold kind message) → Passes R r (.raised kind message)

/-- What passes is a request to stop, or a failure from outside. -/
theorem Passes.outside {R : Failure → Prop} {r : Routine} {f : Failure} (h : r.Passes R f) :
    ∃ kind message, f = .interrupt kind message ∨ f = .raised kind message := by
  cases h with
  | interrupt _ hint =>
    cases f with
    | interrupt kind message => exact ⟨kind, message, .inl rfl⟩
    | _ => cases hint
  | untold _ => exact ⟨_, _, .inr rfl⟩

/-- A routine raises none but plain failures of its own accord. -/
def Plain (r : Routine) : Prop :=
  ∀ f, r.Raises (·.isPlain = true) f → f.isPlain = true

variable {R : Failure → Prop} {plan : List PlannedFault}

/-- What a routine comes to is among what it raises. -/
theorem raises_of_effect {refused : Nat → Option Failure} (hstore : ∀ e, R (.store e))
    (hrefused : ∀ n f, refused n = some f → R f) {r : Routine} {n : Nat} {ts : Tables} {f : Failure}
    (h : (r.effect refused n ts).result = .error f) : r.Raises R f := by
  induction r generalizing n ts with
  | done => cases h
  | fail g =>
    obtain rfl : g = f := Except.error.inj h
    exact .fail g
  | send c next ih =>
    refine .send (c.answer (refused n) ts) (fun g hg => ?_) (ih _ h)
    unfold Command.answer at hg
    rcases hn : refused n with _ | g'
    · rw [hn] at hg
      obtain ⟨e, rfl⟩ := Command.eq_store_of_run hg
      exact hstore e
    · rw [hn] at hg
      cases hg
      exact hrefused n g hn
  | commit next ih => exact .commit (.ok ()) (by simp) (ih _ h)
  | rollback next ih => exact .rollback (.ok ()) (by simp) (ih _ h)

/-- Under faults of the store a plain routine fails with a plain failure. -/
theorem Plain.of_effect {r : Routine} (hr : r.Plain) (hp : Handle.StoreFaults plan) {n : Nat}
    {ts : Tables} {f : Failure}
    (h : (r.effect (Handle.faultAt plan .execute) n ts).result = .error f) : f.isPlain = true := by
  refine hr f (raises_of_effect (fun _ => rfl) (fun n g hg => ?_) h)
  obtain ⟨e, rfl⟩ := hp.of_faultAt hg
  rfl

theorem Plain.of_alone {r : Routine} (hr : r.Plain) {ts : Tables} {f : Failure}
    (h : (r.alone ts).result = .error f) : f.isPlain = true :=
  hr f (raises_of_effect (fun _ => rfl) (fun _ _ hg => nomatch hg) h)

/-- A plain routine is not broken off. -/
theorem Plain.not_interrupted {r : Routine} (hr : r.Plain) (hp : Handle.StoreFaults plan) (n : Nat)
    (ts : Tables) : ¬ (r.effect (Handle.faultAt plan .execute) n ts).Interrupted := by
  rintro ⟨f, hf, hint⟩
  obtain ⟨hno, _⟩ := Failure.isPlain_iff.mp (hr.of_effect hp hf)
  exact nomatch hno.symm.trans hint

/-! ## Routines of listed actions -/

/-- What a single command comes to. -/
theorem effect_send (c : Command) (refused : Nat → Option Failure) (n : Nat) (ts : Tables) :
    (ofActions [.send c]).effect refused n ts =
      match c.answer (refused n) ts with
      | .ok us => ⟨.ok (), us, n + 1⟩
      | .error f => ⟨.error f, ts, n + 1⟩ := by
  simp only [ofActions, effect]
  rcases c.answer (refused n) ts with f | us <;> rfl

end Routine

/-- An action leaves the transaction open. -/
def Action.LeavesOpen : Action → Prop
  | .send _ | .fail _ => True
  | .commit | .rollback => False

/-- An action is no failure but a plain one. -/
def Action.Plain : Action → Prop
  | .fail f => f.isPlain = true
  | _ => True

/-- No command of an action names a table. -/
def Action.Avoids (table : String) : Action → Prop
  | .send c => ∀ s, c.read = .ok s → ∀ t, s.table? = some t → sameName t table = false
  | _ => True

namespace Routine

theorem LeavesOpen.ofActions {actions : List Action} (h : ∀ a ∈ actions, a.LeavesOpen) :
    (Routine.ofActions actions).LeavesOpen := by
  induction actions with
  | nil => exact .done
  | cons a rest ih =>
    have hrest := ih fun b hb => h b (List.mem_cons_of_mem _ hb)
    have ha := h a List.mem_cons_self
    cases a with
    | send c =>
      refine .send c fun answer => ?_
      cases answer with
      | ok => exact hrest
      | error f => exact .fail f
    | fail f => exact .fail f
    | commit => exact ha.elim
    | rollback => exact ha.elim

/-- A script never ends its transaction. -/
theorem LeavesOpen.ofScript (statements : List String) :
    (Routine.ofScript statements).LeavesOpen := by
  refine .ofActions fun a ha => ?_
  obtain ⟨text, _, rfl⟩ := List.mem_map.mp ha
  trivial

theorem Plain.done : Routine.done.Plain := fun _ h => nomatch h

theorem Plain.ofActions {actions : List Action} (h : ∀ a ∈ actions, a.Plain) :
    (Routine.ofActions actions).Plain := by
  induction actions with
  | nil => exact .done
  | cons a rest ih =>
    have hrest := ih fun b hb => h b (List.mem_cons_of_mem _ hb)
    have ha := h a List.mem_cons_self
    have next {α : Type} {answer : Except Failure α} {f : Failure}
        (hanswer : ∀ g, answer = .error g → g.isPlain = true)
        (hf : (Routine.orFail (Routine.ofActions rest) answer).Raises (·.isPlain = true) f) :
        f.isPlain = true := by
      cases answer with
      | ok => exact hrest f hf
      | error g =>
        cases hf
        exact hanswer f rfl
    intro f hf
    cases a with
    | fail g =>
      cases hf
      exact ha
    | send c =>
      cases hf with
      | send answer hanswer hf => exact next hanswer hf
    | commit =>
      cases hf with
      | commit answer hanswer hf => exact next hanswer hf
    | rollback =>
      cases hf with
      | rollback answer hanswer hf => exact next hanswer hf

/-- A script only fails as its statements are answered. -/
theorem Plain.ofScript (statements : List String) : (Routine.ofScript statements).Plain := by
  refine .ofActions fun a ha => ?_
  obtain ⟨text, _, rfl⟩ := List.mem_map.mp ha
  trivial

theorem Avoids.ofActions {table : String} {actions : List Action}
    (h : ∀ a ∈ actions, a.Avoids table) : (Routine.ofActions actions).Avoids table := by
  induction actions with
  | nil => exact .done
  | cons a rest ih =>
    have hrest := ih fun b hb => h b (List.mem_cons_of_mem _ hb)
    have ha := h a List.mem_cons_self
    have next {α : Type} (answer : Except Failure α) :
        (Routine.orFail (Routine.ofActions rest) answer).Avoids table := by
      cases answer with
      | ok => exact hrest
      | error f => exact .fail f
    cases a with
    | send c => exact .send c ha next
    | fail f => exact .fail f
    | commit => exact .commit next
    | rollback => exact .rollback next

end Routine
end SchemaLedger
