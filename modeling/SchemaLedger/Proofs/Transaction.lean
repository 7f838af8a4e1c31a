-- The laws of one transaction on the handle. A transaction works on tables of its
-- own, so the store stays as it was until a commit that is not refused; a commit or
-- rollback that fails by plan has given up the transaction all the same.
import SchemaLedger.Store.Handle

namespace SchemaLedger.Handle

/-! ## Planned faults -/

/-- The fault that a plan holds for the call that comes after `n` others of its kind. -/
def faultAt (plan : List PlannedFault) (call : Call) (n : Nat) : Option Failure :=
  (plan.find? fun p => p.call == call && p.nth == n + 1).map (·.failure)

theorem planned?_nil {h : Handle} (hp : h.plan = []) (call : Call) : h.planned? call = none := by
  unfold planned?
  rw [hp]
  rfl

/-- Every fault of a plan is an error of the store. -/
def StoreFaults (plan : List PlannedFault) : Prop := ∀ p ∈ plan, ∃ e, p.failure = .store e

theorem StoreFaults.of_faultAt {plan : List PlannedFault} (hp : StoreFaults plan) {call : Call}
    {n : Nat} {f : Failure} (h : faultAt plan call n = some f) : ∃ e, f = .store e := by
  unfold faultAt at h
  obtain ⟨p, hf, rfl⟩ := Option.map_eq_some_iff.mp h
  exact hp p (List.mem_of_find?_eq_some hf)

theorem storeFaults_nil : StoreFaults [] := fun _ hp => absurd hp List.not_mem_nil

/-! ## Between transactions, and inside one -/

/-- No transaction is open. -/
def Idle (h : Handle) : Prop := h.connection.work = none

/-- `h` is what became of `h₀` while the transaction `t` is open, which sees `ts`. -/
structure Inside (h₀ : Handle) (t : Ticket) (ts : Tables) (h : Handle) : Prop where
  base : h.connection.base = h₀.connection.base
  work : h.connection.work = some ts
  live : t ∈ h.connection.live
  others : ∀ u ∈ h.connection.live.erase t, u ∈ h₀.connection.live
  blocked : h.connection.blocked = h₀.connection.blocked
  plan : h.plan = h₀.plan
  commits : h.counts.commit = h₀.counts.commit
  rollbacks : h.counts.rollback = h₀.counts.rollback

theorem Inside.not_idle {h₀ h : Handle} {t : Ticket} {ts : Tables} (i : Inside h₀ t ts h) :
    ¬ h.Idle := by
  unfold Idle
  simp [i.work]

/-- `h` is what became of `h₀`: no transaction is open, none is live that was not
live before, and the store holds `ts`. -/
structure Settled (h₀ : Handle) (ts : Tables) (h : Handle) : Prop where
  base : h.connection.base = ts
  idle : h.Idle
  live : ∀ u ∈ h.connection.live, u ∈ h₀.connection.live
  blocked : h.connection.blocked = h₀.connection.blocked
  plan : h.plan = h₀.plan

theorem Settled.refl {h : Handle} (hi : h.Idle) : Settled h h.connection.base h :=
  ⟨rfl, hi, fun _ hu => hu, rfl, rfl⟩

theorem Settled.trans {h₀ h₁ h₂ : Handle} {ts us : Tables} (a : Settled h₀ ts h₁)
    (b : Settled h₁ us h₂) : Settled h₀ us h₂ :=
  ⟨b.base, b.idle, fun u hu => a.live u (b.live u hu), b.blocked.trans a.blocked,
    b.plan.trans a.plan⟩

/-- Calls that are only counted settle nothing and unsettle nothing. -/
theorem Settled.recount {h₀ h : Handle} {ts : Tables} (a : Settled h₀ ts h) (n : CallCounts) :
    Settled h₀ ts { h with counts := n } :=
  ⟨a.base, a.idle, a.live, a.blocked, a.plan⟩

theorem Inside.isLive {h₀ h : Handle} {t : Ticket} {ts : Tables} (i : Inside h₀ t ts h) :
    h.connection.isLive t = true := by
  unfold Connection.isLive
  exact List.contains_iff_mem.mpr i.live

/-! ## The four calls -/

/-- Why no transaction can be opened: a fault of the plan, or a store that is blocked. -/
def beginRefusal? (h : Handle) : Option Failure :=
  (h.planned? .begin).or (h.connection.blocked.map .store)

theorem StoreFaults.of_beginRefusal? {h : Handle} (hp : StoreFaults h.plan) {f : Failure}
    (hf : h.beginRefusal? = some f) : ∃ e, f = .store e := by
  rcases Option.or_eq_some_iff.mp hf with hf | ⟨_, hf⟩
  · exact hp.of_faultAt hf
  · obtain ⟨e, _, rfl⟩ := Option.map_eq_some_iff.mp hf
    exact ⟨e, rfl⟩

theorem begin_refused {h : Handle} (hi : h.Idle) {f : Failure} (hf : h.beginRefusal? = some f) :
    ∃ h', h.begin = (.error f, h') ∧ Settled h h.connection.base h' := by
  unfold beginRefusal? at hf
  unfold Handle.begin
  rcases hp : h.planned? .begin with _ | e
  · rw [hp, Option.none_or] at hf
    obtain ⟨e, hb, rfl⟩ := Option.map_eq_some_iff.mp hf
    refine ⟨h.counted .begin, ?_, (Settled.refl hi).recount _⟩
    simp only [Connection.begin, hb, lift]
    rfl
  · simp only [hp, Option.some_or, Option.some.injEq] at hf
    subst hf
    exact ⟨_, rfl, (Settled.refl hi).recount _⟩

theorem begin_opened {h : Handle} (hi : h.Idle) (hf : h.beginRefusal? = none) :
    ∃ t h', h.begin = (.ok t, h') ∧ Inside h t h.connection.base h' ∧
      h'.counts.execute = h.counts.execute := by
  unfold beginRefusal? at hf
  obtain ⟨hp, hb⟩ := Option.or_eq_none_iff.mp hf
  rw [Option.map_eq_none_iff] at hb
  have hw : h.connection.work = none := hi
  unfold Handle.begin
  rw [hp]
  simp only [Connection.begin, hb, hw, lift]
  refine ⟨_, _, rfl, ⟨rfl, rfl, List.mem_cons_self, ?_, hb.symm, rfl, rfl, rfl⟩, rfl⟩
  intro u hu
  simpa using hu

/-- The handle while its transaction sees `us`, after `n` commands in all. -/
def inWork (h : Handle) (us : Tables) (n : Nat) : Handle :=
  { h with
    connection := { h.connection with work := some us }, counts := { h.counts with execute := n } }

theorem Inside.inWork {h₀ h : Handle} {t : Ticket} {ts : Tables} (i : Inside h₀ t ts h)
    (us : Tables) (n : Nat) : Inside h₀ t us (h.inWork us n) :=
  ⟨i.base, rfl, i.live, i.others, i.blocked, i.plan, i.commits, i.rollbacks⟩

theorem Inside.inWork_self {h₀ h : Handle} {t : Ticket} {ts : Tables} (i : Inside h₀ t ts h) :
    h.inWork ts h.counts.execute = h := by
  unfold Handle.inWork
  rw [← i.work]

/-- A command that is refused by the plan or by the tables changes nothing. -/
theorem execute_inside {α : Type} {h₀ h : Handle} {t : Ticket} {ts : Tables}
    (i : Inside h₀ t ts h) (step : Tables → Except Failure (α × Tables)) :
    h.execute t step =
      match faultAt h.plan .execute h.counts.execute with
      | some f => (.error f, h.inWork ts (h.counts.execute + 1))
      | none =>
        match step ts with
        | .error f => (.error f, h.inWork ts (h.counts.execute + 1))
        | .ok (a, us) => (.ok a, h.inWork us (h.counts.execute + 1)) := by
  have hc : h.counted .execute = h.inWork ts (h.counts.execute + 1) := by
    unfold Handle.inWork
    rw [← i.work]
    rfl
  unfold Handle.execute
  rw [← hc, show h.planned? .execute = faultAt h.plan .execute h.counts.execute from rfl]
  rcases faultAt h.plan .execute h.counts.execute with _ | f
  · simp only [Connection.execute, i.isLive, if_true, Connection.visible, i.work, Option.getD_some]
    rcases step ts with f | ⟨a, us⟩
    · rfl
    · simp only [Connection.store, i.work]
      rfl
  · rfl

/-- What a transaction leaves when it is given up. -/
theorem settled_of_rollback {h₀ h : Handle} {t : Ticket} {ts : Tables} (i : Inside h₀ t ts h)
    (n : CallCounts) :
    Settled h₀ h₀.connection.base
      { h with counts := n, connection := h.connection.rollback t } := by
  simp only [Connection.rollback, i.isLive, if_true]
  exact ⟨i.base, rfl, i.others, i.blocked, i.plan⟩

theorem commit_refused {h₀ h : Handle} {t : Ticket} {ts : Tables} (i : Inside h₀ t ts h)
    {f : Failure} (hf : h.planned? .commit = some f) :
    ∃ h', h.commit t = (.error f, h') ∧ Settled h₀ h₀.connection.base h' := by
  unfold Handle.commit
  rw [hf]
  exact ⟨_, rfl, settled_of_rollback i _⟩

theorem commit_done {h₀ h : Handle} {t : Ticket} {ts : Tables} (i : Inside h₀ t ts h)
    (hf : h.planned? .commit = none) :
    ∃ h', h.commit t = (.ok (), h') ∧ Settled h₀ ts h' := by
  unfold Handle.commit
  rw [hf]
  simp only [Connection.commit, i.isLive, if_true, lift, Connection.visible, i.work,
    Option.getD_some]
  exact ⟨_, rfl, ⟨rfl, rfl, i.others, i.blocked, i.plan⟩⟩

/-- The answer to a rollback, which only a fault of the plan makes a refusal. -/
def rollbackAnswer (h : Handle) : Except Failure Unit :=
  match h.planned? .rollback with
  | some f => .error f
  | none => .ok ()

theorem rollback_inside {h₀ h : Handle} {t : Ticket} {ts : Tables} (i : Inside h₀ t ts h) :
    ∃ h', h.rollback t = (h.rollbackAnswer, h') ∧ Settled h₀ h₀.connection.base h' := by
  unfold Handle.rollback rollbackAnswer
  rcases h.planned? .rollback with _ | f
  · exact ⟨_, rfl, settled_of_rollback i _⟩
  · exact ⟨_, rfl, settled_of_rollback i _⟩

/-- A transaction that is open has not come to a rollback, so the next answer is still the one
that was planned before it. -/
theorem rollbackAnswer_inside {h₀ h : Handle} {t : Ticket} {ts : Tables} (i : Inside h₀ t ts h) :
    h.rollbackAnswer = h₀.rollbackAnswer := by
  unfold rollbackAnswer planned? CallCounts.get
  rw [i.plan, i.rollbacks]

/-- A rollback after the end of its transaction changes nothing. -/
theorem rollback_settled {h₀ h : Handle} {ts : Tables} (a : Settled h₀ ts h) (t : Ticket) :
    ∃ h', h.rollback t = (h.rollbackAnswer, h') ∧ Settled h₀ ts h' := by
  have hc : Settled h₀ ts { h.counted .rollback with connection := h.connection.rollback t } := by
    unfold Connection.rollback
    split
    · exact ⟨a.base, rfl, fun u hu => a.live u (List.mem_of_mem_erase hu), a.blocked, a.plan⟩
    · exact a.recount _
  unfold Handle.rollback rollbackAnswer
  rcases h.planned? .rollback with _ | f
  · exact ⟨_, rfl, hc⟩
  · exact ⟨_, rfl, hc⟩

/-! ## Any handle -/

/-- A transaction can be opened. -/
structure Opens (h : Handle) : Prop where
  idle : h.Idle
  allowed : h.beginRefusal? = none

/-- `h'` is what became of `h` when a transaction could not be opened. -/
structure Barred (h h' : Handle) : Prop where
  base : h'.connection.base = h.connection.base
  live : h'.connection.live = h.connection.live
  idle : h.Idle → h'.Idle

theorem begin_barred {h : Handle} (hn : ¬ h.Opens) :
    ∃ f h', h.begin = (.error f, h') ∧ h.Barred h' := by
  unfold Handle.begin
  rcases hp : h.planned? .begin with _ | g
  · rcases hb : h.connection.blocked with _ | e
    · rcases hw : h.connection.work with _ | ts
      · refine absurd ⟨hw, ?_⟩ hn
        unfold beginRefusal?
        rw [hp, hb]
        rfl
      · simp only [Connection.begin, hb, hw, lift]
        exact ⟨_, _, rfl, rfl, rfl, fun _ => rfl⟩
    · simp only [Connection.begin, hb, lift]
      exact ⟨_, _, rfl, rfl, rfl, fun hi => hi⟩
  · exact ⟨_, _, rfl, rfl, rfl, fun hi => hi⟩

/-- A transaction's end by a commit: what it did is permanent, or it is given up. -/
theorem commit_inside {h₀ h : Handle} {t : Ticket} {ts : Tables} (i : Inside h₀ t ts h) :
    (∃ h', h.commit t = (.ok (), h') ∧ Settled h₀ ts h') ∨
      ∃ f h', h.commit t = (.error f, h') ∧ Settled h₀ h₀.connection.base h' := by
  rcases hc : h.planned? .commit with _ | f
  · exact .inl (commit_done i hc)
  · exact .inr ⟨f, commit_refused i hc⟩

/-! ## What is counted -/

theorem begin_counts (h : Handle) :
    h.begin.2.plan = h.plan ∧ h.begin.2.counts = h.counts.add .begin := by
  unfold Handle.begin
  rcases h.planned? .begin with _ | f
  · rcases h.connection.begin with ⟨e | t, c⟩ <;> exact ⟨rfl, rfl⟩
  · exact ⟨rfl, rfl⟩

theorem execute_counts {α : Type} (h : Handle) (t : Ticket)
    (step : Tables → Except Failure (α × Tables)) :
    (h.execute t step).2.plan = h.plan ∧
      (h.execute t step).2.counts = h.counts.add .execute := by
  unfold Handle.execute
  rcases h.planned? .execute with _ | f <;> exact ⟨rfl, rfl⟩

theorem commit_counts (h : Handle) (t : Ticket) :
    (h.commit t).2.plan = h.plan ∧ (h.commit t).2.counts = h.counts.add .commit := by
  unfold Handle.commit
  rcases h.planned? .commit with _ | f
  · rcases h.connection.commit t with ⟨e | u, c⟩ <;> exact ⟨rfl, rfl⟩
  · exact ⟨rfl, rfl⟩

theorem rollback_counts (h : Handle) (t : Ticket) :
    (h.rollback t).2.plan = h.plan ∧ (h.rollback t).2.counts = h.counts.add .rollback := by
  unfold Handle.rollback
  rcases h.planned? .rollback with _ | f <;> exact ⟨rfl, rfl⟩

/-- A transaction that is opened leaves the faults on all other calls where they were. -/
theorem planned?_opened {h₀ h₁ : Handle} {t : Ticket} {ts : Tables} (i : h₀.Inside t ts h₁)
    (hcounts : h₁.counts = h₀.counts.add .begin) {call : Call} (hcall : call ≠ .begin) :
    h₁.planned? call = h₀.planned? call := by
  unfold planned?
  rw [i.plan, hcounts]
  cases call with
  | begin => exact absurd rfl hcall
  | _ => rfl

end SchemaLedger.Handle
