-- How work on a session composes, one law for each way to join two pieces of work,
-- and the sessions that the engine starts from: no transaction is open, every
-- planned fault is the store's own, and every reading of the clock has a date.
import SchemaLedger.Session
import SchemaLedger.Proofs.Transaction

namespace SchemaLedger

/-! ## Sessions between transactions -/

/-- Every reading of the clock has a date. -/
def Readings.Dated (r : Readings) : Prop :=
  ∀ n, Calendar.firstInstant ≤ r.nth n ∧ r.nth n < Calendar.endOfTime

theorem Readings.Dated.stamp {r : Readings} (h : r.Dated) :
    ∃ a, Calendar.timestamp? r.current = some a := by
  unfold Calendar.timestamp? Readings.current
  rw [if_pos (h r.taken)]
  exact ⟨_, rfl⟩

/-- `r'` is the clock `r` after some readings, or none. -/
structure Readings.Before (r r' : Readings) : Prop where
  nth : r'.nth = r.nth
  taken : r.taken ≤ r'.taken

theorem Readings.Before.refl (r : Readings) : r.Before r := ⟨rfl, Nat.le_refl _⟩

theorem Readings.Before.trans {r r' r'' : Readings} (a : r.Before r') (b : r'.Before r'') :
    r.Before r'' :=
  ⟨b.nth.trans a.nth, Nat.le_trans a.taken b.taken⟩

theorem Readings.before_next (r : Readings) : r.Before r.next := ⟨rfl, Nat.le_succ _⟩

/-- A clock that stands still. -/
def Readings.still (instant : Int) : Readings := { nth := fun _ => instant }

theorem Readings.dated_still {instant : Int} (h : Calendar.firstInstant ≤ instant)
    (h' : instant < Calendar.endOfTime) : (Readings.still instant).Dated :=
  fun _ => ⟨h, h'⟩

namespace Session

/-- What is permanent in the store. -/
def store (s : Session) : Tables := s.handle.connection.base

/-- A session from which a unit may start. -/
structure Ready (s : Session) : Prop where
  idle : s.handle.Idle
  faults : Handle.StoreFaults s.handle.plan
  dated : s.clock.Dated

/-- A session between transactions, whatever its clock shows. -/
structure Between (s : Session) : Prop where
  idle : s.handle.Idle
  faults : Handle.StoreFaults s.handle.plan

/-- `s'` is what became of `s`: no transaction is open and the store holds `ts`. -/
structure Leaves (s : Session) (ts : Tables) (s' : Session) : Prop where
  settled : s.handle.Settled ts s'.handle
  clock : s.clock.Before s'.clock

variable {s s₁ s₂ : Session} {ts us : Tables}

theorem Ready.between (hr : s.Ready) : s.Between := ⟨hr.idle, hr.faults⟩

theorem Leaves.between (h : s.Leaves ts s₁) (hs : s.Between) : s₁.Between := by
  refine ⟨h.settled.idle, ?_⟩
  rw [h.settled.plan]
  exact hs.faults

theorem Leaves.ready (h : s.Leaves ts s₁) (hr : s.Ready) : s₁.Ready := by
  refine ⟨h.settled.idle, ?_, ?_⟩
  · rw [h.settled.plan]
    exact hr.faults
  · unfold Readings.Dated
    rw [h.clock.nth]
    exact hr.dated

theorem Leaves.trans (a : s.Leaves ts s₁) (b : s₁.Leaves us s₂) : s.Leaves us s₂ :=
  ⟨a.settled.trans b.settled, a.clock.trans b.clock⟩

theorem Leaves.store_eq (h : s.Leaves ts s₁) : s₁.store = ts := h.settled.base

theorem Between.leaves (h : s.Between) : s.Leaves s.store s := ⟨.refl h.idle, .refl _⟩

theorem Ready.leaves (h : s.Ready) : s.Leaves s.store s := h.between.leaves

end Session

/-- The session after some work, whether it returns or fails. -/
def Session.after {α : Type} : EStateM.Result Failure Session α → Session
  | .ok _ s | .error _ s => s

/-- The result of some work from its value and the session after it. -/
def Work.ended {α : Type} (r : Except Failure α) (s : Session) : EStateM.Result Failure Session α :=
  match r with
  | .ok a => .ok a s
  | .error f => .error f s

@[simp]
theorem Work.after_ended {α : Type} (r : Except Failure α) (s : Session) :
    Session.after (Work.ended r s) = s := by
  cases r <;> rfl

/-- How a run ends: with nothing, or with the family of a failure and the unit it names. -/
abbrev Ending := Option (Option Family × Option String)

/-- How some work ends. -/
def ending {α : Type} : EStateM.Result Failure Session α → Ending
  | .ok _ _ => none
  | .error f _ => some (f.family?, f.unit?)

theorem ok_of_ending {α : Type} {r : EStateM.Result Failure Session α} (h : ending r = none) :
    ∃ a, r = .ok a (Session.after r) := by
  cases r with
  | ok a s => exact ⟨a, rfl⟩
  | error f s => cases h

theorem error_of_ending {α : Type} {r : EStateM.Result Failure Session α} (h : ending r ≠ none) :
    ∃ f, r = .error f (Session.after r) := by
  cases r with
  | ok a s => exact absurd rfl h
  | error f s => exact ⟨f, rfl⟩

/-! ## The laws of work -/

namespace Failure

variable {f : Failure}

theorem eq_store {e : StoreError} (h : f.store? = some e) : f = .store e := by
  cases f with
  | store e' => exact congrArg Failure.store (Option.some.inj h)
  | _ => cases h

/-- A failure that is taken up wherever failures are, and that has a text. -/
def isPlain (f : Failure) : Bool := !f.isInterrupt && f.isTold

theorem isPlain_iff : f.isPlain = true ↔ f.isInterrupt = false ∧ f.isTold = true := by
  simp [isPlain]

theorem ofUnit_told (unit : String) (op : Operation) (h : f.isTold = true) :
    ofUnit unit op f = .execution unit op f := by
  cases f with
  | untold => cases h
  | _ => rfl

/-- What is reported about a failure: nothing, if it has no text. -/
def reported (f : Failure) (e : Event) : List Event := if f.isTold then [e] else []

end Failure

namespace Work

variable {α β : Type} {w : Work α} {s s' : Session} {a : α} {f : Failure}

theorem bind_ok (h : w s = .ok a s') (k : α → Work β) : (w >>= k) s = k a s' := by
  simp only [bind, EStateM.bind, h]

theorem bind_error (h : w s = .error f s') (k : α → Work β) : (w >>= k) s = .error f s' := by
  simp only [bind, EStateM.bind, h]

theorem eq_ok_of_bind {k : α → Work β} {b : β} (h : (w >>= k) s = .ok b s') :
    ∃ a s₁, w s = .ok a s₁ ∧ k a s₁ = .ok b s' := by
  rcases hw : w s with ⟨a, s₁⟩ | ⟨f, s₁⟩
  · rw [bind_ok hw] at h
    exact ⟨a, s₁, rfl, h⟩
  · rw [bind_error hw] at h
    cases h

theorem after_bind_pure (w : Work α) (k : α → β) (s : Session) :
    Session.after ((w >>= fun a => pure (k a)) s) = Session.after (w s) := by
  rcases h : w s with ⟨a, s'⟩ | ⟨f, s'⟩
  · rw [bind_ok h]
    rfl
  · rw [bind_error h]
    rfl

theorem attempt_ok (h : w s = .ok a s') : attempt w s = .ok (.ok a) s' := by
  simp only [attempt, h]

theorem attempt_error (h : w s = .error f s') : attempt w s = .ok (.error f) s' := by
  simp only [attempt, h]

theorem rescue_ok (h : w s = .ok a s') : rescue w s = .ok (.ok a) s' := by
  simp only [rescue, h]

theorem rescue_error (h : w s = .error f s') (hf : f.isInterrupt = false) :
    rescue w s = .ok (.error f) s' := by
  simp [rescue, h, hf]

theorem rescue_interrupt (h : w s = .error f s') (hf : f.isInterrupt = true) :
    rescue w s = .error f s' := by
  simp [rescue, h, hf]

theorem orStore_ok (h : w s = .ok a s') (k : StoreError → Work α) :
    w.orStore k s = .ok a s' := by
  simp only [orStore, h]

theorem orStore_refused {e : StoreError} (h : w s = .error (.store e) s')
    (k : StoreError → Work α) : w.orStore k s = k e s' := by
  simp only [orStore, h]

theorem orStore_passed (h : w s = .error f s') (hf : f.store? = none)
    (k : StoreError → Work α) : w.orStore k s = .error f s' := by
  cases f with
  | store e => cases hf
  | _ => simp only [orStore, h]

/-- What the store refuses is handled, and what follows goes on from there. -/
theorem orStore_refused_bind {e : StoreError}
    (h : w s = .error (.store e) s') (handle : StoreError → Work α) (k : α → Work β) :
    (w.orStore handle >>= k) s = (handle e >>= k) s' := by
  simp only [bind, EStateM.bind, orStore_refused h]

theorem onHandle_ok {call : Handle → Except Failure α × Handle} {h' : Handle}
    (h : call s.handle = (.ok a, h')) : onHandle call s = .ok a { s with handle := h' } := by
  simp only [onHandle, h]

theorem onHandle_error {call : Handle → Except Failure α × Handle} {h' : Handle}
    (h : call s.handle = (.error f, h')) :
    onHandle call s = .error f { s with handle := h' } := by
  simp only [onHandle, h]

theorem onHandle_after (call : Handle → Except Failure α × Handle) (s : Session) :
    Session.after (onHandle call s) = { s with handle := (call s.handle).2 } := by
  rcases h : call s.handle with ⟨f | a, h'⟩
  · rw [onHandle_error h]
    rfl
  · rw [onHandle_ok h]
    rfl

theorem execute_ok {t : Ticket} {step : Tables → Except Failure (α × Tables)} {h' : Handle}
    (h : s.handle.execute t step = (.ok a, h')) :
    execute t step s = .ok a { s with handle := h' } := onHandle_ok h

theorem execute_error {t : Ticket} {step : Tables → Except Failure (α × Tables)} {h' : Handle}
    (h : s.handle.execute t step = (.error f, h')) :
    execute t step s = .error f { s with handle := h' } := onHandle_error h

theorem now_ok (s : Session) :
    now s = .ok s.clock.current { s with clock := s.clock.next } := rfl

theorem report_ok (e : Event) (s : Session) :
    report e s = .ok () { s with events := s.events ++ [e] } := rfl

theorem reportOf_ok (f : Failure) (e : Event) (s : Session) :
    reportOf f e s = .ok () { s with events := s.events ++ f.reported e } := by
  unfold reportOf Failure.reported
  split
  · rfl
  · rw [List.append_nil]
    rfl

theorem noteCall_ok (o : Operation) (u : String) (form : Form) (s : Session) :
    noteCall o u form s = .ok () { s with calls := s.calls ++ [⟨o, u, form⟩] } := rfl

theorem timestamp_ok {t : String} (h : Calendar.timestamp? s.clock.current = some t) :
    timestamp s = .ok t { s with clock := s.clock.next } := by
  unfold timestamp
  rw [bind_ok (now_ok s), h]
  rfl

/-! ## What work leaves alone -/

/-- Whether some work returns or fails, it leaves `part` of the session as it was. -/
def Keeps {γ : Type} (part : Session → γ) (w : Work α) : Prop :=
  ∀ s, part (Session.after (w s)) = part s

variable {γ : Type} {part : Session → γ}

theorem Keeps.ok (hw : Keeps part w) (h : w s = .ok a s') : part s' = part s := by
  have hs := hw s
  rw [h] at hs
  exact hs

theorem Keeps.error (hw : Keeps part w) (h : w s = .error f s') : part s' = part s := by
  have hs := hw s
  rw [h] at hs
  exact hs

theorem keeps_pure (a : α) : Keeps part (pure a : Work α) := fun _ => rfl

theorem keeps_throw (f : Failure) : Keeps part (throw f : Work α) := fun _ => rfl

theorem Keeps.bind (hw : Keeps part w) {k : α → Work β} (hk : ∀ a, Keeps part (k a)) :
    Keeps part (w >>= k) := by
  intro s
  rcases h : w s with ⟨a, s₁⟩ | ⟨f, s₁⟩
  · rw [bind_ok h]
    exact (hk a s₁).trans (hw.ok h)
  · rw [bind_error h]
    exact hw.error h

theorem Keeps.attempt (hw : Keeps part w) : Keeps part (attempt w) := by
  intro s
  rcases h : w s with ⟨a, s₁⟩ | ⟨f, s₁⟩
  · rw [attempt_ok h]
    exact hw.ok h
  · rw [attempt_error h]
    exact hw.error h

theorem Keeps.orStore (hw : Keeps part w) {k : StoreError → Work α} (hk : ∀ e, Keeps part (k e)) :
    Keeps part (w.orStore k) := by
  intro s
  have hs := hw s
  unfold Work.orStore
  split
  · rename_i e s₁ h
    rw [h] at hs
    exact (hk e s₁).trans hs
  · exact hs

theorem report_keeps_handle (e : Event) : Keeps Session.handle (report e) := fun _ => rfl

theorem report_keeps_calls (e : Event) : Keeps Session.calls (report e) := fun _ => rfl

theorem reportOf_keeps_calls (f : Failure) (e : Event) : Keeps Session.calls (reportOf f e) := by
  intro s
  rw [reportOf_ok]
  rfl

theorem onHandle_keeps_calls (call : Handle → Except Failure α × Handle) :
    Keeps Session.calls (onHandle call) := by
  intro s
  rcases h : call s.handle with ⟨f | a, h'⟩
  · rw [onHandle_error h]
    rfl
  · rw [onHandle_ok h]
    rfl

end Work

/-! ## Reports -/

/-- The session after some reports. -/
def Session.saying (s : Session) (events : List Event) : Session :=
  { s with events := s.events ++ events }

@[simp]
theorem Session.saying_nil (s : Session) : s.saying [] = s := by
  rw [Session.saying, List.append_nil]

theorem Session.saying_saying (s : Session) (before after : List Event) :
    (s.saying before).saying after = s.saying (before ++ after) := by
  simp [saying]

theorem Session.Between.saying {s : Session} (hs : s.Between) (events : List Event) :
    (s.saying events).Between :=
  ⟨hs.idle, hs.faults⟩

theorem Session.Leaves.saying {s s' : Session} {ts : Tables} (h : s.Leaves ts s')
    (events : List Event) : s.Leaves ts (s'.saying events) :=
  ⟨h.settled, h.clock⟩

namespace Work

variable {α β : Type} {w : Work α} {a : α} {f : Failure}

/-- Some work gives `a`, and reports are all that becomes of the session. -/
def Says (w : Work α) (a : α) : Prop := ∃ said, ∀ s, w s = .ok a (s.saying said)

theorem says_pure (a : α) : Says (pure a) a := by
  refine ⟨[], fun s => ?_⟩
  simp only [Session.saying, List.append_nil]
  rfl

theorem says_report (e : Event) : Says (report e) () := ⟨[e], fun _ => rfl⟩

theorem says_reportOf (f : Failure) (e : Event) : Says (reportOf f e) () :=
  ⟨f.reported e, fun s => reportOf_ok f e s⟩

theorem Says.bind (hw : Says w a) {k : α → Work β} {b : β} (hk : Says (k a) b) :
    Says (w >>= k) b := by
  obtain ⟨said, hw⟩ := hw
  obtain ⟨said', hk⟩ := hk
  refine ⟨said ++ said', fun s => ?_⟩
  rw [bind_ok (hw s), hk, Session.saying_saying]

/-- Some work comes to the same in every session, and reports are all that becomes of it. -/
def Announces (w : Work α) : Prop :=
  (∃ a, Says w a) ∨ ∃ f said, ∀ s, w s = .error f (s.saying said)

theorem Says.announces (hw : Says w a) : Announces w := .inl ⟨a, hw⟩

theorem announces_throw (f : Failure) : Announces (throw f : Work α) := by
  refine .inr ⟨f, [], fun s => ?_⟩
  simp only [Session.saying, List.append_nil]
  rfl

theorem Announces.bind (hw : Announces w) {k : α → Work β} (hk : ∀ a, Announces (k a)) :
    Announces (w >>= k) := by
  rcases hw with ⟨a, said, hw⟩ | ⟨f, said, hw⟩
  · have hgives : Says w a := ⟨said, hw⟩
    rcases hk a with ⟨b, hk⟩ | ⟨f, said', hk⟩
    · exact (hgives.bind hk).announces
    · refine .inr ⟨f, said ++ said', fun s => ?_⟩
      rw [bind_ok (hw s), hk, Session.saying_saying]
  · exact .inr ⟨f, said, fun s => bind_error (hw s) k⟩

/-- What such work gave once it always gives. -/
theorem Announces.always (hw : Announces w) {s s' : Session} (h : w s = .ok a s') : Says w a := by
  rcases hw with ⟨b, said, hw⟩ | ⟨f, said, hw⟩
  · rw [hw s] at h
    cases h
    exact ⟨said, hw⟩
  · rw [hw s] at h
    cases h

theorem Says.attempt (hw : Says w a) : Says (attempt w) (.ok a) := by
  obtain ⟨said, hw⟩ := hw
  exact ⟨said, fun s => attempt_ok (hw s)⟩

/-- Work that fails at once is attempted without a trace. -/
theorem says_attempt (h : ∀ s, w s = .error f s) : Says (attempt w) (.error f) := by
  refine ⟨[], fun s => ?_⟩
  rw [attempt_error (h s)]
  simp only [Session.saying, List.append_nil]

end Work
end SchemaLedger
