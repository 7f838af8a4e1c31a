-- One run of the program for a command that can be carried out. The units and the database
-- are announced, the command is performed on a session of its own, and what is permanent in
-- that goes back to the store's file.
import SchemaLedger.CommandLine.Run
import SchemaLedger.Proofs.FullRun
import SchemaLedger.Proofs.Rollback
import SchemaLedger.Proofs.SeedingFrame

namespace SchemaLedger

/-! ## A store that nothing was done to -/

namespace Connection

/-- As long as no transaction was opened the store holds `ts`. -/
def Untried (ts : Tables) (c : Connection) : Prop := c.issued = 0 → c.base = ts ∧ c.live = []

variable {ts : Tables} {c : Connection}

theorem Untried.begin (h : c.Untried ts) : c.begin.2.Untried ts := by
  unfold Connection.begin
  split
  · exact h
  · exact h
  · exact fun hissued => absurd hissued (Nat.succ_ne_zero _)

theorem Untried.isLive (h : c.Untried ts) {t : Ticket} (hlive : c.isLive t = true) :
    c.issued ≠ 0 := by
  intro hissued
  unfold Connection.isLive at hlive
  rw [(h hissued).2] at hlive
  cases hlive

theorem Untried.execute {α : Type} (h : c.Untried ts) (t : Ticket)
    (step : Tables → Except Failure (α × Tables)) : (c.execute t step).2.Untried ts := by
  unfold Connection.execute
  split
  · rename_i hlive
    split
    · exact h
    · unfold Connection.store
      split <;> exact fun hissued => absurd hissued (h.isLive hlive)
  · exact h

theorem Untried.commit (h : c.Untried ts) (t : Ticket) : (c.commit t).2.Untried ts := by
  unfold Connection.commit
  split
  · rename_i hlive
    exact fun hissued => absurd hissued (h.isLive hlive)
  · exact h

theorem Untried.rollback (h : c.Untried ts) (t : Ticket) : (c.rollback t).Untried ts := by
  unfold Connection.rollback
  split
  · rename_i hlive
    exact fun hissued => absurd hissued (h.isLive hlive)
  · exact h

end Connection

/-- As long as no transaction was opened in a session the store holds `ts`. -/
def Session.Untried (ts : Tables) (s : Session) : Prop := s.handle.connection.Untried ts

namespace Handle

variable {ts : Tables} {h : Handle}

theorem lift_connection {α : Type} (h : Handle) (r : Except StoreError α × Connection) :
    (h.lift r).2.connection = r.2 := by
  rcases r with ⟨e | a, c⟩ <;> rfl

/-- A planned fault is in the place of the call, or beside it. -/
theorem untried_begin (hu : h.connection.Untried ts) : h.begin.2.connection.Untried ts := by
  unfold Handle.begin
  split
  · exact hu
  · rw [lift_connection]
    exact hu.begin

theorem untried_execute {α : Type} (hu : h.connection.Untried ts) (t : Ticket)
    (step : Tables → Except Failure (α × Tables)) :
    (h.execute t step).2.connection.Untried ts := by
  unfold Handle.execute
  split
  · exact hu
  · exact hu.execute t step

theorem untried_commit (hu : h.connection.Untried ts) (t : Ticket) :
    (h.commit t).2.connection.Untried ts := by
  unfold Handle.commit
  split
  · exact hu.rollback t
  · rw [lift_connection]
    exact hu.commit t

theorem untried_rollback (hu : h.connection.Untried ts) (t : Ticket) :
    (h.rollback t).2.connection.Untried ts := by
  unfold Handle.rollback
  split <;> exact hu.rollback t

end Handle

theorem untried_discipline (ts : Tables) :
    Discipline (Session.Untried ts) (fun _ => True) (fun _ => True) :=
  have keeps {α : Type} {call : Handle → Except Failure α × Handle}
      (hcall : ∀ h, h.connection.Untried ts → (call h).2.connection.Untried ts) (s : Session)
      (hs : s.Untried ts) : (Session.after (Work.onHandle call s)).Untried ts := by
    rw [Work.onHandle_after]
    exact hcall s.handle hs
  have onHandle {α : Type} {call : Handle → Except Failure α × Handle}
      (hcall : ∀ h, h.connection.Untried ts → (call h).2.connection.Untried ts) :
      Work.Obeys (Session.Untried ts) (fun _ => True) (Work.onHandle call) :=
    fun s hs => ⟨keeps hcall s hs, fun _ _ _ => trivial⟩
  { begin := onHandle fun _ => Handle.untried_begin
    execute := fun t step _ hall _ s hs =>
      ⟨keeps (fun _ hu => Handle.untried_execute hu t step) s hs, fun f _ _ => hall f trivial⟩
    commit := fun t => onHandle fun _ hu => Handle.untried_commit hu t
    rollback := fun t => onHandle fun _ hu => Handle.untried_rollback hu t
    now := fun _ hs => ⟨hs, fun _ _ _ => trivial⟩
    report := fun _ _ hs => ⟨hs, fun _ _ _ => trivial⟩
    noteCall := fun _ _ _ _ hs => ⟨hs, fun _ _ _ => trivial⟩
    store := fun _ => trivial
    passes := fun _ _ _ => trivial
    engine := fun _ _ => trivial
    untold := fun _ _ _ => trivial
    undated := fun _ _ _ => trivial }

/-! ## The commands -/

theorem Seeding.silent_untried (ts : Tables) : Silent (Session.Untried ts) := fun _ _ hs => hs

theorem Request.migrator_untried (ts : Tables) (settings : Settings) (u : Units) :
    Work.Obeys (Session.Untried ts) (fun _ => True) (migrator settings u) := by
  unfold Request.migrator
  refine Work.Obeys.bind ?_ fun l => ?_
  · rcases Request.ledgerNamed settings.tableName with f | l
    · exact Work.obeys_throw trivial
    · exact Work.obeys_pure l
  · split
    · exact Work.obeys_throw trivial
    · exact Work.obeys_pure _

/-- Whatever a command does, it does it in transactions. -/
theorem Request.perform_untried (ts : Tables) (settings : Settings) (u : Units) (r : Request) :
    Work.Obeys (Session.Untried ts) (fun _ => True) (r.perform settings u) := by
  have d := untried_discipline ts
  have any {α : Type} {w : Work α}
      (hw : Work.Obeys (Session.Untried ts) (fun _ => True ∨ True) w) :
      Work.Obeys (Session.Untried ts) (fun _ => True) w := hw.mono fun _ _ => trivial
  have hm := Request.migrator_untried ts settings u
  cases r with
  | migrate =>
    refine hm.bind fun m => Work.Obeys.bind ?_ fun outs => Work.obeys_pure _
    rw [m.run_eq]
    exact any (d.asking _ _ (.inr trivial) (d.runOn fun _ _ _ _ => trivial))
  | rollBack count =>
    refine hm.bind fun m => Work.Obeys.bind ?_ fun outs => Work.obeys_pure _
    unfold Migrator.rollBackValue
    split
    · rw [m.rollBack_eq]
      exact any (d.asking _ _ (.inr trivial) (d.rollBackOn (fun _ _ _ _ => trivial) _))
    · exact Work.obeys_throw trivial
  | status =>
    refine hm.bind fun m => Work.Obeys.bind ?_ fun outs => Work.obeys_pure _
    rw [m.status_eq]
    exact any (d.asking _ _ (.inr trivial) (d.statusOn m))
  | seed name =>
    have hone : ∀ x ∈ u.seeders.units, ∀ s, Session.Untried ts s →
        Session.Untried ts (Session.after (Seeding.runOne x s)) :=
      fun x _ s hs => (d.runOne (fun _ _ => trivial) s hs).1
    have list : Work.Obeys (Session.Untried ts) (fun _ => True)
        (Seeding.mk u.seeders.units settings.failFast).list :=
      fun s hs => ⟨Seeding.list_keeps (Seeding.silent_untried ts) _ _ hs, fun _ _ _ => trivial⟩
    have run : Work.Obeys (Session.Untried ts) (fun _ => True)
        ((Seeding.mk u.seeders.units settings.failFast).run name) :=
      fun s hs => ⟨Seeding.run_keeps (Seeding.silent_untried ts) hone _ _ hs, fun _ _ _ => trivial⟩
    unfold Request.perform
    dsimp only
    split
    · exact list.bind fun _ => Work.obeys_pure _
    · exact run.bind fun _ => Work.obeys_pure _

/-! ## Before the command -/

section Opening

open Work

theorem announces_lift {α : Type} (r : Except Failure α) : Announces (Seeding.lift r) := by
  rcases r with f | a
  · exact announces_throw f
  · exact (says_pure a).announces

theorem Registry.announces_register {α : Type} (r : Registry α) (quoted : α → String) (unit : α) :
    Announces (r.register quoted unit) :=
  (says_report _).announces.bind fun _ => (says_pure _).announces

theorem Registry.announces_registerAll {α : Type} (r : Registry α) (quoted : α → String)
    (units : List α) : Announces (r.registerAll quoted units) := by
  unfold Registry.registerAll
  induction units generalizing r with
  | nil => exact (says_pure r).announces
  | cons u rest ih =>
    rw [List.foldlM_cons]
    exact (r.announces_register quoted u).bind fun r => ih r

namespace UnitsModule

theorem announces_runHook (u : Units) (steps : List HookStep) : Announces (runHook u steps) := by
  induction steps generalizing u with
  | nil => exact (says_pure u).announces
  | cons step rest ih =>
    match step with
    | .migration (.ok d) => exact (Registry.announces_register _ _ d).bind fun _ => ih _
    | .migration (.error f) => exact announces_throw f
    | .seeder s => exact (Registry.announces_register _ _ s).bind fun _ => ih _
    | .fail f => exact announces_throw f

theorem announces_collect (m : UnitsModule) (path : String) : Announces (m.collect path) := by
  unfold collect
  split
  · exact announces_runHook {} _
  · split
    · exact announces_throw _
    · exact (Registry.announces_registerAll _ _ _).bind fun _ =>
        (Registry.announces_registerAll _ _ _).bind fun _ => (says_pure _).announces

theorem announces_load (ms : List UnitsModule) (path : String) : Announces (load ms path) := by
  unfold load
  split
  · split <;> exact announces_throw _
  · exact (announces_collect _ path).bind fun _ => (says_report _).announces.bind fun _ =>
      (says_pure _).announces

end UnitsModule

theorem World.announces_loadUnits (w : World) (settings : Settings) :
    Announces (w.loadUnits settings) := by
  unfold loadUnits
  split
  · exact announces_throw _
  · exact (announces_lift _).bind fun path => UnitsModule.announces_load _ path

theorem Database.announces_connect (check : String → Except Fault Unit) (base : List String)
    (kind name : String) : Announces (connect check base kind name) := by
  unfold connect
  split
  · exact announces_throw _
  · dsimp only
    split
    · exact announces_throw _
    · exact announces_throw _
    · exact (says_report _).announces.bind fun _ => (says_pure _).announces

theorem World.announces_openDatabase (w : World) (env : Environment) (settings : Settings) :
    Announces (w.openDatabase env settings) :=
  (announces_lift _).bind fun name => Database.announces_connect _ _ _ name

end Opening

/-! ## A run -/

/-- An invocation that can be carried out in a world. Its settings name the ledger `l` and a
store at `place`; its units are loaded, stay in their transactions, do not name the ledger and fail
with plain failures only. -/
structure World.Command (w : World) (place : List String) (l : Ledger) where
  environment : Environment
  invocation : Invocation
  settings : Settings
  log : Logging
  units : Units
  catalog : Catalog
  configured : w.settingsFor environment invocation = .ok settings
  logged : w.loggingFor settings = .ok log
  named : Request.ledgerNamed settings.tableName = .ok l
  placed : w.placeFor settings = some place
  /-- The log file may be the first in its directory. -/
  opens : ({ w with files := log.files } : World).canOpen place = true
  loaded : ∃ s s', w.loadUnits settings s = .ok units s'
  connected : ∃ d s s', w.openDatabase environment settings s = .ok d s'
  registered : Catalog.ofDrafts units.migrations.units = .ok catalog
  fair : ∀ x ∈ catalog.entries, x.Fair l
  fairBack : ∀ x ∈ catalog.entries, x.FairBack l
  seeders : ∀ x ∈ units.seeders.units, x.run.LeavesOpen ∧ x.run.Avoids l.table ∧ x.run.Plain

theorem Logging.conclude_exit (x : Logging) (f : Failure) : (x.conclude f).1 ≠ .ok 0 := by
  unfold conclude
  split
  · simp
  · split <;> simp

namespace World

variable {w : World} {place : List String}

/-- The session in which a command is performed, after some reports. -/
def sessionAt (w : World) (place : List String) (said : List Event) : Session :=
  { handle := { connection := { base := w.storeAt place } }, clock := w.clock, events := said }

theorem storeAt_setStore (w : World) (place : List String) (ts : Tables) :
    (w.setStore place ts).storeAt place = ts := by
  simp [setStore, storeAt]

/-- What a run tells of a command that came to a result. -/
def Tells (done : Finished) : EStateM.Result Failure Session Printed → Prop
  | .ok p s =>
    done.exit = .ok p.exit ∧ done.stdout = String.join (p.out.map (· ++ "\n")) ∧ done.calls = s.calls
  | .error _ _ => done.exit ≠ .ok 0

theorem transact_tells {env : Environment} {settings : Settings} {u : Units} {s s₁ : Session}
    (r : Request)
    (h : (do
      let u ← w.loadUnits settings
      let _ ← w.openDatabase env settings
      return u : Work Units) s = .ok u s₁) (x : Logging) :
    ∃ done log, w.transact env settings r s x =
        (done, Session.after (r.perform settings u s₁), log) ∧
      Tells done (r.perform settings u s₁) := by
  unfold transact
  dsimp only
  rw [h]
  dsimp only
  rcases r.perform settings u s₁ with ⟨p, s'⟩ | ⟨f, s'⟩
  · exact ⟨_, _, rfl, rfl, rfl, rfl⟩
  · exact ⟨_, _, rfl, Logging.conclude_exit _ f⟩

theorem run_prepared {env : Environment} {i : Invocation} {settings : Settings} {x log : Logging}
    {done : Finished} {s : Session} (hs : w.settingsFor env i = .ok settings)
    (hx : w.loggingFor settings = .ok x) (hplace : w.placeFor settings = some place)
    (hopens : ({ w with files := x.files } : World).canOpen place = true)
    (ht : ({ w with files := x.files } : World).transact env settings i.request
      (w.sessionAt place []) x = (done, s, log)) :
    w.run env i = ({ done with stderr := log.stderr },
      { ({ w with files := x.files } : World).keep (some place) s.handle.connection with
        files := log.files, clock := s.clock }) := by
  have hplace' : ({ w with files := x.files } : World).placeFor settings = some place := hplace
  have hconnection : ({ w with files := x.files } : World).connectionTo (some place) =
      { base := w.storeAt place } := by
    simp only [connectionTo, hopens, if_true]
    rfl
  have hsession : ({ handle := { connection := { base := w.storeAt place } }, clock := w.clock } :
      Session) = w.sessionAt place [] := rfl
  unfold run
  simp only [hs, hx, bind, Except.bind, pure, Except.pure, hplace', hconnection, hsession, ht]

/-- What is permanent in a store that was opened is in its file afterwards. -/
theorem storeAt_keep {c : Connection} (h : c.Untried (w.storeAt place)) :
    (w.keep (some place) c).storeAt place = c.base := by
  unfold keep
  dsimp only
  split
  · rename_i hissued
    exact (h hissued).1.symm
  · exact w.storeAt_setStore place c.base

end World

namespace World.Command

variable {w : World} {place : List String} {l : Ledger} (c : w.Command place l)

def finished : Finished := (w.run c.environment c.invocation).1

def after : World := (w.run c.environment c.invocation).2

/-- The units and the database are announced to the session of a command. -/
theorem opening_eq : ∃ said, ∀ s, (do
    let u ← w.loadUnits c.settings
    let _ ← w.openDatabase c.environment c.settings
    return u : Work Units) s = .ok c.units (s.saying said) := by
  obtain ⟨_, _, hload⟩ := c.loaded
  obtain ⟨d, _, _, hopen⟩ := c.connected
  exact ((w.announces_loadUnits _).always hload).bind
    (((w.announces_openDatabase _ _).always hopen).bind (Work.says_pure _))

/-- What the command comes to on its session is what its run tells, and what is permanent
there is in the store's file. -/
theorem run_eq : ∃ said,
    Tells c.finished (c.invocation.request.perform c.settings c.units (w.sessionAt place said)) ∧
      c.after.storeAt place = (Session.after (c.invocation.request.perform c.settings c.units
        (w.sessionAt place said))).store := by
  obtain ⟨said, hopening⟩ := c.opening_eq
  refine ⟨said, ?_⟩
  have huntried := (Request.perform_untried (w.storeAt place) c.settings c.units
    c.invocation.request (w.sessionAt place said) fun _ => ⟨rfl, rfl⟩).1
  obtain ⟨done, log, htransact, htells⟩ := transact_tells (w := { w with files := c.log.files })
    c.invocation.request (hopening (w.sessionAt place [])) c.log
  have hrun := run_prepared c.configured c.logged c.placed c.opens htransact
  rw [finished, after, hrun]
  exact ⟨htells, storeAt_keep huntried⟩

end World.Command

end SchemaLedger
