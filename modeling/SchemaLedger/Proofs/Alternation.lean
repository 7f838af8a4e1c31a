-- The law of the ledger's histories. Whatever is applied and reverted over one ledger, in
-- any order and from however old a reading, each version is applied and reverted by turns,
-- and the ledger has its one row just when the last turn was to apply it.
import SchemaLedger.Proofs.Fates
import SchemaLedger.Proofs.LedgerStep

namespace SchemaLedger.History

/-! ## Histories -/

/-- What is done to a ledger: a migration is applied or reverted, or someone makes sure of
the ledger's table or reads it. -/
inductive Act where
  | apply (m : Migration)
  | revert (m : Migration)
  | ensure
  | read (order : Ledger.Order) (limit : Option Int)

/-- A call that returned: what it did to which version. -/
structure Turn where
  operation : Operation
  version : String
  deriving DecidableEq, Repr

namespace Act

def perform (l : Ledger) : Act → Work Unit
  | .apply m => do let _ ← m.apply l
  | .revert m => do let _ ← m.revert l
  | .ensure => l.ensure
  | .read order limit => do let _ ← l.read order limit

/-- The turns of an act that returned. -/
def turns : Act → List Turn
  | .apply m => [⟨.up, m.version⟩]
  | .revert m => [⟨.down, m.version⟩]
  | .ensure | .read _ _ => []

/-- The unit of an act neither ends its transaction nor names the ledger's table. -/
def Fair (l : Ledger) : Act → Prop
  | .apply m => m.up.LeavesOpen ∧ m.up.Avoids l.table
  | .revert m => m.down.LeavesOpen ∧ m.down.Avoids l.table
  | .ensure | .read _ _ => True

/-- Nothing passes by the handlers of an act: its unit fails with plain failures only, and a
description that is to be recorded is stored or refused by the store. -/
def Settles : Act → Prop
  | .apply m => m.up.Plain ∧ m.Describable
  | .revert m => m.down.Plain
  | .ensure | .read _ _ => True

end Act

/-- The turns of acts that are done one after another, whether they return or fail, and
the session after them. -/
def play (l : Ledger) : List Act → Session → List Turn × Session
  | [], s => ([], s)
  | a :: rest, s =>
    match a.perform l s with
    | .ok _ s' => (a.turns ++ (play l rest s').1, (play l rest s').2)
    | .error _ s' => play l rest s'

/-- The operations of the turns of a version. -/
def turnsOf (v : String) (turns : List Turn) : List Operation :=
  (turns.filter (·.version == v)).map Turn.operation

/-- Operations come by turns: what is here is reverted next, and what is not here is applied. -/
def Alternates : Bool → List Operation → Prop
  | _, [] => True
  | here, op :: rest => op = (if here then .down else .up) ∧ Alternates (!here) rest

/-- Whether something is here after operations: whether the last of them applied it, and
without any whether it was here before. -/
def hereAfter (here : Bool) (ops : List Operation) : Bool :=
  (ops.getLast?.map (· == .up)).getD here

theorem hereAfter_cons (here : Bool) (op : Operation) (ops : List Operation) :
    hereAfter here (op :: ops) = hereAfter (op == .up) ops := by
  unfold hereAfter
  rw [List.getLast?_cons]
  rcases ops.getLast? with _ | last <;> rfl

theorem turnsOf_append (v : String) (a b : List Turn) :
    turnsOf v (a ++ b) = turnsOf v a ++ turnsOf v b := by
  unfold turnsOf
  rw [List.filter_append, List.map_append]

/-! ## One step -/

/-- A version has a row. -/
def hasRow (rows : List LedgerRow) (v : String) : Bool := rows.any (·.version == v)

theorem hasRow_iff {rows : List LedgerRow} {v : String} :
    hasRow rows v = true ↔ v ∈ rows.map LedgerRow.version := by
  simp [hasRow]

theorem hasRow_append (rows : List LedgerRow) (r : LedgerRow) (v : String) :
    hasRow (rows ++ [r]) v = (hasRow rows v || r.version == v) := by
  simp [hasRow]

theorem hasRow_filter (rows : List LedgerRow) (w v : String) :
    hasRow (rows.filter fun r => !(r.version == w)) v = (hasRow rows v && !(w == v)) := by
  by_cases h : w = v
  · subst h
    simp [hasRow]
  · have hwv : (w == v) = false := by simpa using h
    rw [hwv, Bool.not_false, Bool.and_true]
    unfold hasRow
    rw [List.any_filter]
    congr 1
    funext r
    by_cases hr : r.version = v
    · simp [hr, Ne.symm h]
    · simp [hr]

/-- A ledger in order has one row of a version or none. -/
theorem count_rows {rows : List LedgerRow} (h : (rows.map LedgerRow.version).Nodup) (v : String) :
    rows.countP (·.version == v) = if hasRow rows v then 1 else 0 := by
  have hc : rows.countP (·.version == v) = (rows.map LedgerRow.version).count v := by
    rw [List.count, List.countP_map]
    rfl
  rw [hc, h.count]
  simp only [hasRow_iff]

/-- The turns of a step fit the rows before it, and the rows after it are those that the
turns lead to. -/
def Moves (turns : List Turn) (rows rows' : List LedgerRow) : Prop :=
  ∀ v, (turnsOf v turns = [] ∧ hasRow rows' v = hasRow rows v) ∨
    (turnsOf v turns = [if hasRow rows v then .down else .up] ∧ hasRow rows' v = !hasRow rows v)

theorem moves_nil (rows : List LedgerRow) : Moves [] rows rows := fun _ => .inl ⟨rfl, rfl⟩

theorem moves_applied {rows : List LedgerRow} {r : LedgerRow}
    (h : r.version ∉ rows.map LedgerRow.version) :
    Moves [⟨.up, r.version⟩] rows (rows ++ [r]) := by
  intro v
  rw [hasRow_append]
  by_cases hv : r.version = v
  · subst hv
    rw [← hasRow_iff, Bool.not_eq_true] at h
    exact .inr ⟨by simp [turnsOf, h], by simp [h]⟩
  · exact .inl ⟨by simp [turnsOf, hv], by simp [hv]⟩

theorem moves_reverted {rows : List LedgerRow} {w : String}
    (h : w ∈ rows.map LedgerRow.version) :
    Moves [⟨.down, w⟩] rows (rows.filter fun r => !(r.version == w)) := by
  intro v
  rw [hasRow_filter]
  by_cases hv : w = v
  · subst hv
    rw [← hasRow_iff] at h
    exact .inr ⟨by simp [turnsOf, h], by simp [h]⟩
  · exact .inl ⟨by simp [turnsOf, hv], by simp [hv]⟩

/-- An act that fails leaves the ledger's rows, and one that returns makes its turns, whatever
is planned or open. -/
theorem Act.step {l : Ledger} {a : Act} {s : Session} {rows : List LedgerRow}
    (hl : l.Holds s.store rows) (hf : a.Fair l) :
    (∃ f s', a.perform l s = .error f s' ∧ l.Holds s'.store rows) ∨
      ∃ s' rows', a.perform l s = .ok () s' ∧ l.Holds s'.store rows' ∧
        Moves a.turns rows rows' := by
  cases a with
  | apply m =>
    have hl' := Job.holds_effect (j := Job.applying l m)
      (s := s.begun (.applying m.version m.description.shown)) hf.2 hl
    rcases Job.perform_store (Job.applying_sturdy l m) hf.1 s
        (.applying m.version m.description.shown) .applied with
      ⟨f, s', hrun, hstore⟩ | ⟨us, o, s', hrun, hpart, hstore⟩ <;>
    rw [← Migration.apply_eq] at hrun
    · exact .inl ⟨f, s', Work.bind_error hrun _, hstore ▸ hl⟩
    · obtain ⟨text, a, -, -, hnew, hus⟩ := hl'.of_recorded? hpart
      exact .inr ⟨s', _, Work.bind_ok hrun _, hstore ▸ hus,
        moves_applied (r := ⟨Ledger.nextId rows, m.version, text, a⟩) hnew⟩
  | revert m =>
    have hl' := Job.holds_effect (j := Job.reverting l m)
      (s := s.begun (.reverting m.version m.description.shown)) hf.2 hl
    rcases Job.perform_store (Job.reverting_sturdy l m) hf.1 s
        (.reverting m.version m.description.shown) .reverted with
      ⟨f, s', hrun, hstore⟩ | ⟨us, o, s', hrun, hpart, hstore⟩ <;>
    rw [← Migration.revert_eq] at hrun
    · exact .inl ⟨f, s', Work.bind_error hrun _, hstore ▸ hl⟩
    · obtain ⟨hold, hus⟩ := hl'.of_removed? hpart
      exact .inr ⟨s', _, Work.bind_ok hrun _, hstore ▸ hus, moves_reverted hold⟩
  | ensure =>
    rcases l.ensure_store s with ⟨f, s', hrun, hstore⟩ | ⟨s', hrun, hstore, _⟩
    · exact .inl ⟨f, s', hrun, hstore ▸ hl⟩
    · rw [hl.made_eq] at hstore
      exact .inr ⟨s', rows, hrun, hstore ▸ hl, moves_nil rows⟩
  | read order limit =>
    have hstore := l.read_store order limit s
    rcases hrun : l.read order limit s with ⟨found, s'⟩ | ⟨f, s'⟩
    · rw [hrun] at hstore
      exact .inr ⟨s', rows, Work.bind_ok hrun _, hstore ▸ hl, moves_nil rows⟩
    · rw [hrun] at hstore
      exact .inl ⟨f, s', Work.bind_error hrun _, hstore ▸ hl⟩

/-- An act that settles leaves the session ready for the next one. -/
theorem Act.ready {l : Ledger} {a : Act} {s : Session} (hr : s.Ready) (hf : a.Fair l)
    (hs : a.Settles) : (Session.after (a.perform l s)).Ready := by
  have attempted {j : Job} (hj : j.Sound) (ho : j.routine.LeavesOpen) (hp : j.routine.Plain)
      (first : Event) (last : String → Int → Event) :
      (Session.after ((j.perform first last >>= fun _ => (pure () : Work Unit)) s)).Ready := by
    rw [Work.after_bind_pure]
    rcases Job.perform_cases hj hr ho (fun _ => hp.not_interrupted hr.faults _ _) first last with
      ⟨f, _, _, s', _, hrun, hreach⟩ | ⟨us, o, s', _, hrun, _, _, hreach⟩
    · rw [hrun]
      exact hreach.leaves.ready hr
    · rw [hrun]
      exact hreach.leaves.ready hr
  cases a with
  | apply m =>
    have hready := attempted (Job.applying_sound l hs.2) hf.1 hs.1
      (.applying m.version m.description.shown) .applied
    rw [← Migration.apply_eq] at hready
    exact hready
  | revert m =>
    have hready := attempted (Job.reverting_sound l m) hf.1 hs
      (.reverting m.version m.description.shown) .reverted
    rw [← Migration.revert_eq] at hready
    exact hready
  | ensure =>
    rcases l.ensure_cases hr.between with
      ⟨f, s', hrun, hleaves, _⟩ | ⟨s', hrun, _, hleaves, _⟩ <;>
    · have hperform : Act.ensure.perform l s = _ := hrun
      rw [hperform]
      exact hleaves.ready hr
  | read order limit =>
    have hafter : Session.after ((Act.read order limit).perform l s) = _ :=
      Work.after_bind_pure (l.read order limit) (fun _ => ()) s
    rw [hafter]
    rcases l.read_cases hr.between order limit with
      ⟨f, s', hrun, hleaves, _⟩ | ⟨_, s', hrun, _, hleaves, _⟩ <;>
    · rw [hrun]
      exact hleaves.ready hr

/-! ## Any history -/

/-- A step's turns and then those of a run fit together. -/
theorem Moves.alternates {turns rest : List Turn} {rows rows' : List LedgerRow} {v : String}
    (h : Moves turns rows rows') (ha : Alternates (hasRow rows' v) (turnsOf v rest)) :
    Alternates (hasRow rows v) (turnsOf v (turns ++ rest)) ∧
      hereAfter (hasRow rows v) (turnsOf v (turns ++ rest)) =
        hereAfter (hasRow rows' v) (turnsOf v rest) := by
  rw [turnsOf_append]
  rcases h v with ⟨hnone, hsame⟩ | ⟨hone, hother⟩
  · rw [hnone, List.nil_append, ← hsame]
    exact ⟨ha, rfl⟩
  · rw [hone, List.singleton_append, hereAfter_cons]
    rw [hother] at ha ⊢
    refine ⟨⟨rfl, ha⟩, ?_⟩
    rcases hasRow rows v <;> rfl

theorem play_takes_turns {l : Ledger} (acts : List Act) {s : Session} {rows : List LedgerRow}
    (hl : l.Holds s.store rows) (hf : ∀ a ∈ acts, a.Fair l) :
    ∃ rows', l.Holds (play l acts s).2.store rows' ∧ ∀ v,
      Alternates (hasRow rows v) (turnsOf v (play l acts s).1) ∧
        rows'.countP (·.version == v) =
          if hereAfter (hasRow rows v) (turnsOf v (play l acts s).1) then 1 else 0 := by
  induction acts generalizing s rows with
  | nil => exact ⟨rows, hl, fun v => ⟨trivial, count_rows hl.distinct v⟩⟩
  | cons a rest ih =>
    have hrest : ∀ b ∈ rest, b.Fair l := fun b hb => hf b (List.mem_cons_of_mem _ hb)
    unfold play
    rcases a.step hl (hf a List.mem_cons_self) with
      ⟨f, s', hrun, hl'⟩ | ⟨s', rows₁, hrun, hl', hmoves⟩
    · rw [hrun]
      exact ih hl' hrest
    · rw [hrun]
      obtain ⟨rows', hus, hv⟩ := ih hl' hrest
      refine ⟨rows', hus, fun v => ?_⟩
      obtain ⟨ha, hcount⟩ := hv v
      obtain ⟨ha', hhere⟩ := hmoves.alternates ha
      exact ⟨ha', hhere ▸ hcount⟩

theorem play_ready {l : Ledger} (acts : List Act) {s : Session} (hr : s.Ready)
    (hf : ∀ a ∈ acts, a.Fair l) (hs : ∀ a ∈ acts, a.Settles) : (play l acts s).2.Ready := by
  induction acts generalizing s with
  | nil => exact hr
  | cons a rest ih =>
    have hready := a.ready hr (hf a List.mem_cons_self) (hs a List.mem_cons_self)
    have hrest : ∀ s', s'.Ready → (play l rest s').2.Ready := fun s' hr' =>
      ih hr' (fun b hb => hf b (List.mem_cons_of_mem _ hb))
        fun b hb => hs b (List.mem_cons_of_mem _ hb)
    unfold play
    split
    next s' hrun =>
      rw [hrun] at hready
      exact hrest s' hready
    next s' hrun =>
      rw [hrun] at hready
      exact hrest s' hready

/-- Over any history of applying and reverting on one ledger the calls that return for a
version alternate, beginning with what the ledger asks for; and after any part of it the
ledger holds one row of the version if the last of them applied it, and none otherwise. At
the end no transaction is open, unless something passed by the handlers of an act. -/
theorem applying_and_reverting_a_version_take_turns {l : Ledger} {s : Session}
    {rows : List LedgerRow} (hr : s.Ready) (hl : l.Holds s.store rows) (acts : List Act)
    (hf : ∀ a ∈ acts, a.Fair l) :
    ((∀ a ∈ acts, a.Settles) → (play l acts s).2.handle.Idle) ∧
      ∃ rows', l.Holds (play l acts s).2.store rows' ∧ ∀ v,
        Alternates (hasRow rows v) (turnsOf v (play l acts s).1) ∧
          rows'.countP (·.version == v) =
            if hereAfter (hasRow rows v) (turnsOf v (play l acts s).1) then 1 else 0 :=
  ⟨fun hs => (play_ready acts hr hf hs).idle, play_takes_turns acts hl hf⟩

/-- A migration that is applied, applied again and reverted twice, while a commit is
refused, takes its turns. -/
theorem a_stubborn_history_takes_turns :
    let m : Migration :=
      { version := "002", down := .ofActions [.send (.statement (.drop "books"))],
        up := .ofActions
          [.send (.statement (.create { name := "books", columns := [] } "books" false))] }
    let s : Session :=
      { handle :=
          { connection := { base := [({} : Ledger).filled [⟨1, "001", "first", "long ago"⟩]] },
            plan := [⟨.commit, 1, .store .inactive⟩] },
        clock := .still 0 }
    let acts : List Act :=
      [.apply m, .ensure, .apply m, .read .newestFirst (some 2), .apply m, .revert m, .revert m]
    s.Ready ∧ ({} : Ledger).Holds s.store [⟨1, "001", "first", "long ago"⟩] ∧
      (∀ a ∈ acts, a.Fair {}) ∧
      (play {} acts s).2.handle.Idle ∧
      ∃ rows', ({} : Ledger).Holds (play {} acts s).2.store rows' ∧
        Alternates false (turnsOf "002" (play {} acts s).1) ∧
        Alternates true (turnsOf "001" (play {} acts s).1) := by
  intro m s acts
  have hr : s.Ready :=
    ⟨rfl, by simp [Handle.StoreFaults, s], Readings.dated_still (by decide) (by decide)⟩
  have hl : ({} : Ledger).Holds s.store [⟨1, "001", "first", "long ago"⟩] :=
    Ledger.holds_filled {} (by simp)
  have hopen : m.up.LeavesOpen ∧ m.down.LeavesOpen :=
    ⟨.ofActions (by simp [Action.LeavesOpen]), .ofActions (by simp [Action.LeavesOpen])⟩
  have hbooks : sameName "books" "migrations" = false := by decide
  have havoid : m.up.Avoids "migrations" ∧ m.down.Avoids "migrations" :=
    ⟨.ofActions (by simp [Action.Avoids, Command.read, Statement.table?, hbooks]),
      .ofActions (by simp [Action.Avoids, Command.read, Statement.table?, hbooks])⟩
  have hf : ∀ a ∈ acts, a.Fair {} := by
    simp only [acts, List.forall_mem_cons, Act.Fair]
    exact ⟨⟨hopen.1, havoid.1⟩, trivial, ⟨hopen.1, havoid.1⟩, trivial, ⟨hopen.1, havoid.1⟩,
      ⟨hopen.2, havoid.2⟩, ⟨hopen.2, havoid.2⟩, by simp⟩
  have hsettles : ∀ a ∈ acts, a.Settles := by
    have hplain : m.up.Plain ∧ m.down.Plain :=
      ⟨.ofActions (by simp [Action.Plain]), .ofActions (by simp [Action.Plain])⟩
    have htext : m.Describable := by simp [Migration.Describable, Migration.describe, m]
    simp only [acts, List.forall_mem_cons, Act.Settles]
    exact ⟨⟨hplain.1, htext⟩, trivial, ⟨hplain.1, htext⟩, trivial, ⟨hplain.1, htext⟩,
      hplain.2, hplain.2, by simp⟩
  obtain ⟨hidle, rows', hus, hv⟩ := applying_and_reverting_a_version_take_turns hr hl acts hf
  exact ⟨hr, hl, hf, hidle hsettles, rows', hus, (hv "002").1, (hv "001").1⟩

end SchemaLedger.History
