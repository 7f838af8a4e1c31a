-- What the laws of the engine use of a store, whatever it is made of: transactions of tables as of
-- rows, errors of one family, statements that keep to the table they name, and ids that grow. The
-- store at hand has all of it. What is done in a transaction is done whole or not at all, and that
-- follows from the contract alone.
import SchemaLedger.Proofs.Frame
import SchemaLedger.Proofs.Transaction

namespace SchemaLedger

/-! ## The contract of transactions -/

/-- The calls on a store, and what is so between them. -/
structure Calls (H : Type) where
  begin : H → Except Failure Ticket × H
  execute {α : Type} : H → Ticket → (Tables → Except Failure (α × Tables)) → Except Failure α × H
  commit : H → Ticket → Except Failure Unit × H
  rollback : H → Ticket → Except Failure Unit × H
  /-- What is permanent. -/
  base : H → Tables
  /-- No transaction is open. -/
  Idle : H → Prop
  /-- The transaction of a ticket is open, and sees these tables. -/
  Sees : H → Ticket → Tables → Prop
  /-- What goes wrong of itself from now on is an error of the store. -/
  Faithful : H → Prop

/-- One transaction at a time. What it does to tables and rows is its own until a commit, and it
ends with a commit or a rollback even if these are refused; then nothing of it is left. -/
structure Transactional {H : Type} (c : Calls H) : Prop where
  begun {h h' : H} {t : Ticket} : c.Idle h → c.begin h = (.ok t, h') →
    c.Sees h' t (c.base h) ∧ c.base h' = c.base h
  barred {h h' : H} {f : Failure} : c.Idle h → c.begin h = (.error f, h') →
    c.Idle h' ∧ c.base h' = c.base h
  single {h : H} {t : Ticket} {ts : Tables} : c.Sees h t ts → ∃ f h', c.begin h = (.error f, h')
  executed {α : Type} {h h' : H} {t : Ticket} {ts : Tables}
    {step : Tables → Except Failure (α × Tables)} {a : α} : c.Sees h t ts →
    c.execute h t step = (.ok a, h') →
    ∃ us, step ts = .ok (a, us) ∧ c.Sees h' t us ∧ c.base h' = c.base h
  refused {α : Type} {h h' : H} {t : Ticket} {ts : Tables}
    {step : Tables → Except Failure (α × Tables)} {f : Failure} : c.Sees h t ts →
    c.execute h t step = (.error f, h') → c.Sees h' t ts ∧ c.base h' = c.base h
  committed {h h' : H} {t : Ticket} {ts : Tables} : c.Sees h t ts → c.commit h t = (.ok (), h') →
    c.Idle h' ∧ c.base h' = ts
  uncommitted {h h' : H} {t : Ticket} {ts : Tables} {f : Failure} : c.Sees h t ts →
    c.commit h t = (.error f, h') → c.Idle h' ∧ c.base h' = c.base h
  rolledBack {h : H} {t : Ticket} {ts : Tables} : c.Sees h t ts →
    c.Idle (c.rollback h t).2 ∧ c.base (c.rollback h t).2 = c.base h

/-- Every refusal is an error of the store, but for what a step fails with of its own. -/
structure OneFamily {H : Type} (c : Calls H) : Prop where
  begin {h h' : H} {f : Failure} : c.Faithful h → c.begin h = (.error f, h') → ∃ e, f = .store e
  execute {α : Type} {h h' : H} {t : Ticket} {step : Tables → Except Failure (α × Tables)}
    {f : Failure} : c.Faithful h → c.execute h t step = (.error f, h') →
    (∃ e, f = .store e) ∨ ∃ ts, step ts = .error f
  commit {h h' : H} {t : Ticket} {f : Failure} : c.Faithful h → c.commit h t = (.error f, h') →
    ∃ e, f = .store e
  rollback {h h' : H} {t : Ticket} {f : Failure} : c.Faithful h → c.rollback h t = (.error f, h') →
    ∃ e, f = .store e

/-! ### Work in a transaction -/

namespace Calls

variable {H : Type} (c : Calls H)

/-- Steps one after another in a transaction, up to the first that is refused. -/
def carry (t : Ticket) : List (Tables → Except Failure (Unit × Tables)) → H → Except Failure Unit × H
  | [], h => (.ok (), h)
  | step :: rest, h =>
    match c.execute h t step with
    | (.ok _, h') => carry t rest h'
    | (.error f, h') => (.error f, h')

/-- Steps in a transaction of their own, which is committed if all are carried out. -/
def together (steps : List (Tables → Except Failure (Unit × Tables))) (h : H) :
    Except Failure Unit × H :=
  match c.begin h with
  | (.error f, h') => (.error f, h')
  | (.ok t, h') =>
    match c.carry t steps h' with
    | (.ok _, h'') => c.commit h'' t
    | (.error f, h'') => (.error f, (c.rollback h'' t).2)

end Calls

/-- What steps make of tables, if none fails. -/
def Tables.through (steps : List (Tables → Except Failure (Unit × Tables))) (ts : Tables) :
    Except Failure Tables :=
  steps.foldlM (fun ts step => (step ts).map Prod.snd) ts

namespace Transactional

variable {H : Type} {c : Calls H} (hc : Transactional c)
include hc

/-- Steps are carried out on what the transaction sees, and the permanent tables stay. -/
theorem carry_cases (steps : List (Tables → Except Failure (Unit × Tables))) {t : Ticket} {h : H}
    {ts : Tables} (hs : c.Sees h t ts) :
    (∃ h' us, c.carry t steps h = (.ok (), h') ∧ ts.through steps = .ok us ∧ c.Sees h' t us ∧
        c.base h' = c.base h) ∨
      ∃ f h' us, c.carry t steps h = (.error f, h') ∧ c.Sees h' t us ∧ c.base h' = c.base h := by
  induction steps generalizing h ts with
  | nil => exact .inl ⟨h, ts, rfl, rfl, hs, rfl⟩
  | cons step rest ih =>
    rcases hstep : c.execute h t step with ⟨f | ⟨⟩, h₁⟩
    · obtain ⟨hs₁, hbase⟩ := hc.refused hs hstep
      exact .inr ⟨f, h₁, ts, by rw [Calls.carry, hstep], hs₁, hbase⟩
    · obtain ⟨us, hus, hs₁, hbase⟩ := hc.executed hs hstep
      have hcarry : c.carry t (step :: rest) h = c.carry t rest h₁ := by rw [Calls.carry, hstep]
      have hthrough : ts.through (step :: rest) = us.through rest := by
        unfold Tables.through
        rw [List.foldlM_cons, hus]
        rfl
      rw [hcarry, hthrough, ← hbase]
      exact ih hs₁

/-- Steps in a transaction of their own are all made permanent, or none of them is; either way no
transaction is open then. -/
theorem together_whole_or_not_at_all (steps : List (Tables → Except Failure (Unit × Tables)))
    {h : H} (hi : c.Idle h) :
    c.Idle (c.together steps h).2 ∧
      (((c.together steps h).1 = .ok () ∧
          (c.base h).through steps = .ok (c.base (c.together steps h).2)) ∨
        ∃ f, (c.together steps h).1 = .error f ∧ c.base (c.together steps h).2 = c.base h) := by
  unfold Calls.together
  rcases hbegin : c.begin h with ⟨f | t, h₁⟩
  · obtain ⟨hidle, hbase⟩ := hc.barred hi hbegin
    exact ⟨hidle, .inr ⟨f, rfl, hbase⟩⟩
  · obtain ⟨hs, hbase⟩ := hc.begun hi hbegin
    dsimp only
    rcases hc.carry_cases steps hs with
      ⟨h₂, us, hcarry, hthrough, hs', hbase'⟩ | ⟨f, h₂, us, hcarry, hs', hbase'⟩
    · rw [hcarry]
      dsimp only
      rcases hcommit : c.commit h₂ t with ⟨f | ⟨⟩, h₃⟩
      · obtain ⟨hidle, hkept⟩ := hc.uncommitted hs' hcommit
        exact ⟨hidle, .inr ⟨f, rfl, hkept.trans (hbase'.trans hbase)⟩⟩
      · obtain ⟨hidle, hdone⟩ := hc.committed hs' hcommit
        exact ⟨hidle, .inl ⟨rfl, hdone ▸ hthrough⟩⟩
    · rw [hcarry]
      obtain ⟨hidle, hkept⟩ := hc.rolledBack hs'
      exact ⟨hidle, .inr ⟨f, rfl, hkept.trans (hbase'.trans hbase)⟩⟩

end Transactional

/-! ### The handle -/

namespace Handle

/-- The calls on the handle, in whose plan there may be faults. -/
def calls : Calls Handle where
  begin := Handle.begin
  execute := Handle.execute
  commit := Handle.commit
  rollback := Handle.rollback
  base h := h.connection.base
  Idle := Handle.Idle
  Sees h t ts := h.connection.work = some ts ∧ h.connection.isLive t = true
  Faithful h := StoreFaults h.plan

variable {h h' : Handle} {t : Ticket} {ts : Tables}

theorem inside_of_sees (hs : calls.Sees h t ts) : h.Inside t ts h :=
  ⟨rfl, hs.1, List.contains_iff_mem.mp hs.2, fun _ hu => List.mem_of_mem_erase hu, rfl, rfl, rfl, rfl⟩

theorem Inside.sees {h₀ : Handle} (i : h₀.Inside t ts h) : calls.Sees h t ts := ⟨i.work, i.isLive⟩

/-- A step in a transaction is carried out on what that sees, or nothing changes. -/
theorem execute_cases {α : Type} (hs : calls.Sees h t ts)
    (step : Tables → Except Failure (α × Tables)) :
    (∃ a us h', h.execute t step = (.ok a, h') ∧ step ts = .ok (a, us) ∧ calls.Sees h' t us ∧
        calls.base h' = calls.base h) ∨
      ∃ f h', h.execute t step = (.error f, h') ∧ calls.Sees h' t ts ∧
        calls.base h' = calls.base h := by
  have i := inside_of_sees hs
  have hkept := (i.inWork ts (h.counts.execute + 1)).sees
  rw [execute_inside i]
  rcases faultAt h.plan .execute h.counts.execute with _ | f
  · rcases step ts with f | ⟨a, us⟩
    · exact .inr ⟨f, _, rfl, hkept, rfl⟩
    · exact .inl ⟨a, us, _, rfl, rfl, (i.inWork us _).sees, rfl⟩
  · exact .inr ⟨f, _, rfl, hkept, rfl⟩

theorem calls_transactional : Transactional calls where
  begun := fun {h h' t} hi hbegin => by
    rcases hb : h.beginRefusal? with _ | f
    · obtain ⟨t', h₁, hopen, i, _⟩ := begin_opened hi hb
      cases hbegin.symm.trans hopen
      exact ⟨i.sees, i.base⟩
    · obtain ⟨h₁, hrefused, _⟩ := begin_refused hi hb
      cases hbegin.symm.trans hrefused
  barred := fun {h h' f} hi hbegin => by
    rcases hb : h.beginRefusal? with _ | g
    · obtain ⟨t', h₁, hopen, _⟩ := begin_opened hi hb
      cases hbegin.symm.trans hopen
    · obtain ⟨h₁, hrefused, hset⟩ := begin_refused hi hb
      cases hbegin.symm.trans hrefused
      exact ⟨hset.idle, hset.base⟩
  single hs := by
    obtain ⟨f, h', hbegin, _⟩ := begin_barred fun ho => (inside_of_sees hs).not_idle ho.idle
    exact ⟨f, h', hbegin⟩
  executed hs hexecute := by
    rcases execute_cases hs _ with ⟨a, us, h₁, hdone, hstep, hs₁, hbase⟩ | ⟨f, h₁, hfail, _⟩
    · cases hexecute.symm.trans hdone
      exact ⟨us, hstep, hs₁, hbase⟩
    · cases hexecute.symm.trans hfail
  refused hs hexecute := by
    rcases execute_cases hs _ with ⟨a, us, h₁, hdone, _⟩ | ⟨f, h₁, hfail, hs₁, hbase⟩
    · cases hexecute.symm.trans hdone
    · cases hexecute.symm.trans hfail
      exact ⟨hs₁, hbase⟩
  committed hs hcommit := by
    rcases commit_inside (inside_of_sees hs) with ⟨h', hdone, hset⟩ | ⟨f, h', hfail, _⟩
    · cases hcommit.symm.trans hdone
      exact ⟨hset.idle, hset.base⟩
    · cases hcommit.symm.trans hfail
  uncommitted hs hcommit := by
    rcases commit_inside (inside_of_sees hs) with ⟨h', hdone, hset⟩ | ⟨f, h', hfail, hset⟩
    · cases hcommit.symm.trans hdone
    · cases hcommit.symm.trans hfail
      exact ⟨hset.idle, hset.base⟩
  rolledBack hs := by
    obtain ⟨h', hrolled, hset⟩ := rollback_inside (inside_of_sees hs)
    have hafter : (calls.rollback _ _).2 = h' := congrArg Prod.snd hrolled
    rw [hafter]
    exact ⟨hset.idle, hset.base⟩

theorem lift_raises {α : Type} {r : Except StoreError α × Connection} {f : Failure}
    (he : h.lift r = (.error f, h')) : ∃ e, f = .store e := by
  rcases r with ⟨e | a, c⟩
  · cases he
    exact ⟨e, rfl⟩
  · cases he

theorem calls_oneFamily : OneFamily calls where
  begin := fun {h h' f} hp he => by
    change Handle.begin h = _ at he
    unfold Handle.begin at he
    rcases hf : h.planned? .begin with _ | g
    · rw [hf] at he
      exact lift_raises he
    · rw [hf] at he
      cases he
      exact hp.of_faultAt hf
  execute := fun {_ h h' t step f} hp he => by
    have hresult : (h.execute t step).1 = .error f := congrArg Prod.fst he
    unfold Handle.execute at hresult
    rcases hf : h.planned? .execute with _ | g
    · have hconnection : (h.connection.execute t step).1 = .error f := by rwa [hf] at hresult
      unfold Connection.execute at hconnection
      by_cases hlive : h.connection.isLive t = true
      · rw [if_pos hlive] at hconnection
        rcases hstep : step h.connection.visible with g | ⟨a, ts⟩
        · rw [hstep] at hconnection
          cases hconnection
          exact .inr ⟨_, hstep⟩
        · rw [hstep] at hconnection
          cases hconnection
      · rw [if_neg hlive] at hconnection
        cases hconnection
        exact .inl ⟨_, rfl⟩
    · rw [hf] at hresult
      cases hresult
      exact .inl (hp.of_faultAt hf)
  commit := fun {h h' t f} hp he => by
    change Handle.commit h t = _ at he
    unfold Handle.commit at he
    rcases hf : h.planned? .commit with _ | g
    · rw [hf] at he
      exact lift_raises he
    · rw [hf] at he
      cases he
      exact hp.of_faultAt hf
  rollback := fun {h h' t f} hp he => by
    change Handle.rollback h t = _ at he
    unfold Handle.rollback at he
    rcases hf : h.planned? .rollback with _ | g
    · rw [hf] at he
      cases he
    · rw [hf] at he
      cases he
      exact hp.of_faultAt hf

end Handle

/-! ## The contract of tables -/

/-- What statements do to tables. One keeps to the table that it names. A row that is added gets an
id that is greater than those there, and no value that a unique column holds already. -/
structure Tabular (run : Tables → Statement → Except StoreError (Nat × Tables)) : Prop where
  frame {ts us : Tables} {s : Statement} {k : Nat} {other : String} :
    (∀ n, s.table? = some n → sameName n other = false) → run ts s = .ok (k, us) →
    us.find? other = ts.find? other
  created {ts us : Tables} {t : Table} {spelled : String} {ifAbsent : Bool} {k : Nat} :
    run ts (.create t spelled ifAbsent) = .ok (k, us) →
    us.find? t.name = (ts.find? t.name).or (some t)
  dropped {ts us : Tables} {name : String} {k : Nat} :
    run ts (.drop name) = .ok (k, us) → us.find? name = none
  added {ts us : Tables} {name : String} {values : List (String × Cell)} {k : Nat} :
    run ts (.insert name values) = .ok (k, us) →
    ∃ t r, ts.find? name = some t ∧ us.find? name = some { t with rows := t.rows ++ [r] } ∧
      (∀ q ∈ t.rows, q.id < r.id) ∧
      ∀ i c, t.columns[i]? = some c → c.unique = true → Table.cellAt r i ≠ none →
        ∀ q ∈ t.rows, Table.cellAt q i ≠ Table.cellAt r i
  deleted {ts us : Tables} {name column : String} {value : Cell} {k : Nat} :
    run ts (.delete name column value) = .ok (k, us) →
    ∃ t i, ts.find? name = some t ∧ t.columnIndex? column = some i ∧ k = t.countAt i value ∧
      us.find? name = some (t.deleteAt i value)

/-- A row that is added stands last in the order of ids, if the rows were in that order. -/
theorem Tabular.ascending {run : Tables → Statement → Except StoreError (Nat × Tables)}
    (hrun : Tabular run) {ts us : Tables} {name : String} {values : List (String × Cell)} {k : Nat}
    {t u : Table} (ht : ts.find? name = some t) (hu : us.find? name = some u)
    (h : run ts (.insert name values) = .ok (k, us))
    (hascending : t.rows.Pairwise fun q r => q.id < r.id) :
    u.rows.Pairwise fun q r => q.id < r.id := by
  obtain ⟨t', r, ht', hu', hlast, _⟩ := hrun.added h
  cases ht.symm.trans ht'
  cases hu.symm.trans hu'
  refine List.pairwise_append.mpr ⟨hascending, List.pairwise_singleton _ _, fun q hq p hp => ?_⟩
  rw [List.mem_singleton.mp hp]
  exact hlast q hq

namespace Table

variable {t : Table} {rows : List Row} {cells : List Cell}

theorem id_lt_nextId {q : Row} (hq : q ∈ t.rows) : q.id < t.nextId := by
  have hmost : ∀ (ids : List Nat) (most : Nat), q.id ∈ ids ∨ q.id ≤ most →
      q.id ≤ ids.foldl max most := by
    intro ids
    induction ids with
    | nil => exact fun most h => h.resolve_left List.not_mem_nil
    | cons id ids ih =>
      intro most h
      rw [List.foldl_cons]
      refine ih _ ?_
      rcases h with h | h
      · rcases List.mem_cons.mp h with h | h
        · exact .inr (h ▸ Nat.le_max_right _ _)
        · exact .inl h
      · exact .inr (Nat.le_trans h (Nat.le_max_left _ _))
  exact Nat.lt_succ_of_le (hmost _ 0 (.inl (List.mem_map_of_mem hq)))

/-- Cells that are allowed beside rows repeat no value of theirs in a unique column. -/
theorem apart_of_check (h : t.check rows cells = .ok ()) {i : Nat} {c : Column} {text : String}
    (hc : t.columns[i]? = some c) (hunique : c.unique = true) (hi : cells[i]? = some (some text)) :
    ∀ q ∈ rows, cellAt q i ≠ some text := by
  have hnone : t.duplicateIn? rows cells = none := by
    unfold check at h
    rcases hm : t.missing? cells with _ | _
    · rw [hm] at h
      rcases hd : t.duplicateIn? rows cells with _ | _
      · rfl
      · rw [hd] at h
        cases h
    · rw [hm] at h
      cases h
  have hzip : ((c, i), some text) ∈ t.columns.zipIdx.zip cells := by
    refine List.mem_of_getElem? (i := i) (List.getElem?_zip_eq_some.mpr ⟨?_, hi⟩)
    rw [List.getElem?_zipIdx, hc, Nat.zero_add]
    rfl
  have hfree := List.find?_eq_none.mp (Option.map_eq_none_iff.mp hnone) _ hzip
  intro q hq hsame
  refine hfree ?_
  have hany : (rows.any fun r => cellAt r i == some text) = true :=
    List.any_eq_true.mpr ⟨q, hq, beq_iff_eq.mpr hsame⟩
  rw [hunique, hany]
  rfl

end Table

theorem Statement.run_tabular : Tabular fun ts s => s.run ts where
  frame := Statement.find?_of_run
  created := fun {ts us t spelled ifAbsent k} h => by
    simp only [Statement.run] at h
    split at h
    · cases h
    · rcases ht : ts.find? t.name with _ | u
      · rw [ht] at h
        cases h
        exact Tables.find?_append_new ht (sameName_refl t.name)
      · rw [ht] at h
        cases ifAbsent <;> cases h
        rw [ht]
        rfl
  dropped := fun {ts us name k} h => by
    simp only [Statement.run] at h
    split at h <;> cases h
    exact Tables.find?_remove_self (sameName_refl name)
  added := fun {ts us name values k} h => by
    obtain ⟨t, ht, _, hcheck, _, rfl⟩ := insertInto_eq h
    have hn : sameName t.name name = true := Tables.sameName_of_find? ht
    refine ⟨t, ⟨t.nextId, cellsFor t values⟩, ht, Tables.find?_replace_self ht hn,
      fun q hq => Table.id_lt_nextId hq, fun i c hi hunique hgiven => ?_⟩
    rcases hcell : (cellsFor t values)[i]? with _ | _ | text
    · exact absurd (by rw [Table.cellAt, hcell]; rfl) hgiven
    · exact absurd (by rw [Table.cellAt, hcell]; rfl) hgiven
    · have hat : Table.cellAt ⟨t.nextId, cellsFor t values⟩ i = some text := by
        rw [Table.cellAt, hcell]
        rfl
      rw [hat]
      exact Table.apart_of_check hcheck hi hunique hcell
  deleted := fun {ts us name column value k} h => by
    simp only [Statement.run] at h
    split at h
    · cases h
    · rename_i t ht
      have hn : sameName t.name name = true := Tables.sameName_of_find? ht
      split at h
      · cases h
      · rename_i i hi
        cases h
        exact ⟨t, i, ht, hi, rfl, Tables.find?_replace_self ht hn⟩

end SchemaLedger
