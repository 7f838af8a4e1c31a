-- The readings of a ledger after any history of edits. Whatever was inserted and deleted, and
-- kept or given up, the rows are those that were inserted and not deleted since; read from the
-- oldest they ascend, read from the newest they come the other way round, and no reading
-- changes the store.
import SchemaLedger.Proofs.Calm
import SchemaLedger.Proofs.Newest

namespace SchemaLedger

/-- What a row says of its migration. -/
def LedgerRow.content (r : LedgerRow) : String × String × String :=
  (r.version, r.description, r.appliedAt)

/-! ## Reading under a plan of faults -/

/-- A planned fault strikes one of the calls that a reading makes. -/
def Handle.StrikesReading (h : Handle) : Prop :=
  h.planned? .begin ≠ none ∨ h.planned? .execute ≠ none ∨ h.planned? .rollback ≠ none

namespace Ledger

variable {l : Ledger} {s s' : Session} {h₀ : Handle} {t : Ticket} {ts us : Tables}
  {rows rows' : List LedgerRow} {v w d a : String}

/-- A reading gives `found`, or fails if a fault strikes it; either way it leaves the store as
it was. -/
def Finds (reading : Work (List LedgerRow)) (s : Session) (found : List LedgerRow) : Prop :=
  ∃ s', s.Leaves s.store s' ∧
    ((¬ s.handle.StrikesReading ∧ reading s = .ok found s') ∨
      (s.handle.StrikesReading ∧ ∃ f, reading s = .error f s'))

/-- From a ledger in order the rows are read up to the limit, in the order that is asked for. -/
theorem read_finds (hs : s.Between) (hb : s.handle.connection.blocked = none)
    (hl : l.Holds s.store rows) (order : Order) {limit : Option Int}
    (hlimit : limit.all fits = true) :
    Finds (l.read order limit) s (cutTo limit (sort order rows)) := by
  unfold Finds Handle.StrikesReading
  rcases hbegin : s.handle.planned? .begin with _ | f
  · have hopens : s.handle.beginRefusal? = none := by
      unfold Handle.beginRefusal?
      rw [hbegin, hb]
      rfl
    obtain ⟨h', hset, hread⟩ := l.read_opened ⟨hs.idle, hopens⟩ order
    refine ⟨{ s with handle := h' }, ⟨hset, .refl _⟩, ?_⟩
    rw [hread limit]
    rcases l.answerTo_cases s order with ⟨hexecute, hrollback, hfree⟩ | ⟨hstruck, f, hf⟩
    · rw [hfree, hl.query_eq order hlimit]
      exact .inl ⟨by simp [hexecute, hrollback], rfl⟩
    · rw [hf limit]
      exact .inr ⟨.inr hstruck, f, rfl⟩
  · have hrefused : s.handle.beginRefusal? = some f := by
      unfold Handle.beginRefusal?
      rw [hbegin]
      rfl
    obtain ⟨e, rfl⟩ := hs.faults.of_beginRefusal? hrefused
    obtain ⟨h', hopen, hset⟩ := openOwn_refused hs hrefused
    exact ⟨{ s with handle := h' }, ⟨hset, .refl _⟩,
      .inr ⟨.inl (by simp), _, Work.bind_error hopen _⟩⟩

/-! ## Edits -/

/-- What is asked of a ledger within a transaction. -/
inductive Edit where
  | insert (version : String) (description : Cell) (appliedAt : String)
  | delete (version : String)
  deriving DecidableEq, Repr

namespace Edit

def perform (l : Ledger) (t : Ticket) : Edit → Work Unit
  | .insert v d a => l.insert t v d a
  | .delete v => l.delete t v

/-- The rows before and after an edit that returned. -/
def Leads (rows rows' : List LedgerRow) : Edit → Prop
  | .insert v d a => ∃ text, d = some text ∧ rows' = rows ++ [⟨nextId rows, v, text, a⟩]
  | .delete v => rows' = rows.filter fun r => !(r.version == v)

/-- In a transaction an edit returns and leads to other rows, or fails and leaves them. -/
theorem perform_inside (i : h₀.Inside t ts s.handle) (hp : Handle.StoreFaults s.handle.plan)
    (hl : l.Holds ts rows) (e : Edit) :
    ∃ us n, (∃ rows', e.perform l t s = .ok () { s with handle := s.handle.inWork us n } ∧
        l.Holds us rows' ∧ e.Leads rows rows') ∨
      ∃ f, e.perform l t s = .error f { s with handle := s.handle.inWork us n } ∧
        l.Holds us rows := by
  cases e with
  | insert v d a =>
    rcases send_inside i hp (l.entry v d a) (.cannotRecord v) with ⟨k, us, hw, _, hrun⟩ | ⟨e, hw, _⟩
    · obtain ⟨text, hd, _, hus⟩ := hl.of_run_entry hrun
      exact ⟨us, _, .inl ⟨_, Work.bind_ok hw _, hus, text, hd, rfl⟩⟩
    · exact ⟨ts, _, .inr ⟨_, Work.bind_error hw _, hl⟩⟩
  | delete v =>
    obtain ⟨us, hrun, hus⟩ := hl.run_removal v
    rcases send_inside i hp (l.removal v) (.cannotRemove v) with
      ⟨k, us', hw, _, hrun'⟩ | ⟨e, hw, _⟩
    · obtain ⟨rfl, rfl⟩ := Prod.mk.inj (Except.ok.inj (hrun.symm.trans hrun'))
      by_cases hk : (rows.filter (·.version == v)).length = 0
      · -- there was no row of the version, so none is gone
        have hnone : rows.filter (fun r => !(r.version == v)) = rows := by
          rw [List.length_eq_zero_iff, List.filter_eq_nil_iff] at hk
          simpa using hk
        rw [hnone] at hus
        exact ⟨us, _, .inr ⟨_, (Work.bind_ok hw _).trans (by rw [if_pos hk]; rfl), hus⟩⟩
      · exact ⟨us, _, .inl ⟨_, (Work.bind_ok hw _).trans (by rw [if_neg hk]; rfl), hus, rfl⟩⟩
    · exact ⟨ts, _, .inr ⟨_, Work.bind_error hw _, hl⟩⟩

end Edit

/-- The rows before and after edits that returned one after another. -/
def Follows : List LedgerRow → List Edit → List LedgerRow → Prop
  | rows, [], rows' => rows' = rows
  | rows, e :: rest, rows' => ∃ between, e.Leads rows between ∧ Follows between rest rows'

theorem Follows.trans {done more : List Edit} {rows₁ rows₂ : List LedgerRow}
    (h : Follows rows done rows₁) (h' : Follows rows₁ more rows₂) :
    Follows rows (done ++ more) rows₂ := by
  induction done generalizing rows with
  | nil =>
    obtain rfl : rows₁ = rows := h
    exact h'
  | cons e rest ih =>
    obtain ⟨between, hlead, hrest⟩ := h
    exact ⟨between, hlead, ih hrest⟩

/-- Edits one after another, whether they return or fail. Gives those that returned. -/
def editAll (l : Ledger) (t : Ticket) : List Edit → Work (List Edit)
  | [] => return []
  | e :: rest => do
    match ← Work.attempt (e.perform l t) with
    | .ok _ => return e :: (← editAll l t rest)
    | .error _ => editAll l t rest

theorem editAll_inside (i : h₀.Inside t ts s.handle) (hp : Handle.StoreFaults s.handle.plan)
    (hl : l.Holds ts rows) (edits : List Edit) :
    ∃ done us n rows', l.editAll t edits s = .ok done { s with handle := s.handle.inWork us n } ∧
      l.Holds us rows' ∧ Follows rows done rows' := by
  induction edits generalizing s ts rows with
  | nil =>
    refine ⟨[], ts, s.handle.counts.execute, rows, ?_, hl, rfl⟩
    rw [i.inWork_self]
    rfl
  | cons e rest ih =>
    unfold editAll
    obtain ⟨us, n, ⟨between, hrun, hus, hlead⟩ | ⟨f, hrun, hus⟩⟩ := e.perform_inside i hp hl
    · obtain ⟨done, us', n', rows', hrest, hus', hfollows⟩ :=
        ih (s := { s with handle := s.handle.inWork us n }) (i.inWork us n) hp hus
      refine ⟨e :: done, us', n', rows', ?_, hus', between, hlead, hfollows⟩
      rw [Work.bind_ok (Work.attempt_ok hrun)]
      exact Work.bind_ok hrest _
    · obtain ⟨done, us', n', rows', hrest, hus', hfollows⟩ :=
        ih (s := { s with handle := s.handle.inWork us n }) (i.inWork us n) hp hus
      refine ⟨done, us', n', rows', ?_, hus', hfollows⟩
      rw [Work.bind_ok (Work.attempt_error hrun)]
      exact hrest

/-! ## Any history of edits -/

/-- Edits in one transaction, which is then committed or given up. -/
structure Posting where
  edits : List Edit
  kept : Bool

/-- Gives the edits that took effect. -/
def Posting.post (l : Ledger) (x : Posting) : Work (List Edit) := do
  let t ← Work.begin
  let done ← l.editAll t x.edits
  if x.kept then
    Work.commit t
    return done
  else
    Work.rollback t
    return []

/-- Postings one after another, whether they return or fail. Gives the edits that took effect. -/
def postAll (l : Ledger) : List Posting → Work (List Edit)
  | [] => return []
  | x :: rest => do
    match ← Work.attempt (x.post l) with
    | .ok done => return done ++ (← postAll l rest)
    | .error _ => postAll l rest

/-- A posting fails and leaves the store, or the rows follow the edits that took effect. -/
theorem Posting.post_cases (hs : s.Between) (hl : l.Holds s.store rows) (x : Posting) :
    (∃ f s', x.post l s = .error f s' ∧ s.Leaves s.store s') ∨
      ∃ done s' us rows', x.post l s = .ok done s' ∧ s.Leaves us s' ∧ l.Holds us rows' ∧
        Follows rows done rows' := by
  unfold post
  rcases hb : s.handle.beginRefusal? with _ | f
  · obtain ⟨t, h₁, hbegin, i, _⟩ := Handle.begin_opened hs.idle hb
    have hopen : Work.begin s = .ok t { s with handle := h₁ } := Work.onHandle_ok hbegin
    have hp : Handle.StoreFaults h₁.plan := by
      rw [i.plan]
      exact hs.faults
    obtain ⟨done, us, n, rows', hedits, hus, hfollows⟩ :=
      editAll_inside (s := { s with handle := h₁ }) i hp hl x.edits
    have i' := i.inWork us n
    rw [Work.bind_ok hopen, Work.bind_ok hedits]
    by_cases hkept : x.kept = true
    · rw [if_pos hkept]
      rcases Handle.commit_inside i' with ⟨h', hcommit, hset⟩ | ⟨f, h', hcommit, hset⟩
      · exact .inr ⟨done, { s with handle := h' }, us, rows',
          Work.bind_ok (Work.onHandle_ok hcommit) _, ⟨hset, .refl _⟩, hus, hfollows⟩
      · exact .inl ⟨f, { s with handle := h' }, Work.bind_error (Work.onHandle_error hcommit) _,
          hset, .refl _⟩
    · rw [if_neg hkept]
      obtain ⟨h', hroll, hset⟩ := Handle.rollback_inside i'
      rcases ha : (h₁.inWork us n).rollbackAnswer with f | u
      · rw [ha] at hroll
        exact .inl ⟨f, { s with handle := h' }, Work.bind_error (Work.onHandle_error hroll) _,
          hset, .refl _⟩
      · rw [ha] at hroll
        exact .inr ⟨[], { s with handle := h' }, s.store, rows,
          Work.bind_ok (Work.onHandle_ok hroll) _, ⟨hset, .refl _⟩, hl, rfl⟩
  · obtain ⟨h', hbegin, hset⟩ := Handle.begin_refused hs.idle hb
    have herr : Work.begin s = .error f { s with handle := h' } := Work.onHandle_error hbegin
    exact .inl ⟨f, _, Work.bind_error herr _, hset, .refl _⟩

theorem postAll_follows (hs : s.Between) (hl : l.Holds s.store rows) (postings : List Posting) :
    ∃ made s' us rows', l.postAll postings s = .ok made s' ∧ s.Leaves us s' ∧ l.Holds us rows' ∧
      Follows rows made rows' := by
  induction postings generalizing s rows with
  | nil => exact ⟨[], s, s.store, rows, rfl, hs.leaves, hl, rfl⟩
  | cons x rest ih =>
    unfold postAll
    rcases x.post_cases hs hl with
      ⟨f, s₁, hpost, hleaves⟩ | ⟨done, s₁, us₁, rows₁, hpost, hleaves, hl₁, hfollows⟩
    · obtain ⟨made, s', us, rows', hrest, hleaves', hl', hfollows'⟩ :=
        ih (hleaves.between hs) (hleaves.store_eq ▸ hl)
      refine ⟨made, s', us, rows', ?_, hleaves.trans hleaves', hl', hfollows'⟩
      rw [Work.bind_ok (Work.attempt_error hpost)]
      exact hrest
    · obtain ⟨made, s', us, rows', hrest, hleaves', hl', hfollows'⟩ :=
        ih (hleaves.between hs) (hleaves.store_eq ▸ hl₁)
      refine ⟨done ++ made, s', us, rows', ?_, hleaves.trans hleaves', hl', hfollows.trans hfollows'⟩
      rw [Work.bind_ok (Work.attempt_ok hpost)]
      exact Work.bind_ok hrest _

/-! ## The rows that stand -/

/-- A row of that content was inserted, and its version was not deleted since. -/
def Stands (made : List Edit) (v d a : String) : Prop :=
  ∃ before after, made = before ++ .insert v (some d) a :: after ∧ .delete v ∉ after

theorem stands_cons {e : Edit} {rest : List Edit} :
    Stands (e :: rest) v d a ↔
      (e = .insert v (some d) a ∧ .delete v ∉ rest) ∨ Stands rest v d a := by
  constructor
  · rintro ⟨before, after, hmade, hnot⟩
    rcases List.cons_eq_append_iff.mp hmade with ⟨_, hcut⟩ | ⟨before', _, hrest⟩
    · obtain ⟨rfl, rfl⟩ := List.cons.inj hcut
      exact .inl ⟨rfl, hnot⟩
    · exact .inr ⟨before', after, hrest, hnot⟩
  · rintro (⟨rfl, hnot⟩ | ⟨before, after, rfl, hnot⟩)
    · exact ⟨[], rest, rfl, hnot⟩
    · exact ⟨e :: before, after, rfl, hnot⟩

theorem Edit.Leads.mem_content {e : Edit} (h : e.Leads rows rows') :
    (v, d, a) ∈ rows'.map LedgerRow.content ↔
      e = .insert v (some d) a ∨ ((v, d, a) ∈ rows.map LedgerRow.content ∧ e ≠ .delete v) := by
  cases e with
  | insert w c b =>
    obtain ⟨text, rfl, rfl⟩ := h
    rw [List.map_append, List.mem_append]
    simp only [LedgerRow.content, List.map_cons, List.map_nil, List.mem_singleton, Prod.mk.injEq,
      Edit.insert.injEq, Option.some.injEq, ne_eq, reduceCtorEq, not_false_eq_true, and_true]
    rw [or_comm, eq_comm, @eq_comm _ d, @eq_comm _ a]
  | delete w =>
    obtain rfl : rows' = _ := h
    simp only [List.mem_map, List.mem_filter, reduceCtorEq, false_or, ne_eq, Edit.delete.injEq]
    constructor
    · rintro ⟨r, ⟨hr, hne⟩, hc⟩
      obtain ⟨rfl, _⟩ := Prod.mk.inj hc
      exact ⟨⟨r, hr, hc⟩, fun he => by simp [he] at hne⟩
    · rintro ⟨⟨r, hr, hc⟩, hne⟩
      obtain ⟨rfl, _⟩ := Prod.mk.inj hc
      have hother : (r.version == w) = false := beq_false_of_ne fun he => hne he.symm
      exact ⟨r, ⟨hr, by rw [hother]; rfl⟩, hc⟩

/-- After edits those rows are there that stand, and those of before that were not deleted. -/
theorem Follows.mem_content {made : List Edit} (h : Follows rows made rows') :
    (v, d, a) ∈ rows'.map LedgerRow.content ↔
      Stands made v d a ∨ ((v, d, a) ∈ rows.map LedgerRow.content ∧ .delete v ∉ made) := by
  induction made generalizing rows with
  | nil =>
    obtain rfl : rows' = rows := h
    simp [Stands]
  | cons e rest ih =>
    obtain ⟨between, hlead, hrest⟩ := h
    rw [ih hrest, hlead.mem_content, stands_cons, List.mem_cons, not_or, @eq_comm _ (Edit.delete v)]
    constructor
    · rintro (hstands | ⟨rfl | ⟨hin, hne⟩, hnot⟩)
      · exact .inl (.inr hstands)
      · exact .inl (.inl ⟨rfl, hnot⟩)
      · exact .inr ⟨hin, hne, hnot⟩
    · rintro ((⟨rfl, hnot⟩ | hstands) | ⟨hin, hne, hnot⟩)
      · exact .inr ⟨.inl rfl, hnot⟩
      · exact .inl hstands
      · exact .inr ⟨.inr ⟨hin, hne⟩, hnot⟩

/-! ## The law of the readings -/

theorem fits_of_lt {n : Nat} (h : n < 2 ^ 63) : fits n = true := by
  simp only [fits, Bool.and_eq_true, decide_eq_true_eq]
  omega

theorem cutTo_some (n : Nat) (rows : List LedgerRow) : cutTo (some (n : Int)) rows = rows.take n := rfl

/-- On a ledger that was empty, whatever is inserted and deleted in one transaction after
another and under any plan of the store's faults: its rows are those that the edits which took
effect have inserted and not deleted since, and no version comes twice. From the oldest they
ascend by time and version, from the newest they come the other way round, and up to a limit
the first of these. A reading gives just that unless a fault strikes it, and leaves the store
either way. -/
theorem the_two_readings_mirror_each_other (hs : s.Between)
    (hb : s.handle.connection.blocked = none) (hl : l.Holds s.store []) (postings : List Posting) :
    ∃ made s' rows, l.postAll postings s = .ok made s' ∧ s.Leaves s'.store s' ∧
      (∀ v d a, (v, d, a) ∈ rows.map LedgerRow.content ↔ Stands made v d a) ∧
      (rows.map LedgerRow.version).Nodup ∧ rows.Pairwise (fun a b => b.Newer a) ∧
      Finds l.readApplied s' rows ∧ Finds (l.readLatest none) s' rows.reverse ∧
      ∀ n : Nat, n < 2 ^ 63 → Finds (l.readLatest (some n)) s' (rows.reverse.take n) := by
  obtain ⟨made, s', us, found, hposted, hleaves, hl', hfollows⟩ := postAll_follows hs hl postings
  obtain rfl : s'.store = us := hleaves.store_eq
  have hs' := hleaves.between hs
  have hb' : s'.handle.connection.blocked = none := hleaves.settled.blocked.trans hb
  have hperm := sort_ordered.same .oldestFirst found
  have hmirror := sort_ordered.newest_eq_reverse hl'.distinct
  refine ⟨made, s', sort .oldestFirst found, hposted, hleaves, ?_, ?_, sort_ordered.oldest hl'.distinct,
    read_finds hs' hb' hl' .oldestFirst Option.all_none, ?_, ?_⟩
  · intro v d a
    rw [(hperm.map LedgerRow.content).mem_iff, hfollows.mem_content]
    simp
  · exact (hperm.map LedgerRow.version).nodup_iff.mpr hl'.distinct
  · rw [← hmirror]
    exact read_finds hs' hb' hl' .newestFirst Option.all_none
  · intro n hn
    have hfits : (some (n : Int)).all fits = true := fits_of_lt hn
    have hread := read_finds hs' hb' hl' .newestFirst hfits
    rw [hmirror, cutTo_some] at hread
    exact hread

/-- Of four postings one is refused its commit and one is given up; in the others a version is
recorded twice, and an unknown one is removed. -/
theorem a_ledger_of_refused_and_repeated_edits_is_read_both_ways :
    let l : Ledger := {}
    let s : Session :=
      { handle :=
          { connection := { base := [l.filled []] }, plan := [⟨.commit, 2, .store .inactive⟩] } }
    let postings : List Posting :=
      [⟨[.insert "002" (some "b") "noon", .insert "001" (some "a") "noon",
          .insert "002" (some "again") "dusk", .insert "003" none "noon"], true⟩,
        ⟨[.delete "001"], true⟩,
        ⟨[.insert "004" (some "d") "dawn"], false⟩,
        ⟨[.delete "002", .delete "009", .insert "002" (some "c") "noon"], true⟩]
    let made : List Edit :=
      [.insert "002" (some "b") "noon", .insert "001" (some "a") "noon", .delete "002",
        .insert "002" (some "c") "noon"]
    s.Between ∧ s.handle.connection.blocked = none ∧ l.Holds s.store [] ∧
      ∃ s' rows, l.postAll postings s = .ok made s' ∧
        (∀ v d a, (v, d, a) ∈ rows.map LedgerRow.content ↔ Stands made v d a) ∧
        rows.Pairwise (fun a b => b.Newer a) ∧ Finds l.readApplied s' rows ∧
        Finds (l.readLatest none) s' rows.reverse ∧
        Finds (l.readLatest (some 1)) s' (rows.reverse.take 1) := by
  intro l s postings made
  have hs : s.Between := ⟨rfl, by simp [Handle.StoreFaults, s]⟩
  have hl : l.Holds s.store [] := holds_filled l (by simp)
  obtain ⟨made', s', rows, hposted, _, hstands, _, hsorted, hold, hnew, hlimit⟩ :=
    the_two_readings_mirror_each_other hs rfl hl postings
  have hmade : made' = made := by
    have hrun : (match l.postAll postings s with
      | .ok done _ => done
      | .error _ _ => []) = made := by decide +kernel
    rw [hposted] at hrun
    exact hrun
  subst hmade
  exact ⟨hs, rfl, hl, s', rows, hposted, hstands, hsorted, hold, hnew, hlimit 1 (by decide)⟩

end Ledger
end SchemaLedger
