-- How settings are put together. A section has to be a mapping or blank, the flag a Boolean, and
-- the level that is taken in the end a known one; then every field comes from the environment, from
-- the file or is the default, in this order. Anything else is a fault of the configuration, unless
-- the complaint would have to write out a whole number that is too long for that.
import Mathlib.Tactic.Push
import SchemaLedger.Config.Settings

namespace SchemaLedger

namespace LogLevel

/-- A value names a known level, whatever the case of its letters. -/
def Known (v : Value) : Prop :=
  ∃ t, v.shown? = some t ∧ ∃ l, (String.ofList (Text.upperCase t.toList), l) ∈ names

variable {v : Value}

/-- No name stands for two levels. -/
theorem ofName?_isSome {t : String} :
    (ofName? t).isSome ↔ ∃ l, (String.ofList (Text.upperCase t.toList), l) ∈ names := by
  unfold ofName?
  generalize String.ofList (Text.upperCase t.toList) = name
  rw [List.lookup_isSome_iff]
  constructor
  · rintro ⟨⟨n, l⟩, hmem, hname⟩
    exact ⟨l, eq_of_beq hname ▸ hmem⟩
  · rintro ⟨l, hmem⟩
    exact ⟨⟨name, l⟩, hmem, beq_self_eq_true name⟩

/-- A setting stands for a level just if it names a known one. -/
theorem ofValue_ok_iff : (∃ l, ofValue v = .ok l) ↔ Known v := by
  unfold ofValue Known
  cases hshown : v.shown? with
  | none => simp
  | some t =>
    have hname := ofName?_isSome (t := t)
    cases hlevel : ofName? t with
    | none => simpa [hlevel] using hname
    | some l => simpa [hlevel] using hname

/-- A setting that names no level is a fault of the configuration if it can be written out. -/
theorem ofValue_unknown (h : ¬ Known v) (hv : v.isWritable = true) :
    ∃ c, ofValue v = .error (.configuration c) := by
  have hshown : v.shown? = some v.shown := if_pos hv
  cases hlevel : ofName? v.shown with
  | some l =>
    have hok : ofValue v = .ok l := by simp only [ofValue, hshown, hlevel]
    exact absurd (ofValue_ok_iff.mp ⟨l, hok⟩) h
  | none => exact ⟨.unknownLevel v.shown, by simp only [ofValue, hshown, hlevel]⟩

theorem ofValue_tooLong (hv : v.isWritable = false) : ofValue v = .error (.file .numberTooLong) := by
  have hshown : v.shown? = none := if_neg (by rw [hv]; decide)
  simp only [ofValue, hshown]

end LogLevel

namespace Settings

/-! ## What entries and variables say -/

/-- The entries of a section: those that it holds, and none if it is absent or blank. -/
inductive SectionOf (es : Entries) (name : String) : Entries → Prop where
  | absent : Value.entry? name es = none → SectionOf es name []
  | blank {v : Value} : Value.entry? name es = some v → v.isBlank = true → SectionOf es name []
  | mapping {sub : Entries} : Value.entry? name es = some (.map sub) → SectionOf es name sub

/-- A flag of a section is absent or a Boolean. -/
def FlagFits (es : Entries) (name : String) : Prop :=
  ∀ v, Value.entry? name es = some v → ∃ b, v = .bool b

/-- The value that a field takes: that of its variable if this is set and not empty, or else that
of its key if this is present, or else the default. -/
inductive Taken (env : Environment) (variable' : String) (given : Option Value)
    (default' : Value) : Value → Prop where
  | fromVariable {t : String} : env.lookup variable' = some t → t ≠ "" →
    Taken env variable' given default' (.text t)
  | fromFile {v : Value} : (∀ t, env.lookup variable' = some t → t = "") → given = some v →
    Taken env variable' given default' v
  | byDefault : (∀ t, env.lookup variable' = some t → t = "") → given = none →
    Taken env variable' given default' default'

/-- The level that is taken in the end. -/
abbrev LevelTaken (es : Entries) (env : Environment) (v : Value) : Prop :=
  Taken env "DBENGINE_LOG_LEVEL" (Value.entry? "log_level" es) (.text "info") v

/-- Both sections can be read, the flag is a Boolean, and the level is known. -/
structure Valid (es : Entries) (env : Environment) : Prop where
  migrations : ∃ ms, SectionOf es "migrations" ms
  seeders : ∃ ss, SectionOf es "seeders" ss ∧ FlagFits ss "fail_fast"
  level : ∃ v, LevelTaken es env v ∧ LogLevel.Known v

/-- What is wrong is a whole number with too many digits to be written out, for the flag or else
for the level. -/
def Unwritable (es : Entries) (env : Environment) : Prop :=
  ∃ ms ss, SectionOf es "migrations" ms ∧ SectionOf es "seeders" ss ∧
    ((¬ FlagFits ss "fail_fast" ∧ ∃ v, Value.entry? "fail_fast" ss = some v ∧ v.isWritable = false) ∨
      (FlagFits ss "fail_fast" ∧ ∃ v, LevelTaken es env v ∧ v.isWritable = false))

/-- Every field of the settings has the value that it takes from the variables, the file and the
defaults. -/
structure Layered (es : Entries) (env : Environment) (s : Settings) : Prop where
  databaseUrl : Taken env "DBENGINE_DATABASE_URL" (Value.entry? "database_url" es)
    (.text "sqlite:///dbengine.db") s.databaseUrl
  logLevel : LevelTaken es env s.logLevel
  unitsModule : s.unitsModule = (Value.entry? "units_module" es).getD .null
  logFile : s.logFile = (Value.entry? "log_file" es).getD .null
  tableName : ∃ ms, SectionOf es "migrations" ms ∧
    s.tableName = (Value.entry? "table_name" ms).getD (.text "migrations")
  failFast : ∃ ss, SectionOf es "seeders" ss ∧
    Value.bool s.failFast = (Value.entry? "fail_fast" ss).getD (.bool true)

/-- The entries that settings are loaded from: those of the file, and none without a path. -/
inductive LoadedFrom (t : FileTree) : Option String → Entries → Prop where
  | nothing : LoadedFrom t none []
  | noPath : LoadedFrom t (some "") []
  | file {p : String} {es : Entries} : p ≠ "" → readFile t (.ofText p) = .ok es →
    LoadedFrom t (some p) es

variable {es sub sub' : Entries} {env : Environment} {name : String} {v v' : Value}

/-! ## Sections and flags -/

theorem section?_ok_iff : section? es name = .ok sub ↔ SectionOf es name sub := by
  unfold section?
  constructor
  · intro h
    split at h
    next habsent =>
      cases h
      exact .absent habsent
    next hmap =>
      cases h
      exact .mapping hmap
    next hgiven =>
      split at h
      next hblank =>
        cases h
        exact .blank hgiven hblank
      next => cases h
  · intro h
    cases h with
    | absent habsent => rw [habsent]
    | mapping hmap => rw [hmap]
    | @blank v hgiven hblank =>
      rw [hgiven]
      cases v with
      | map inner => rw [List.isEmpty_iff.mp hblank]
      | _ => exact if_pos hblank

/-- A section has its entries just in one way. -/
theorem SectionOf.unique (h : SectionOf es name sub) (h' : SectionOf es name sub') : sub = sub' := by
  rw [← section?_ok_iff] at h h'
  exact Except.ok.inj (h.symm.trans h')

theorem flag_ok_iff {place : String} {default' b : Bool} :
    flag es place name default' = .ok b ↔
      Value.bool b = (Value.entry? name es).getD (.bool default') := by
  unfold flag
  cases hgiven : Value.entry? name es with
  | none => simp [eq_comm]
  | some v =>
    cases v with
    | bool b' => simp [eq_comm]
    | _ =>
      dsimp only [Option.getD_some]
      constructor
      · intro h
        split at h <;> cases h
      · intro h
        cases h

theorem flag_fits_iff {place : String} {default' : Bool} :
    (∃ b, flag es place name default' = .ok b) ↔ FlagFits es name := by
  simp only [flag_ok_iff, FlagFits]
  cases Value.entry? name es with
  | none => simp
  | some v => simp [eq_comm]

theorem flag_eq {place : String} {default' : Bool} (hgiven : Value.entry? name es = some v)
    (hbool : ∀ b, v ≠ .bool b) : flag es place name default' =
      (v.quoted?.map fun q => .error (.configuration (.flagNotBool (place ++ "." ++ name) q))).getD
        (.error (.file .numberTooLong)) := by
  unfold flag
  rw [hgiven]
  split
  next h => cases h
  next b h => exact absurd (Option.some.inj h) (hbool b)
  next v' _ h =>
    rw [Option.some.inj h]
    split
    next hquoted => rw [hquoted]; rfl
    next q hquoted => rw [hquoted]; rfl

/-- A flag that is no Boolean is a fault of the configuration unless it cannot be written out. -/
theorem flag_misfit {place : String} {default' : Bool} (h : ¬ FlagFits es name) :
    ∃ v, Value.entry? name es = some v ∧
      ((v.isWritable = true ∧ ∃ c, flag es place name default' = .error (.configuration c)) ∨
        (v.isWritable = false ∧ flag es place name default' = .error (.file .numberTooLong))) := by
  unfold FlagFits at h
  push Not at h
  obtain ⟨v, hgiven, hbool⟩ := h
  refine ⟨v, hgiven, ?_⟩
  rw [flag_eq hgiven hbool, Value.quoted?]
  by_cases hv : v.isWritable = true
  · rw [if_pos hv]
    exact .inl ⟨hv, _, rfl⟩
  · rw [if_neg hv]
    exact .inr ⟨Bool.eq_false_iff.mpr hv, rfl⟩

/-! ## Variables over the file -/

theorem setVariable?_some {variable' t : String} (hset : env.lookup variable' = some t)
    (hne : t ≠ "") : setVariable? env variable' = some (.text t) := by
  have hfull : (!t.isEmpty) = true := by simpa using hne
  rw [setVariable?, hset, Option.filter_some, if_pos hfull]
  rfl

theorem setVariable?_none {variable' : String}
    (hunset : ∀ t, env.lookup variable' = some t → t = "") : setVariable? env variable' = none := by
  unfold setVariable?
  cases hlook : env.lookup variable' with
  | none => rfl
  | some t =>
    rw [hunset t hlook]
    rfl

/-- A field takes one value, and always one. -/
theorem taken_iff {variable' : String} {given : Option Value} {default' : Value} :
    Taken env variable' given default' v ↔
      v = (setVariable? env variable').getD (given.getD default') := by
  constructor
  · intro h
    cases h with
    | fromVariable hset hne =>
      rw [setVariable?_some hset hne]
      rfl
    | fromFile hunset hgiven =>
      rw [setVariable?_none hunset, hgiven]
      rfl
    | byDefault hunset hgiven =>
      rw [setVariable?_none hunset, hgiven]
      rfl
  · rintro rfl
    by_cases hset : ∃ t, env.lookup variable' = some t ∧ t ≠ ""
    · obtain ⟨t, hlook, hne⟩ := hset
      rw [setVariable?_some hlook hne]
      exact .fromVariable hlook hne
    · push Not at hset
      rw [setVariable?_none hset]
      cases given with
      | none => exact .byDefault hset rfl
      | some v => exact .fromFile hset rfl

/-! ## Entries and variables together -/

/-- The settings of entries and variables once the sections and the flag are read. -/
def assembled (es ms : Entries) (failFast : Bool) (env : Environment) : Settings where
  databaseUrl := (setVariable? env "DBENGINE_DATABASE_URL").getD
    ((Value.entry? "database_url" es).getD (.text "sqlite:///dbengine.db"))
  logLevel := (setVariable? env "DBENGINE_LOG_LEVEL").getD
    ((Value.entry? "log_level" es).getD (.text "info"))
  unitsModule := (Value.entry? "units_module" es).getD .null
  logFile := (Value.entry? "log_file" es).getD .null
  tableName := (Value.entry? "table_name" ms).getD (.text "migrations")
  failFast := failFast

variable {ms ss : Entries}

/-- With both sections at hand, the flag is checked first and the level after it. -/
theorem layer_of_sections (hm : SectionOf es "migrations" ms) (hs : SectionOf es "seeders" ss) :
    layer es env = (flag ss "seeders" "fail_fast" true).bind fun b =>
      (LogLevel.ofValue (assembled es ms b env).logLevel).map fun _ => assembled es ms b env := by
  have hsections : ofEntries es = (flag ss "seeders" "fail_fast" true).map fun b =>
      { databaseUrl := (Value.entry? "database_url" es).getD (.text "sqlite:///dbengine.db"),
        logLevel := (Value.entry? "log_level" es).getD (.text "info"),
        unitsModule := (Value.entry? "units_module" es).getD .null,
        logFile := (Value.entry? "log_file" es).getD .null,
        tableName := (Value.entry? "table_name" ms).getD (.text "migrations"),
        failFast := b } := by
    rw [ofEntries, section?_ok_iff.mpr hm, section?_ok_iff.mpr hs]
    rfl
  rw [layer, hsections]
  cases flag ss "seeders" "fail_fast" true <;> rfl

/-- A section that cannot be read is a fault of the configuration. -/
theorem layer_without_section
    (h : (∀ ms, ¬ SectionOf es "migrations" ms) ∨ ∀ ss, ¬ SectionOf es "seeders" ss) :
    ∃ c, layer es env = .error (.configuration c) := by
  unfold layer ofEntries
  simp only [← section?_ok_iff] at h
  cases hm : section? es "migrations" with
  | error c => exact ⟨c, rfl⟩
  | ok ms =>
    cases hs : section? es "seeders" with
    | error c => exact ⟨c, rfl⟩
    | ok ss =>
      rcases h with h | h
      · exact absurd hm (h ms)
      · exact absurd hs (h ss)

theorem levelTaken_assembled (ms : Entries) (b : Bool) :
    LevelTaken es env (assembled es ms b env).logLevel := taken_iff.mpr rfl

theorem LevelTaken.eq_assembled (h : LevelTaken es env v) (ms : Entries) (b : Bool) :
    v = (assembled es ms b env).logLevel := taken_iff.mp h

theorem layered_assembled {b : Bool} (hm : SectionOf es "migrations" ms)
    (hs : SectionOf es "seeders" ss) (hb : flag ss "seeders" "fail_fast" true = .ok b) :
    Layered es env (assembled es ms b env) where
  databaseUrl := taken_iff.mpr rfl
  logLevel := levelTaken_assembled ms b
  unitsModule := rfl
  logFile := rfl
  tableName := ⟨ms, hm, rfl⟩
  failFast := ⟨ss, hs, flag_ok_iff.mp hb⟩

/-- Valid entries and variables make settings, field by field. -/
theorem layer_valid (h : Valid es env) :
    ∃ s, layer es env = .ok s ∧ Layered es env s ∧ ∃ l, LogLevel.ofValue s.logLevel = .ok l := by
  obtain ⟨⟨ms, hm⟩, ⟨ss, hs, hfits⟩, v, hv, hknown⟩ := h
  obtain ⟨b, hb⟩ := flag_fits_iff.mpr hfits
  rw [hv.eq_assembled ms b] at hknown
  obtain ⟨l, hl⟩ := LogLevel.ofValue_ok_iff.mpr hknown
  refine ⟨assembled es ms b env, ?_, layered_assembled hm hs hb, l, hl⟩
  rw [layer_of_sections hm hs, hb, Except.bind, hl]
  rfl

/-- Nothing else makes settings: what is wrong is a fault of the configuration, or a number too
long to be written out. -/
theorem layer_invalid (h : ¬ Valid es env) :
    (Unwritable es env ∧ layer es env = .error (.file .numberTooLong)) ∨
      (¬ Unwritable es env ∧ ∃ c, layer es env = .error (.configuration c)) := by
  by_cases hm : ∃ ms, SectionOf es "migrations" ms
  case neg =>
    right
    refine ⟨?_, layer_without_section (.inl (not_exists.mp hm))⟩
    rintro ⟨ms, ss, hm', -⟩
    exact hm ⟨ms, hm'⟩
  by_cases hs : ∃ ss, SectionOf es "seeders" ss
  case neg =>
    right
    refine ⟨?_, layer_without_section (.inr (not_exists.mp hs))⟩
    rintro ⟨ms, ss, -, hs', -⟩
    exact hs ⟨ss, hs'⟩
  obtain ⟨ms, hm⟩ := hm
  obtain ⟨ss, hs⟩ := hs
  rw [layer_of_sections hm hs]
  by_cases hfits : FlagFits ss "fail_fast"
  · -- The flag is a Boolean, so the level is what is wrong.
    obtain ⟨b, hb⟩ := flag_fits_iff.mpr hfits
    rw [hb, Except.bind]
    have hlevel : LevelTaken es env (assembled es ms b env).logLevel := levelTaken_assembled ms b
    generalize assembled es ms b env = s at hlevel
    have hunknown : ¬ LogLevel.Known s.logLevel := fun hknown =>
      h ⟨⟨ms, hm⟩, ⟨ss, hs, hfits⟩, _, hlevel, hknown⟩
    by_cases hv : s.logLevel.isWritable = true
    · right
      obtain ⟨c, hc⟩ := LogLevel.ofValue_unknown hunknown hv
      refine ⟨?_, c, by rw [hc]; rfl⟩
      rintro ⟨ms', ss', -, hs', ⟨hmisfit, -⟩ | ⟨-, v, hv', hlong⟩⟩
      · exact hmisfit (hs.unique hs' ▸ hfits)
      · rw [taken_iff.mp hv', ← taken_iff.mp hlevel, hv] at hlong
        cases hlong
    · left
      have hlong := Bool.eq_false_iff.mpr hv
      exact ⟨⟨ms, ss, hm, hs, .inr ⟨hfits, _, hlevel, hlong⟩⟩, by
        rw [LogLevel.ofValue_tooLong hlong]; rfl⟩
  · -- The flag is checked before the level, whatever that is.
    obtain ⟨v, hgiven, ⟨hv, c, hc⟩ | ⟨hlong, hflag⟩⟩ := flag_misfit hfits
    · right
      refine ⟨?_, c, by rw [hc]; rfl⟩
      rintro ⟨ms', ss', -, hs', ⟨-, v', hgiven', hlong⟩ | ⟨hfits', -⟩⟩
      · rw [← hs.unique hs', hgiven, Option.some.injEq] at hgiven'
        rw [← hgiven', hv] at hlong
        cases hlong
      · exact hfits (hs.unique hs' ▸ hfits')
    · left
      exact ⟨⟨ms, ss, hm, hs, .inl ⟨hfits, v, hgiven, hlong⟩⟩, by rw [hflag]; rfl⟩

/-- What cannot be written out is not valid. -/
theorem Unwritable.not_valid (h : Unwritable es env) : ¬ Valid es env := by
  rintro ⟨-, ⟨ss, hs, hfits⟩, v, hv, t, hshown, -⟩
  obtain ⟨-, ss', -, hs', ⟨hmisfit, -⟩ | ⟨-, v', hv', hlong⟩⟩ := h
  · exact hmisfit (hs.unique hs' ▸ hfits)
  · rw [taken_iff.mp hv', ← taken_iff.mp hv] at hlong
    have hnone : v.shown? = none := if_neg (by rw [hlong]; decide)
    rw [hnone] at hshown
    cases hshown

theorem layer_unwritable (h : Unwritable es env) :
    layer es env = .error (.file .numberTooLong) := by
  rcases layer_invalid h.not_valid with ⟨-, hlong⟩ | ⟨hwritable, -⟩
  · exact hlong
  · exact absurd h hwritable

theorem valid_of_layer {s : Settings} (h : layer es env = .ok s) : Valid es env := by
  by_cases hvalid : Valid es env
  · exact hvalid
  · rcases layer_invalid hvalid with ⟨-, hfails⟩ | ⟨-, c, hfails⟩ <;> rw [hfails] at h <;> cases h

/-- A level of the file that is not known is passed over just for a known one of the environment. -/
theorem valid_iff_of_bad_level (hgiven : Value.entry? "log_level" es = some v)
    (hbad : ¬ LogLevel.Known v) :
    Valid es env ↔ (∃ ms, SectionOf es "migrations" ms) ∧
      (∃ ss, SectionOf es "seeders" ss ∧ FlagFits ss "fail_fast") ∧
      ∃ l, env.lookup "DBENGINE_LOG_LEVEL" = some l ∧ l ≠ "" ∧ LogLevel.Known (.text l) := by
  constructor
  · rintro ⟨hm, hs, v', htaken, hknown⟩
    refine ⟨hm, hs, ?_⟩
    cases htaken with
    | fromVariable hset hne => exact ⟨_, hset, hne, hknown⟩
    | fromFile _ hgiven' =>
      rw [hgiven, Option.some.injEq] at hgiven'
      exact absurd (hgiven' ▸ hknown) hbad
    | byDefault _ habsent =>
      rw [hgiven] at habsent
      cases habsent
  · rintro ⟨hm, hs, l, hset, hne, hknown⟩
    exact ⟨hm, hs, .text l, .fromVariable hset hne, hknown⟩

/-! ## Loading -/

variable {t : FileTree} {path : Option String}

theorem load_file {p : String} (hp : p ≠ "") :
    load t env (some p) = (readFile t (.ofText p)).bind fun es => layer es env := by
  have hfull : (!p.isEmpty) = true := by simpa using hp
  rw [load, Option.filter_some, if_pos hfull]
  rfl

theorem load_eq (h : LoadedFrom t path es) : load t env path = layer es env := by
  cases h with
  | nothing => rfl
  | noPath => rfl
  | file hp hread =>
    rw [load_file hp, hread]
    rfl

/-- Settings are loaded just if both sections are blank or mappings, the flag is a Boolean, and
the level that is taken in the end is known; then every field is what it takes from the variables,
the file and the defaults, and a bad level in the file is passed over just for a good one of the
environment. Anything else is a fault of the configuration, unless a whole number that is too long
to be written out stands for the flag or else for the level. -/
theorem settings_are_layered_or_the_configuration_is_at_fault (t : FileTree) (env : Environment)
    (path : Option String) (es : Entries) (h : LoadedFrom t path es) :
    ((∃ s, load t env path = .ok s) ↔ Valid es env) ∧
    (∀ s, load t env path = .ok s →
      Layered es env s ∧ ∃ l, LogLevel.ofValue s.logLevel = .ok l) ∧
    (¬ Valid es env → ¬ Unwritable es env → ∃ c, load t env path = .error (.configuration c)) ∧
    (Unwritable es env → load t env path = .error (.file .numberTooLong)) ∧
    ∀ v, Value.entry? "log_level" es = some v → ¬ LogLevel.Known v →
      (Valid es env ↔ (∃ ms, SectionOf es "migrations" ms) ∧
        (∃ ss, SectionOf es "seeders" ss ∧ FlagFits ss "fail_fast") ∧
        ∃ l, env.lookup "DBENGINE_LOG_LEVEL" = some l ∧ l ≠ "" ∧ LogLevel.Known (.text l)) := by
  rw [load_eq h]
  refine ⟨⟨?_, ?_⟩, ?_, ?_, layer_unwritable, ?_⟩
  · rintro ⟨s, hs⟩
    exact valid_of_layer hs
  · intro hvalid
    obtain ⟨s, hs, -⟩ := layer_valid hvalid
    exact ⟨s, hs⟩
  · intro s hs
    obtain ⟨s', hs', hlayered⟩ := layer_valid (valid_of_layer hs)
    obtain rfl : s = s' := Except.ok.inj (hs.symm.trans hs')
    exact hlayered
  · intro hinvalid hwritable
    rcases layer_invalid hinvalid with ⟨hlong, -⟩ | ⟨-, hfault⟩
    · exact absurd hlong hwritable
    · exact hfault
  · exact fun v => valid_iff_of_bad_level

/-- What was read is `name` with a text, and nothing else. -/
def onlyText? (name : String) : Except Failure Entries → Option String
  | .ok [(.text k, .text v)] => if k = name then some v else none
  | _ => none

theorem onlyText?_eq_some {name v : String} {read : Except Failure Entries}
    (h : onlyText? name read = some v) : read = .ok [(.text name, .text v)] := by
  unfold onlyText? at h
  split at h
  next =>
    split at h
    next hk =>
      cases h
      rw [hk]
    next => cases h
  next => cases h

/-- A level that is not known is passed over for one of the environment, and just for that. -/
theorem a_bad_level_is_passed_over_for_a_good_one :
    let t : FileTree := { files := [(["c.yaml"], Utf8.encode "log_level: chatty".toList)] }
    let env : Environment := [("DBENGINE_DATABASE_URL", ""), ("DBENGINE_LOG_LEVEL", "Debug")]
    let es : Entries := [(.text "log_level", .text "chatty")]
    LoadedFrom t (some "c.yaml") es ∧
      (∃ s, load t env (some "c.yaml") = .ok s ∧ s.logLevel = .text "Debug" ∧
        s.databaseUrl = .text "sqlite:///dbengine.db") ∧
      ¬ ∃ s, load t [] (some "c.yaml") = .ok s := by
  intro t env es
  have hread : onlyText? "log_level" (readFile t (.ofText "c.yaml")) = some "chatty" := by
    decide +kernel
  have hloaded : LoadedFrom t (some "c.yaml") es := .file (by decide) (onlyText?_eq_some hread)
  refine ⟨hloaded, ?_, ?_⟩
  · have hlaws := settings_are_layered_or_the_configuration_is_at_fault t env _ es hloaded
    have hvalid : Valid es env :=
      ⟨⟨[], .absent rfl⟩, ⟨[], .absent rfl, fun v hv => by cases hv⟩, .text "Debug",
        .fromVariable rfl (by decide), "Debug", rfl, 10, by decide⟩
    obtain ⟨s, hs⟩ := hlaws.1.mpr hvalid
    have hlayered := (hlaws.2.1 s hs).1
    exact ⟨s, hs, taken_iff.mp hlayered.logLevel, taken_iff.mp hlayered.databaseUrl⟩
  · have hlaws := settings_are_layered_or_the_configuration_is_at_fault t [] _ es hloaded
    have hbad : ¬ LogLevel.Known (.text "chatty") := by
      rintro ⟨t, ht, hknown⟩
      obtain rfl : "chatty" = t := Option.some.inj ht
      exact absurd (LogLevel.ofName?_isSome.mpr hknown) (by decide)
    rw [hlaws.1, hlaws.2.2.2.2 (.text "chatty") rfl hbad]
    rintro ⟨-, -, l, hset, -⟩
    cases hset

/-- A number that is too long to be named in a complaint is not a fault of the configuration. -/
theorem a_level_too_long_to_be_named_is_not_a_fault_of_the_configuration :
    let es : Entries := [(.text "log_level", .int (Nat.pow 10 Value.digitLimit : Nat))]
    ¬ Valid es [] ∧ layer es [] = .error (.file .numberTooLong) ∧
      ∀ c, layer es [] ≠ .error (.configuration c) := by
  intro es
  have hlong : (Value.int (Nat.pow 10 Value.digitLimit : Nat)).isWritable = false := by
    rw [Value.isWritable, Int.natAbs_natCast, decide_eq_false_iff_not]
    exact Nat.lt_irrefl _
  have htaken : LevelTaken es [] (.int (Nat.pow 10 Value.digitLimit : Nat)) :=
    .fromFile (fun t ht => by cases ht) rfl
  have hfits : FlagFits [] "fail_fast" := fun v hv => by cases hv
  have hunwritable : Unwritable es [] :=
    ⟨[], [], .absent rfl, .absent rfl, .inr ⟨hfits, _, htaken, hlong⟩⟩
  refine ⟨hunwritable.not_valid, layer_unwritable hunwritable, fun c hc => ?_⟩
  rw [layer_unwritable hunwritable] at hc
  cases hc

end Settings
end SchemaLedger
