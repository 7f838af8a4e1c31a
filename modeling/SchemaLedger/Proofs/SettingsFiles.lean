-- Settings from a file of JSON, whatever its bytes are. They make settings, or the configuration
-- is at fault; just bytes that are no UTF-8 and a whole number with too many digits are refused in
-- another way. No value of such a file is too long to be named in a complaint.
import SchemaLedger.Proofs.Escaping
import SchemaLedger.Proofs.JsonReading
import SchemaLedger.Proofs.Layering

namespace SchemaLedger.Settings

open Value (entriesWritable)

variable {es sub : Entries} {env : Environment} {name p : String} {v : Value} {t : FileTree}
  {bytes : List UInt8} {s : List Char}

/-! ## Entries that can be written out -/

theorem isWritable_of_given (h : entriesWritable es = true) (hv : Value.entry? name es = some v) :
    v.isWritable = true := by
  fun_induction Value.entry? name es with
  | case1 => cases hv
  | case2 n w rest hname =>
    simp only [entriesWritable, Bool.and_eq_true] at h
    rw [← Option.some.inj hv]
    exact h.1.2
  | case3 n w rest hname ih =>
    simp only [entriesWritable, Bool.and_eq_true] at h
    exact ih h.2 hv
  | case4 _ rest hkey ih =>
    simp only [entriesWritable, Bool.and_eq_true] at h
    exact ih h.2 hv

theorem SectionOf.writable (h : entriesWritable es = true) (hsub : SectionOf es name sub) :
    entriesWritable sub = true := by
  cases hsub with
  | absent => rfl
  | blank => rfl
  | mapping hgiven => exact isWritable_of_given h hgiven

theorem LevelTaken.writable (h : entriesWritable es = true) (hv : LevelTaken es env v) :
    v.isWritable = true := by
  cases hv with
  | fromVariable => rfl
  | fromFile _ hgiven => exact isWritable_of_given h hgiven
  | byDefault => rfl

/-- Entries that can be written out make settings, or the configuration is at fault. -/
theorem layer_writable (h : entriesWritable es = true) :
    (∃ s, layer es env = .ok s) ∨ ∃ c, layer es env = .error (.configuration c) := by
  by_cases hvalid : Valid es env
  · obtain ⟨s, hs, -⟩ := layer_valid hvalid
    exact .inl ⟨s, hs⟩
  · rcases layer_invalid hvalid with ⟨hlong, -⟩ | ⟨-, hfault⟩
    · obtain ⟨ms, ss, -, hs, ⟨-, v, hgiven, hv⟩ | ⟨-, v, htaken, hv⟩⟩ := hlong
      · rw [isWritable_of_given (hs.writable h) hgiven] at hv
        cases hv
      · rw [htaken.writable h] at hv
        cases hv
    · exact .inr hfault

/-! ## Files of JSON -/

/-- A file of JSON, with its bytes. -/
structure IsJsonFile (t : FileTree) (p : String) (bytes : List UInt8) : Prop where
  named : p ≠ ""
  noNull : '\x00' ∉ (Path.ofText p).text.toList
  notYaml : isYaml (.ofText p) = false
  read : t.read (.ofText p) = .ok bytes

/-- Settings come of it, or the configuration is at fault. -/
def Answered (r : Except Failure Settings) : Prop :=
  (∃ s, r = .ok s) ∨ ∃ c, r = .error (.configuration c)

theorem readFile_not_utf8 {f : Utf8.Fault} (h : IsJsonFile t p bytes)
    (hf : Utf8.decode bytes = .error f) : readFile t (.ofText p) = .error (.file (.notUtf8 f)) := by
  rw [readFile, if_neg (by simpa using h.noNull), h.read]
  simp only [decodeFile, hf, h.notYaml, Bool.false_and]
  rfl

theorem readFile_utf8 (h : IsJsonFile t p bytes) (hs : Utf8.decode bytes = .ok s) :
    readFile t (.ofText p) =
      (parseFile (.ofText p) (Text.unifyLineEnds s)).bind (entriesOf (.ofText p)) := by
  rw [readFile, if_neg (by simpa using h.noNull), h.read]
  simp only [decodeFile, hs, Except.mapError, bind, Except.bind]

/-- A text without a whole number that is too long is answered. -/
theorem load_answered (env : Environment) (h : IsJsonFile t p bytes) (hs : Utf8.decode bytes = .ok s)
    (hshort : ∀ n, Json.read (Text.unifyLineEnds s) ≠ .error (.tooManyDigits n)) :
    Answered (load t env (some p)) := by
  rw [load_file h.named, readFile_utf8 h hs, parseFile, h.notYaml, if_neg Bool.false_ne_true]
  cases hread : Json.read (Text.unifyLineEnds s) with
  | error f =>
    cases f with
    | malformed what place => exact .inr ⟨_, rfl⟩
    | tooManyDigits n => exact absurd hread (hshort n)
  | ok v =>
    have hwritable := (Json.read_sound _).1 v hread
    cases v with
    | null => exact layer_writable rfl
    | map es => exact layer_writable hwritable
    | _ => exact .inr ⟨_, rfl⟩

theorem load_tooManyDigits {n : Nat} (env : Environment) (h : IsJsonFile t p bytes)
    (hs : Utf8.decode bytes = .ok s)
    (hlong : Json.read (Text.unifyLineEnds s) = .error (.tooManyDigits n)) :
    load t env (some p) = .error (.file (.tooManyDigits (.tooManyDigits n))) := by
  rw [load_file h.named, readFile_utf8 h hs, parseFile, h.notYaml, if_neg Bool.false_ne_true, hlong]
  rfl

theorem load_not_utf8 {f : Utf8.Fault} (env : Environment) (h : IsJsonFile t p bytes)
    (hf : Utf8.decode bytes = .error f) : load t env (some p) = .error (.file (.notUtf8 f)) := by
  rw [load_file h.named, readFile_not_utf8 h hf]
  rfl

/-- Faults of the file itself are no faults of the configuration. -/
theorem not_answered_file (f : FileFault) : ¬ Answered (.error (.file f)) := by
  rintro (⟨s, hs⟩ | ⟨c, hc⟩)
  · cases hs
  · cases hc

/-- Whatever bytes a file of JSON holds, settings come of it or the configuration is at fault,
unless the bytes are no UTF-8 or the text has a whole number with too many digits. Each of the
two is refused in a way of its own, and the number stands in the text as a run of more than 4300
digits. -/
theorem a_json_file_is_answered_unless_its_bytes_or_numbers_are_not_read (t : FileTree)
    (env : Environment) (p : String) (bytes : List UInt8) (h : IsJsonFile t p bytes) :
    (∀ s, bytes = Utf8.encode s → (∀ n, ¬ Json.LongRun n (Text.unifyLineEnds s)) →
      Answered (load t env (some p))) ∧
    (Answered (load t env (some p)) ↔ ∃ s, bytes = Utf8.encode s ∧
      ∀ n, Json.read (Text.unifyLineEnds s) ≠ .error (.tooManyDigits n)) ∧
    ((∀ s, bytes ≠ Utf8.encode s) → ∃ f, load t env (some p) = .error (.file (.notUtf8 f))) ∧
    ∀ s n, bytes = Utf8.encode s → Json.read (Text.unifyLineEnds s) = .error (.tooManyDigits n) →
      load t env (some p) = .error (.file (.tooManyDigits (.tooManyDigits n))) ∧
      Json.LongRun n (Text.unifyLineEnds s) := by
  refine ⟨?_, ⟨?_, ?_⟩, ?_, ?_⟩
  · intro s hs hshort
    refine load_answered env h (Utf8.decode_ok_iff.mpr hs) fun n hn => ?_
    exact hshort n ((Json.read_sound _).2 n hn)
  · intro hanswered
    cases hdecode : Utf8.decode bytes with
    | error f =>
      rw [load_not_utf8 env h hdecode] at hanswered
      exact absurd hanswered (not_answered_file _)
    | ok s =>
      refine ⟨s, Utf8.decode_ok_iff.mp hdecode, fun n hn => ?_⟩
      rw [load_tooManyDigits env h hdecode hn] at hanswered
      exact not_answered_file _ hanswered
  · rintro ⟨s, hs, hshort⟩
    exact load_answered env h (Utf8.decode_ok_iff.mpr hs) hshort
  · intro hbytes
    cases hdecode : Utf8.decode bytes with
    | error f => exact ⟨f, load_not_utf8 env h hdecode⟩
    | ok s => exact absurd (Utf8.decode_ok_iff.mp hdecode) (hbytes s)
  · intro s n hs hn
    exact ⟨load_tooManyDigits env h (Utf8.decode_ok_iff.mpr hs) hn, (Json.read_sound _).2 n hn⟩

/-- A file that breaks off is at fault. -/
theorem a_file_that_breaks_off_is_answered :
    IsJsonFile { files := [(["c.json"], Utf8.encode "\x7b\"log_level\": ".toList)] } "c.json"
      (Utf8.encode "\x7b\"log_level\": ".toList) ∧
    Answered (load { files := [(["c.json"], Utf8.encode "\x7b\"log_level\": ".toList)] } []
      (some "c.json")) := by
  have hfile : IsJsonFile { files := [(["c.json"], Utf8.encode "\x7b\"log_level\": ".toList)] }
      "c.json" (Utf8.encode "\x7b\"log_level\": ".toList) :=
    ⟨by decide, by decide, by decide, by decide⟩
  refine ⟨hfile, ?_⟩
  refine (a_json_file_is_answered_unless_its_bytes_or_numbers_are_not_read _ [] "c.json" _ hfile).1
    _ rfl fun n => ?_
  rintro ⟨hlong, ds, hds, hlength, -⟩
  have hshort : (Text.unifyLineEnds "\x7b\"log_level\": ".toList).length = 14 := by decide
  have hle := hds.length_le
  unfold Json.digitLimit at hlong
  omega

/-- A byte that begins no character is refused as what it is. -/
theorem a_byte_that_is_no_text_is_not_a_fault_of_the_configuration :
    IsJsonFile { files := [(["c.json"], [0xFF])] } "c.json" [0xFF] ∧
    load { files := [(["c.json"], [0xFF])] } [] (some "c.json") =
      .error (.file (.notUtf8 ⟨0xFF, 0, 1, .invalidStart⟩)) ∧
    ¬ Answered (load { files := [(["c.json"], [0xFF])] } [] (some "c.json")) := by
  have hfile : IsJsonFile { files := [(["c.json"], [0xFF])] } "c.json" [0xFF] :=
    ⟨by decide, by decide, by decide, by decide⟩
  have hload : load { files := [(["c.json"], [0xFF])] } [] (some "c.json") =
      .error (.file (.notUtf8 ⟨0xFF, 0, 1, .invalidStart⟩)) := load_not_utf8 [] hfile rfl
  refine ⟨hfile, hload, ?_⟩
  rw [hload]
  exact not_answered_file _

end SchemaLedger.Settings
