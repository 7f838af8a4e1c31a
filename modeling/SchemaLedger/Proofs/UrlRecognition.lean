-- Which texts are taken for URLs. Every text that begins with the name of a backend is, so a file
-- whose name begins that way is not found under its name. Any other text without a colon is the
-- path of a file, from whichever directory it is seen, and its store opens with SQLite.
import Mathlib.Data.List.TakeWhile
import SchemaLedger.Database.Engine
import SchemaLedger.Proofs.FileUrls
import SchemaLedger.Proofs.Work

namespace SchemaLedger

namespace DatabaseUrl

/-! ## Paths from a directory -/

/-- The absolute path `t` is the one that `s` denotes from the directory `base`. -/
inductive DenotesFrom (base : List String) (s : String) : String → Prop where
  | absolute {t : String} : s.toList.head? = some '/' → Denotes s t → DenotesFrom base s t
  | relative {qs : List String} : s.toList.head? ≠ some '/' → Resolved (base ++ segments s) qs →
    DenotesFrom base s ("/" ++ "/".intercalate qs)

variable {base : List String} {s t u : String}

/-- A text denotes one path at most from a directory. -/
theorem DenotesFrom.unique (ht : DenotesFrom base s t) (hu : DenotesFrom base s u) : t = u := by
  cases ht with
  | absolute hhead ht =>
    cases hu with
    | absolute _ hu => exact ht.unique hu
    | relative hrel _ => exact absurd hhead hrel
  | relative hrel hqs =>
    cases hu with
    | absolute hhead _ => exact absurd hhead hrel
    | relative _ hqs' => rw [Path.eq_collapse hqs, Path.eq_collapse hqs']

/-- A path is absolute just if it begins with a slash. -/
theorem isAbsolute_ofText : (Path.ofText s).isAbsolute = true ↔ s.toList.head? = some '/' := by
  unfold Path.isAbsolute
  rcases Path.slashes_ofText s with ⟨hhead, -, hslashes⟩ | ⟨htwo, hslashes⟩ | ⟨hhead, hslashes⟩
  · simp [hhead, hslashes]
  · simp [htwo.head?, hslashes]
  · simp [hhead, hslashes]

/-- A text without a null character denotes a path from every directory. -/
theorem pathOf_denotesFrom (base : List String) (h : '\x00' ∉ s.toList) :
    ∃ p, pathOf base s = .ok p ∧ DenotesFrom base s p.text := by
  by_cases hhead : s.toList.head? = some '/'
  · obtain ⟨p, hpath, hdenotes⟩ := pathOf_denotes h
    have hsame : pathOf base s = pathOf [] s := by
      simp only [pathOf, isAbsolute_ofText.mpr hhead, if_true]
    exact ⟨p, hsame.trans hpath, .absolute hhead hdenotes⟩
  · have hrel : ¬ (Path.ofText s).isAbsolute = true := mt isAbsolute_ofText.mp hhead
    refine ⟨(Path.ofText s).resolve base, ?_, ?_⟩
    · unfold pathOf
      dsimp only
      rw [if_neg hrel, if_neg (by simpa using h)]
    · rw [Path.resolve, if_neg hrel, Path.text_of_slashes Nat.one_pos, Path.parts_ofText]
      exact .relative hhead (Path.resolved_collapse _)

/-! ## Texts that are taken for URLs -/

/-- A text begins with the name of a backend. -/
def NamesBackend (s : String) : Prop := ∃ b ∈ backends, b.toList <+: s.toList

theorem isUrl_iff : isUrl s = true ↔ NamesBackend s := by
  unfold isUrl NamesBackend startsWith
  simp only [List.any_eq_true, List.isPrefixOf_iff_prefix]

/-- A text without a colon that names no backend stands for the URL of a file. -/
theorem normalize_denoted (base : List String) (hcolon : ':' ∉ s.toList) (hnull : '\x00' ∉ s.toList)
    (hname : ¬ NamesBackend s) :
    ∃ t, DenotesFrom base s t ∧ normalize base s = .ok ("sqlite:///" ++ escape t) := by
  obtain ⟨p, hpath, hdenotes⟩ := pathOf_denotesFrom base hnull
  have hmemory : s ≠ ":memory:" := by
    rintro rfl
    exact hcolon (by decide)
  refine ⟨p.text, hdenotes, ?_⟩
  rw [normalize, if_neg (mt isUrl_iff.mp hname), if_neg hmemory, hpath]
  rfl

theorem backend_file (q : String) : backend ("sqlite:///" ++ q) = "sqlite" := by
  have hchars : "sqlite:///".toList = ['s', 'q', 'l', 'i', 't', 'e', ':', '/', '/', '/'] := by decide
  rw [backend, String.toList_append, hchars]
  rfl

/-- Without a colon, just the name of the backend before a plus sign is left of a text. -/
theorem backend_without_colon (hcolon : ':' ∉ s.toList) :
    backend s = "sqlite" ↔ s = "sqlite" ∨ "sqlite+".toList <+: s.toList := by
  have hall : s.toList.takeWhile (· != ':') = s.toList := by
    apply List.takeWhile_eq_self_iff.mpr
    intro c hc
    exact bne_iff_ne.mpr fun hceq => hcolon (hceq ▸ hc)
  rw [backend, hall]
  constructor
  · intro h
    have htake : s.toList.takeWhile (· != '+') = "sqlite".toList := by
      rw [← h, String.toList_ofList]
    have hsplit := List.takeWhile_append_dropWhile (p := (· != '+')) (l := s.toList)
    rcases hdrop : s.toList.dropWhile (· != '+') with _ | ⟨c, rest⟩
    · left
      rw [hdrop, List.append_nil, htake] at hsplit
      exact (String.toList_inj.mp hsplit).symm
    · right
      have hplus : c = '+' := by
        have hhead := List.head?_dropWhile_not (· != '+') s.toList
        rw [hdrop] at hhead
        simpa using hhead
      refine ⟨rest, ?_⟩
      rw [← hsplit, htake, hdrop, hplus]
      rfl
  · rintro (rfl | ⟨rest, hrest⟩)
    · decide
    · rw [← hrest]
      rfl

end DatabaseUrl

namespace Database

open DatabaseUrl

/-- An engine can be made for the URL of every file. -/
theorem checkUrl_file (q : String) : checkUrl ("sqlite:///" ++ q) = .ok () := by
  have hscheme : scheme? ("sqlite:///" ++ q) = some ("sqlite", '/' :: q.toList) := by
    rw [scheme?, String.toList_append]
    rfl
  rw [checkUrl, hscheme]
  rfl

/-- No engine can be made for a text without a colon. -/
theorem checkUrl_without_colon {s : String} (hcolon : ':' ∉ s.toList) :
    checkUrl s = .error (.refused .unreadableUrl) := by
  have hscheme : scheme? s = none := by
    unfold scheme?
    dsimp only
    split
    next _ rest hrest =>
      have hmem : ':' ∈ ':' :: '/' :: '/' :: rest := List.mem_cons_self
      rw [← hrest] at hmem
      exact absurd (List.mem_of_mem_drop hmem) hcolon
    next => rfl
  rw [checkUrl, hscheme]

/-- The store in a file opens, and its backend is reported. -/
theorem connect_file {base : List String} {s q : String} (kind : String) (w : Session)
    (hurl : normalize base s = .ok ("sqlite:///" ++ q)) :
    connect checkUrl base kind s w =
      .ok (ofUrl kind ("sqlite:///" ++ q)) (w.saying [.databaseReady "sqlite"]) := by
  have hbackend : (ofUrl kind ("sqlite:///" ++ q)).backend = "sqlite" := backend_file q
  unfold connect
  rw [hurl]
  dsimp only
  rw [checkUrl_file, hbackend]
  rfl

/-- A text without a colon that names a backend opens nothing. -/
theorem connect_named (base : List String) (kind : String) (w : Session) {s : String}
    (hcolon : ':' ∉ s.toList) (hname : NamesBackend s) :
    connect checkUrl base kind s w = .error (.store .unreadableUrl) w := by
  have hurl : normalize base s = .ok s := by
    rw [DatabaseUrl.normalize, if_pos (isUrl_iff.mpr hname)]
  unfold connect
  rw [hurl]
  dsimp only
  rw [checkUrl_without_colon hcolon]
  rfl

/-- A text without a colon is the path of a file unless it begins with the name of a backend.
The URL of the file is its absolute path, escaped, the path can be read off it, and its store is
one of SQLite's. A text that begins with the name of a backend stays as it is: it is no URL
either, so no store opens, though the backend is SQLite's if just that name comes before a plus
sign or the end. -/
theorem a_text_without_a_colon_is_a_file_unless_it_names_a_backend (base : List String)
    (kind s : String) (hcolon : ':' ∉ s.toList) (hnull : '\x00' ∉ s.toList) :
    (¬ NamesBackend s → ∃ t, (∀ u, DenotesFrom base s u ↔ u = t) ∧
      normalize base s = .ok ("sqlite:///" ++ escape t) ∧
      Escaped (escape t).toList ∧ textOf? (escape t).toList = some t.toList ∧
      (ofUrl kind ("sqlite:///" ++ escape t)).backend = "sqlite" ∧
      ∀ w, connect checkUrl base kind s w =
        .ok (ofUrl kind ("sqlite:///" ++ escape t)) (w.saying [.databaseReady "sqlite"])) ∧
    (NamesBackend s → normalize base s = .ok s ∧
      ((ofUrl kind s).backend = "sqlite" ↔ s = "sqlite" ∨ "sqlite+".toList <+: s.toList) ∧
      ∀ w, connect checkUrl base kind s w = .error (.store .unreadableUrl) w) := by
  constructor
  · intro hname
    obtain ⟨t, ht, hurl⟩ := normalize_denoted base hcolon hnull hname
    refine ⟨t, fun u => ⟨?_, ?_⟩, hurl, escaped_escape t, textOf?_escape t, backend_file _, ?_⟩
    · intro hu
      exact hu.unique ht
    · rintro rfl
      exact ht
    · intro w
      exact connect_file kind w hurl
  · intro hname
    refine ⟨?_, backend_without_colon hcolon, ?_⟩
    · rw [DatabaseUrl.normalize, if_pos (isUrl_iff.mpr hname)]
    · intro w
      exact connect_named base kind w hcolon hname

/-- The name of a backend within a path does no harm. -/
theorem a_backend_within_a_path_is_a_file :
    ':' ∉ "../data/sqlite.db".toList ∧ '\x00' ∉ "../data/sqlite.db".toList ∧
      ¬ NamesBackend "../data/sqlite.db" ∧
      DenotesFrom ["srv", "app"] "../data/sqlite.db" "/srv/data/sqlite.db" ∧
      normalize ["srv", "app"] "../data/sqlite.db" =
        .ok ("sqlite:///" ++ escape "/srv/data/sqlite.db") := by
  have hcolon : ':' ∉ "../data/sqlite.db".toList := by decide
  have hnull : '\x00' ∉ "../data/sqlite.db".toList := by decide
  have hname : ¬ NamesBackend "../data/sqlite.db" := by
    unfold NamesBackend
    decide
  have hdenotes : DenotesFrom ["srv", "app"] "../data/sqlite.db" "/srv/data/sqlite.db" := by
    have hparts : ["srv", "app"] ++ segments "../data/sqlite.db" =
        ["srv", "app", "..", "data", "sqlite.db"] := by
      decide +kernel
    have hresolved : Resolved (["srv", "app"] ++ segments "../data/sqlite.db")
        ["srv", "data", "sqlite.db"] := hparts ▸ Path.resolved_collapse _
    exact .relative (by decide) hresolved
  obtain ⟨t, ht, hurl, -⟩ := (a_text_without_a_colon_is_a_file_unless_it_names_a_backend
    ["srv", "app"] "" "../data/sqlite.db" hcolon hnull).1 hname
  obtain rfl := (ht _).mp hdenotes
  exact ⟨hcolon, hnull, hname, hdenotes, hurl⟩

/-- A file whose own name begins with the name of a backend is not found. -/
theorem a_file_named_as_a_backend_is_taken_for_a_url :
    ':' ∉ "sqlite.db".toList ∧ '\x00' ∉ "sqlite.db".toList ∧
      DenotesFrom [] "sqlite.db" "/sqlite.db" ∧ normalize [] "sqlite.db" = .ok "sqlite.db" ∧
      "sqlite.db" ≠ "sqlite:///" ++ escape "/sqlite.db" ∧
      (ofUrl "" "sqlite.db").backend = "sqlite.db" := by
  refine ⟨by decide, by decide, ?_, by decide, by decide, by decide⟩
  have hparts : [] ++ segments "sqlite.db" = ["sqlite.db"] := by decide +kernel
  have hresolved : Resolved ([] ++ segments "sqlite.db") ["sqlite.db"] :=
    hparts ▸ Path.resolved_collapse _
  exact .relative (by decide) hresolved

end Database
end SchemaLedger
