-- The URL of a file. A text that is no URL denotes one absolute path: the parts between its
-- slashes, without the empty ones and the single dots, and for a relative path without the double
-- dots too. The URL is this path, escaped, and nothing of the path is lost in it.
import Mathlib.Data.List.Induction
import SchemaLedger.Proofs.Escaping

namespace SchemaLedger

/-! ## The path that a text denotes -/

namespace DatabaseUrl

/-- The parts of a text between its slashes, without the empty ones and the single dots. -/
def segments (s : String) : List String :=
  ((s.toList.splitOn '/').filter fun p => p != [] && p != ['.']).map String.ofList

/-- `qs` is left of `ps` when each double dot takes away the part before it, if there is one. -/
inductive Resolved : List String → List String → Prop where
  | nil : Resolved [] []
  | name {p : String} {ps qs : List String} : p ≠ ".." → Resolved ps qs →
    Resolved (ps ++ [p]) (qs ++ [p])
  | up {ps qs : List String} : Resolved ps qs → Resolved (ps ++ [".."]) qs.dropLast

/-- A text begins with two slashes and no third one. -/
def Doubled (s : String) : Prop := ['/', '/'] <+: s.toList ∧ ¬ ['/', '/', '/'] <+: s.toList

/-- The absolute path `t` is the one that `s` denotes from the root. Double dots stay in a path
that is absolute, and so do two slashes at its front. -/
inductive Denotes (s : String) : String → Prop where
  | rooted : s.toList.head? = some '/' → ¬ Doubled s →
    Denotes s ("/" ++ "/".intercalate (segments s))
  | doubled : Doubled s → Denotes s ("//" ++ "/".intercalate (segments s))
  | relative {qs : List String} : s.toList.head? ≠ some '/' → Resolved (segments s) qs →
    Denotes s ("/" ++ "/".intercalate qs)

end DatabaseUrl

namespace Path

open DatabaseUrl

theorem splitFrom_eq (part s : List Char) :
    splitFrom part s = (s.splitOn '/').modifyHead (part ++ ·) := by
  induction s generalizing part with
  | nil => rw [splitFrom, List.splitOn_nil, List.modifyHead_cons, List.append_nil]
  | cons c s ih =>
    rw [splitFrom, List.splitOn_cons_eq_if_modifyHead, ih, ih]
    by_cases hc : c = '/'
    · rw [if_pos hc, if_pos (beq_iff_eq.mpr hc), List.modifyHead_cons, List.append_nil]
      exact congrArg (part :: ·) (congrFun List.modifyHead_id _)
    · rw [if_neg hc, if_neg (mt beq_iff_eq.mp hc), List.modifyHead_modifyHead]
      congr 1
      funext t
      exact List.append_assoc part [c] t

theorem parts_ofText (s : String) : (ofText s).parts = segments s := by
  unfold ofText ofChars segments
  rw [splitFrom_eq]
  have hid : (s.toList.splitOn '/').modifyHead (([] : List Char) ++ ·) = s.toList.splitOn '/' :=
    congrFun List.modifyHead_id _
  rw [hid]

theorem collapse_snoc (ps : List String) (p : String) :
    collapse (ps ++ [p]) = if p = ".." then (collapse ps).dropLast else collapse ps ++ [p] := by
  simp only [collapse, List.foldl_append, List.foldl_cons, List.foldl_nil]

theorem resolved_collapse (ps : List String) : Resolved ps (collapse ps) := by
  induction ps using List.reverseRecOn with
  | nil => exact .nil
  | append_singleton ps p ih =>
    rw [collapse_snoc]
    split
    next h => exact h ▸ .up ih
    next h => exact .name h ih

theorem eq_collapse {ps qs : List String} (h : Resolved ps qs) : qs = collapse ps := by
  induction h with
  | nil => rfl
  | name hp _ ih => rw [collapse_snoc, if_neg hp, ih]
  | up _ ih => rw [collapse_snoc, if_pos rfl, ih]

/-- The slashes at the front count as one, unless there are two of them or none. -/
theorem slashes_ofText (s : String) :
    (s.toList.head? = some '/' ∧ ¬ Doubled s ∧ (ofText s).slashes = 1) ∨
    (Doubled s ∧ (ofText s).slashes = 2) ∨
    (s.toList.head? ≠ some '/' ∧ (ofText s).slashes = 0) := by
  have hslash (c : Char) : '/' = c ↔ c = '/' := eq_comm
  unfold ofText ofChars Doubled leading
  dsimp only
  rcases s.toList with _ | ⟨a, _ | ⟨b, _ | ⟨c, rest⟩⟩⟩
  · simp
  · by_cases ha : a = '/' <;> simp [ha, hslash]
  · by_cases ha : a = '/' <;> by_cases hb : b = '/' <;> simp [ha, hb, hslash]
  · by_cases ha : a = '/' <;> by_cases hb : b = '/' <;> by_cases hc : c = '/' <;>
      simp [ha, hb, hc, hslash]

theorem text_of_slashes {p : Path} (h : 0 < p.slashes) :
    p.text = String.ofList (List.replicate p.slashes '/') ++ "/".intercalate p.parts := by
  unfold text
  rw [if_neg fun hnone => by omega]

end Path

/-! ## URLs of files -/

namespace DatabaseUrl

/-- A text that is neither a URL nor the word for a store in memory, and that may be a path. -/
structure IsFilePath (s : String) : Prop where
  noNull : '\x00' ∉ s.toList
  notMemory : s ≠ ":memory:"
  noBackend : ∀ b ∈ ["sqlite", "postgresql", "mysql"], ¬ b.toList <+: s.toList

variable {s t u : String}

theorem Doubled.head? (h : Doubled s) : s.toList.head? = some '/' := by
  obtain ⟨rest, hrest⟩ := h.1
  rw [← hrest]
  rfl

/-- A text denotes one path at most. -/
theorem Denotes.unique (ht : Denotes s t) (hu : Denotes s u) : t = u := by
  cases ht with
  | rooted hhead hone =>
    cases hu with
    | rooted => rfl
    | doubled htwo => exact absurd htwo hone
    | relative hrel => exact absurd hhead hrel
  | doubled htwo =>
    cases hu with
    | rooted _ hone => exact absurd htwo hone
    | doubled => rfl
    | relative hrel => exact absurd htwo.head? hrel
  | relative hrel hqs =>
    cases hu with
    | rooted hhead => exact absurd hhead hrel
    | doubled htwo => exact absurd htwo.head? hrel
    | relative _ hqs' => rw [Path.eq_collapse hqs, Path.eq_collapse hqs']

/-- A text without a null character denotes the path that is made of it. -/
theorem pathOf_denotes (h : '\x00' ∉ s.toList) : ∃ p, pathOf [] s = .ok p ∧ Denotes s p.text := by
  unfold pathOf Path.isAbsolute
  dsimp only
  rcases Path.slashes_ofText s with ⟨hhead, hone, hslashes⟩ | ⟨htwo, hslashes⟩ | ⟨hhead, hslashes⟩
  · refine ⟨Path.ofText s, if_pos (by rw [hslashes]; rfl), ?_⟩
    rw [Path.text_of_slashes (by omega), hslashes, Path.parts_ofText]
    exact .rooted hhead hone
  · refine ⟨Path.ofText s, if_pos (by rw [hslashes]; rfl), ?_⟩
    rw [Path.text_of_slashes (by omega), hslashes, Path.parts_ofText]
    exact .doubled htwo
  · refine ⟨(Path.ofText s).resolve [], ?_, ?_⟩
    · rw [if_neg (by rw [hslashes]; decide), if_neg (by simpa using h)]
    · have hresolve : (Path.ofText s).resolve [] = ⟨1, Path.collapse (segments s)⟩ := by
        rw [Path.resolve, Path.isAbsolute, hslashes, Path.parts_ofText]
        rfl
      rw [hresolve, Path.text_of_slashes Nat.one_pos]
      exact .relative hhead (Path.resolved_collapse _)

/-- The URL of a file is its path behind the name of the backend, escaped. -/
theorem normalize_file (h : IsFilePath s) :
    ∃ t, Denotes s t ∧ normalize [] s = .ok ("sqlite:///" ++ escape t) := by
  obtain ⟨p, hpath, hdenotes⟩ := pathOf_denotes h.noNull
  have hurl : isUrl s = false := by
    rw [isUrl, List.any_eq_false]
    intro b hb
    rw [startsWith, List.isPrefixOf_iff_prefix]
    exact h.noBackend b hb
  refine ⟨p.text, hdenotes, ?_⟩
  rw [normalize, hurl, if_neg Bool.false_ne_true, if_neg h.notMemory, hpath]
  rfl

theorem isUrl_file (q : String) : isUrl ("sqlite:///" ++ q) = true := by
  rw [isUrl, List.any_eq_true]
  refine ⟨"sqlite", by decide, ?_⟩
  rw [startsWith, List.isPrefixOf_iff_prefix, String.toList_append]
  exact List.prefix_append_of_prefix (by decide)

/-- Different paths have different URLs. -/
theorem file_inj (h : "sqlite:///" ++ escape t = "sqlite:///" ++ escape u) : t = u := by
  have hlists := congrArg String.toList h
  rw [String.toList_append, String.toList_append] at hlists
  have htexts := congrArg textOf? (List.append_cancel_left hlists)
  rw [textOf?_escape, textOf?_escape] at htexts
  exact String.toList_inj.mp (Option.some.inj htexts)

/-- The URL of a file holds the path that the text denotes, in plain characters and escaped
bytes, and the path can be read off it. So two texts have the same URL just if they denote the
same path, and a URL stays as it is. -/
theorem a_file_is_known_by_its_url :
    (∀ s, IsFilePath s → ∃ q t, normalize [] s = .ok ("sqlite:///" ++ q) ∧
      Escaped q.toList ∧ textOf? q.toList = some t.toList ∧ (∀ u, Denotes s u ↔ u = t) ∧
      normalize [] ("sqlite:///" ++ q) = .ok ("sqlite:///" ++ q)) ∧
    ∀ s s', IsFilePath s → IsFilePath s' →
      (normalize [] s = normalize [] s' ↔ ∃ t, Denotes s t ∧ Denotes s' t) := by
  constructor
  · intro s hs
    obtain ⟨t, ht, hurl⟩ := normalize_file hs
    refine ⟨escape t, t, hurl, escaped_escape t, textOf?_escape t, fun u => ⟨?_, ?_⟩, ?_⟩
    · exact fun hu => hu.unique ht
    · exact fun hu => hu ▸ ht
    · rw [normalize, if_pos (isUrl_file _)]
  · intro s s' hs hs'
    obtain ⟨t, ht, hurl⟩ := normalize_file hs
    obtain ⟨t', ht', hurl'⟩ := normalize_file hs'
    rw [hurl, hurl']
    constructor
    · intro h
      obtain rfl := file_inj (Except.ok.inj h)
      exact ⟨t, ht, ht'⟩
    · rintro ⟨u, hu, hu'⟩
      rw [ht.unique hu, ht'.unique hu']

/-- Two ways to write a path with a space and a letter beyond ASCII. -/
theorem two_texts_of_one_file_have_one_url :
    IsFilePath "new/.././é x.db" ∧ IsFilePath "..//é x.db/" ∧
      Denotes "new/.././é x.db" "/é x.db" ∧ Denotes "..//é x.db/" "/é x.db" ∧
      normalize [] "new/.././é x.db" = normalize [] "..//é x.db/" ∧
      ∃ q, normalize [] "new/.././é x.db" = .ok ("sqlite:///" ++ q) ∧
        textOf? q.toList = some "/é x.db".toList ∧
        normalize [] ("sqlite:///" ++ q) = .ok ("sqlite:///" ++ q) := by
  have h : IsFilePath "new/.././é x.db" := ⟨by decide, by decide, by decide⟩
  have h' : IsFilePath "..//é x.db/" := ⟨by decide, by decide, by decide⟩
  have hd : Denotes "new/.././é x.db" "/é x.db" := by
    have hrel := Denotes.relative (s := "new/.././é x.db") (by decide) (Path.resolved_collapse _)
    have htext : "/" ++ "/".intercalate (Path.collapse (segments "new/.././é x.db")) = "/é x.db" := by
      decide +kernel
    rwa [htext] at hrel
  have hd' : Denotes "..//é x.db/" "/é x.db" := by
    have hrel := Denotes.relative (s := "..//é x.db/") (by decide) (Path.resolved_collapse _)
    have htext : "/" ++ "/".intercalate (Path.collapse (segments "..//é x.db/")) = "/é x.db" := by
      decide +kernel
    rwa [htext] at hrel
  obtain ⟨q, t, hurl, _, htext, ht, hagain⟩ := a_file_is_known_by_its_url.1 _ h
  obtain rfl := (ht _).mp hd
  exact ⟨h, h', hd, hd', (a_file_is_known_by_its_url.2 _ _ h h').mpr ⟨_, hd, hd'⟩, q, hurl, htext,
    hagain⟩

end DatabaseUrl
end SchemaLedger
