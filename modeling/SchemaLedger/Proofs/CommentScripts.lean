-- Scripts of white space and comments. They have no statement, unless the first comment is
-- followed at once by another one and only comments and line ends are left: then the second
-- comment is a statement.
import SchemaLedger.Proofs.CommentRemoval
import SchemaLedger.Proofs.CountText
import SchemaLedger.Proofs.TidyLines

namespace SchemaLedger.Sql

variable {c : Char} {s t u : List Char} {x : Lexeme} {ls : List Lexeme} {gap : Char → Prop}

/-! ## One statement -/

theorem cutFrom_quiet (h : ∀ x ∈ ls, ∀ scope, endsIn scope x = false) (scope : Scope)
    (current rest : List Lexeme) :
    cutFrom scope false current (ls ++ rest) =
      cutFrom (ls.foldl Scope.after scope) false (current ++ ls) rest := by
  induction ls generalizing scope current with
  | nil => simp
  | cons x ls ih =>
    obtain ⟨hx, hls⟩ := List.forall_mem_cons.mp h
    rw [List.cons_append, cutFrom, Bool.false_and, if_neg Bool.false_ne_true, Bool.false_or, hx,
      ih hls, List.foldl_cons, List.append_assoc]
    rfl

theorem cut_quiet (h : ∀ x ∈ ls, ∀ scope, endsIn scope x = false) :
    cut ls = if ls.all Lexeme.isSpace then [] else [ls] := by
  have := cutFrom_quiet h {} [] []
  rw [List.append_nil] at this
  rw [cut, this, cutFrom]
  rfl

/-- The statement of a text that is not cut. -/
theorem bare_of_cut (h : cut (lexemes s) = [ls]) :
    bare s = Text.trim (Text.dropEndWhile (· == ';') (Text.trim (tidyLines (withoutComments ls)))) := by
  rw [bare, h, List.flatMap_singleton]

/-! ## Marks -/

/-- A text begins with the mark of a comment. -/
def BeginsComment (s : List Char) : Prop := ['-', '-'] <+: s ∨ ['/', '*'] <+: s

instance (s : List Char) : Decidable (BeginsComment s) := inferInstanceAs (Decidable (_ ∨ _))

theorem prefix_trim {a b : Char} (ha : Text.isBlank a = false) (hb : Text.isBlank b = false)
    (h : [a, b] <+: s) : [a, b] <+: Text.trim s := by
  obtain ⟨s, rfl⟩ := h
  have hstart : Text.trimStart ([a, b] ++ s) = [a] ++ [b] ++ s :=
    List.dropWhile_cons_of_neg (by simp [ha])
  rw [Text.trim, hstart]
  exact prefix_dropEndWhile hb [a] s

theorem BeginsComment.trim (h : BeginsComment s) : BeginsComment (Text.trim s) :=
  h.imp (prefix_trim (by decide) (by decide)) (prefix_trim (by decide) (by decide))

theorem BeginsComment.dropEndWhile (h : BeginsComment s) :
    BeginsComment (Text.dropEndWhile (· == ';') s) := by
  rcases h with ⟨s, rfl⟩ | ⟨s, rfl⟩
  · exact .inl (prefix_dropEndWhile (by decide) ['-'] s)
  · exact .inr (prefix_dropEndWhile (by decide) ['/'] s)

theorem BeginsComment.tidyLines (h : BeginsComment s) : BeginsComment (tidyLines s) := by
  rcases h with ⟨s, rfl⟩ | ⟨s, rfl⟩
  · exact .inl (tidyLines_mark (by simp [IsLineEnd]) (by simp [IsLineEnd]) (by decide))
  · exact .inr (tidyLines_mark (by simp [IsLineEnd]) (by simp [IsLineEnd]) (by decide))

theorem BeginsComment.append (h : BeginsComment s) (t : List Char) : BeginsComment (s ++ t) :=
  h.imp (·.trans (List.prefix_append s t)) (·.trans (List.prefix_append s t))

theorem BeginsComment.not_blank (h : BeginsComment (c :: s)) : Text.isBlank c = false := by
  rcases h with ⟨_, h⟩ | ⟨_, h⟩ <;> obtain ⟨rfl, -⟩ := List.cons.inj h <;> decide

/-- The statement is a comment, where one is left. -/
theorem beginsComment_bare (hcut : cut (lexemes s) = [ls])
    (h : BeginsComment (withoutComments ls)) : BeginsComment (bare s) := by
  rw [bare_of_cut hcut]
  exact h.tidyLines.trim.dropEndWhile.trim

/-- There is no statement, where only white space is left. -/
theorem bare_eq_nil (hcut : cut (lexemes s) = [ls])
    (h : ∀ c ∈ withoutComments ls, Text.isBlank c = true) : bare s = [] := by
  obtain ⟨t, l, hblank, htidy⟩ := tidyLines_blank_append h .nil (by simp)
  rw [List.forall_mem_append] at hblank
  rw [List.append_nil, List.append_nil, dropEndWhile_blank hblank.2, List.append_nil] at htidy
  rw [bare_of_cut hcut, htidy, Text.trim_eq_nil hblank.1]
  rfl

/-! ## Lexemes of comments and white space -/

theorem IsRemark.idle (hgap : ∀ c, gap c → Text.isBlank c = true) (hx : IsRemark gap x) :
    IsIdle x := by
  cases hx with
  | space hc _ => exact .inr (.inr ⟨.inl rfl, by simpa using hgap _ hc⟩)
  | lineEnd h =>
    refine .inr (.inr ⟨.inr rfl, fun c hc => ?_⟩)
    rcases h c hc with rfl | rfl <;> decide
  | lineComment => exact .inl rfl
  | blockComment => exact .inr (.inl rfl)

theorem IsIdle.quiet (hx : IsIdle x) (scope : Scope) : endsIn scope x = false := by
  rcases hx with h | h | ⟨h | h, -⟩ <;> simp [endsIn, isSeparator, h]

theorem IsRemark.beginsComment (hx : IsRemark gap x) (hcomment : x.isComment = true) :
    BeginsComment x.text := by
  cases hx with
  | space => simp [Lexeme.isComment] at hcomment
  | lineEnd => simp [Lexeme.isComment] at hcomment
  | lineComment s => exact .inl ⟨s, rfl⟩
  | blockComment s => exact .inr ⟨s, rfl⟩

/-- The first comment of a text and the one after it have nothing between them, and only comments
and line ends follow. -/
def Meets (s : List Char) : Prop :=
  ∃ t u, s = t ++ u ∧ Comment t ∧ BeginsComment u ∧ AllRemarks IsLineEnd u

theorem AllRemarks.of_comment (ht : Comment t) (hu : AllRemarks gap u) :
    ∃ t' u', t ++ u = t' ++ u' ∧ Comment t' ∧ AllRemarks gap u' ∧
      (t'.getLast? = some '\r' → u'.head? ≠ some '\n') := by
  by_cases hfeed : t.getLast? = some '\r' ∧ u.head? = some '\n'
  · obtain ⟨hlast, hhead⟩ := hfeed
    obtain ⟨u, rfl⟩ := List.head?_eq_some_iff.mp hhead
    exact ⟨t ++ ['\n'], u, by simp, ht.feed hlast, hu.of_blank_cons (by decide), by simp⟩
  · exact ⟨t, u, rfl, ht, hu, fun hlast hhead => hfeed ⟨hlast, hhead⟩⟩

/-- A text that does not begin with white space begins with a comment. -/
theorem AllRemarks.front (hs : AllRemarks gap s) (hhead : ∀ c ∈ s.head?, ¬ gap c) :
    s = [] ∨ (∃ t, s = '-' :: '-' :: t ∧ InLine t) ∨
      ∃ t u, s = t ++ u ∧ Comment t ∧ AllRemarks gap u ∧
        (t.getLast? = some '\r' → u.head? ≠ some '\n') := by
  cases hs with
  | remarks hs =>
    cases hs with
    | nil => exact .inl rfl
    | space hc _ => exact absurd hc (hhead _ rfl)
    | comment ht hs => exact .inr (.inr (AllRemarks.of_comment ht (.remarks hs)))
  | lastLine hs hline =>
    cases hs with
    | nil => exact .inr (.inl ⟨_, rfl, hline⟩)
    | space hc _ => exact absurd hc (hhead _ rfl)
    | comment ht hs =>
      rw [List.append_assoc]
      exact .inr (.inr (AllRemarks.of_comment ht (.lastLine hs hline)))

theorem cut_comment (hx : x.isComment = true) (hls : ∀ y ∈ x :: ls, IsIdle y) :
    cut (x :: ls) = [x :: ls] := by
  have hkind : x.isSpace = false := by
    rcases (hls x List.mem_cons_self) with h | h | ⟨h | h, -⟩ <;>
      simp_all [Lexeme.isSpace, Lexeme.isComment]
  rw [cut_quiet fun y hy => (hls y hy).quiet]
  simp [hkind]

theorem Cleared.blank (h : Cleared t []) : ∀ c ∈ t, Text.isBlank c = true := by
  obtain ⟨s, hs, rfl⟩ := h
  simpa [textOf] using hs

theorem dropWhile_joinsRow (hls : ∀ x ∈ ls, IsIdle x) :
    ls.dropWhile joinsRow = [] ↔ ∀ x ∈ ls, x.kind ≠ .blank := by
  rw [List.dropWhile_eq_nil_iff]
  refine forall₂_congr fun x hx => ?_
  rcases hls x hx with h | h | ⟨h | h, -⟩ <;> simp [joinsRow, Lexeme.isComment, h]

/-- The lexemes of a text that begins with a comment. -/
theorem lexemes_comment_append (ht : Comment t) (hu : AllRemarks gap u)
    (hgap : ∀ c, gap c → Text.isBlank c = true)
    (hfeed : t.getLast? = some '\r' → u.head? ≠ some '\n') :
    ∃ x ls, lexemes (t ++ u) = x :: ls ∧ x.isComment = true ∧ textOf ls = u ∧
      (∀ y ∈ x :: ls, IsRemark gap y) ∧
      ((∀ y ∈ ls, y.kind ≠ .blank) → AllRemarks IsLineEnd u) := by
  have hrest : t.getLast? = some '\r' → (u ++ []).head? ≠ some '\n' := by rwa [List.append_nil]
  obtain ⟨x, hx, hcomment, hone⟩ := ht.lexes hrest
  obtain ⟨ls, hlexes, hls, htight⟩ := hu.found hgap (t.getLast?.or none)
  exact ⟨x, ls, (hone.append hlexes).lexemes_eq, hcomment, hlexes.text,
    List.forall_mem_cons.mpr ⟨hx, hls⟩, htight⟩

/-- Where comments do not meet, nothing is left. -/
theorem bare_of_not_meets (hs : AllRemarks (Text.isBlank · = true) s)
    (hhead : ∀ c ∈ s.head?, ¬ Text.isBlank c = true) (hmeets : ¬ Meets s) : bare s = [] := by
  have hst : Follows [] := ⟨by simp, by simp⟩
  rcases hs.front hhead with rfl | ⟨t, rfl, ht⟩ | ⟨t, u, rfl, ht, hu, hfeed⟩
  · decide +kernel
  · have hidle : IsIdle ⟨.lineComment, '-' :: '-' :: t⟩ := .inl rfl
    have hcut := cut_comment rfl (List.forall_mem_singleton.mpr hidle)
    refine bare_eq_nil (by rw [(Lexes.lastLine ht).lexemes_eq, hcut]) ?_
    rw [withoutComments_single rfl hidle]
    simp
  · obtain ⟨x, ls, hlexemes, hcomment, htext, hremarks, htight⟩ :=
      lexemes_comment_append ht hu (fun _ h => h) hfeed
    have hidle : ∀ y ∈ x :: ls, IsIdle y := fun y hy => (hremarks y hy).idle fun _ h => h
    refine bare_eq_nil (by rw [hlexemes, cut_comment hcomment hidle]) ?_
    cases ls with
    | nil =>
      rw [withoutComments_single hcomment (hidle x List.mem_cons_self)]
      simp
    | cons y ls =>
      by_cases hrow : (y :: ls).dropWhile joinsRow = []
      · obtain ⟨v, hv, hleft⟩ := withoutComments_of_row hcomment hidle hrow
        obtain ⟨hy, hyidle⟩ : IsRemark _ y ∧ IsIdle y :=
          ⟨hremarks y (by simp), hidle y (by simp)⟩
        rw [hleft, List.forall_mem_append]
        refine ⟨hyidle.blank ?_, hv.blank⟩
        -- A comment right after the first one would make them meet.
        rw [Bool.eq_false_iff]
        intro hycomment
        refine hmeets ⟨t, u, rfl, ht, ?_, htight ?_⟩
        · rw [← htext]
          exact (hy.beginsComment hycomment).append _
        · exact (dropWhile_joinsRow (List.forall_mem_cons.mp hidle).2).mp hrow
      · have := withoutComments_of_more hcomment hidle hst (by simpa using hrow)
        rw [List.append_nil] at this
        exact this.blank

/-- Where they meet, a comment is left. -/
theorem bare_of_meets (hmeets : Meets s) : BeginsComment (bare s) := by
  obtain ⟨t, u, rfl, ht, hbegins, hu⟩ := hmeets
  have hblank : ∀ c, IsLineEnd c → Text.isBlank c = true := by
    rintro c (rfl | rfl) <;> decide
  have hfeed : u.head? ≠ some '\n' := by
    rcases hbegins with ⟨_, rfl⟩ | ⟨_, rfl⟩ <;> simp
  obtain ⟨x, ls, hlexemes, hcomment, htext, hremarks, -⟩ :=
    lexemes_comment_append ht hu hblank fun _ => hfeed
  have hidle : ∀ y ∈ x :: ls, IsIdle y := fun y hy => (hremarks y hy).idle hblank
  refine beginsComment_bare (by rw [hlexemes, cut_comment hcomment hidle]) ?_
  have hkinds : ∀ y ∈ ls, y.kind ≠ .blank := fun y hy => by
    cases hremarks y (List.mem_cons_of_mem x hy) with
    | space hc hline => exact absurd hc hline
    | lineEnd | lineComment | blockComment => simp
  cases ls with
  | nil =>
    subst htext
    rcases hbegins with ⟨_, h⟩ | ⟨_, h⟩ <;> simp [textOf] at h
  | cons y ls =>
    have hrow := (dropWhile_joinsRow (List.forall_mem_cons.mp hidle).2).mpr hkinds
    obtain ⟨v, -, hleft⟩ := withoutComments_of_row hcomment hidle hrow
    have hy := hremarks y (by simp)
    rw [hleft]
    refine (hy.beginsComment ?_).append v
    cases hy with
    | space hc hline => exact absurd hc hline
    | @lineEnd c s h =>
      rw [← htext] at hbegins
      exact absurd (hblank c (h c List.mem_cons_self)) (by simp [hbegins.not_blank])
    | lineComment | blockComment => rfl

/-! ## The script -/

/-- A script that is not cut has the statement of its trimmed text, if that is not empty. -/
theorem statements_of_cut {script : String}
    (h : cut (lexemes script.toList) = [lexemes script.toList]) :
    statements script =
      ([bare (Text.trim script.toList)].filter (!·.isEmpty)).map String.ofList := by
  have htext : textOf (lexemes script.toList) = script.toList := flatMap_text_lexemes _
  rw [statements, h, List.map_singleton, htext]

theorem AllRemarks.cut_lexemes (hs : AllRemarks (Text.isBlank · = true) s) :
    (∀ c ∈ s, Text.isBlank c = true) ∧ cut (lexemes s) = [] ∨
      cut (lexemes s) = [lexemes s] := by
  obtain ⟨ls, hlexes, hremarks, -⟩ := hs.found (fun _ h => h) none
  have hidle : ∀ x ∈ ls, IsIdle x := fun x hx => (hremarks x hx).idle fun _ h => h
  rw [hlexes.lexemes_eq, cut_quiet fun x hx => (hidle x hx).quiet]
  split
  next hspace =>
    refine .inl ⟨?_, rfl⟩
    rw [← hlexes.text]
    intro c hc
    obtain ⟨x, hx, hcx⟩ := List.mem_flatMap.mp hc
    refine (hidle x hx).blank ?_ c hcx
    have := List.all_eq_true.mp hspace x hx
    rcases hidle x hx with h | h | ⟨h | h, -⟩ <;> simp_all [Lexeme.isSpace, Lexeme.isComment]
  next => exact .inr rfl

/-- A comment ends in a line end, or in the slash that closes it. -/
theorem Comment.getLast?_mem (ht : Comment t) : ∃ c ∈ t.getLast?, IsLineEnd c ∨ c = '/' := by
  cases ht with
  | @line t b _ hb =>
    simp only [List.mem_cons, List.not_mem_nil, or_false] at hb
    rcases hb with rfl | rfl | rfl
    · exact ⟨'\n', by simp [List.getLast?_cons], .inl (.inl rfl)⟩
    · exact ⟨'\r', by simp [List.getLast?_cons], .inl (.inr rfl)⟩
    · exact ⟨'\n', by simp [List.getLast?_cons], .inl (.inl rfl)⟩
  | block _ => exact ⟨'/', by simp [List.getLast?_cons], .inr rfl⟩

theorem not_meets_nil : ¬ Meets [] := by
  rintro ⟨t, u, h, ht, -⟩
  obtain ⟨rfl, -⟩ := List.append_eq_nil_iff.mp h.symm
  simpa using ht.head?_mem

/-- A script of comments and white space has no statement, unless its first two comments meet and
only comments and line ends are left; then it has one, which is a comment. -/
theorem a_script_of_comments_has_a_statement_only_where_they_meet {script : String}
    (h : AllRemarks (Text.isBlank · = true) script.toList) :
    (¬ Meets (Text.trim script.toList) → statements script = []) ∧
      (Meets (Text.trim script.toList) →
        ∃ s, statements script = [s] ∧ BeginsComment s.toList) := by
  rcases h.cut_lexemes with ⟨hblank, hcut⟩ | hcut
  · rw [Text.trim_eq_nil hblank]
    exact ⟨fun _ => by rw [statements, hcut]; rfl, fun hmeets => absurd hmeets not_meets_nil⟩
  · rw [statements_of_cut hcut]
    refine ⟨fun hmeets => ?_, fun hmeets => ?_⟩
    · have hhead : ∀ c ∈ (Text.trim script.toList).head?, ¬ Text.isBlank c = true := fun c hc =>
        Bool.eq_false_iff.mp ((Text.stripped_trim script.toList).head c hc)
      rw [bare_of_not_meets h.trim hhead hmeets]
      rfl
    · have hbegins := bare_of_meets hmeets
      have hne : (bare (Text.trim script.toList)).isEmpty = false := by
        rcases hbegins with ⟨_, hbare⟩ | ⟨_, hbare⟩ <;> rw [← hbare] <;> rfl
      rw [List.filter_singleton, hne]
      exact ⟨_, rfl, by rwa [String.toList_ofList]⟩

theorem two_lines_meet_and_lines_apart_do_not :
    (AllRemarks (Text.isBlank · = true) "-- a\n-- b".toList ∧
      Meets (Text.trim "-- a\n-- b".toList) ∧
        ∃ s, statements "-- a\n-- b" = [s] ∧ BeginsComment s.toList) ∧
      AllRemarks (Text.isBlank · = true) "/* a */ -- b".toList ∧
        statements "/* a */ -- b" = [] := by
  have hline (c : Char) (hc : c = 'a' ∨ c = 'b') : InLine [' ', c] := by
    rcases hc with rfl | rfl <;> exact ⟨by simp [IsLineEnd], by simp⟩
  have hlast : InLine [' ', 'b'] := hline 'b' (.inr rfl)
  have hfirst : Comment "-- a\n".toList := .line (hline 'a' (.inl rfl)) (b := ['\n']) (by simp)
  have hblock : Comment "/* a */".toList := .block (t := [' ', 'a', ' ']) ⟨by decide, by simp⟩
  have hmet : AllRemarks (Text.isBlank · = true) "-- a\n-- b".toList :=
    .lastLine (.comment hfirst .nil) hlast
  have hmeets : Meets (Text.trim "-- a\n-- b".toList) :=
    ⟨"-- a\n".toList, "-- b".toList, by decide, hfirst, .inl ⟨" b".toList, rfl⟩, .lastLine .nil hlast⟩
  have hapart : AllRemarks (Text.isBlank · = true) "/* a */ -- b".toList :=
    .lastLine (.comment hblock (.space (by decide) .nil)) hlast
  refine ⟨⟨hmet, hmeets, (a_script_of_comments_has_a_statement_only_where_they_meet hmet).2 hmeets⟩,
    hapart, (a_script_of_comments_has_a_statement_only_where_they_meet hapart).1 ?_⟩
  rintro ⟨t, u, htext, ht, hu, -⟩
  have htake : "/* a */ -- b".toList.take t.length = t := by
    rw [show "/* a */ -- b".toList = t ++ u from htext, List.take_left]
  have hdrop : "/* a */ -- b".toList.drop t.length = u := by
    rw [show "/* a */ -- b".toList = t ++ u from htext, List.drop_left]
  have hlength : t.length ≤ 12 := by
    have := congrArg List.length htext
    rw [List.length_append, show (Text.trim "/* a */ -- b".toList).length = 12 by decide] at this
    omega
  have hmarks : ∀ n ≤ 12, BeginsComment ("/* a */ -- b".toList.drop n) → n = 0 ∨ n = 8 := by decide
  rcases hmarks t.length hlength (hdrop.symm ▸ hu) with h | h
  · rw [h] at htake
    simpa [← htake] using ht.head?_mem
  · rw [h] at htake
    rw [← htake] at ht
    obtain ⟨c, hc, hend⟩ := ht.getLast?_mem
    obtain rfl : ' ' = c := Option.some.inj hc
    simp [IsLineEnd] at hend

/-- Two lines of comment, one right after the other, are no empty script. -/
theorem a_second_line_of_comment_is_a_statement :
    ¬ ∀ script : String, AllRemarks (Text.isBlank · = true) script.toList →
      statements script = [] := by
  intro h
  have hfirst : Comment "-- a\n".toList :=
    .line (t := [' ', 'a']) (b := ['\n']) ⟨by simp [IsLineEnd], by simp⟩ (by simp)
  have hscript : AllRemarks (Text.isBlank · = true) "-- a\n-- b".toList :=
    .lastLine (t := [' ', 'b']) (.comment hfirst .nil) ⟨by simp [IsLineEnd], by simp⟩
  have hsplit : statements "-- a\n-- b" = ["-- b"] := by decide +kernel
  rw [h _ hscript] at hsplit
  cases hsplit

end SchemaLedger.Sql
