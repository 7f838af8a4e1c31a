-- Splitting undoes joining. A script that is written from simple statements, each with a semicolon
-- and a line end after it and any comments and white space before it, has just these statements.
import SchemaLedger.Proofs.CommentScripts
import SchemaLedger.Proofs.SimpleStatements

namespace SchemaLedger.Sql

variable {s st g rest : List Char} {before : Option Char} {ls : List Lexeme} {x : Lexeme}

/-! ## One statement with what stands before it -/

/-- The lexeme that ends a statement. -/
def semicolon : Lexeme := ⟨.semicolon, [';']⟩

/-- The lexemes of a statement, of what stands before it and of its semicolon. -/
structure Part (g st : List Char) (front body : List Lexeme) : Prop where
  frontText : textOf front = g
  bodyText : textOf body = st
  remarks : ∀ x ∈ front, IsRemark (Text.isBlank · = true) x
  settled : Settled body

theorem exists_part (hg : Remarks (Text.isBlank · = true) g) (hst : Simple st)
    (before : Option Char) (rest : List Char) :
    ∃ front body, Part g st front body ∧
      Lexes before (g ++ (st ++ [';'])) (front ++ (body ++ [semicolon])) rest := by
  obtain ⟨a, m, z, hends, ha, -⟩ := hst.ends
  have hnext : (st ++ [';'] ++ rest).head? ≠ some '\n' := by
    rw [hends]
    rintro h
    obtain rfl : a = '\n' := Option.some.inj h
    exact absurd ha (by decide)
  have hcloses : Closes ([';'] ++ rest) := by simp [Closes]
  obtain ⟨front, hfront, hremarks, -⟩ := hg.found (fun _ h => h) hnext before
  obtain ⟨body, hbody, hsettled⟩ := hst.clauses.lexes hcloses (g.getLast?.or before)
  exact ⟨front, body, ⟨hfront.text, hbody.text, hremarks, hsettled⟩,
    hfront.append (hbody.append (.one firstMatch_semicolon))⟩

namespace Part

variable {front body : List Lexeme}

theorem idle (h : Part g st front body) : ∀ x ∈ front, IsIdle x := fun x hx =>
  (h.remarks x hx).idle fun _ h => h

theorem quiet (h : Part g st front body) :
    ∀ x ∈ front ++ body, ∀ scope, endsIn scope x = false :=
  List.forall_mem_append.mpr ⟨fun x hx => (h.idle x hx).quiet, h.settled.quiet⟩

theorem follows (h : Part g st front body) : Follows (body ++ [semicolon]) where
  bare := by
    refine List.forall_mem_append.mpr ⟨fun x hx => ?_, by simp [semicolon, Lexeme.isComment]⟩
    exact (Bool.or_eq_false_iff.mp (h.settled.apart x hx)).1
  head x hx := by
    have hall : ∀ x ∈ body ++ [semicolon], joinsRow x = false :=
      List.forall_mem_append.mpr ⟨h.settled.apart, by simp [semicolon, joinsRow, Lexeme.isComment]⟩
    exact hall x (List.mem_of_mem_head? hx)

theorem textOf_eq (h : Part g st front body) : textOf (body ++ [semicolon]) = st ++ [';'] := by
  rw [textOf, List.flatMap_append]
  exact congrArg (· ++ [';']) h.bodyText

/-- White space, and after it the statement with its semicolon. -/
theorem withoutComments_eq (h : Part g st front body)
    (hg : ∀ c ∈ g.head?, Text.isBlank c = false) :
    ∃ t : List Char, (∀ c ∈ t, Text.isBlank c = true) ∧
      withoutComments (front ++ (body ++ [semicolon])) = t ++ (st ++ [';']) := by
  rw [← h.textOf_eq]
  cases front with
  | nil => exact ⟨[], by simp, withoutComments_bare h.follows⟩
  | cons x front =>
    have hx := h.remarks x List.mem_cons_self
    have hcomment : x.isComment = true := by
      have hhead := h.frontText ▸ hg
      cases hx with
      | space hc => exact absurd hc (by simp [hhead _ rfl])
      | @lineEnd c s hline =>
        have := hhead c rfl
        rcases hline c List.mem_cons_self with rfl | rfl <;> exact absurd this (by decide)
      | lineComment | blockComment => rfl
    exact withoutComments_of_more hcomment h.idle h.follows (by simp)

end Part

theorem Simple.head (hst : Simple st) (rest : List Char) :
    ∀ c ∈ (st ++ rest).head?, Text.isBlank c = false := by
  obtain ⟨a, m, z, rfl, ha, -⟩ := hst.ends
  rintro c hc
  obtain rfl : a = c := Option.some.inj hc
  exact ha

theorem trim_part (hst : Simple st) (g : List Char) :
    Text.trim (g ++ (st ++ [';'])) = Text.trimStart g ++ (st ++ [';']) := by
  have hstart : Text.trimStart (g ++ (st ++ [';'])) = Text.trimStart g ++ (st ++ [';']) :=
    dropWhile_append_of_head? (hst.head [';'])
  rw [Text.trim, hstart, ← List.append_assoc, dropEndWhile_concat, if_neg (by decide)]

theorem cut_part {front body : List Lexeme} (h : Part g st front body) :
    cut (front ++ (body ++ [semicolon])) = [front ++ (body ++ [semicolon])] := by
  rw [cut, ← List.append_assoc, cutFrom_quiet h.quiet, cutFrom, Bool.false_and,
    if_neg Bool.false_ne_true, cutFrom, if_neg]
  · simp
  · simp [semicolon, Lexeme.isSpace]

/-- White space in front and a semicolon at the end go. -/
theorem Simple.trim_line (hst : Simple st) {t : List Char} (ht : ∀ c ∈ t, Text.isBlank c = true) :
    Text.trim (Text.dropEndWhile (· == ';') (Text.trim (t ++ (st ++ [';'])))) = st := by
  obtain ⟨a, m, z, hst_eq, ha, hz, hsemi⟩ := hst.ends
  have hline : Text.Stripped (t ++ (st ++ [';'])) (st ++ [';']) :=
    ⟨⟨t, [], by simp, ht, by simp⟩, hst.head [';'], by simp; decide⟩
  have hlast : Text.dropEndWhile (· == ';') st = st := by
    rw [hst_eq, ← List.cons_append, dropEndWhile_concat, if_neg (by simpa using hsemi)]
  have hstatement : Text.Stripped st st :=
    ⟨⟨[], [], by simp, by simp, by simp⟩, by simpa using hst.head [], by
      rw [hst_eq, ← List.cons_append, List.getLast?_concat]
      simpa using hz⟩
  rw [hline.trim_eq, dropEndWhile_concat, if_pos (by simp), hlast, hstatement.trim_eq]

/-- A statement comes back bare. -/
theorem bare_simple (hg : Remarks (Text.isBlank · = true) g) (hst : Simple st) :
    bare (Text.trim (g ++ (st ++ [';']))) = st := by
  rw [trim_part hst]
  obtain ⟨front, body, hpart, hlexes⟩ := exists_part hg.trimStart hst none []
  have hhead : ∀ c ∈ (Text.trimStart g).head?, Text.isBlank c = false := fun c hc =>
    Text.isBlank_of_mem_head?_dropWhile hc
  obtain ⟨t, ht, hleft⟩ := hpart.withoutComments_eq hhead
  have hline : OnOneLine (st ++ [';']) := hst.clauses.onOneLine (.mark (by simp) .nil)
  have hnext : (st ++ [';']).head? ≠ some '\n' := fun h =>
    absurd (hst.head [';'] '\n' h) (by decide)
  obtain ⟨u, l, hblank, htidy⟩ := tidyLines_blank_append ht hline hnext
  have hend : Text.dropEndWhile Text.isBlank (l ++ (st ++ [';'])) = l ++ (st ++ [';']) := by
    rw [← List.append_assoc, dropEndWhile_concat, if_neg (by decide)]
  rw [bare_of_cut (by rw [hlexes.lexemes_eq, cut_part hpart]), hleft, htidy, hend,
    ← List.append_assoc u, hst.trim_line hblank]

/-- A simple statement is a script of its own. -/
theorem statements_one {st : String} (hst : Simple st.toList) : statements (st ++ ";") = [st] := by
  obtain ⟨front, body, hpart, hlexes⟩ := exists_part .nil hst none []
  have hbare := bare_simple .nil hst
  rw [List.nil_append] at hlexes hbare
  have hchars : (st ++ ";").toList = st.toList ++ [';'] := by simp
  have hkept : (!st.toList.isEmpty) = true := by
    obtain ⟨a, m, z, hends, -⟩ := hst.ends
    rw [hends]
    rfl
  rw [statements, hchars, hlexes.lexemes_eq, cut_part hpart, List.map_singleton, hlexes.text, hbare]
  simp [hkept]

/-! ## Scripts -/

/-- A line feed, a return, or both. -/
def IsLineBreak (b : List Char) : Prop := b ∈ [['\n'], ['\r'], ['\r', '\n']]

/-- A script of statements. Each has any white space and comments before it, blank lines and lines
of comment among them, and after it a semicolon and a line break. -/
inductive Script : List Char → List String → Prop where
  | nil : Script [] []
  | cons {g st b s : List Char} {sts : List String} : Remarks (Text.isBlank · = true) g →
    Simple st → IsLineBreak b → Script s sts →
    Script (g ++ (st ++ [';']) ++ (b ++ s)) (String.ofList st :: sts)

theorem cutFrom_ended (hx : trails x = false) (scope : Scope) (current : List Lexeme) :
    cutFrom scope true current (x :: ls) = current :: cutFrom {} false [] (x :: ls) := by
  rw [cutFrom, hx, Bool.not_false, Bool.and_true, if_pos rfl, cutFrom, Bool.false_and,
    if_neg Bool.false_ne_true, Bool.false_or]
  rfl

theorem firstMatch_lineEnd_kind {c : Char} (hc : IsLineEnd c) (s : List Char) :
    (firstMatch before (c :: s)).1 = .newline := by
  by_cases h : c = '\r' ∧ s.head? = some '\n'
  · obtain ⟨rfl, hhead⟩ := h
    obtain ⟨s, rfl⟩ := List.head?_eq_some_iff.mp hhead
    rw [firstMatch_returnFeed]
  · rw [firstMatch_lineEnd hc fun hreturn hhead => h ⟨hreturn, hhead⟩]

theorem IsLineBreak.lineEnds {b : List Char} (hb : IsLineBreak b) :
    ∃ c b', b = c :: b' ∧ ∀ d ∈ c :: b', IsLineEnd d := by
  simp only [IsLineBreak, List.mem_cons, List.not_mem_nil, or_false] at hb
  rcases hb with rfl | rfl | rfl <;> exact ⟨_, _, rfl, by simp [IsLineEnd]⟩

/-- After a line break the next statement begins. -/
theorem cutFrom_lineBreak {b : List Char} (hb : IsLineBreak b) (scope : Scope)
    (current : List Lexeme) (s : List Char) :
    cutFrom scope true current (lexFrom before (b ++ s)) =
      current :: cutFrom {} false [] (lexFrom before (b ++ s)) := by
  obtain ⟨c, b, rfl, hends⟩ := hb.lineEnds
  rw [List.cons_append, lexFrom, cutFrom_ended]
  simp [trails, firstMatch_lineEnd_kind (hends c List.mem_cons_self)]

theorem Part.level {front body : List Lexeme} (h : Part g st front body) (scope : Scope) :
    ((front ++ body).foldl Scope.after scope).level = scope.level := by
  rw [List.foldl_append, h.settled.level]
  have hidle := h.idle
  clear h
  induction front generalizing scope with
  | nil => rfl
  | cons x front ih =>
    obtain ⟨hx, hfront⟩ := List.forall_mem_cons.mp hidle
    rw [List.foldl_cons, ih _ hfront]
    rcases hx with hkind | hkind | ⟨hkind | hkind, -⟩ <;> simp [Scope.after, hkind]

/-- The semicolon ends the statement. -/
theorem cutFrom_part {front body : List Lexeme} (h : Part g st front body) (ls : List Lexeme) :
    ∃ scope, cutFrom {} false [] (front ++ (body ++ [semicolon]) ++ ls) =
      cutFrom scope true (front ++ (body ++ [semicolon])) ls := by
  refine ⟨(front ++ body).foldl Scope.after {}, ?_⟩
  have hlevel := h.level {}
  generalize hscope : (front ++ body).foldl Scope.after {} = scope at hlevel ⊢
  have hends : endsIn scope semicolon = true := by simp [endsIn, semicolon, hlevel]
  have hsame : scope.after semicolon = scope := rfl
  have hsplit : front ++ (body ++ [semicolon]) ++ ls = (front ++ body) ++ semicolon :: ls := by simp
  rw [hsplit, cutFrom_quiet h.quiet, hscope, cutFrom, Bool.false_and, if_neg Bool.false_ne_true,
    hsame, hends]
  simp

theorem Remarks.after_lineBreak {b : List Char} (hg : Remarks (Text.isBlank · = true) g)
    (hb : b = [] ∨ IsLineBreak b) : Remarks (Text.isBlank · = true) (b ++ g) := by
  simp only [IsLineBreak, List.mem_cons, List.not_mem_nil, or_false] at hb
  rcases hb with rfl | rfl | rfl | rfl
  · exact hg
  · exact .space (by decide) hg
  · exact .space (by decide) hg
  · exact .space (by decide) (.space (by decide) hg)

/-- A line break alone is no statement. -/
theorem cut_lineBreak {b : List Char} (hb : b = [] ∨ IsLineBreak b) (before : Option Char) :
    cutFrom {} false [] (lexFrom before b) = [] := by
  have hone {c : Char} {t : List Char} (h : firstMatch before (c :: (t ++ [])) =
      (.newline, t.length + 1)) : cutFrom {} false [] (lexFrom before (c :: t)) = [] := by
    have := (Lexes.one h).lexed
    rw [List.append_nil, lexFrom] at this
    rw [this]
    rfl
  simp only [IsLineBreak, List.mem_cons, List.not_mem_nil, or_false] at hb
  rcases hb with rfl | rfl | rfl | rfl
  · rw [lexFrom]
    rfl
  · exact hone (firstMatch_lineEnd (.inl rfl) (by simp))
  · exact hone (firstMatch_lineEnd (.inr rfl) (by simp))
  · exact hone firstMatch_returnFeed

/-- The parts of a script that stands after a line break or at the start. -/
theorem Script.parts {sts : List String} (h : Script s sts) {b : List Char}
    (hb : b = [] ∨ IsLineBreak b) (before : Option Char) :
    (cutFrom {} false [] (lexFrom before (b ++ s))).map
      (fun part => bare (Text.trim (textOf part))) = sts.map String.toList := by
  induction h generalizing b before with
  | nil => rw [List.append_nil, cut_lineBreak hb, List.map_nil, List.map_nil]
  | @cons g st b' s sts hg hst hb' _ ih =>
    have hbreak : Remarks (Text.isBlank · = true) (b ++ g) := hg.after_lineBreak hb
    obtain ⟨front, body, hpart, hlexes⟩ := exists_part hbreak hst before (b' ++ s)
    obtain ⟨scope, hcut⟩ := cutFrom_part hpart (lexFrom _ (b' ++ s))
    have hsplit : b ++ (g ++ (st ++ [';']) ++ (b' ++ s)) =
      b ++ g ++ (st ++ [';']) ++ (b' ++ s) := by simp
    rw [hsplit, hlexes.lexed, hcut, cutFrom_lineBreak hb', List.map_cons, ih (.inr hb'), hlexes.text,
      bare_simple hbreak hst, List.map_cons, String.toList_ofList]

theorem Script.simple {sts : List String} (h : Script s sts) : ∀ st ∈ sts, Simple st.toList := by
  induction h with
  | nil => simp
  | cons _ hst _ _ ih => exact List.forall_mem_cons.mpr ⟨by rwa [String.toList_ofList], ih⟩

/-- A script of simple statements is split into just these statements, in order. -/
theorem a_script_is_split_into_what_it_was_joined_from {script : String} {sts : List String}
    (h : Script script.toList sts) : statements script = sts := by
  have hparts := h.parts (.inl rfl) none
  rw [List.nil_append] at hparts
  have hkept : (sts.map String.toList).filter (!·.isEmpty) = sts.map String.toList := by
    rw [List.filter_eq_self]
    intro t ht
    obtain ⟨st, hst, rfl⟩ := List.mem_map.mp ht
    obtain ⟨a, m, z, hends, -⟩ := (h.simple st hst).ends
    rw [hends]
    rfl
  rw [statements, cut, lexemes, hparts, hkept, List.map_map]
  simp

theorem marks_in_comments_and_texts_split_nothing :
    Script "\n-- it's; (\nINSERT INTO t (name) VALUES ('a; -- /* (');\nSELECT 42;\n".toList
        ["INSERT INTO t (name) VALUES ('a; -- /* (')", "SELECT 42"] ∧
      statements "\n-- it's; (\nINSERT INTO t (name) VALUES ('a; -- /* (');\nSELECT 42;\n" =
        ["INSERT INTO t (name) VALUES ('a; -- /* (')", "SELECT 42"] := by
  have hcomment : Comment "-- it's; (\n".toList :=
    .line (t := " it's; (".toList) (b := ['\n']) ⟨by simp [IsLineEnd], by simp⟩ (by simp)
  have hremarks : Remarks (Text.isBlank · = true) "\n-- it's; (\n".toList :=
    .space (by decide) (.comment hcomment .nil)
  have hname : PlainWord ['t'] := by decide +kernel
  have hinsert : Simple "INSERT INTO t (name) VALUES ('a; -- /* (')".toList :=
    .insert (t := "a; -- /* (".toList) hname (by simp [Quotable])
  have hselect : Simple "SELECT 42".toList := .select (n := ['4', '2']) (by simp) (List.all_eq_true.mp rfl)
  have hscript := Script.cons hremarks hinsert (.head _)
    (.cons .nil hselect (b := ['\n']) (.head _) .nil)
  exact ⟨hscript, a_script_is_split_into_what_it_was_joined_from hscript⟩

end SchemaLedger.Sql
