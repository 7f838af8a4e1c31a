-- Texts made of white space and comments. The lexer finds their parts again: each comment is one
-- lexeme, and so is each line end and each other white space character.
import Mathlib.Data.List.Induction
import SchemaLedger.Proofs.LexemeRules

namespace SchemaLedger.Sql

variable {before : Option Char} {c : Char} {s t rest : List Char} {gap : Char → Prop}

/-! ## Parts of a script -/

/-- Where `rest` follows, `s` after the character `before` is made of the lexemes `ls`. -/
structure Lexes (before : Option Char) (s : List Char) (ls : List Lexeme) (rest : List Char) :
    Prop where
  text : textOf ls = s
  lexed : lexFrom before (s ++ rest) = ls ++ lexFrom (s.getLast?.or before) rest

namespace Lexes

theorem nil : Lexes before [] [] rest := ⟨rfl, rfl⟩

theorem append {s' : List Char} {ls ls' : List Lexeme} (h : Lexes before s ls (s' ++ rest))
    (h' : Lexes (s.getLast?.or before) s' ls' rest) : Lexes before (s ++ s') (ls ++ ls') rest where
  text := by rw [textOf, List.flatMap_append]; exact congrArg₂ (· ++ ·) h.text h'.text
  lexed := by
    rw [List.append_assoc, h.lexed, h'.lexed, List.getLast?_append, Option.or_assoc,
      List.append_assoc]

theorem one {k : Kind} (h : firstMatch before (c :: (s ++ rest)) = (k, s.length + 1)) :
    Lexes before (c :: s) [⟨k, c :: s⟩] rest where
  text := by simp [textOf]
  lexed := by
    rw [List.cons_append, lexFrom, h]
    simp [List.getLast?_cons]

theorem lexemes_eq {ls : List Lexeme} (h : Lexes none s ls []) : lexemes s = ls := by
  have := h.lexed
  rwa [List.append_nil, lexFrom, List.append_nil] at this

end Lexes

/-! ## White space and comments -/

def IsLineEnd (c : Char) : Prop := c = '\n' ∨ c = '\r'

/-- What a line comment holds. A plus sign at its front would make it a hint. -/
structure InLine (t : List Char) : Prop where
  oneLine : ∀ c ∈ t, ¬ IsLineEnd c
  unmarked : t.head? ≠ some '+'

/-- What a block comment holds. -/
structure InBlock (t : List Char) : Prop where
  unclosed : ¬ ['*', '/'] <:+: t
  unmarked : t.head? ≠ some '+'

/-- A comment with all that belongs to it. -/
inductive Comment : List Char → Prop where
  | line {t b : List Char} : InLine t → b ∈ [['\n'], ['\r'], ['\r', '\n']] →
    Comment ('-' :: '-' :: (t ++ b))
  | block {t : List Char} : InBlock t → Comment ('/' :: '*' :: (t ++ ['*', '/']))

/-- Comments and, between them, characters of the kind `gap`. -/
inductive Remarks (gap : Char → Prop) : List Char → Prop where
  | nil : Remarks gap []
  | space {c : Char} {s : List Char} : gap c → Remarks gap s → Remarks gap (c :: s)
  | comment {t s : List Char} : Comment t → Remarks gap s → Remarks gap (t ++ s)

/-- The same up to the end of a script, where a line comment needs no line end. -/
inductive AllRemarks (gap : Char → Prop) : List Char → Prop where
  | remarks {s : List Char} : Remarks gap s → AllRemarks gap s
  | lastLine {s t : List Char} : Remarks gap s → InLine t →
    AllRemarks gap (s ++ '-' :: '-' :: t)

/-! ## Their lexemes -/

theorem firstMatch_lineComment (h : s.head? ≠ some '+') :
    firstMatch before ('-' :: '-' :: s) = (.lineComment, lineLength s + 2) := by
  rw [firstMatch_cons, show starts.filter (·.2 '-') =
    [starts[0], starts[2], starts[15], starts[24]] from rfl]
  cases s with
  | nil => rfl
  | cons c s =>
    have hc : c ≠ '+' := by simpa using h
    simp [starts, hintLine, commentLine, hc]

theorem firstMatch_blockComment (h : s.head? ≠ some '+') {n : Nat} (hn : blockLength? s = some n) :
    firstMatch before ('/' :: '*' :: s) = (.blockComment, n + 2) := by
  rw [firstMatch_cons, show starts.filter (·.2 '/') =
    [starts[1], starts[3], starts[24]] from rfl]
  cases s with
  | nil => cases hn
  | cons c s =>
    have hc : c ≠ '+' := by simpa using h
    simp [starts, hintBlock, commentBlock, hc, hn]

theorem firstMatch_blank (hc : Text.isBlank c = true) (hline : ¬ IsLineEnd c) :
    firstMatch before (c :: s) = (.blank, 1) := by
  have hmarks : c ≠ '-' ∧ c ≠ '#' ∧ c ≠ '/' := by
    refine ⟨?_, ?_, ?_⟩ <;> rintro rfl <;> exact absurd hc (by decide)
  rw [IsLineEnd, not_or] at hline
  rw [firstMatch_cons]
  simp [starts, hmarks, hline, hc, blank]

theorem firstMatch_lineEnd (hc : IsLineEnd c) (h : c = '\r' → s.head? ≠ some '\n') :
    firstMatch before (c :: s) = (.newline, 1) := by
  rcases hc with rfl | rfl
  · rw [firstMatch_cons, show starts.filter (·.2 '\n') =
      [starts[4], starts[5], starts[24]] from rfl]
    simp [starts, lineEnd]
  · rw [firstMatch_cons, show starts.filter (·.2 '\r') =
      [starts[4], starts[5], starts[24]] from rfl]
    cases s with
    | nil => rfl
    | cons d s =>
      have hd : d ≠ '\n' := by simpa using h rfl
      simp [starts, lineEnd, hd]

theorem firstMatch_returnFeed : firstMatch before ('\r' :: '\n' :: s) = (.newline, 2) := by
  rw [firstMatch_cons, show starts.filter (·.2 '\r') =
    [starts[4], starts[5], starts[24]] from rfl]
  simp [starts, lineEnd]

theorem lineLength_append (ht : ∀ c ∈ t, ¬ IsLineEnd c) :
    lineLength (t ++ s) = t.length + lineLength s := by
  induction t with
  | nil => simp
  | cons c t ih =>
    have hc := ht c List.mem_cons_self
    rw [IsLineEnd, not_or] at hc
    have := ih fun d hd => ht d (List.mem_cons_of_mem c hd)
    rw [List.cons_append, lineLength.eq_5, this, List.length_cons]
    · omega
    all_goals simp_all

theorem blockLength?_append (ht : ¬ ['*', '/'] <:+: t) :
    blockLength? (t ++ '*' :: '/' :: s) = some (t.length + 2) := by
  induction t with
  | nil => rfl
  | cons c t ih =>
    have hrest := ih fun h => ht (h.trans (List.suffix_cons c t).isInfix)
    rw [List.cons_append, blockLength?.eq_2, hrest]
    · simp
    · rintro r rfl hr
      apply ht
      cases t with
      | nil => simp at hr
      | cons d t =>
        obtain ⟨rfl, -⟩ := List.cons.inj hr
        exact ⟨[], t, rfl⟩

/-- A lexeme of white space and comments. -/
inductive IsRemark (gap : Char → Prop) : Lexeme → Prop where
  | space {c : Char} : gap c → ¬ IsLineEnd c → IsRemark gap ⟨.blank, [c]⟩
  | lineEnd {c : Char} {s : List Char} : (∀ d ∈ c :: s, IsLineEnd d) →
    IsRemark gap ⟨.newline, c :: s⟩
  | lineComment (s : List Char) : IsRemark gap ⟨.lineComment, '-' :: '-' :: s⟩
  | blockComment (s : List Char) : IsRemark gap ⟨.blockComment, '/' :: '*' :: s⟩

theorem lineLength_lineBreak {b : List Char} (hb : b ∈ [['\n'], ['\r'], ['\r', '\n']])
    (h : b.getLast? = some '\r' → rest.head? ≠ some '\n') :
    lineLength (b ++ rest) = b.length := by
  simp only [List.mem_cons, List.not_mem_nil, or_false] at hb
  rcases hb with rfl | rfl | rfl
  · rfl
  · cases rest with
    | nil => rfl
    | cons d rest =>
      have hd : d ≠ '\n' := by simpa using h rfl
      simp [lineLength, hd]
  · rfl

theorem Comment.lexes (ht : Comment t) (h : t.getLast? = some '\r' → rest.head? ≠ some '\n') :
    ∃ x, IsRemark gap x ∧ x.isComment = true ∧ Lexes before t [x] rest := by
  cases ht with
  | @line t b ht hb =>
    refine ⟨_, .lineComment (t ++ b), rfl, .one ?_⟩
    have hbreak : lineLength (b ++ rest) = b.length :=
      lineLength_lineBreak hb fun hlast => h (by simp [List.getLast?_cons, List.getLast?_append, hlast])
    have hhead : (t ++ (b ++ rest)).head? ≠ some '+' := by
      cases t with
      | nil =>
        simp only [List.mem_cons, List.not_mem_nil, or_false] at hb
        rcases hb with rfl | rfl | rfl <;> simp
      | cons d t => exact ht.unmarked
    rw [List.cons_append, List.append_assoc, firstMatch_lineComment hhead,
      lineLength_append ht.oneLine, hbreak]
    simp
  | @block t ht =>
    refine ⟨_, .blockComment (t ++ ['*', '/']), rfl, .one ?_⟩
    have hhead : (t ++ '*' :: '/' :: rest).head? ≠ some '+' := by
      cases t with
      | nil => simp
      | cons d t => exact ht.unmarked
    rw [List.cons_append, List.append_assoc]
    refine (firstMatch_blockComment hhead (blockLength?_append ht.unclosed)).trans ?_
    simp

/-- A line feed that follows a return belongs to the comment. -/
theorem Comment.feed (ht : Comment t) (h : t.getLast? = some '\r') : Comment (t ++ ['\n']) := by
  cases ht with
  | @line t b ht hb =>
    simp only [List.mem_cons, List.not_mem_nil, or_false] at hb
    rcases hb with rfl | rfl | rfl
    · simp [List.getLast?_cons] at h
    · simpa using Comment.line ht (b := ['\r', '\n']) (by simp)
    · simp [List.getLast?_cons] at h
  | block _ => simp [List.getLast?_cons] at h

theorem Comment.head?_mem (ht : Comment t) : t.head? = some '-' ∨ t.head? = some '/' := by
  cases ht with
  | line => exact .inl rfl
  | block => exact .inr rfl

/-- The lexer finds `s` again where `rest` follows. Only white space between comments, other than
line ends, makes up a blank lexeme. -/
def Found (gap : Char → Prop) (s rest : List Char) : Prop :=
  ∀ before, ∃ ls, Lexes before s ls rest ∧ (∀ x ∈ ls, IsRemark gap x) ∧
    ((∀ x ∈ ls, x.kind ≠ .blank) → Remarks IsLineEnd s)

theorem Found.after (h : Found gap s rest)
    (ht : ∀ before, ∃ x, Lexes before t [x] (s ++ rest) ∧ IsRemark gap x ∧
      (x.kind ≠ .blank → Remarks IsLineEnd s → Remarks IsLineEnd (t ++ s))) :
    Found gap (t ++ s) rest := by
  intro before
  obtain ⟨x, hone, hx, hjoin⟩ := ht before
  obtain ⟨ls, hlexes, hls, htight⟩ := h (t.getLast?.or before)
  refine ⟨_, hone.append hlexes, List.forall_mem_cons.mpr ⟨hx, hls⟩, fun hkinds => ?_⟩
  obtain ⟨hkind, hkinds⟩ := List.forall_mem_cons.mp hkinds
  exact hjoin hkind (htight hkinds)

theorem Found.space (hgap : Text.isBlank c = true) (hc : gap c)
    (hnext : c = '\r' → (s ++ rest).head? ≠ some '\n') (h : Found gap s rest) :
    Found gap (c :: s) rest := by
  refine Found.after (t := [c]) h fun before => ?_
  by_cases hline : IsLineEnd c
  · exact ⟨_, .one (firstMatch_lineEnd hline hnext), .lineEnd (by simpa using hline),
      fun _ => .space hline⟩
  · exact ⟨_, .one (firstMatch_blank hgap hline), .space hc hline, fun hkind => absurd rfl hkind⟩

theorem Found.returnFeed (h : Found gap s rest) : Found gap ('\r' :: '\n' :: s) rest :=
  Found.after (t := ['\r', '\n']) h fun _ =>
    ⟨_, .one firstMatch_returnFeed, .lineEnd (by simp [IsLineEnd]),
      fun _ hs => .space (.inr rfl) (.space (.inl rfl) hs)⟩

theorem Found.comment (ht : Comment t)
    (hnext : t.getLast? = some '\r' → (s ++ rest).head? ≠ some '\n') (h : Found gap s rest) :
    Found gap (t ++ s) rest := by
  refine h.after fun before => ?_
  obtain ⟨x, hx, -, hone⟩ := ht.lexes hnext
  exact ⟨x, hone, hx, fun _ => .comment ht⟩

/-- A text whose first character is no line feed, or the rest after the line feed. -/
theorem head?_append_or {d : Char} (hrest : rest.head? ≠ some d) (s : List Char) :
    (s ++ rest).head? ≠ some d ∨ ∃ s', s = d :: s' := by
  cases s with
  | nil => exact .inl hrest
  | cons c s =>
    by_cases hc : c = d
    · exact .inr ⟨s, hc ▸ rfl⟩
    · exact .inl (by simpa using hc)

/-- White space and comments are found again. -/
theorem Remarks.found (hgap : ∀ c, gap c → Text.isBlank c = true) (hs : Remarks gap s)
    (hrest : rest.head? ≠ some '\n') : Found gap s rest := by
  -- A return takes the line feed after it into its lexeme, so the rest after a line feed is
  -- carried along.
  suffices h : Found gap s rest ∧ ∀ s', s = '\n' :: s' → Found gap s' rest from h.1
  induction hs with
  | nil => exact ⟨fun before => ⟨[], .nil, by simp, fun _ => .nil⟩, nofun⟩
  | @space c s hc hs ih =>
    refine ⟨?_, fun s' hs' => (List.cons.inj hs').2 ▸ ih.1⟩
    rcases head?_append_or hrest s with hnext | ⟨s', rfl⟩
    · exact ih.1.space (hgap c hc) hc fun _ => hnext
    · by_cases hreturn : c = '\r'
      · exact hreturn ▸ (ih.2 s' rfl).returnFeed
      · exact ih.1.space (hgap c hc) hc fun h => absurd h hreturn
  | @comment t s ht hs ih =>
    refine ⟨?_, fun s' hs' => ?_⟩
    · rcases head?_append_or hrest s with hnext | ⟨s', rfl⟩
      · exact ih.1.comment ht fun _ => hnext
      · by_cases hreturn : t.getLast? = some '\r'
        · have hlonger := Found.comment (ht.feed hreturn) (by simp) (ih.2 s' rfl)
          rwa [List.append_assoc] at hlonger
        · exact ih.1.comment ht fun h => absurd h hreturn
    · have hhead := ht.head?_mem
      cases t with
      | nil => simp at hhead
      | cons d t =>
        obtain ⟨rfl, -⟩ := List.cons.inj hs'
        simp at hhead

theorem Lexes.lastLine (ht : InLine t) :
    Lexes before ('-' :: '-' :: t) [⟨.lineComment, '-' :: '-' :: t⟩] [] := by
  refine .one ?_
  have hlength := lineLength_append (s := []) ht.oneLine
  rw [List.append_nil] at hlength
  rw [List.append_nil, firstMatch_lineComment ht.unmarked, hlength]
  rfl

theorem AllRemarks.found (hgap : ∀ c, gap c → Text.isBlank c = true) (hs : AllRemarks gap s)
    (before : Option Char) :
    ∃ ls, Lexes before s ls [] ∧ (∀ x ∈ ls, IsRemark gap x) ∧
      ((∀ x ∈ ls, x.kind ≠ .blank) → AllRemarks IsLineEnd s) := by
  cases hs with
  | remarks hs =>
    have hfound : Found gap s [] := hs.found hgap (by simp)
    obtain ⟨ls, hlexes, hls, htight⟩ := hfound before
    exact ⟨ls, hlexes, hls, fun h => .remarks (htight h)⟩
  | @lastLine s t hs ht =>
    have hfound : Found gap s ('-' :: '-' :: t ++ []) := hs.found hgap (by simp)
    obtain ⟨ls, hlexes, hls, htight⟩ := hfound before
    refine ⟨_, hlexes.append (.lastLine ht), ?_, fun h => ?_⟩
    · simpa [or_imp, forall_and] using ⟨hls, IsRemark.lineComment t⟩
    · exact .lastLine (htight fun x hx => h x (List.mem_append_left _ hx)) ht

/-! ## Trimming -/

theorem AllRemarks.space (hc : gap c) (hs : AllRemarks gap s) : AllRemarks gap (c :: s) := by
  cases hs with
  | remarks hs => exact .remarks (.space hc hs)
  | lastLine hs ht => exact .lastLine (.space hc hs) ht

theorem AllRemarks.comment (ht : Comment t) (hs : AllRemarks gap s) :
    AllRemarks gap (t ++ s) := by
  cases hs with
  | remarks hs => exact .remarks (.comment ht hs)
  | lastLine hs hline => rw [← List.append_assoc]; exact .lastLine (.comment ht hs) hline

theorem Remarks.of_blank_cons (hs : Remarks gap (c :: s)) (hc : Text.isBlank c = true) :
    Remarks gap s := by
  generalize hu : c :: s = u at hs
  cases hs with
  | nil => cases hu
  | space _ hs => exact (List.cons.inj hu).2 ▸ hs
  | comment ht hs =>
    rcases ht.head?_mem with hhead | hhead
    all_goals
      obtain ⟨t, rfl⟩ := List.head?_eq_some_iff.mp hhead
      obtain ⟨rfl, -⟩ := List.cons.inj hu
      exact absurd hc (by decide)

theorem AllRemarks.of_blank_cons (hs : AllRemarks gap (c :: s)) (hc : Text.isBlank c = true) :
    AllRemarks gap s := by
  generalize hu : c :: s = u at hs
  cases hs with
  | remarks hs => exact .remarks (Remarks.of_blank_cons (hu ▸ hs) hc)
  | @lastLine s' t hs ht =>
    cases s' with
    | nil =>
      obtain ⟨rfl, -⟩ := List.cons.inj hu
      exact absurd hc (by decide)
    | cons d s' =>
      obtain ⟨rfl, rfl⟩ := List.cons.inj hu
      exact .lastLine (hs.of_blank_cons hc) ht

theorem trimStart_of {P : List Char → Prop}
    (hP : ∀ c s, Text.isBlank c = true → P (c :: s) → P s) (hs : P s) : P (Text.trimStart s) := by
  induction s with
  | nil => exact hs
  | cons c s ih =>
    by_cases hc : Text.isBlank c = true
    · rw [Text.trimStart, List.dropWhile_cons_of_pos hc]
      exact ih (hP c s hc hs)
    · rwa [Text.trimStart, List.dropWhile_cons_of_neg hc]

theorem Remarks.trimStart (hs : Remarks gap s) : Remarks gap (Text.trimStart s) :=
  trimStart_of (fun _ _ hc hs => hs.of_blank_cons hc) hs

theorem AllRemarks.trimStart (hs : AllRemarks gap s) : AllRemarks gap (Text.trimStart s) :=
  trimStart_of (fun _ _ hc hs => hs.of_blank_cons hc) hs

theorem InLine.dropLast (ht : InLine t) : InLine t.dropLast where
  oneLine c hc := ht.oneLine c (List.dropLast_subset t hc)
  unmarked := by
    match t, ht.unmarked with
    | [], h => exact h
    | [_], _ => exact nofun
    | _ :: _ :: _, h => exact h

theorem Comment.dropLast (ht : Comment t) (h : ∀ c ∈ t.getLast?, Text.isBlank c = true) :
    AllRemarks gap t.dropLast := by
  cases ht with
  | @line t b ht hb =>
    have hline : AllRemarks gap ('-' :: '-' :: t) := .lastLine .nil ht
    have hreturn : AllRemarks gap (('-' :: '-' :: (t ++ ['\r'])) ++ []) :=
      .comment (.line ht (by simp)) (.remarks .nil)
    simp only [List.mem_cons, List.not_mem_nil, or_false] at hb
    rcases hb with rfl | rfl | rfl
    · change AllRemarks gap ('-' :: '-' :: t ++ ['\n']).dropLast
      rwa [List.dropLast_concat]
    · change AllRemarks gap ('-' :: '-' :: t ++ ['\r']).dropLast
      rwa [List.dropLast_concat]
    · have hfeed : '-' :: '-' :: (t ++ ['\r', '\n']) = '-' :: '-' :: (t ++ ['\r']) ++ ['\n'] := by
        simp
      rw [hfeed, List.dropLast_concat]
      simpa using hreturn
  | @block t ht => exact absurd (h '/' (by simp [List.getLast?_cons])) (by decide)

theorem Remarks.dropLast (hs : Remarks gap s) (h : ∀ c ∈ s.getLast?, Text.isBlank c = true) :
    AllRemarks gap s.dropLast := by
  induction hs with
  | nil => exact .remarks .nil
  | @space c s hc hs ih =>
    cases s with
    | nil => exact .remarks .nil
    | cons d s => exact (ih (by simpa [List.getLast?_cons] using h)).space hc
  | @comment t s ht hs ih =>
    cases s with
    | nil =>
      rw [List.append_nil] at h ⊢
      exact ht.dropLast h
    | cons d s =>
      rw [List.dropLast_append_of_ne_nil (by simp)]
      exact (ih (by simpa [List.getLast?_append, List.getLast?_cons] using h)).comment ht

theorem AllRemarks.dropLast (hs : AllRemarks gap s) (h : ∀ c ∈ s.getLast?, Text.isBlank c = true) :
    AllRemarks gap s.dropLast := by
  cases hs with
  | remarks hs => exact hs.dropLast h
  | @lastLine s t hs ht =>
    rw [List.dropLast_append_of_ne_nil (by simp)]
    cases t with
    | nil => exact absurd (h '-' (by simp [List.getLast?_append])) (by decide)
    | cons c t => exact .lastLine hs ht.dropLast

theorem dropEndWhile_concat (p : Char → Bool) (s : List Char) (c : Char) :
    Text.dropEndWhile p (s ++ [c]) = if p c then Text.dropEndWhile p s else s ++ [c] := by
  rw [Text.dropEndWhile, List.reverse_concat, List.dropWhile_cons]
  split
  · rfl
  · rw [List.reverse_cons, List.reverse_reverse]

theorem AllRemarks.dropEnd (hs : AllRemarks gap s) :
    AllRemarks gap (Text.dropEndWhile Text.isBlank s) := by
  induction s using List.reverseRecOn with
  | nil => exact hs
  | append_singleton s c ih =>
    rw [dropEndWhile_concat]
    split
    next hc =>
      have hlast := hs.dropLast (by simpa using hc)
      rw [List.dropLast_concat] at hlast
      exact ih hlast
    next => exact hs

theorem AllRemarks.trim (hs : AllRemarks gap s) : AllRemarks gap (Text.trim s) :=
  hs.trimStart.dropEnd

end SchemaLedger.Sql
