-- Statements of plain words, lists in parentheses and quoted texts. Each is one statement to the
-- splitter, whatever its texts hold, and stays on its line.
import SchemaLedger.Proofs.PlainWords
import SchemaLedger.Proofs.TidyLines

namespace SchemaLedger.Sql

variable {s t rest : List Char} {before : Option Char} {ls ls' : List Lexeme} {x : Lexeme}

/-! ## Forms of statements -/

/-- What may stand in quotes as it is. -/
def Quotable (t : List Char) : Prop := ∀ c ∈ t, c ≠ '\x27' ∧ c ≠ '\\'

/-- What stands in parentheses: words or a text. -/
inductive Inside : List Char → Prop where
  | words {s : List Char} : Words s → Inside s
  | text {t : List Char} : Quotable t → Inside ('\x27' :: (t ++ ['\x27']))

/-- Words, and lists in parentheses after words. -/
inductive Clauses : List Char → Prop where
  | words {s : List Char} : Words s → Clauses s
  | list {s i r : List Char} : Words s → Inside i → Clauses r →
    Clauses (s ++ '(' :: (i ++ ')' :: r))

/-- The statements that create, fill, drop or read, in their simplest form. -/
inductive Simple : List Char → Prop where
  | create {x columns : List Char} : PlainWord x → Words columns →
    Simple ("CREATE TABLE ".toList ++ x ++ " (".toList ++ columns ++ ")".toList)
  | drop {x : List Char} : PlainWord x → Simple ("DROP TABLE ".toList ++ x)
  | insert {x t : List Char} : PlainWord x → Quotable t →
    Simple ("INSERT INTO ".toList ++ x ++ " (name) VALUES (\x27".toList ++ t ++ "\x27)".toList)
  | select {n : List Char} : n ≠ [] → (∀ c ∈ n, c.isDigit = true) → Simple ("SELECT ".toList ++ n)

/-! ## Their lexemes -/

/-- Lexemes that end no statement and leave the level as it was. -/
structure Settled (ls : List Lexeme) : Prop where
  apart : ∀ x ∈ ls, joinsRow x = false
  quiet : ∀ x ∈ ls, ∀ scope, endsIn scope x = false
  level : ∀ scope : Scope, (ls.foldl Scope.after scope).level = scope.level

theorem Settled.of_calm (h : ∀ x ∈ ls, Calm x) : Settled ls where
  apart x hx := (h x hx).apart
  quiet x hx := (h x hx).quiet
  level scope := by
    induction ls generalizing scope with
    | nil => rfl
    | cons x ls ih =>
      obtain ⟨hx, hls⟩ := List.forall_mem_cons.mp h
      rw [List.foldl_cons, ih hls, hx.level]

theorem Settled.append (h : Settled ls) (h' : Settled ls') : Settled (ls ++ ls') where
  apart := List.forall_mem_append.mpr ⟨h.apart, h'.apart⟩
  quiet := List.forall_mem_append.mpr ⟨h.quiet, h'.quiet⟩
  level scope := by rw [List.foldl_append, h'.level, h.level]

/-- What stands in parentheses is settled with them. -/
theorem Settled.parens (h : Settled ls) :
    Settled (⟨.openParen, ['(']⟩ :: (ls ++ [⟨.closeParen, [')']⟩])) where
  apart x hx := by
    simp only [List.mem_cons, List.mem_append, List.not_mem_nil, or_false] at hx
    rcases hx with rfl | hx | rfl
    · rfl
    · exact h.apart x hx
    · rfl
  quiet x hx scope := by
    simp only [List.mem_cons, List.mem_append, List.not_mem_nil, or_false] at hx
    rcases hx with rfl | hx | rfl
    · rfl
    · exact h.quiet x hx scope
    · rfl
  level scope := by
    rw [List.foldl_cons, List.foldl_append, List.foldl_cons, List.foldl_nil]
    change (ls.foldl Scope.after _).level - 1 = scope.level
    rw [h.level]
    exact Int.add_sub_cancel scope.level 1

theorem firstMatch_open : firstMatch before ('(' :: s) = (.openParen, 1) := by
  rw [firstMatch_cons, show starts.filter (·.2 '(') = [starts[23], starts[24]] from rfl]
  simp [starts, punctuation]

theorem firstMatch_close : firstMatch before (')' :: s) = (.closeParen, 1) := by
  rw [firstMatch_cons, show starts.filter (·.2 ')') = [starts[23], starts[24]] from rfl]
  simp [starts, punctuation]

theorem firstMatch_semicolon : firstMatch before (';' :: s) = (.semicolon, 1) := by
  rw [firstMatch_cons, show starts.filter (·.2 ';') = [starts[23], starts[24]] from rfl]
  simp [starts, punctuation]

theorem quotedLength?_append (ht : Quotable t) (hrest : rest.head? ≠ some '\x27') :
    quotedLength? '\x27' (t ++ '\x27' :: rest) = some (t.length + 1) := by
  induction t with
  | nil =>
    cases rest with
    | nil => rfl
    | cons d rest =>
      have hd : d ≠ '\x27' := by simpa using hrest
      simp [quotedLength?, hd]
  | cons c t ih =>
    obtain ⟨hc, ht⟩ := List.forall_mem_cons.mp ht
    rw [List.cons_append, quotedLength?.eq_def]
    simp [hc.1, hc.2, ih ht]

theorem firstMatch_quoted (ht : Quotable t) (hrest : rest.head? ≠ some '\x27') :
    firstMatch before ('\x27' :: (t ++ '\x27' :: rest)) = (.other, t.length + 2) := by
  rw [firstMatch_cons, show starts.filter (·.2 '\x27') = [starts[16], starts[24]] from rfl]
  simp [starts, quotedText, quotedLength?_append ht hrest]

theorem Inside.lexes (h : Inside s) (hrest : rest.head? = some ')') (before : Option Char) :
    ∃ ls, Lexes before s ls rest ∧ Settled ls := by
  cases h with
  | words h =>
    have hcloses : Closes rest := by simp [Closes, hrest]
    obtain ⟨ls, hlexes, hcalm⟩ := h.lexes hcloses before
    exact ⟨ls, hlexes, .of_calm hcalm⟩
  | @text t ht =>
    have hquote : rest.head? ≠ some '\x27' := by simp [hrest]
    refine ⟨[⟨.other, _⟩], .one ?_, .of_calm (by simpa using Calm.other)⟩
    rw [List.append_assoc, List.singleton_append, firstMatch_quoted ht hquote]
    simp

theorem Clauses.lexes (h : Clauses s) (hrest : Closes rest) (before : Option Char) :
    ∃ ls, Lexes before s ls rest ∧ Settled ls := by
  induction h generalizing before with
  | words h =>
    obtain ⟨ls, hlexes, hcalm⟩ := h.lexes hrest before
    exact ⟨ls, hlexes, .of_calm hcalm⟩
  | @list s i r hs hi _ ih =>
    have hopen : Closes ('(' :: (i ++ ')' :: r) ++ rest) := by simp [Closes]
    have hclose : (')' :: r ++ rest).head? = some ')' := rfl
    obtain ⟨front, hfront, hcalm⟩ := hs.lexes hopen before
    obtain ⟨inside, hinside, hsettled⟩ := hi.lexes hclose (some '(')
    obtain ⟨back, hback, hsettled'⟩ := ih (some ')')
    have hlist : Lexes (s.getLast?.or before) ('(' :: (i ++ ')' :: r))
        (⟨.openParen, ['(']⟩ :: (inside ++ [⟨.closeParen, [')']⟩]) ++ back) rest := by
      have hright : Lexes (i.getLast?.or (some '(')) [')'] [⟨.closeParen, [')']⟩] (r ++ rest) :=
        .one firstMatch_close
      have hleft : Lexes (s.getLast?.or before) ['('] [⟨.openParen, ['(']⟩] (i ++ ')' :: r ++ rest) :=
        .one firstMatch_open
      rw [List.cons_append, List.append_assoc]
      exact hleft.append (hinside.append (hright.append hback))
    exact ⟨_, hfront.append hlist, (Settled.of_calm hcalm).append (hsettled.parens.append hsettled')⟩

/-! ## Their text -/

theorem Words.onOneLine (h : Words s) (ht : OnOneLine t) : OnOneLine (s ++ t) := by
  refine ht.append fun c hc => ?_
  rcases h.chars c hc with hword | rfl | rfl
  · refine ⟨?_, ?_, ?_⟩
    · rintro (rfl | rfl) <;> exact absurd hword (by decide +kernel)
    · rintro rfl
      exact absurd hword (by decide +kernel)
    · rintro rfl
      exact absurd hword (by decide +kernel)
  · simp [IsLineEnd]
  · simp [IsLineEnd]

theorem OnOneLine.mark {c : Char} (hc : c = '(' ∨ c = ')' ∨ c = ';') (h : OnOneLine s) :
    OnOneLine (c :: s) := by
  rcases hc with rfl | rfl | rfl <;> exact h.cons (by simp [IsLineEnd]) (by decide)

theorem Inside.onOneLine (h : Inside s) (ht : OnOneLine t) : OnOneLine (s ++ t) := by
  cases h with
  | words h => exact h.onOneLine ht
  | text h =>
    rw [List.cons_append, List.append_assoc]
    exact ht.quoted h

theorem Clauses.onOneLine (h : Clauses s) (ht : OnOneLine t) : OnOneLine (s ++ t) := by
  induction h with
  | words h => exact h.onOneLine ht
  | list hs hi _ ih =>
    rw [List.append_assoc, List.cons_append, List.append_assoc]
    exact hs.onOneLine (.mark (by simp) (hi.onOneLine (.mark (by simp) ih)))

theorem Words.spaced (hw : PlainWord s) (ht : Words t) : Words (s ++ ' ' :: t) :=
  .word hw rfl (.gap (.inl rfl) ht)

theorem Words.last (hw : PlainWord s) : Words s :=
  List.append_nil s ▸ .word hw rfl .nil

theorem plainWord_keyword : ∀ w ∈ ["CREATE", "TABLE", "DROP", "INSERT", "INTO", "name", "VALUES",
    "SELECT"], PlainWord w.toList := by decide +kernel

theorem Simple.clauses (h : Simple s) : Clauses s := by
  have word (w : String) (hw : w ∈ ["CREATE", "TABLE", "DROP", "INSERT", "INTO", "name", "VALUES",
    "SELECT"]) : PlainWord w.toList := plainWord_keyword w hw
  cases h with
  | @create x columns hx hcolumns =>
    have := Clauses.list (.spaced (word "CREATE" (by simp)) (.spaced (word "TABLE" (by simp))
      (.spaced hx .nil))) (.words hcolumns) (.words .nil)
    simpa using this
  | @drop x hx =>
    have := Clauses.words (.spaced (word "DROP" (by simp)) (.spaced (word "TABLE" (by simp))
      (.last hx)))
    simpa using this
  | @insert x t hx ht =>
    have := Clauses.list (.spaced (word "INSERT" (by simp)) (.spaced (word "INTO" (by simp))
      (.spaced hx .nil))) (.words (.last (word "name" (by simp))))
      (.list (.gap (.inl rfl) (.spaced (word "VALUES" (by simp)) .nil)) (.text ht) (.words .nil))
    simpa using this
  | @select n hne hn =>
    have hnumeral : Words n := by simpa using Words.numeral hne hn rfl .nil
    have := Clauses.words (.spaced (word "SELECT" (by simp)) hnumeral)
    simpa using this

/-- A simple statement begins and ends with characters of its own. -/
theorem Simple.ends (h : Simple s) : ∃ a m z, s = a :: (m ++ [z]) ∧ Text.isBlank a = false ∧
    Text.isBlank z = false ∧ z ≠ ';' := by
  cases h with
  | @create x columns hx hcolumns =>
    exact ⟨'C', "REATE TABLE ".toList ++ x ++ " (".toList ++ columns, ')', by simp, by decide,
      by decide, by decide⟩
  | @drop x hx =>
    rcases List.eq_nil_or_concat x with rfl | ⟨x, z, rfl⟩
    · exact absurd rfl hx.nonempty
    · have hz := hx.chars z (by simp)
      exact ⟨'D', "ROP TABLE ".toList ++ x, z, by simp, by decide, isBlank_of_isWordChar hz,
        by rintro rfl; exact absurd hz (by decide)⟩
  | @insert x t hx ht =>
    exact ⟨'I', "NSERT INTO ".toList ++ x ++ " (name) VALUES (\x27".toList ++ t ++ ['\x27'], ')',
      by simp, by decide, by decide, by decide⟩
  | @select n hne hn =>
    rcases List.eq_nil_or_concat n with rfl | ⟨n, z, rfl⟩
    · exact absurd rfl hne
    · have hz := isWordChar_of_asciiDigit (hn z (by simp))
      exact ⟨'S', "ELECT ".toList ++ n, z, by simp, by decide, isBlank_of_isWordChar hz,
        by rintro rfl; exact absurd hz (by decide)⟩

end SchemaLedger.Sql
