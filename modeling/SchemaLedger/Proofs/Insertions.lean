-- Reading an insertion. Its tokens are words, signs and one quoted text, whatever the text holds,
-- and what it says is that a row with just this text is added.
import SchemaLedger.Proofs.Places
import SchemaLedger.Proofs.SimpleStatements
import SchemaLedger.Sql.Reader

namespace SchemaLedger.Sql

variable {c : Char} {s x : List Char}

/-! ## Tokens -/

namespace Spelled

def ofWord (w : String) : Spelled := ⟨.word w.toList, w.toList⟩

def ofSign (c : Char) : Spelled := ⟨.sign c, [c]⟩

def ofText (x : String) : Spelled := ⟨.text x.toList, '\x27' :: (x.toList ++ ['\x27'])⟩

end Spelled

/-- A token is read where no white space and no comment begins. -/
theorem tokens_cons (hblank : (c.isWhitespace || c == '\x0c') = false) (hdash : c ≠ '-')
    (hslash : c ≠ '/') {t : Token} {n : Nat} (h : firstToken c s = (t, n)) :
    tokens (c :: s) = ⟨t, c :: s.take (n - 1)⟩ :: tokens (s.drop (n - 1)) := by
  rw [tokens.eq_4 c s (by simp [hdash]) (by simp [hslash])]
  simp [hblank, h]

theorem tokens_space (s : List Char) : tokens (' ' :: s) = tokens s := by
  rw [tokens.eq_4 ' ' s (by simp) (by simp)]
  simp [Char.isWhitespace]

theorem isWordPart_of_isWordChar (h : Text.isWordChar c = true) : isWordPart c = true := by
  simp only [Text.isWordChar, isWordPart, Bool.or_eq_true, Bool.and_eq_true, decide_eq_true_eq] at *
  rcases h with h | h
  · exact .inl (.inl h)
  · exact .inr h.1

/-- At a character of a word nothing else begins. -/
theorem front_of_isWordPart (h : isWordPart c = true) :
    (c.isWhitespace || c == '\x0c') = false ∧ c ≠ '-' ∧ c ≠ '/' ∧ c ≠ '\x27' ∧ c ≠ '\x22' ∧
      c ≠ '\x60' ∧ c ≠ '[' := by
  have apart (d : Char) (hd : isWordPart d = false) : c ≠ d := by
    rintro rfl
    rw [h] at hd
    cases hd
  refine ⟨?_, apart _ (by decide), apart _ (by decide), apart _ (by decide), apart _ (by decide),
    apart _ (by decide), apart _ (by decide)⟩
  simp [Char.isWhitespace, apart ' ' (by decide), apart '\t' (by decide), apart '\r' (by decide),
    apart '\n' (by decide), apart '\x0c' (by decide)]

/-- A plain word is one token, up to where it ends. -/
theorem tokens_word {w : String} (hw : PlainWord w.toList)
    (hs : ∀ c ∈ s.head?, isWordPart c = false) :
    tokens (w.toList ++ s) = .ofWord w :: tokens s := by
  have hparts : ∀ c ∈ w.toList, isWordPart c = true := fun c hc =>
    isWordPart_of_isWordChar (hw.chars c hc)
  rw [Spelled.ofWord]
  cases hchars : w.toList with
  | nil => exact absurd hchars hw.nonempty
  | cons c cs =>
    rw [hchars] at hparts
    obtain ⟨hc, hcs⟩ := List.forall_mem_cons.mp hparts
    obtain ⟨hblank, hdash, hslash, hquote, hquotes, htick, hbracket⟩ := front_of_isWordPart hc
    have hdigit : c.isDigit = false := by
      rw [Bool.eq_false_iff]
      intro h
      exact absurd (hw.head c (by rw [hchars]; rfl)) (by simp [isDigit_of_asciiDigit h])
    have htake : (cs ++ s).takeWhile isWordPart = cs := by
      rw [takeWhile_append_of_head? hs, List.takeWhile_eq_self_iff.mpr hcs]
    have hfirst : firstToken c (cs ++ s) = (.word (c :: cs), cs.length + 1) := by
      simp [firstToken, hquote, hquotes, htick, hbracket, hdigit, hc, htake]
    rw [List.cons_append, tokens_cons hblank hdash hslash hfirst]
    simp

theorem tokens_keyword {w : String} (hw : w ∈ ["CREATE", "TABLE", "DROP", "INSERT", "INTO", "name",
    "VALUES", "SELECT"]) (hs : ∀ c ∈ s.head?, isWordPart c = false) :
    tokens (w.toList ++ s) = .ofWord w :: tokens s :=
  tokens_word (plainWord_keyword w hw) hs

theorem tokens_sign (hc : c = '(' ∨ c = ')') : tokens (c :: s) = .ofSign c :: tokens s := by
  have hfirst : firstToken c s = (.sign c, 1) := by
    rcases hc with rfl | rfl <;> rfl
  rcases hc with rfl | rfl
  all_goals
    rw [tokens_cons (by decide) (by decide) (by decide) hfirst]
    rfl

theorem quotedBody?_append (hx : '\x27' ∉ x) (hs : s.head? ≠ some '\x27') :
    quotedBody? '\x27' (x ++ '\x27' :: s) = some (x, x.length + 1) := by
  induction x with
  | nil =>
    cases s with
    | nil => rfl
    | cons d s =>
      have hd : d ≠ '\x27' := by simpa using hs
      simp [quotedBody?, hd]
  | cons c x ih =>
    rw [List.mem_cons, not_or] at hx
    rw [List.cons_append, quotedBody?.eq_def]
    simp [Ne.symm hx.1, ih hx.2]

/-- A quoted text is one token. -/
theorem tokens_text {x : String} (hx : '\x27' ∉ x.toList) (hs : s.head? ≠ some '\x27') :
    tokens ('\x27' :: (x.toList ++ '\x27' :: s)) = .ofText x :: tokens s := by
  have hfirst : firstToken '\x27' (x.toList ++ '\x27' :: s) =
      (.text x.toList, x.toList.length + 2) := by
    simp [firstToken, quotedBody?_append hx hs]
  have hlength : x.toList.length ≤ x.toList.length + 1 := Nat.le_succ _
  rw [tokens_cons (by decide) (by decide) (by decide) hfirst, Nat.add_succ_sub_one,
    List.take_append, List.drop_append, List.take_of_length_le hlength,
    List.drop_of_length_le hlength, Nat.add_sub_cancel_left]
  rfl

/-! ## The statement -/

/-- The statement that inserts a text into a table. -/
def insertion (table text : String) : String :=
  "INSERT INTO " ++ table ++ " (name) VALUES ('" ++ text ++ "')"

variable {table text : String}

theorem simple_insertion (hn : PlainWord table.toList) (hx : Quotable text.toList) :
    Simple (insertion table text).toList := by
  simpa [insertion] using Simple.insert hn hx

theorem tokens_insertion (hn : PlainWord table.toList) (hx : '\x27' ∉ text.toList) :
    tokens (insertion table text).toList =
      [.ofWord "INSERT", .ofWord "INTO", .ofWord table, .ofSign '(', .ofWord "name", .ofSign ')',
        .ofWord "VALUES", .ofSign '(', .ofText text, .ofSign ')'] := by
  have hfront (s : List Char) : tokens ("INSERT INTO ".toList ++ s) =
      .ofWord "INSERT" :: .ofWord "INTO" :: tokens s := by
    have hsplit : "INSERT INTO ".toList ++ s =
      "INSERT".toList ++ ' ' :: ("INTO".toList ++ ' ' :: s) := by simp
    rw [hsplit, tokens_keyword (by simp) (by simp; decide), tokens_space,
      tokens_keyword (by simp) (by simp; decide), tokens_space]
  have hcolumns (s : List Char) : tokens (" (name)".toList ++ s) =
      .ofSign '(' :: .ofWord "name" :: .ofSign ')' :: tokens s := by
    have hsplit : " (name)".toList ++ s = ' ' :: '(' :: ("name".toList ++ ')' :: s) := by simp
    rw [hsplit, tokens_space, tokens_sign (.inl rfl), tokens_keyword (by simp) (by simp; decide),
      tokens_sign (.inr rfl)]
  have hvalues (s : List Char) : tokens (" VALUES (".toList ++ s) =
      .ofWord "VALUES" :: .ofSign '(' :: tokens s := by
    have hsplit : " VALUES (".toList ++ s = ' ' :: ("VALUES".toList ++ ' ' :: '(' :: s) := by simp
    rw [hsplit, tokens_space, tokens_keyword (by simp) (by simp; decide), tokens_space,
      tokens_sign (.inl rfl)]
  have hsplit : (insertion table text).toList = "INSERT INTO ".toList ++ (table.toList ++
      (" (name)".toList ++ (" VALUES (".toList ++ '\x27' :: (text.toList ++ '\x27' :: [')'])))) := by
    simp [insertion]
  rw [hsplit, hfront, tokens_word hn (by simp; decide), hcolumns, hvalues, tokens_text hx (by simp),
    tokens_sign (.inr rfl), tokens]

/-! ## Reading along tokens -/

namespace Parse

variable {t : Spelled} {rest : List Spelled} {w : String}

theorem bind_ok {α β : Type} {p : Parse α} {k : α → Parse β} {ts ts' : List Spelled} {a : α}
    (h : p.run ts = .ok (a, ts')) : (p >>= k).run ts = (k a).run ts' := by
  rw [StateT.run_bind, h]
  rfl

theorem run_word (h : isWord w t = true) : (word w).run (t :: rest) = .ok ((), rest) := by
  have htaken : (word? w).run (t :: rest) = .ok (true, rest) := by
    simp [word?, h]
    rfl
  rw [word, bind_ok htaken]
  rfl

/-- Another word than the one that is looked for is left where it is. -/
theorem run_word?_other (h : isWord w t = false) :
    (word? w).run (t :: rest) = .ok (false, t :: rest) := by
  simp [word?, h]
  rfl

theorem run_sign (c : Char) : (sign c).run (.ofSign c :: rest) = .ok ((), rest) := by
  have htaken : (sign? c).run (.ofSign c :: rest) = .ok (true, rest) := by
    simp [sign?, Spelled.ofSign]
    rfl
  rw [sign, bind_ok htaken]
  rfl

/-- A word that is no keyword is taken as a name. -/
theorem run_name (h : isKeyword (.ofWord w) = false) :
    name.run (.ofWord w :: rest) = .ok ((w, w), rest) := by
  have hkept : name.run (.ofWord w :: rest) = spelledName.run (.ofWord w :: rest) := by
    change (if isKeyword (.ofWord w) = true then refuse else spelledName).run (.ofWord w :: rest) = _
    rw [h]
    rfl
  have htaken : spelledName.run (.ofWord w :: rest) =
    .ok ((String.ofList w.toList, String.ofList w.toList), rest) := rfl
  rw [hkept, htaken, String.ofList_toList]

theorem run_cell (x : String) : cell.run (.ofText x :: rest) = .ok (some x, rest) := by
  have htaken : constantNext?.run (.ofText x :: rest) =
    .ok (some (some (String.ofList x.toList)), rest) := rfl
  rw [String.ofList_toList] at htaken
  rw [cell, bind_ok htaken]
  rfl

/-- A list in parentheses with one part in it. -/
theorem run_inParens {α : Type} {part : Parse α} {a : α}
    (h : part.run (t :: .ofSign ')' :: rest) = .ok (a, .ofSign ')' :: rest)) :
    (inParens part).run (.ofSign '(' :: t :: .ofSign ')' :: rest) = .ok ([a], rest) := by
  rw [inParens, bind_ok (run_sign '(')]
  change (listed part (_ + 1)).run (t :: .ofSign ')' :: rest) = _
  rw [listed, bind_ok h]
  rfl

theorem run_insertion (hkey : isKeyword (.ofWord table) = false) (text : String) :
    anyStatement.run
      [.ofWord "INSERT", .ofWord "INTO", .ofWord table, .ofSign '(', .ofWord "name", .ofSign ')',
        .ofWord "VALUES", .ofSign '(', .ofText text, .ofSign ')'] =
      .ok (.insert table [("name", some text)], []) := by
  have hinsert (rest : List Spelled) :
    anyStatement.run (.ofWord "INSERT" :: rest) = insert.run rest := rfl
  have hname : isKeyword (.ofWord "name") = false := by decide
  rw [hinsert, insert, bind_ok (run_word (by decide)), bind_ok (run_name hkey)]
  dsimp only
  rw [bind_ok (run_word?_other (by decide)), if_neg Bool.false_ne_true,
    bind_ok (run_inParens (run_name hname)), bind_ok (run_word (by decide)),
    bind_ok (run_inParens (run_cell text))]
  rfl

end Parse

/-! ## What it says -/

/-- A name that stands for itself in a statement. -/
structure PlainName (n : String) : Prop where
  word : PlainWord n.toList
  free : Parse.isKeyword (.ofWord n) = false

/-- A text that no value is put into and that the store takes as it is. -/
structure Verbatim (x : List Char) : Prop where
  unplaced : places x = []
  unbroken : '\x00' ∉ x

theorem insertion_toList (table text : String) : (insertion table text).toList =
    ("INSERT INTO ".toList ++ (table.toList ++ " (name) VALUES (".toList)) ++
      '\x27' :: (text.toList ++ ['\x27', ')']) := by
  simp [insertion]

/-- Around the text stand words, spaces, parentheses and quotes. -/
theorem not_mem_front (hn : PlainWord table.toList) {d : Char} (hd : d ∈ [':', '%', '\\', '\x00']) :
    d ∉ "INSERT INTO ".toList ++ (table.toList ++ " (name) VALUES (".toList) := by
  have hmark : d ∉ "INSERT INTO ".toList ∧ Text.isWordChar d = false ∧
      d ∉ " (name) VALUES (".toList := by
    simp only [List.mem_cons, List.not_mem_nil, or_false] at hd
    rcases hd with rfl | rfl | rfl | rfl <;> decide
  obtain ⟨hfront, hword, hback⟩ := hmark
  have htable : d ∉ table.toList := fun h => absurd (hn.chars d h) (by simp [hword])
  simp only [List.mem_append, not_or]
  exact ⟨hfront, htable, hback⟩

theorem mem_insertion_iff (hn : PlainWord table.toList) {d : Char}
    (hd : d ∈ [':', '%', '\\', '\x00']) :
    d ∈ (insertion table text).toList ↔ d ∈ text.toList := by
  obtain ⟨hquote, hclose⟩ : d ≠ '\x27' ∧ d ≠ ')' := by
    constructor <;> rintro rfl <;> simp at hd
  rw [insertion_toList, List.mem_append, or_iff_right (not_mem_front hn hd)]
  simp [hquote, hclose]

theorem places_insertion (hn : PlainWord table.toList) (text : String) :
    places (insertion table text).toList = places text.toList := by
  rw [insertion_toList, places_quoted]
  intro c hc
  constructor
  · rintro rfl
    exact not_mem_front hn (by simp) hc
  · rintro rfl
    exact not_mem_front hn (by simp) hc

theorem unfilled?_eq_none_iff {s : List Char} : unfilled? s = none ↔ places s = [] := by
  unfold unfilled?
  cases hplaces : places s with
  | nil => simp
  | cons p ps =>
    simp only [reduceCtorEq, iff_false]
    split <;> simp

/-- The text of an insertion is inserted as it stands, or the insertion is refused. -/
theorem readStatement_insertion (hn : PlainName table) (hx : Quotable text.toList) :
    (Verbatim text.toList →
        readStatement (insertion table text) = .ok (.insert table [("name", some text)])) ∧
      (¬ Verbatim text.toList → ∃ e, readStatement (insertion table text) = .error e) := by
  have hquote : '\x27' ∉ text.toList := fun h => (hx _ h).1 rfl
  have hescape : unescape (insertion table text).toList = (insertion table text).toList :=
    unescape_eq fun h => (hx _ ((mem_insertion_iff hn.word (by simp)).mp h)).2 rfl
  have hnull : '\x00' ∈ (insertion table text).toList ↔ '\x00' ∈ text.toList :=
    mem_insertion_iff hn.word (by simp)
  have hplaces : unfilled? (insertion table text).toList = none ↔ places text.toList = [] := by
    rw [unfilled?_eq_none_iff, places_insertion hn.word]
  constructor
  · intro hverbatim
    rw [readStatement, hplaces.mpr hverbatim.unplaced, hescape]
    simp only [List.contains_iff_mem, hnull, hverbatim.unbroken, if_false]
    rw [tokens_insertion hn.word hquote, Parse.run_insertion hn.free]
    rfl
  · intro hnot
    unfold readStatement
    cases hunfilled : unfilled? (insertion table text).toList with
    | some e => exact ⟨e, rfl⟩
    | none =>
      have hbroken : '\x00' ∈ text.toList := by
        by_contra h
        exact hnot ⟨hplaces.mp hunfilled, h⟩
      simp only [List.contains_iff_mem, hnull, hbroken, if_true]
      exact ⟨_, rfl⟩

end SchemaLedger.Sql
