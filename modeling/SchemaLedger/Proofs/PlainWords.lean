-- Plain words, one after another. Whatever lexemes they make up, alone or as a phrase, none of them
-- opens or closes a block or ends a statement.
import SchemaLedger.Proofs.CommentRemoval
import SchemaLedger.Proofs.Remarks

namespace SchemaLedger

/-! ## Capitals of words and white space -/

namespace Text

variable {c : Char} {s : List Char}

/-- White space has no other capital. -/
theorem capital_of_isBlank (h : isBlank c = true) : capital c = [c] := by
  obtain ⟨r, hr, hlow, hhigh⟩ := (CharClass.holds_iff .blank c).mp h
  have hall : ∀ n ∈ CharClass.blank.ranges.flatMap fun r => List.range' r.1 (r.2 - r.1 + 1),
      capital (.ofNat n) = [.ofNat n] := by decide +kernel
  have hmem : c.toNat ∈ CharClass.blank.ranges.flatMap fun r => List.range' r.1 (r.2 - r.1 + 1) :=
    List.mem_flatMap.mpr ⟨r, hr, by rw [List.mem_range'_1]; omega⟩
  have := hall c.toNat hmem
  rwa [Char.ofNat_toNat] at this

theorem isBlank_ofNat {n : Nat} (h : ∀ r ∈ CharClass.blank.ranges, n < r.1 ∨ r.2 < n) :
    isBlank (.ofNat n) = false := by
  rw [Bool.eq_false_iff]
  intro hblank
  obtain ⟨r, hr, hlow, hhigh⟩ := (CharClass.holds_iff .blank _).mp hblank
  have hpositive : ∀ r ∈ CharClass.blank.ranges, 0 < r.1 := by decide
  by_cases hn : n.isValidChar
  · have : (Char.ofNat n).toNat = n := by rw [Char.ofNat, dif_pos hn]; rfl
    have := h r hr
    omega
  · have : (Char.ofNat n).toNat = 0 := by rw [Char.ofNat, dif_neg hn]; rfl
    have := hpositive r hr
    omega

/-- No capital of a word's character is white space. -/
theorem not_blank_of_capital (h : isWordChar c = true) : ∀ d ∈ capital c, isBlank d = false := by
  intro d hd
  unfold capital at hd
  split at hd
  next r hr =>
    have hruns : (capitalRuns.all fun r => CharClass.blank.ranges.all fun q =>
        (r.capital + (r.last - r.first)).blt q.1 || q.2.blt r.capital) = true := by decide +kernel
    have hapart := List.all_eq_true.mp hruns r (List.mem_of_find?_eq_some hr)
    have hbounds := List.find?_some hr
    simp only [Bool.and_eq_true, decide_eq_true_eq] at hbounds
    rw [List.mem_singleton.mp hd]
    refine isBlank_ofNat fun q hq => ?_
    have := List.all_eq_true.mp hapart q hq
    simp only [Bool.or_eq_true, Nat.blt_eq] at this
    omega
  next =>
    split at hd
    next cs hcs =>
      have hspelled : (spelledCapitals.all fun p => p.2.all fun n => !isBlank (.ofNat n)) = true := by
        decide +kernel
      obtain ⟨n, hn, rfl⟩ := List.mem_map.mp hd
      have hmem : (c.toNat, cs) ∈ spelledCapitals := by
        obtain ⟨_, _, hsplit, -⟩ := List.lookup_eq_some_iff.mp hcs
        rw [hsplit]
        simp
      simpa using List.all_eq_true.mp (List.all_eq_true.mp hspelled _ hmem) n hn
    next =>
      rw [List.mem_singleton.mp hd]
      exact Sql.isBlank_of_isWordChar h

/-- The first word of a text in capitals. -/
theorem takeWhile_upperCase {w m : List Char} (hw : ∀ c ∈ w, isWordChar c = true)
    (hm : ∀ c ∈ m.head?, isBlank c = true) :
    (upperCase (w ++ m)).takeWhile (!isBlank ·) = upperCase w := by
  have hhead : ∀ c ∈ (upperCase m).head?, (!isBlank c) = false := by
    cases m with
    | nil => simp [upperCase]
    | cons b m =>
      have hb := hm b rfl
      simp [upperCase, capital_of_isBlank hb, hb]
  rw [upperCase, List.flatMap_append]
  refine (Sql.takeWhile_append_of_head? hhead).trans (List.takeWhile_eq_self_iff.mpr fun d hd => ?_)
  obtain ⟨c, hc, hd⟩ := List.mem_flatMap.mp hd
  simp [not_blank_of_capital (hw c hc) d hd]

end Text

namespace Sql

variable {c : Char} {s w rest : List Char} {x : Lexeme}

/-! ## Words -/

/-- The words that open or close a block, or separate batches. -/
def reserved : List String :=
  ["BEGIN", "DECLARE", "CASE", "IF", "FOR", "WHILE", "LOOP", "END", "GO"]

/-- A name or a keyword that is none of the words above in any case. -/
structure PlainWord (w : List Char) : Prop where
  nonempty : w ≠ []
  chars : ∀ c ∈ w, Text.isWordChar c = true
  head : ∀ c ∈ w.head?, isDigit c = false
  free : String.ofList (Text.upperCase w) ∉ reserved

theorem plainWord_iff : PlainWord w ↔
    (!w.isEmpty && w.all Text.isWordChar && w.head?.all (!isDigit ·) &&
      !reserved.contains (String.ofList (Text.upperCase w))) = true := by
  simp only [Bool.and_eq_true, Bool.not_eq_true', List.isEmpty_eq_false_iff, List.all_eq_true,
    List.contains_eq_mem, decide_eq_false_iff_not, Option.all_eq_true, and_assoc]
  exact ⟨fun ⟨hne, hchars, hhead, hfree⟩ => ⟨hne, hchars, hhead, hfree⟩,
    fun ⟨hne, hchars, hhead, hfree⟩ => ⟨hne, hchars, hhead, hfree⟩⟩

instance : Decidable (PlainWord w) := decidable_of_iff' _ plainWord_iff

/-- Plain words and numerals with spaces and commas between them. -/
inductive Words : List Char → Prop where
  | nil : Words []
  | gap {c : Char} {s : List Char} : c = ' ' ∨ c = ',' → Words s → Words (c :: s)
  | word {w s : List Char} : PlainWord w → atWordEnd s = true → Words s → Words (w ++ s)
  | numeral {n s : List Char} : n ≠ [] → (∀ c ∈ n, c.isDigit = true) → atWordEnd s = true →
    Words s → Words (n ++ s)

/-- A lexeme that does not end a statement and leaves the level as it is. It is no comment and no
line end. -/
structure Calm (x : Lexeme) : Prop where
  apart : joinsRow x = false
  quiet : ∀ scope, endsIn scope x = false
  level : ∀ scope : Scope, (scope.after x).level = scope.level

/-- The keywords that change a scope. -/
def turns : List String :=
  ["DECLARE", "BEGIN", "END", "IF", "FOR", "WHILE", "CASE", "END IF", "END FOR", "END WHILE"]

theorem Scope.afterKeyword_eq {word : String} (h : word ∉ turns) (scope : Scope) :
    scope.afterKeyword word = scope := by
  simp only [turns, List.mem_cons, List.not_mem_nil, or_false, not_or] at h
  simp [Scope.afterKeyword, h]

/-- The first word of a keyword that changes a scope is reserved. -/
theorem reserved_of_turns : ∀ word ∈ turns,
    String.ofList (word.toList.takeWhile (!Text.isBlank ·)) ∈ reserved := by decide

/-- A phrase that begins with a plain word is calm. -/
theorem PlainWord.calm {k : Kind} {m : List Char} (hw : PlainWord w)
    (hm : ∀ c ∈ m.head?, Text.isBlank c = true) (hk : k ∈ [Kind.keyword, .create, .other]) :
    Calm ⟨k, w ++ m⟩ := by
  have hfirst : (w ++ m).takeWhile (!Text.isBlank ·) = w := by
    refine (takeWhile_append_of_head? (by simpa using hm)).trans (List.takeWhile_eq_self_iff.mpr ?_)
    exact fun c hc => by simp [isBlank_of_isWordChar (hw.chars c hc)]
  have hturns : (Lexeme.mk k (w ++ m)).upper ∉ turns := by
    intro h
    have := reserved_of_turns _ h
    rw [Lexeme.upper, String.toList_ofList, Text.takeWhile_upperCase hw.chars hm] at this
    exact hw.free this
  have hgo : w ≠ ['G', 'O'] := by
    rintro rfl
    exact hw.free (by decide)
  simp only [List.mem_cons, List.not_mem_nil, or_false] at hk
  rcases hk with rfl | rfl | rfl
  · refine ⟨rfl, fun scope => ?_, fun scope => ?_⟩
    · simp [endsIn, isSeparator, hfirst, hgo]
    · rw [Scope.after, Scope.afterKeyword_eq hturns]
  · exact ⟨rfl, fun scope => rfl, fun scope => rfl⟩
  · exact ⟨rfl, fun scope => rfl, fun scope => rfl⟩

theorem Calm.blank : Calm ⟨.blank, s⟩ :=
  ⟨rfl, fun _ => rfl, fun _ => rfl⟩

theorem Calm.other : Calm ⟨.other, s⟩ :=
  ⟨rfl, fun _ => rfl, fun _ => rfl⟩

/-! ## Their lexemes -/

theorem isWordChar_of_asciiDigit (h : c.isDigit = true) : Text.isWordChar c = true := by
  simp [Text.isWordChar, isAlphanum_eq, h]

theorem Words.chars (hs : Words s) : ∀ c ∈ s, Text.isWordChar c = true ∨ c = ' ' ∨ c = ',' := by
  induction hs with
  | nil => simp
  | gap hc _ ih => exact List.forall_mem_cons.mpr ⟨.inr hc, ih⟩
  | word hw _ _ ih => exact List.forall_mem_append.mpr ⟨fun c hc => .inl (hw.chars c hc), ih⟩
  | numeral _ hn _ _ ih =>
    exact List.forall_mem_append.mpr ⟨fun c hc => .inl (isWordChar_of_asciiDigit (hn c hc)), ih⟩

theorem drop_word {n : Nat} (hw : ∀ c ∈ w, Text.isWordChar c = true)
    (hend : atWordEnd ((w ++ s).drop n) = true) : n = 0 ∨ w.length ≤ n := by
  by_contra h
  rw [not_or, Nat.not_le] at h
  rw [List.drop_append_of_le_length h.2.le, List.drop_eq_getElem_cons h.2] at hend
  simp [atWordEnd, List.getElem?_eq_getElem h.2, hw _ (List.getElem_mem h.2)] at hend

/-- What is left of words after the end of one of them are words. -/
theorem Words.drop (hs : Words s) {n : Nat} (hend : atWordEnd (s.drop n) = true) :
    Words (s.drop n) := by
  induction hs generalizing n with
  | nil => simpa using Words.nil
  | @gap c s hc hs ih =>
    cases n with
    | zero => exact .gap hc hs
    | succ n => exact ih hend
  | @word w s hw hnext hs ih =>
    rcases drop_word hw.chars hend with rfl | hn
    · exact .word hw hnext hs
    · rw [List.drop_append, List.drop_eq_nil_of_le hn, List.nil_append] at hend ⊢
      exact ih hend
  | @numeral m s hm hdigits hnext hs ih =>
    rcases drop_word (fun c hc => isWordChar_of_asciiDigit (hdigits c hc)) hend with rfl | hn
    · exact .numeral hm hdigits hnext hs
    · rw [List.drop_append, List.drop_eq_nil_of_le hn, List.nil_append] at hend ⊢
      exact ih hend

/-- What may follow words: a parenthesis, a semicolon or nothing. -/
def Closes (rest : List Char) : Prop := ∀ c ∈ rest.head?, c = '(' ∨ c = ')' ∨ c = ';'

theorem Closes.marks (hrest : Closes rest) :
    ∀ c ∈ rest.head?, Text.isWordChar c = false ∧ Text.isBlank c = false ∧
      c ≠ '$' ∧ c ≠ '#' ∧ c ≠ '\x27' := by
  intro c hc
  rcases hrest c hc with rfl | rfl | rfl <;> decide +kernel

/-- Words and white space do not reach beyond what closes them. -/
theorem Closes.eq_nil (hrest : Closes rest) {k : Nat} (hk : s.length < k)
    (hchars : ∀ c ∈ (s ++ rest).take k, Text.isWordChar c = true ∨ Text.isBlank c = true) :
    rest = [] := by
  cases rest with
  | nil => rfl
  | cons c rest =>
    have hmem : c ∈ (s ++ c :: rest).take k := by
      obtain ⟨j, rfl⟩ := Nat.exists_eq_add_of_lt hk
      rw [List.take_append, Nat.add_assoc, Nat.add_sub_cancel_left, List.take_succ_cons]
      simp
    obtain ⟨hword, hblank, -⟩ := hrest.marks c rfl
    rcases hchars c hmem with h | h
    · rw [hword] at h
      cases h
    · rw [hblank] at h
      cases h

theorem Words.plain (hs : Words s) (hrest : Closes rest) : Plain (s ++ rest) where
  unmarked c hc := by
    rw [dropWhile_append_of_head? fun d hd => (hrest.marks d hd).1] at hc
    cases hdrop : s.dropWhile Text.isWordChar with
    | nil =>
      rw [hdrop] at hc
      obtain ⟨-, -, hdollar, hhash, -⟩ := hrest.marks c hc
      exact ⟨hdollar, hhash⟩
    | cons d s' =>
      rw [hdrop] at hc
      obtain rfl := Option.some.inj hc
      have hmem : d ∈ s := (List.dropWhile_suffix _).subset (hdrop ▸ List.mem_cons_self)
      rcases hs.chars d hmem with h | rfl | rfl
      · constructor <;> rintro rfl <;> exact absurd h (by decide +kernel)
      · decide
      · decide
  unquoted := by
    rintro ⟨k, hchars, hquote⟩
    rcases Nat.lt_trichotomy k s.length with hk | rfl | hk
    · rw [List.drop_append_of_le_length hk.le, List.drop_eq_getElem_cons hk] at hquote
      have hmem : '\x27' ∈ s := Option.some.inj hquote ▸ List.getElem_mem hk
      rcases hs.chars _ hmem with h | h | h
      · exact absurd h (by decide +kernel)
      · cases h
      · cases h
    · rw [List.drop_left] at hquote
      exact (hrest.marks _ hquote).2.2.2.2 rfl
    · obtain rfl := hrest.eq_nil hk hchars
      rw [List.append_nil, List.drop_eq_nil_of_le hk.le] at hquote
      cases hquote

theorem EndsWord.le_of_closes {n : Nat} (h : EndsWord (s ++ rest) n) (hrest : Closes rest) :
    n ≤ s.length := by
  by_contra hn
  have hle := h.le
  rw [hrest.eq_nil (Nat.not_le.mp hn) h.chars] at hle
  simp at hle
  exact hn hle

theorem firstMatch_comma {before : Option Char} : firstMatch before (',' :: s) = (.other, 1) := by
  rw [firstMatch_cons, show starts.filter (·.2 ',') = [starts[23], starts[24]] from rfl]
  simp [starts, punctuation]

theorem asciiDigit_cases (h : c.isDigit = true) : ∃ n < 10, c = .ofNat (48 + n) := by
  have hbounds := (asciiDigit_iff c).mp h
  exact ⟨c.toNat - 48, by omega, by rw [Nat.add_sub_cancel' hbounds.1, Char.ofNat_toNat]⟩

theorem isDigit_of_asciiDigit (h : c.isDigit = true) : isDigit c = true := by
  obtain ⟨k, hk, rfl⟩ := asciiDigit_cases h
  have hall : ∀ k < 10, isDigit (.ofNat (48 + k)) = true := by decide
  exact hall k hk

/-- What ends a numeral is no part of it. -/
theorem mark_after_numeral (hc : c ∈ [' ', ',', '(', ')', ';']) :
    isDigit c = false ∧ foldCase c ≠ 'x' ∧ c ≠ '.' ∧ isNameStartOrLine c = false ∧
      'e' ≠ foldCase c := by
  simp only [List.mem_cons, List.not_mem_nil, or_false] at hc
  rcases hc with rfl | rfl | rfl | rfl | rfl <;> decide

theorem foldCase_digit (h : c.isDigit = true) : foldCase c = c ∧ c ≠ '-' ∧ c ≠ 'x' := by
  obtain ⟨k, hk, rfl⟩ := asciiDigit_cases h
  have hall : ∀ k < 10, foldCase (.ofNat (48 + k)) = .ofNat (48 + k) ∧
    Char.ofNat (48 + k) ≠ '-' ∧ Char.ofNat (48 + k) ≠ 'x' := by decide
  exact hall k hk

/-- A numeral is not read as one to the base sixteen. -/
theorem startsWith_hex_numeral {n : List Char} (hne : n ≠ [])
    (hn : ∀ c ∈ n, c.isDigit = true) (hs : ∀ c ∈ s.head?, c ∈ [' ', ',', '(', ')', ';']) :
    startsWith ['0', 'x'] (n ++ s) = false := by
  rw [Bool.eq_false_iff]
  intro h
  obtain ⟨-, htwo⟩ := startsWith_spec h
  cases n with
  | nil => exact hne rfl
  | cons d n =>
    cases n with
    | nil =>
      cases s with
      | nil => simp at htwo
      | cons e s =>
        have hx : foldCase e = 'x' := by simpa using (List.cons.inj htwo).2
        exact (mark_after_numeral (hs e rfl)).2.1 hx
    | cons e n =>
      have hx : foldCase e = 'x' := by simpa using (List.cons.inj htwo).2
      obtain ⟨hsame, -, hne⟩ := foldCase_digit (hn e (by simp))
      exact hne (hsame ▸ hx)

theorem number_numeral {before : Option Char} {n : List Char} (hne : n ≠ [])
    (hn : ∀ c ∈ n, c.isDigit = true) (hs : ∀ c ∈ s.head?, c ∈ [' ', ',', '(', ')', ';']) :
    number before (n ++ s) = some (.other, n.length) := by
  have hstop : ∀ c ∈ s.head?, isDigit c = false := fun c hc => (mark_after_numeral (hs c hc)).1
  have hminus : (n ++ s).head? ≠ some '-' := by
    cases n with
    | nil => exact absurd rfl hne
    | cons d n => simpa using (foldCase_digit (hn d List.mem_cons_self)).2.1
  have hwhole : run isDigit (n ++ s) = n.length := by
    rw [run, takeWhile_append_of_head? hstop,
      List.takeWhile_eq_self_iff.mpr fun c hc => isDigit_of_asciiDigit (hn c hc)]
  unfold number
  simp only [beq_iff_eq, hminus, if_false, List.drop_zero, hwhole, List.drop_left,
    startsWith_hex_numeral hne hn hs]
  cases s with
  | nil => simp [startsWith, givingBack, hne]
  | cons c s =>
    obtain ⟨-, -, hpoint, hname, hpower⟩ := mark_after_numeral (hs c rfl)
    simp [startsWith, givingBack, hne, hpoint, hname, hpower]

/-- A numeral is one lexeme. -/
theorem firstMatch_numeral {before : Option Char} {n : List Char} (hne : n ≠ [])
    (hn : ∀ c ∈ n, c.isDigit = true) (hs : ∀ c ∈ s.head?, c ∈ [' ', ',', '(', ')', ';']) :
    firstMatch before (n ++ s) = (.other, n.length) := by
  have hnumber : number before (n ++ s) = some (.other, n.length) := number_numeral hne hn hs
  cases n with
  | nil => exact absurd rfl hne
  | cons d n =>
    obtain ⟨k, hk, rfl⟩ := asciiDigit_cases (hn d List.mem_cons_self)
    have hfront : ∀ k < 10, ∀ p ∈ starts.take 15, p.2 (.ofNat (48 + k)) = false := by
      decide +kernel
    have hsplit : starts = starts.take 15 ++ starts[15] :: starts.drop 16 := rfl
    exact firstMatch_of_split hsplit (hfront k hk) hnumber

theorem Lexes.take {before : Option Char} {k : Kind} {n : Nat}
    (h : firstMatch before (s ++ rest) = (k, n)) (hpos : 0 < n) (hn : n ≤ s.length) :
    Lexes before (s.take n) [⟨k, s.take n⟩] (s.drop n ++ rest) := by
  cases s with
  | nil => simp at hn; omega
  | cons c s =>
    obtain ⟨m, rfl⟩ := Nat.exists_eq_add_of_lt hpos
    rw [Nat.zero_add, List.take_succ_cons, List.drop_succ_cons]
    refine .one ?_
    rw [← List.append_assoc, List.take_append_drop, ← List.cons_append, h]
    simp at hn
    simp [hn]

theorem atWordEnd_of_append (h : atWordEnd (s ++ rest) = true) : atWordEnd s = true := by
  cases s with
  | nil => rfl
  | cons c s => exact h

/-- What comes after a word of words. -/
theorem Words.next (hs : Words s) (hend : atWordEnd s = true) (hrest : Closes rest) :
    ∀ c ∈ (s ++ rest).head?, c ∈ [' ', ',', '(', ')', ';'] := by
  intro c hc
  cases s with
  | nil => rcases hrest c hc with rfl | rfl | rfl <;> decide
  | cons d s =>
    obtain rfl : d = c := Option.some.inj hc
    rcases hs.chars d List.mem_cons_self with h | rfl | rfl
    · simp [atWordEnd, h] at hend
    · decide
    · decide

theorem PlainWord.not_atWordEnd (hw : PlainWord w) (s : List Char) : atWordEnd (w ++ s) = false := by
  obtain ⟨c, w, rfl⟩ := List.exists_cons_of_ne_nil hw.nonempty
  simp [atWordEnd, hw.chars c List.mem_cons_self]

/-- The first lexeme of words that begin with a plain word. -/
theorem PlainWord.firstMatch (hw : PlainWord w) (hs : Words (w ++ s)) (hrest : Closes rest)
    (before : Option Char) :
    ∃ k n, Sql.firstMatch before (w ++ s ++ rest) = (k, n) ∧
      k ∈ [Kind.keyword, .create, .other] ∧ EndsWord (w ++ s ++ rest) n := by
  have hplain := hs.plain hrest
  obtain ⟨c, w, rfl⟩ := List.exists_cons_of_ne_nil hw.nonempty
  obtain ⟨hkind, hends⟩ :=
    firstMatch_word before (hw.chars c List.mem_cons_self) (hw.head c rfl) hplain
  exact ⟨_, _, rfl, hkind, hends⟩

/-- The first lexeme of words that begin with a plain word takes words and is calm. -/
theorem PlainWord.takesWords (hw : PlainWord w) (hnext : atWordEnd s = true) (hs : Words (w ++ s))
    (hrest : Closes rest) (before : Option Char) :
    ∃ k n, Sql.firstMatch before (w ++ s ++ rest) = (k, n) ∧ 0 < n ∧ n ≤ (w ++ s).length ∧
      Calm ⟨k, (w ++ s).take n⟩ ∧ Words ((w ++ s).drop n) := by
  obtain ⟨k, n, hmatch, hkind, hends⟩ := hw.firstMatch hs hrest before
  have hle := hends.le_of_closes hrest
  have hend : atWordEnd ((w ++ s).drop n) = true := by
    have := hends.atEnd
    rw [List.drop_append_of_le_length hle] at this
    exact atWordEnd_of_append this
  have hpos : 0 < n := by
    rw [Nat.pos_iff_ne_zero]
    rintro rfl
    exact absurd hend (by simp [hw.not_atWordEnd])
  have hlength := (drop_word hw.chars hend).resolve_left hpos.ne'
  refine ⟨k, n, hmatch, hpos, hle, ?_, hs.drop hend⟩
  have hchars : ∀ c ∈ (w ++ s).take n, Text.isWordChar c = true ∨ Text.isBlank c = true := by
    have := hends.chars
    rwa [List.take_append_of_le_length hle] at this
  rw [List.take_append, List.take_of_length_le hlength] at hchars ⊢
  refine hw.calm (fun b hb => ?_) hkind
  rw [List.forall_mem_append] at hchars
  refine (hchars.2 b (List.mem_of_mem_head? hb)).resolve_left fun hword => ?_
  -- The character after the first word ends it.
  have hhead : b ∈ s.head? := by
    rw [List.head?_take] at hb
    split at hb
    · cases hb
    · exact hb
  rw [atWordEnd, hhead] at hnext
  simp [hword] at hnext

/-- The lexemes of words are calm. -/
theorem Words.lexes (hs : Words s) (hrest : Closes rest) (before : Option Char) :
    ∃ ls, Lexes before s ls rest ∧ ∀ x ∈ ls, Calm x := by
  induction hn : s.length using Nat.strongRecOn generalizing s before with
  | ind n ih =>
    subst hn
    -- The first lexeme takes words, and what is left are words again.
    have hfirst {k : Kind} {n : Nat} (hmatch : firstMatch before (s ++ rest) = (k, n))
        (hpos : 0 < n) (hn : n ≤ s.length) (hcalm : Calm ⟨k, s.take n⟩) (hleft : Words (s.drop n)) :
        ∃ ls, Lexes before s ls rest ∧ ∀ x ∈ ls, Calm x := by
      have hlt : (s.drop n).length < s.length := by rw [List.length_drop]; omega
      obtain ⟨ls, hlexes, hls⟩ := ih _ hlt hleft ((s.take n).getLast?.or before) rfl
      refine ⟨_ :: ls, ?_, List.forall_mem_cons.mpr ⟨hcalm, hls⟩⟩
      have := (Lexes.take hmatch hpos hn).append hlexes
      rwa [List.take_append_drop] at this
    cases hs with
    | nil => exact ⟨[], .nil, by simp⟩
    | @gap c s hc hs =>
      rcases hc with rfl | rfl
      · exact hfirst (firstMatch_blank (by decide) (by simp [IsLineEnd])) Nat.one_pos (by simp)
          .blank hs
      · exact hfirst firstMatch_comma Nat.one_pos (by simp) .other hs
    | @numeral n s hne hn hnext hs =>
      refine hfirst (List.append_assoc n s rest ▸
        firstMatch_numeral hne hn (hs.next hnext hrest)) (List.length_pos_of_ne_nil hne) (by simp)
        .other ?_
      rwa [List.drop_left]
    | @word w s hw hnext hs =>
      obtain ⟨k, n, hmatch, hpos, hle, hcalm, hleft⟩ :=
        hw.takesWords hnext (.word hw hnext hs) hrest before
      exact hfirst hmatch hpos hle hcalm hleft

end Sql
end SchemaLedger
