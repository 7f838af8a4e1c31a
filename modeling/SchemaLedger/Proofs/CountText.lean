-- What a text counts. A text without the white space around it is the word for all, or a
-- numeral of a positive number, or is refused; and every way to write a positive number in
-- decimal, with zeros in front, a plus, single underscores and white space, counts that number.
import Mathlib.Data.List.Basic
import Mathlib.Data.List.TakeWhile
import Mathlib.Data.Nat.Digits.Defs
import SchemaLedger.Migration.RollbackCount

namespace SchemaLedger

/-! ## White space around a text -/

namespace Text

variable {s t before after : List Char}

/-- `t` is left of `s` when the white space around it is taken off. -/
structure Stripped (s t : List Char) : Prop where
  around : ∃ before after, s = before ++ t ++ after ∧ (∀ c ∈ before, isBlank c = true) ∧
    ∀ c ∈ after, isBlank c = true
  head : ∀ c ∈ t.head?, isBlank c = false
  last : ∀ c ∈ t.getLast?, isBlank c = false

/-- What is dropped ends where the first character stays. -/
theorem dropWhile_append_self {p : Char → Bool} (hbefore : ∀ c ∈ before, p c = true)
    (hhead : ∀ c ∈ t.head?, p c = false) : (before ++ t).dropWhile p = t := by
  rw [List.dropWhile_append_of_pos hbefore]
  cases t with
  | nil => rfl
  | cons c t => exact List.dropWhile_cons_of_neg (by simp [hhead c rfl])

theorem Stripped.trim_eq (h : Stripped s t) : trim s = t := by
  obtain ⟨before, after, rfl, hbefore, hafter⟩ := h.around
  by_cases ht : t = []
  · subst ht
    refine trim_eq_nil fun c hc => ?_
    rcases List.mem_append.mp hc with hc | hc
    · exact hbefore c (by simpa using hc)
    · exact hafter c hc
  · unfold trim trimStart dropEndWhile
    rw [List.append_assoc, dropWhile_append_self hbefore, List.reverse_append,
      dropWhile_append_self, List.reverse_reverse]
    · exact fun c hc => hafter c (List.mem_reverse.mp hc)
    · rw [List.head?_reverse]
      exact h.last
    · intro c hc
      rw [List.head?_append_of_ne_nil t ht] at hc
      exact h.head c hc

theorem isBlank_of_mem_head?_dropWhile {c : Char} (h : c ∈ (s.dropWhile isBlank).head?) :
    isBlank c = false := by
  have hhead := List.head?_dropWhile_not isBlank s
  rw [h] at hhead
  exact hhead

theorem stripped_trim (s : List Char) : Stripped s (trim s) := by
  have hfront : s.takeWhile isBlank ++ trimStart s = s := List.takeWhile_append_dropWhile
  have hback : trim s ++ ((trimStart s).reverse.takeWhile isBlank).reverse = trimStart s := by
    unfold trim dropEndWhile
    rw [← List.reverse_append, List.takeWhile_append_dropWhile, List.reverse_reverse]
  refine ⟨⟨s.takeWhile isBlank, ((trimStart s).reverse.takeWhile isBlank).reverse, ?_,
    fun c hc => List.mem_takeWhile_imp hc,
    fun c hc => List.mem_takeWhile_imp (List.mem_reverse.mp hc)⟩, fun c hc => ?_, fun c hc => ?_⟩
  · rw [List.append_assoc, hback, hfront]
  · -- what is left at all begins as it does with the white space at the end
    have hne : trim s ≠ [] := List.ne_nil_of_mem (List.mem_of_mem_head? hc)
    have hstart : c ∈ (trimStart s).head? := by
      rw [← hback, List.head?_append_of_ne_nil _ hne]
      exact hc
    exact isBlank_of_mem_head?_dropWhile hstart
  · unfold trim dropEndWhile at hc
    rw [List.getLast?_reverse] at hc
    exact isBlank_of_mem_head?_dropWhile hc

theorem stripped_iff : Stripped s t ↔ t = trim s :=
  ⟨fun h => h.trim_eq.symm, fun h => h ▸ stripped_trim s⟩

end Text

/-! ## Numerals -/

namespace Numeral

variable {s t : List Char} {ds : List Nat} {c : Char} {n : Int}

theorem Spells.head (h : Spells s ds) : ∃ c rest d, s = c :: rest ∧ Text.digit? c = some d := by
  cases h with
  | last hd => exact ⟨_, _, _, rfl, hd⟩
  | next hd _ => exact ⟨_, _, _, rfl, hd⟩
  | spaced hd _ => exact ⟨_, _, _, rfl, hd⟩

/-- A run begins with nothing that is no digit. -/
theorem Spells.head_ne {x : Char} (h : Spells (c :: s) ds) (hx : Text.digit? x = none) : c ≠ x := by
  rintro rfl
  obtain ⟨c', _, _, hs, hd⟩ := h.head
  rw [← (List.cons.inj hs).1, hx] at hd
  cases hd

theorem digitRun_of_spells (h : Spells s ds) : digitRun s = some ds := by
  induction h with
  | last hd => simp [digitRun, hd]
  | next hd hs ih =>
    obtain ⟨c', rest, _, rfl, _⟩ := hs.head
    have hc' : c' ≠ '_' := hs.head_ne (by decide)
    rw [digitRun.eq_4 _ _ _ hc']
    simp [hd, ih]
  | spaced hd hs ih => simp [digitRun, hd, ih]

theorem spells_of_digitRun (h : digitRun s = some ds) : Spells s ds := by
  fun_induction digitRun s generalizing ds with
  | case1 => cases h
  | case2 c =>
    obtain ⟨d, hd, rfl⟩ := Option.map_eq_some_iff.mp h
    exact .last hd
  | case3 c rest d hd ih =>
    obtain ⟨ds, hds, rfl⟩ := Option.map_eq_some_iff.mp h
    exact .spaced hd (ih hds)
  | case4 => cases h
  | case5 c next rest _ d hd ih =>
    obtain ⟨ds, hds, rfl⟩ := Option.map_eq_some_iff.mp h
    exact .next hd (ih hds)
  | case6 => cases h

theorem digitRun_iff : digitRun s = some ds ↔ Spells s ds :=
  ⟨spells_of_digitRun, digitRun_of_spells⟩

/-- What digits are worth, the most significant first. -/
def worth (ds : List Nat) : Nat := Nat.ofDigits 10 ds.reverse

theorem valueOf_eq_worth (ds : List Nat) : valueOf ds = worth ds := by
  unfold valueOf worth
  rw [Nat.ofDigits_eq_foldr, List.foldr_reverse]
  congr 1
  funext m d
  rw [Nat.mul_comm, Nat.add_comm]
  rfl

theorem Spells.lt_ten (h : Spells s ds) : ∀ d ∈ ds, d < 10 := by
  induction h with
  | last hd => exact List.forall_mem_singleton.mpr (Text.digit?_lt hd)
  | next hd _ ih => exact List.forall_mem_cons.mpr ⟨Text.digit?_lt hd, ih⟩
  | spaced hd _ ih => exact List.forall_mem_cons.mpr ⟨Text.digit?_lt hd, ih⟩

theorem Spells.worth_lt {most : Nat} (h : Spells s ds) (hfew : ds.length ≤ most) :
    worth ds < Nat.pow 10 most := by
  have hdigits : ∀ d ∈ ds.reverse, d < 10 := fun d hd => h.lt_ten d (List.mem_reverse.mp hd)
  calc worth ds < 10 ^ ds.reverse.length := Nat.ofDigits_lt_base_pow_length (by decide) hdigits
    _ ≤ 10 ^ most := Nat.pow_le_pow_right (by decide) (by rwa [List.length_reverse])

/-- `t` is a numeral of `n`: digits, not too many of them, perhaps after a sign. -/
inductive Denotes : List Char → Int → Prop where
  | unsigned {s : List Char} {ds : List Nat} :
    Spells s ds → ds.length ≤ digitLimit → Denotes s (worth ds)
  | plus {s : List Char} {ds : List Nat} :
    Spells s ds → ds.length ≤ digitLimit → Denotes ('+' :: s) (worth ds)
  | minus {s : List Char} {ds : List Nat} :
    Spells s ds → ds.length ≤ digitLimit → Denotes ('-' :: s) (-worth ds)

/-- Digits that are read after a sign or none, if they are few enough. -/
theorem read_eq (negative : Bool) (hsign : sign t = (negative, s)) (h : Spells s ds)
    (hfew : ds.length ≤ digitLimit) :
    read t = .ok (if negative then -worth ds else worth ds) := by
  unfold read
  rw [hsign, ← valueOf_eq_worth]
  dsimp only
  rw [digitRun_iff.mpr h]
  exact if_neg (Nat.not_lt.mpr hfew)

/-- The ways to begin: with a minus, with a plus, or with neither. -/
theorem sign_cases (t : List Char) :
    (∃ s, t = '-' :: s ∧ sign t = (true, s)) ∨ (∃ s, t = '+' :: s ∧ sign t = (false, s)) ∨
      sign t = (false, t) := by
  unfold sign
  split
  · exact .inl ⟨_, rfl, rfl⟩
  · exact .inr (.inl ⟨_, rfl, rfl⟩)
  · exact .inr (.inr rfl)

theorem Spells.sign_eq (h : Spells s ds) : sign s = (false, s) := by
  rcases sign_cases s with ⟨rest, rfl, _⟩ | ⟨rest, rfl, _⟩ | hsign
  · exact absurd rfl (h.head_ne (by decide : Text.digit? '-' = none))
  · exact absurd rfl (h.head_ne (by decide : Text.digit? '+' = none))
  · exact hsign

theorem Denotes.read_eq (h : Denotes t n) : read t = .ok n := by
  cases h with
  | unsigned hs hfew => exact Numeral.read_eq false hs.sign_eq hs hfew
  | plus hs hfew => exact Numeral.read_eq false rfl hs hfew
  | minus hs hfew => exact Numeral.read_eq true rfl hs hfew

theorem denotes_of_read (h : read t = .ok n) : Denotes t n := by
  unfold read at h
  rcases hrun : digitRun (sign t).2 with _ | ds
  · rw [hrun] at h
    cases h
  · rw [hrun] at h
    dsimp only at h
    by_cases hmany : ds.length > digitLimit
    · rw [if_pos hmany] at h
      cases h
    · rw [if_neg hmany, valueOf_eq_worth] at h
      have hfew : ds.length ≤ digitLimit := Nat.not_lt.mp hmany
      have hspells := digitRun_iff.mp hrun
      rcases sign_cases t with ⟨s, rfl, hsign⟩ | ⟨s, rfl, hsign⟩ | hsign
      · obtain rfl := Except.ok.inj h
        exact .minus hspells hfew
      · obtain rfl := Except.ok.inj h
        exact .plus hspells hfew
      · rw [hsign] at h hspells
        obtain rfl := Except.ok.inj h
        exact .unsigned hspells hfew

theorem read_iff : read t = .ok n ↔ Denotes t n := ⟨denotes_of_read, Denotes.read_eq⟩

/-- A number that a numeral denotes can be written out again. -/
theorem Denotes.isWritable (h : Denotes t n) : (Value.int n).isWritable = true := by
  obtain ⟨s, ds, hs, hfew, hn⟩ : ∃ s ds, Spells s ds ∧ ds.length ≤ Value.digitLimit ∧
      n.natAbs = worth ds := by
    cases h with
    | unsigned hs hfew | plus hs hfew => exact ⟨_, _, hs, hfew, Int.natAbs_natCast _⟩
    | minus hs hfew => exact ⟨_, _, hs, hfew, (Int.natAbs_neg _).trans (Int.natAbs_natCast _)⟩
  rw [Value.isWritable, decide_eq_true_eq, hn]
  exact hs.worth_lt hfew

theorem Denotes.unique {m : Int} (h : Denotes t m) (h' : Denotes t n) : m = n :=
  Except.ok.inj (h.read_eq.symm.trans h'.read_eq)

theorem eq_of_toLower {c : Char} (h : c.toLower = 'a') : c = 'a' ∨ c = 'A' := by
  unfold Char.toLower at h
  split at h
  · have hval : c.val + ('a'.val - 'A'.val) = 'a'.val := congrArg Char.val h
    refine .inr (Char.ext ?_)
    grind
  · exact .inl h

/-- No numeral is the word for all. -/
theorem Denotes.not_all (h : Denotes t n) : t.map Char.toLower ≠ ['a', 'l', 'l'] := by
  intro hall
  cases h with
  | @unsigned s ds hs _ =>
    obtain ⟨c, rest, _, rfl, _⟩ := hs.head
    rcases eq_of_toLower (List.cons.inj hall).1 with hc | hc
    · exact hs.head_ne (by decide) hc
    · exact hs.head_ne (by decide) hc
  | plus => exact absurd (List.cons.inj hall).1 (by decide)
  | minus => exact absurd (List.cons.inj hall).1 (by decide)

end Numeral

/-! ## Counts -/

namespace RollbackCount

open Numeral

-- The letters of the word may be in any case. No character beyond ASCII has one of them as its
-- lower case, so it is enough to lower those of ASCII.
/-- What a text counts that has no white space around it, or why it counts nothing. -/
inductive Counts (t : List Char) : Except Failure RollbackCount → Prop where
  | all : t.map Char.toLower = ['a', 'l', 'l'] → Counts t (.ok .all)
  | exactly {n : Nat} : 0 < n → Denotes t n → Counts t (.ok (.exactly n))
  | notPositive {n : Int} : n ≤ 0 → Denotes t n →
    Counts t (.error (.configuration (.countRange n)))
  | noNumeral : t.map Char.toLower ≠ ['a', 'l', 'l'] → (∀ n, ¬ Denotes t n) →
    Counts t (.error (.configuration (.countText (String.ofList t))))

theorem ofText_counts (s : List Char) : Counts (Text.trim s) (ofText s) := by
  unfold ofText isAll
  dsimp only
  split
  next hall => exact .all (beq_iff_eq.mp hall)
  next hall =>
    have hall : (Text.trim s).map Char.toLower ≠ ['a', 'l', 'l'] := fun h => hall (beq_iff_eq.mpr h)
    split
    next n hread =>
      have hn := read_iff.mp hread
      unfold ofInt
      split
      next hpos => exact .exactly (by omega) ((Int.toNat_of_nonneg hpos.le).symm ▸ hn)
      next hpos =>
        rw [refuse, if_pos hn.isWritable]
        exact .notPositive (Int.not_lt.mp hpos) hn
    next f hread =>
      refine .noNumeral hall fun n hn => ?_
      exact nomatch hread.symm.trans (read_iff.mpr hn)

theorem ofValue_counts {s : String} {t : List Char} (ht : Text.Stripped s.toList t) :
    Counts t (ofValue (.text s)) :=
  ht.trim_eq ▸ ofText_counts s.toList

/-- A value that is refused as a count is no good setting, or it cannot be written out. A text is
never refused for its length. -/
theorem ofValue_refused {v : Value} {f : Failure} (h : ofValue v = .error f) :
    (∃ c, f = .configuration c) ∨ (f = .file .numberTooLong ∧ v.isWritable = false) := by
  have refused {v : Value} {fault : ConfigFault} (h : refuse v fault = .error f) :
      (∃ c, f = .configuration c) ∨ (f = .file .numberTooLong ∧ v.isWritable = false) := by
    unfold refuse at h
    split at h
    next =>
      cases h
      exact .inl ⟨_, rfl⟩
    next hv =>
      cases h
      exact .inr ⟨rfl, by simpa using hv⟩
  cases v with
  | int n =>
    change ofInt n = .error f at h
    unfold ofInt at h
    split at h
    · cases h
    · exact refused h
  | text s =>
    have hcounts := ofValue_counts (Text.stripped_trim s.toList)
    rw [h] at hcounts
    cases hcounts <;> exact .inl ⟨_, rfl⟩
  | _ => exact refused h

theorem Counts.all_iff {t : List Char} {r : Except Failure RollbackCount} (h : Counts t r) :
    r = .ok .all ↔ t.map Char.toLower = ['a', 'l', 'l'] := by
  cases h with
  | all hall => exact iff_of_true rfl hall
  | exactly _ hn => exact iff_of_false nofun hn.not_all
  | notPositive _ hn => exact iff_of_false nofun hn.not_all
  | noNumeral hall _ => exact iff_of_false nofun hall

theorem Counts.exactly_iff {t : List Char} {r : Except Failure RollbackCount}
    (h : Counts t r) (n : Nat) : r = .ok (.exactly n) ↔ 0 < n ∧ Denotes t n := by
  cases h with
  | all hall => exact iff_of_false nofun fun hn => hn.2.not_all hall
  | @exactly k hpos hk =>
    constructor
    · rintro ⟨⟩
      exact ⟨hpos, hk⟩
    · rintro ⟨_, hn⟩
      rw [Int.natCast_inj.mp (hk.unique hn)]
  | notPositive hle hk =>
    refine iff_of_false nofun fun hn => ?_
    obtain rfl := hk.unique hn.2
    omega
  | noNumeral _ hnone => exact iff_of_false nofun fun hn => hnone _ hn.2

end RollbackCount

/-! ## Ways to write a number -/

namespace Numeral

/-- `s` writes the characters `cs` with single underscores between some of them. -/
inductive Spaced : List Char → List Char → Prop where
  | last {c : Char} : Spaced [c] [c]
  | next {c : Char} {cs s : List Char} : Spaced cs s → Spaced (c :: cs) (c :: s)
  | spaced {c : Char} {cs s : List Char} : Spaced cs s → Spaced (c :: cs) (c :: '_' :: s)

variable {cs s : List Char} {c : Char}

/-- The value of an ASCII digit. -/
def asciiDigit (c : Char) : Nat := c.toNat - '0'.toNat

theorem digit?_of_isDigit (h : c.isDigit = true) : Text.digit? c = some (asciiDigit c) := by
  obtain ⟨hlow, hhigh⟩ : 48 ≤ c.toNat ∧ c.toNat ≤ 57 := Char.isDigit_iff_toNat.mp h
  unfold Text.digit? Text.zeros
  rw [List.find?_cons_of_pos (by simp; omega)]
  rfl

theorem not_blank_of_isDigit (h : c.isDigit = true) : Text.isBlank c = false := by
  obtain ⟨hlow, hhigh⟩ : 48 ≤ c.toNat ∧ c.toNat ≤ 57 := Char.isDigit_iff_toNat.mp h
  rw [Bool.eq_false_iff, Ne, Text.isBlank, CharClass.holds_iff]
  simp only [CharClass.blank, List.mem_cons, List.not_mem_nil, or_false, exists_eq_or_imp,
    exists_eq_left]
  omega

theorem Spaced.spells (h : Spaced cs s) (hdigits : ∀ c ∈ cs, c.isDigit = true) :
    Spells s (cs.map asciiDigit) := by
  induction h with
  | last => exact .last (digit?_of_isDigit (hdigits _ List.mem_cons_self))
  | next _ ih =>
    rw [List.forall_mem_cons] at hdigits
    exact .next (digit?_of_isDigit hdigits.1) (ih hdigits.2)
  | spaced _ ih =>
    rw [List.forall_mem_cons] at hdigits
    exact .spaced (digit?_of_isDigit hdigits.1) (ih hdigits.2)

theorem Spaced.head?_eq (h : Spaced cs s) : s.head? = cs.head? := by
  cases h <;> rfl

theorem Spaced.getLast?_isSome (h : Spaced cs s) : ∃ c, cs.getLast? = some c := by
  cases h <;> exact ⟨_, List.getLast?_cons⟩

theorem Spaced.getLast?_eq (h : Spaced cs s) : s.getLast? = cs.getLast? := by
  induction h with
  | last => rfl
  | next _ ih => rw [List.getLast?_cons, List.getLast?_cons, ih]
  | spaced hs ih =>
    obtain ⟨x, hx⟩ := hs.getLast?_isSome
    rw [List.getLast?_cons, List.getLast?_cons, List.getLast?_cons, ih, hx]
    rfl

/-- ASCII digits are worth the number that they are the decimal text of, zeros in front or not. -/
theorem worth_decimal (zeros n : Nat) :
    worth ((List.replicate zeros '0' ++ Nat.toDigits 10 n).map asciiDigit) = n := by
  have hchars (cs : List Char) : valueOf (cs.map asciiDigit) = Nat.ofDigitChars 10 cs 0 := by
    unfold valueOf
    rw [List.foldl_map, Nat.ofDigitChars_eq_foldl]
    congr 1
    funext m c
    rw [Nat.mul_comm]
    rfl
  rw [← valueOf_eq_worth, hchars, Nat.ofDigitChars_append, Nat.ofDigitChars_replicate_zero,
    Nat.mul_zero, Nat.ofDigitChars_ten_toDigits]

theorem isDigit_of_mem_decimal {zeros n : Nat}
    (h : c ∈ List.replicate zeros '0' ++ Nat.toDigits 10 n) : c.isDigit = true := by
  rcases List.mem_append.mp h with h | h
  · obtain rfl := List.eq_of_mem_replicate h
    decide
  · exact Nat.isDigit_of_mem_toDigits (by decide) (by decide) h

variable {zeros n : Nat} {plus digits : List Char}

/-- The decimal text of a number is a numeral of it, and so it is with zeros in front, with a
plus, and with single underscores between its digits. -/
theorem denotes_decimal (h : Spaced (List.replicate zeros '0' ++ Nat.toDigits 10 n) digits)
    (hfew : zeros + (Nat.toDigits 10 n).length ≤ digitLimit) (hplus : plus = [] ∨ plus = ['+']) :
    Denotes (plus ++ digits) n := by
  have hspells := h.spells fun c => isDigit_of_mem_decimal
  have hlength : ((List.replicate zeros '0' ++ Nat.toDigits 10 n).map asciiDigit).length ≤
      digitLimit := by
    rwa [List.length_map, List.length_append, List.length_replicate]
  rw [← worth_decimal zeros n]
  rcases hplus with rfl | rfl
  · exact .unsigned hspells hlength
  · exact .plus hspells hlength

/-- Such a text has no white space around it. -/
theorem stripped_decimal (h : Spaced (List.replicate zeros '0' ++ Nat.toDigits 10 n) digits)
    (hplus : plus = [] ∨ plus = ['+']) {before after : List Char}
    (hbefore : ∀ c ∈ before, Text.isBlank c = true)
    (hafter : ∀ c ∈ after, Text.isBlank c = true) :
    Text.Stripped (before ++ (plus ++ digits) ++ after) (plus ++ digits) := by
  refine ⟨⟨before, after, rfl, hbefore, hafter⟩, fun c hc => ?_, fun c hc => ?_⟩
  · rcases hplus with rfl | rfl
    · rw [List.nil_append, h.head?_eq] at hc
      exact not_blank_of_isDigit (isDigit_of_mem_decimal (List.mem_of_mem_head? hc))
    · obtain rfl : '+' = c := Option.some.inj hc
      decide
  · obtain ⟨d, hd⟩ := h.getLast?_isSome
    rw [List.getLast?_append, h.getLast?_eq, hd] at hc
    obtain rfl : d = c := Option.some.inj hc
    exact not_blank_of_isDigit (isDigit_of_mem_decimal (List.mem_of_getLast? hd))

end Numeral

namespace RollbackCount

open Numeral

/-- A text counts all just if it is the word for all, in any case and with white space around it,
and a positive number just if it is a numeral of that number; any other text is refused. So any
way to write a positive number in decimal counts that number. -/
theorem texts_count_just_what_they_write :
    (∀ s : String, ∃ t, (∀ u, Text.Stripped s.toList u ↔ u = t) ∧
      (ofValue (.text s) = .ok .all ↔ t.map Char.toLower = ['a', 'l', 'l']) ∧
      (∀ n : Nat, ofValue (.text s) = .ok (.exactly n) ↔ 0 < n ∧ Denotes t n) ∧
      (t.map Char.toLower ≠ ['a', 'l', 'l'] → (∀ n : Nat, 0 < n → ¬ Denotes t n) →
        ∃ f, ofValue (.text s) = .error (.configuration f) ∧
          ((f = .countText (String.ofList t) ∧ ∀ n, ¬ Denotes t n) ∨
            ∃ n ≤ 0, f = .countRange n ∧ Denotes t n))) ∧
      ∀ (n zeros : Nat) (before plus digits after : List Char), 0 < n →
        Spaced (List.replicate zeros '0' ++ (toString n).toList) digits →
        zeros + (toString n).length ≤ digitLimit →
        (plus = [] ∨ plus = ['+']) → (∀ c ∈ before, Text.isBlank c = true) →
        (∀ c ∈ after, Text.isBlank c = true) →
        ofValue (.text (String.ofList (before ++ (plus ++ digits) ++ after))) =
          .ok (.exactly n) := by
  constructor
  · intro s
    have hcounts := ofValue_counts (Text.stripped_trim s.toList)
    refine ⟨_, fun u => Text.stripped_iff, hcounts.all_iff, hcounts.exactly_iff,
      fun hall hnone => ?_⟩
    generalize ofValue (.text s) = r at hcounts
    cases hcounts with
    | all h => exact absurd h hall
    | exactly hpos hn => exact absurd hn (hnone _ hpos)
    | notPositive hle hn => exact ⟨_, rfl, .inr ⟨_, hle, rfl, hn⟩⟩
    | noNumeral _ h => exact ⟨_, rfl, .inl ⟨rfl, h⟩⟩
  · intro n zeros before plus digits after hn hdigits hfew hplus hbefore hafter
    have htext : toString n = String.ofList (Nat.toDigits 10 n) := Nat.repr_eq_ofList_toDigits
    rw [htext, String.toList_ofList] at hdigits
    rw [htext, String.length_ofList] at hfew
    have hstripped := stripped_decimal hdigits hplus hbefore hafter
    refine ((ofValue_counts ?_).exactly_iff n).mpr ⟨hn, denotes_decimal hdigits hfew hplus⟩
    rwa [String.toList_ofList]

/-- Forty-two with two zeros in front, a plus, underscores and white space. -/
theorem a_text_with_zeros_and_underscores_counts :
    Spaced (List.replicate 2 '0' ++ (toString 42).toList) "0_04_2".toList ∧
      2 + (toString 42).length ≤ digitLimit ∧
      ofValue (.text "\t+0_04_2 ") = .ok (.exactly 42) := by
  have hspaced : Spaced (List.replicate 2 '0' ++ (toString 42).toList) "0_04_2".toList :=
    .spaced (.next (.spaced .last))
  refine ⟨hspaced, by decide, ?_⟩
  have htab : ∀ c ∈ ['\t'], Text.isBlank c = true := List.forall_mem_singleton.mpr rfl
  have hspace : ∀ c ∈ [' '], Text.isBlank c = true := List.forall_mem_singleton.mpr rfl
  exact texts_count_just_what_they_write.2 42 2 ['\t'] ['+'] "0_04_2".toList [' '] (by decide)
    hspaced (by decide) (.inr rfl) htab hspace

end RollbackCount
end SchemaLedger
