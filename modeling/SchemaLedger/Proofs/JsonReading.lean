-- What the reader of JSON gives. It goes through a text from the left, so what it leaves is an end
-- of the text. It reads no whole number with more digits than are written out, so every value that
-- it gives can be written out; and it stops for a number only at a run of too many digits.
import Mathlib.Data.List.Induction
import Mathlib.Data.List.TakeWhile
import SchemaLedger.Json.Reader

namespace SchemaLedger.Json

/-- A text holds so many decimal digits in a row, which are more than are read. -/
def LongRun (n : Nat) (s : List Char) : Prop :=
  digitLimit < n ∧ ∃ ds, ds <:+: s ∧ ds.length = n ∧ ∀ c ∈ ds, c.isDigit = true

/-- What comes of reading at the front of `s`: a value with the property `p` and an end of `s`, or
a complaint; and a complaint about a number is about a long run of digits. -/
def Sound {α : Type} (p : α → Prop) (s : List Char) : Except Stop (Parsed α s) → Prop
  | .ok r => p r.value ∧ r.rest <:+ s
  | .error (.malformed _ _) => True
  | .error (.tooManyDigits n) => LongRun n s

variable {s rest more : List Char} {n : Nat}

theorem LongRun.of_suffix (h : LongRun n rest) (hrest : rest <:+ s) : LongRun n s := by
  obtain ⟨hlong, ds, hds, hlength, hdigits⟩ := h
  exact ⟨hlong, ds, hds.trans hrest.isInfix, hlength, hdigits⟩

/-! ## What is left of a text -/

theorem skipSpace_suffix (s : List Char) : skipSpace s <:+ s := List.dropWhile_suffix _

theorem lowHalf?_suffix (h : lowHalf? s = some (n, rest)) : rest <:+ s := by
  unfold lowHalf? at h
  split at h
  next a b c d next' rest' =>
    split at h
    next =>
      split at h
      next =>
        cases h
        exact ⟨['\\', 'u', a, b, c, d], rfl⟩
      next => cases h
    next => cases h
  next => cases h

/-- What follows a text is an end of what it was read from. -/
theorem readText_suffix {opened : Nat} {acc t : List Char}
    (h : readText opened s acc = .ok (t, rest)) : rest <:+ s := by
  fun_induction readText opened s acc with
  | case1 | case3 | case4 | case6 | case10 | case12 | case13 => cases h
  | case2 =>
    cases h
    exact List.suffix_cons _ _
  | case5 acc a b c d next' more n hn hpair low more' hlow ih =>
    have hmore := (ih h).trans (lowHalf?_suffix hlow)
    exact hmore.trans ⟨['\\', 'u', a, b, c, d], rfl⟩
  | case7 acc a b c d next' more n hn hpair hlow hbroken ih =>
    exact (ih h).trans ⟨['\\', 'u', a, b, c, d], rfl⟩
  | case8 acc a b c d next' more n hn hpair hlow ih =>
    exact (ih h).trans ⟨['\\', 'u', a, b, c, d], rfl⟩
  | case9 acc a b c d next' more n hn hpair hlow ih =>
    exact (ih h).trans ⟨['\\', 'u', a, b, c, d], rfl⟩
  | case11 acc e rest' _ c hshort ih => exact (ih h).trans ⟨['\\', e], rfl⟩
  | case14 acc c rest' _ _ _ _ hplain ih => exact (ih h).trans ⟨[c], rfl⟩

/-- No number stops the reader within a text. -/
theorem readText_error {opened : Nat} {acc : List Char} {e : Stop}
    (h : readText opened s acc = .error e) : ∃ what left, e = .malformed what left := by
  fun_induction readText opened s acc with
  | case1 | case3 | case4 | case6 | case10 | case12 | case13 =>
    cases h
    exact ⟨_, _, rfl⟩
  | case2 => cases h
  | case5 _ _ _ _ _ _ _ _ _ _ _ _ _ ih => exact ih h
  | case7 _ _ _ _ _ _ _ _ _ _ _ _ ih => exact ih h
  | case8 _ _ _ _ _ _ _ _ _ _ _ ih => exact ih h
  | case9 _ _ _ _ _ _ _ _ _ _ _ ih => exact ih h
  | case11 _ _ _ _ _ _ ih => exact ih h
  | case14 _ _ _ _ _ _ _ _ ih => exact ih h

/-! ## Numbers -/

theorem fractionPart_suffix (s : List Char) : (fractionPart s).2 <:+ s := by
  unfold fractionPart
  split
  next rest =>
    split
    next => exact List.suffix_refl _
    next => exact (List.dropWhile_suffix _).trans (List.suffix_cons _ _)
  next => exact List.suffix_refl _

theorem signPart_suffix (s : List Char) : (signPart s).2 <:+ s := by
  unfold signPart
  split
  next => exact List.suffix_cons _ _
  next => exact List.suffix_cons _ _
  next => exact List.suffix_refl _

theorem exponentPart_suffix (s : List Char) : (exponentPart s).2 <:+ s := by
  unfold exponentPart
  split
  next e rest =>
    split
    next =>
      split
      next => exact List.suffix_refl _
      next =>
        have hsign := (signPart_suffix rest).trans (List.suffix_cons e rest)
        exact (List.dropWhile_suffix _).trans hsign
    next => exact List.suffix_refl _
  next => exact List.suffix_refl _

theorem minusPart_suffix (s : List Char) : (minusPart s).2 <:+ s := by
  unfold minusPart
  split
  next => exact List.suffix_cons _ _
  next => exact List.suffix_refl _

/-- The digits of the whole part stand at the front, and what follows them is left. -/
theorem wholePart_append (s : List Char) : (wholePart s).1 ++ (wholePart s).2 = s := by
  unfold wholePart
  split
  next => rfl
  next => exact List.takeWhile_append_dropWhile

theorem isDigit_of_mem_wholePart {c : Char} (h : c ∈ (wholePart s).1) : c.isDigit = true := by
  unfold wholePart at h
  split at h
  next =>
    rw [List.mem_singleton.mp h]
    rfl
  next => exact List.mem_takeWhile_imp h

theorem digitsValue_lt {ds : List Char} {n : Nat} (h : ∀ c ∈ ds, c.isDigit = true)
    (hlength : ds.length ≤ n) : digitsValue ds < Nat.pow 10 n := by
  unfold digitsValue
  induction ds using List.reverseRecOn generalizing n with
  | nil => exact Nat.pow_pos (by decide)
  | append_singleton ds c ih =>
    rw [List.length_append, List.length_singleton] at hlength
    obtain ⟨m, rfl⟩ := Nat.exists_eq_add_of_le' hlength
    have hds : ds.foldl (fun n c => n * 10 + (c.toNat - 48)) 0 < Nat.pow 10 (m + ds.length) :=
      ih (fun c hc => h c (List.mem_append_left _ hc)) (Nat.le_add_left _ _)
    have hc : c.toNat - 48 < 10 := by
      obtain ⟨-, hhigh⟩ : 48 ≤ c.toNat ∧ c.toNat ≤ 57 :=
        Char.isDigit_iff_toNat.mp (h c List.mem_concat_self)
      omega
    rw [List.foldl_append, ← Nat.add_assoc, Nat.pow_eq, Nat.pow_succ, ← Nat.pow_eq]
    simp only [List.foldl_cons, List.foldl_nil]
    omega

/-- What comes of a number in `s`: a value that can be written out, or a complaint about a long
run of digits. -/
def NumberSound (s : List Char) : Except Stop Value → Prop
  | .ok v => v.isWritable = true
  | .error (.malformed _ _) => False
  | .error (.tooManyDigits n) => LongRun n s

theorem numberOf_sound {negative : Bool} {whole fraction : List Char} {exponent : Option Int}
    (hdigits : ∀ c ∈ whole, c.isDigit = true) (hwhole : whole <:+: s) :
    NumberSound s (numberOf negative whole fraction exponent) := by
  unfold numberOf
  by_cases hint : (fraction.isEmpty && exponent.isNone) = true
  · rw [if_pos hint]
    by_cases hlong : whole.length > digitLimit
    · rw [if_pos hlong]
      exact ⟨hlong, whole, hwhole, rfl, hdigits⟩
    · rw [if_neg hlong]
      have hvalue : digitsValue whole < Nat.pow 10 Value.digitLimit :=
        digitsValue_lt hdigits (not_lt.mp hlong)
      rw [NumberSound, Value.isWritable, decide_eq_true_eq]
      split
      next => rwa [Int.natAbs_neg, Int.natAbs_natCast]
      next => rwa [Int.natAbs_natCast]
  · rw [if_neg hint]
    rfl

/-- A number is read at the front, and what is left is an end of the text. -/
theorem readNumber?_sound {r : Except Stop Value} (h : readNumber? s = some (r, rest)) :
    rest <:+ s ∧ NumberSound s r := by
  simp only [readNumber?] at h
  split at h
  next => cases h
  next =>
    cases h
    have hwhole := wholePart_append (minusPart s).2
    have hminus := minusPart_suffix s
    have hback : (wholePart (minusPart s).2).2 <:+ (minusPart s).2 := ⟨_, hwhole⟩
    have hfront : (wholePart (minusPart s).2).1 <:+: s :=
      (List.IsPrefix.isInfix ⟨_, hwhole⟩).trans hminus.isInfix
    refine ⟨?_, numberOf_sound (fun c => isDigit_of_mem_wholePart) hfront⟩
    exact (exponentPart_suffix _).trans ((fractionPart_suffix _).trans (hback.trans hminus))

/-! ## Values -/

theorem readWord?_sound {v : Value} (h : readWord? s = some (v, rest)) :
    v.isWritable = true ∧ rest <:+ s := by
  simp only [readWord?, Option.map_eq_some_iff, Prod.mk.injEq] at h
  obtain ⟨w, hw, rfl, rfl⟩ := h
  refine ⟨?_, List.drop_suffix _ _⟩
  have hall : ∀ w ∈ words, w.2.isWritable = true := by
    intro w hw
    simp only [words, List.mem_cons, List.not_mem_nil, or_false] at hw
    rcases hw with rfl | rfl | rfl | rfl | rfl | rfl <;> rfl
  exact hall w (List.mem_of_find?_eq_some hw)

theorem entriesWritable_setEntry {es : List (Value × Value)} {k v : Value}
    (hes : Value.entriesWritable es = true) (hk : k.isWritable = true) (hv : v.isWritable = true) :
    Value.entriesWritable (Value.setEntry k v es) = true := by
  induction es with
  | nil => simp only [Value.setEntry, Value.entriesWritable, hk, hv, Bool.and_self]
  | cons e es ih =>
    obtain ⟨k', v'⟩ := e
    simp only [Value.entriesWritable, Bool.and_eq_true] at hes
    rw [Value.setEntry]
    split
    next => simp only [Value.entriesWritable, hes, hv, Bool.and_self]
    next => simp only [Value.entriesWritable, hes.1, ih hes.2, Bool.and_self]

theorem allWritable_append {vs ws : List Value} :
    Value.allWritable (vs ++ ws) = (Value.allWritable vs && Value.allWritable ws) := by
  induction vs with
  | nil => rfl
  | cons v vs ih => rw [List.cons_append, Value.allWritable, Value.allWritable, ih, Bool.and_assoc]

theorem allWritable_reverse {vs : List Value} :
    Value.allWritable vs.reverse = Value.allWritable vs := by
  induction vs with
  | nil => rfl
  | cons v vs ih =>
    rw [List.reverse_cons, allWritable_append, ih, Value.allWritable, Value.allWritable,
      Value.allWritable, Bool.and_true, Bool.and_comm]

/-- The readers are sound on every text that is shorter than `n`. -/
structure SoundBelow (n : Nat) : Prop where
  value : ∀ s : List Char, s.length < n → Sound (·.isWritable = true) s (readValue s)
  items : ∀ (s : List Char) (vs : List Value), s.length < n → Value.allWritable vs = true →
    Sound (Value.allWritable · = true) s (readItems s vs)
  entries : ∀ (s : List Char) (es : List (Value × Value)), s.length < n →
    Value.entriesWritable es = true → Sound (Value.entriesWritable · = true) s (readEntries s es)

section

variable {α β : Type} {p : α → Prop} {q : β → Prop} {body : List Char}

/-- A complaint within a text is one about the whole. -/
theorem Sound.error {e : Stop} (h : Sound p body (.error e)) (hbody : body <:+ s) :
    Sound q s (.error e) := by
  cases e with
  | malformed what left => trivial
  | tooManyDigits n => exact LongRun.of_suffix h hbody

theorem Sound.of_malformed {e : Stop} (h : ∃ what left, e = .malformed what left) :
    Sound p s (.error e) := by
  obtain ⟨what, left, rfl⟩ := h
  trivial

end

theorem readValue_sound (h : SoundBelow s.length) :
    Sound (·.isWritable = true) s (readValue s) := by
  rw [readValue.eq_def]
  split
  next => trivial
  next rest =>
    split
    next e he => exact .of_malformed (readText_error he)
    next t more hmore => exact ⟨rfl, (readText_suffix hmore).trans (List.suffix_cons _ _)⟩
  next rest =>
    have hspace : skipSpace rest <:+ '[' :: rest :=
      (skipSpace_suffix rest).trans (List.suffix_cons _ _)
    split
    next more hclose =>
      rw [hclose] at hspace
      exact ⟨rfl, (List.suffix_cons _ _).trans hspace⟩
    next =>
      have hitems := h.items (skipSpace rest) []
        (Nat.lt_succ_of_le (length_skipSpace_le rest)) rfl
      split
      next e he =>
        rw [he] at hitems
        exact hitems.error hspace
      next items more hm hok =>
        rw [hok] at hitems
        exact ⟨hitems.1, hitems.2.trans hspace⟩
  next rest =>
    have hspace : skipSpace rest <:+ '\x7b' :: rest :=
      (skipSpace_suffix rest).trans (List.suffix_cons _ _)
    split
    next more hclose =>
      rw [hclose] at hspace
      exact ⟨rfl, (List.suffix_cons _ _).trans hspace⟩
    next =>
      have hentries := h.entries (skipSpace rest) []
        (Nat.lt_succ_of_le (length_skipSpace_le rest)) rfl
      split
      next e he =>
        rw [he] at hentries
        exact hentries.error hspace
      next entries more hm hok =>
        rw [hok] at hentries
        exact ⟨hentries.1, hentries.2.trans hspace⟩
  next c rest _ _ _ =>
    split
    next v more hword => exact readWord?_sound hword
    next =>
      split
      next v more hnumber =>
        have hsound := readNumber?_sound hnumber
        exact ⟨hsound.2, hsound.1⟩
      next e more hnumber =>
        have hsound := (readNumber?_sound hnumber).2
        cases e with
        | malformed what left => exact hsound.elim
        | tooManyDigits n => exact hsound
      next => trivial

theorem readItems_sound {vs : List Value} (h : SoundBelow s.length)
    (hvs : Value.allWritable vs = true) :
    Sound (Value.allWritable · = true) s (readItems s vs) := by
  have hvalue := readValue_sound h
  rw [readItems.eq_def]
  split
  next e he =>
    rw [he] at hvalue
    exact hvalue.error (List.suffix_refl s)
  next v rest hr hok =>
    rw [hok] at hvalue
    have hspace : skipSpace rest <:+ s := (skipSpace_suffix rest).trans hvalue.2
    have hfirst : Value.allWritable (v :: vs) = true := by
      rw [Value.allWritable, hvs, Bool.and_true]
      exact hvalue.1
    dsimp only
    split
    next more hclose =>
      rw [hclose] at hspace
      exact ⟨allWritable_reverse.trans hfirst, (List.suffix_cons _ _).trans hspace⟩
    next more hcomma =>
      rw [hcomma] at hspace
      have hback : skipSpace more <:+ s :=
        (skipSpace_suffix more).trans ((List.suffix_cons _ _).trans hspace)
      have hshort : (skipSpace more).length < s.length := by
        have hmore := length_skipSpace_le more
        have hlength := hspace.length_le
        rw [List.length_cons] at hlength
        omega
      have hitems := h.items (skipSpace more) (v :: vs) hshort hfirst
      split
      next e he =>
        rw [he] at hitems
        exact hitems.error hback
      next items left hl hok' =>
        rw [hok'] at hitems
        exact ⟨hitems.1, hitems.2.trans hback⟩
    next => trivial

theorem readEntries_sound {es : List (Value × Value)} (h : SoundBelow s.length)
    (hes : Value.entriesWritable es = true) :
    Sound (Value.entriesWritable · = true) s (readEntries s es) := by
  rw [readEntries.eq_def]
  split
  next rest =>
    split
    next e he => exact .of_malformed (readText_error he)
    next key more hkey =>
      have hmore : more <:+ '\x22' :: rest := (readText_suffix hkey).trans (List.suffix_cons _ _)
      have hspace : skipSpace more <:+ '\x22' :: rest := (skipSpace_suffix more).trans hmore
      dsimp only
      split
      next more' hcolon =>
        rw [hcolon] at hspace
        have hafter : skipSpace more' <:+ '\x22' :: rest :=
          (skipSpace_suffix more').trans ((List.suffix_cons _ _).trans hspace)
        have hless : (skipSpace more').length < ('\x22' :: rest).length :=
          (length_skipSpace_le more').trans_lt hspace.length_le
        have hvalue := h.value (skipSpace more') hless
        split
        next e he =>
          rw [he] at hvalue
          exact hvalue.error hafter
        next v left hl hok =>
          rw [hok] at hvalue
          have hleft : skipSpace left <:+ '\x22' :: rest :=
            (skipSpace_suffix left).trans (hvalue.2.trans hafter)
          have hset : Value.entriesWritable (Value.setEntry (.text (String.ofList key)) v es) = true :=
            entriesWritable_setEntry hes rfl hvalue.1
          split
          next last hclose =>
            rw [hclose] at hleft
            exact ⟨hset, (List.suffix_cons _ _).trans hleft⟩
          next last hcomma =>
            rw [hcomma] at hleft
            have hback : skipSpace last <:+ '\x22' :: rest :=
              (skipSpace_suffix last).trans ((List.suffix_cons _ _).trans hleft)
            have hshort : (skipSpace last).length < ('\x22' :: rest).length :=
              (length_skipSpace_le last).trans_lt hleft.length_le
            have hentries := h.entries (skipSpace last) _ hshort hset
            split
            next e he =>
              rw [he] at hentries
              exact hentries.error hback
            next entries end' hl' hok' =>
              rw [hok'] at hentries
              exact ⟨hentries.1, hentries.2.trans hback⟩
          next => trivial
      next => trivial
  next => trivial

theorem SoundBelow.mono {m : Nat} (h : SoundBelow n) (hm : m ≤ n) : SoundBelow m where
  value s hs := h.value s (hs.trans_le hm)
  items s vs hs := h.items s vs (hs.trans_le hm)
  entries s es hs := h.entries s es (hs.trans_le hm)

/-- The readers are sound on every text: each call is for a shorter one, or passes from a list or
a map to what stands in it. -/
theorem soundBelow (n : Nat) : SoundBelow n := by
  induction n with
  | zero =>
    refine ⟨?_, ?_, ?_⟩
    · exact fun s hs => absurd hs (Nat.not_lt_zero _)
    · exact fun s vs hs => absurd hs (Nat.not_lt_zero _)
    · exact fun s es hs => absurd hs (Nat.not_lt_zero _)
  | succ n ih =>
    refine ⟨?_, ?_, ?_⟩
    · exact fun s hs => readValue_sound (ih.mono (Nat.le_of_lt_succ hs))
    · exact fun s vs hs => readItems_sound (ih.mono (Nat.le_of_lt_succ hs))
    · exact fun s es hs => readEntries_sound (ih.mono (Nat.le_of_lt_succ hs))

/-! ## Documents -/

/-- A document that is read can be written out; if a number stops the reader, then at a long run
of digits. -/
theorem read_sound (s : List Char) :
    (∀ v, read s = .ok v → v.isWritable = true) ∧
      ∀ n, read s = .error (.tooManyDigits n) → LongRun n s := by
  have hvalue := readValue_sound (soundBelow (skipSpace s).length)
  unfold read
  split
  next =>
    constructor
    · intro v h
      cases h
    · intro n h
      cases h
  next =>
    split
    next e he =>
      rw [he] at hvalue
      constructor
      · intro v h
        cases h
      · intro n h
        cases e with
        | malformed what left => cases h
        | tooManyDigits m =>
          cases h
          exact LongRun.of_suffix hvalue (skipSpace_suffix s)
    next v rest hrest hok =>
      rw [hok] at hvalue
      split
      next =>
        constructor
        · intro w h
          cases h
          exact hvalue.1
        · intro n h
          cases h
      next =>
        constructor
        · intro w h
          cases h
        · intro n h
          cases h

end SchemaLedger.Json
