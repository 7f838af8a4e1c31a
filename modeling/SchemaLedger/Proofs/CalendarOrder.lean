-- Timestamps stand in the order of their instants. A text is built from parts of fixed width,
-- each in the order of a number below some bound; where a part comes first, the parts after it
-- decide only between equal ones, as the smaller units of a date do.
import Mathlib.Algebra.Order.Ring.Nat
import SchemaLedger.Proofs.Work

namespace SchemaLedger

/-! ## Texts in the order of numbers -/

theorem append_lt_append {a b : List Char} (h : a < b) (hlength : a.length = b.length)
    (s t : List Char) : a ++ s < b ++ t := by
  induction h with
  | nil => cases hlength
  | rel hlt => exact .rel hlt
  | cons _ ih => exact .cons (ih (Nat.succ.inj hlength))

/-- Texts for the numbers below a bound, all of one width and in the order of the numbers. -/
structure Ascending (bound width : Nat) (text : Nat → List Char) : Prop where
  length : ∀ {n}, n < bound → (text n).length = width
  lt : ∀ {m n}, m < n → n < bound → text m < text n

namespace Ascending

variable {bound inner width u v : Nat} {text front : Nat → List Char}
  {back : Nat → Nat → List Char} {size key rest : Nat → Nat}

theorem lt_iff (h : Ascending bound width text) {m n : Nat} (hm : m < bound) (hn : n < bound) :
    text m < text n ↔ m < n := by
  refine ⟨fun htext => ?_, fun hmn => h.lt hmn hn⟩
  rcases Nat.lt_trichotomy m n with hlt | rfl | hgt
  · exact hlt
  · exact absurd htext (List.lt_irrefl _)
  · exact absurd htext (List.lt_asymm (h.lt hgt hm))

theorem eq_iff (h : Ascending bound width text) {m n : Nat} (hm : m < bound) (hn : n < bound) :
    text m = text n ↔ m = n := by
  refine ⟨fun htext => ?_, congrArg text⟩
  rcases Nat.lt_trichotomy m n with hlt | heq | hgt
  · exact absurd (htext ▸ h.lt hlt hn) (List.lt_irrefl _)
  · exact heq
  · exact absurd (htext ▸ h.lt hgt hm) (List.lt_irrefl _)

theorem congr (h : Ascending bound width text) {text' : Nat → List Char}
    (heq : ∀ n < bound, text' n = text n) : Ascending bound width text' := by
  refine ⟨fun hn => ?_, fun hmn hn => ?_⟩
  · rw [heq _ hn]
    exact h.length hn
  · rw [heq _ (hmn.trans hn), heq _ hn]
    exact h.lt hmn hn

theorem upTo (h : Ascending bound width text) (hle : inner ≤ bound) : Ascending inner width text :=
  ⟨fun hn => h.length (hn.trans_le hle), fun hmn hn => h.lt hmn (hn.trans_le hle)⟩

theorem cons (h : Ascending bound width text) (c : Char) :
    Ascending bound (width + 1) fun n => c :: text n :=
  ⟨fun hn => congrArg Nat.succ (h.length hn),
    fun hmn hn => List.cons_lt_cons_iff.mpr (.inr ⟨rfl, h.lt hmn hn⟩)⟩

theorem append (h : Ascending bound width text) (tail : List Char) :
    Ascending bound (width + tail.length) fun n => text n ++ tail := by
  refine ⟨fun hn => ?_, fun hmn hn => ?_⟩
  · rw [List.length_append, h.length hn]
  · exact append_lt_append (h.lt hmn hn)
      ((h.length (hmn.trans hn)).trans (h.length hn).symm) _ _

/-- Of a number that is a key and a rest the text may be that of the key before that of the
rest, if numbers stand in the order of their keys, and of their rests where the keys are equal. -/
theorem split (hfront : Ascending inner u front)
    (hback : ∀ k < inner, Ascending (size k) v (back k))
    (hkey : ∀ n < bound, key n < inner) (hrest : ∀ n < bound, rest n < size (key n))
    (horder : ∀ m n, m < n → n < bound → key m < key n ∨ key m = key n ∧ rest m < rest n) :
    Ascending bound (u + v) fun n => front (key n) ++ back (key n) (rest n) := by
  refine ⟨fun {n} hn => ?_, fun {m n} hmn hn => ?_⟩
  · rw [List.length_append, hfront.length (hkey n hn),
      (hback _ (hkey n hn)).length (hrest n hn)]
  · have hm := hmn.trans hn
    rcases horder m n hmn hn with hlt | ⟨heq, hlt⟩
    · exact append_lt_append (hfront.lt hlt (hkey n hn))
        ((hfront.length (hkey m hm)).trans (hfront.length (hkey n hn)).symm) _ _
    · rw [heq]
      exact List.append_left_lt ((hback _ (hkey n hn)).lt hlt (hrest n hn))

/-- The key may be what is over when the rest is counted up to a size. -/
theorem radix (hfront : Ascending bound u front) {b : Nat} {last : Nat → List Char}
    (hlast : Ascending b v last) (hb : 0 < b) :
    Ascending (bound * b) (u + v) fun n => front (n / b) ++ last (n % b) := by
  refine hfront.split (fun _ _ => hlast) (fun n hn => ?_) (fun n _ => Nat.mod_lt n hb) ?_
  · exact Nat.div_lt_of_lt_mul (Nat.mul_comm bound b ▸ hn)
  · intro m n hmn _
    rcases (Nat.div_le_div_right (c := b) hmn.le).lt_or_eq with hlt | heq
    · exact .inl hlt
    · refine .inr ⟨heq, ?_⟩
      have hm := Nat.div_add_mod m b
      have hn := Nat.div_add_mod n b
      rw [heq] at hm
      omega

end Ascending

namespace Calendar

/-! ## Numbers with zeros in front -/

theorem padded_one {n : Nat} (hn : n < 10) : padded 1 n = [Nat.digitChar n] := by
  unfold padded
  rw [Nat.toDigits_of_lt_base hn]
  rfl

/-- The last digit comes off the end. -/
theorem padded_succ {width : Nat} (hw : 0 < width) (n : Nat) :
    padded (width + 1) n = padded width (n / 10) ++ [Nat.digitChar (n % 10)] := by
  obtain ⟨w, rfl⟩ : ∃ w, width = w + 1 := ⟨width - 1, by omega⟩
  unfold padded
  dsimp only
  rw [Nat.toDigits_eq_if (by decide)]
  by_cases hn : n < 10
  · rw [if_pos hn, Nat.div_eq_of_lt hn, Nat.mod_eq_of_lt hn]
    change List.replicate (w + 1) '0' ++ _ = List.replicate w '0' ++ ['0'] ++ _
    rw [List.replicate_succ']
  · rw [if_neg hn, List.length_append, ← List.append_assoc, List.length_singleton,
      Nat.add_sub_add_right]

theorem ascending_digit : Ascending 10 1 fun n => [Nat.digitChar n] := by
  refine ⟨fun _ => rfl, fun {m n} hmn hn => .rel (UInt32.lt_iff_toNat_lt.mpr ?_)⟩
  change (Nat.digitChar m).toNat < (Nat.digitChar n).toNat
  rw [Nat.toNat_digitChar_of_lt_ten hn, Nat.toNat_digitChar_of_lt_ten (hmn.trans hn)]
  omega

theorem ascending_padded {width : Nat} (hw : 0 < width) :
    Ascending (10 ^ width) width (padded width) := by
  induction width, hw using Nat.le_induction with
  | base => exact ascending_digit.congr fun n hn => padded_one hn
  | succ w hw ih => exact (ih.radix ascending_digit (by decide)).congr fun n _ => padded_succ hw n

/-- Two digits of a smaller unit after the mark that parts it from the larger ones. -/
theorem ascending_marked {size : Nat} (hsize : size ≤ 100) (mark : Char) :
    Ascending size 3 fun n => mark :: padded 2 n :=
  ((ascending_padded Nat.two_pos).upTo hsize).cons mark

/-! ## The days of a year -/

theorem first_le_inMonths (first n : Nat) (lens : List Nat) :
    first ≤ (inMonths first n lens).1 := by
  induction lens generalizing first n with
  | nil => exact Nat.le_refl first
  | cons len rest ih =>
    unfold inMonths
    split
    · exact Nat.le_refl first
    · exact Nat.le_of_succ_le (ih (first + 1) (n - len))

/-- A day within some months is a day of one of them, and comes after all days of those before. -/
theorem inMonths_spec {lens : List Nat} {n : Nat} (first : Nat) (hn : n < lens.sum) :
    ∃ before len after, lens = before ++ len :: after ∧
      (inMonths first n lens).1 = first + before.length ∧
      0 < (inMonths first n lens).2 ∧ (inMonths first n lens).2 ≤ len ∧
      before.sum + (inMonths first n lens).2 = n + 1 := by
  induction lens generalizing first n with
  | nil => exact absurd hn (Nat.not_lt_zero n)
  | cons len rest ih =>
    rw [List.sum_cons] at hn
    unfold inMonths
    by_cases hlen : n < len
    · rw [if_pos hlen]
      exact ⟨[], len, rest, rfl, rfl, Nat.succ_pos n, hlen, Nat.zero_add _⟩
    · rw [if_neg hlen]
      obtain ⟨before, len', after, rfl, hmonth, hpos, hle, hsum⟩ :=
        ih (n := n - len) (first + 1) (by omega)
      refine ⟨len :: before, len', after, rfl, ?_, hpos, hle, ?_⟩
      · rw [hmonth, List.length_cons]
        omega
      · rw [List.sum_cons]
        omega

/-- A later day is in a later month, or in the same month with a greater number. -/
theorem inMonths_order {lens : List Nat} {first m n : Nat} (hmn : m < n) (hn : n < lens.sum) :
    (inMonths first m lens).1 < (inMonths first n lens).1 ∨
      (inMonths first m lens).1 = (inMonths first n lens).1 ∧
        (inMonths first m lens).2 < (inMonths first n lens).2 := by
  induction lens generalizing first m n with
  | nil => exact absurd hn (Nat.not_lt_zero n)
  | cons len rest ih =>
    rw [List.sum_cons] at hn
    unfold inMonths
    by_cases hlen : n < len
    · rw [if_pos (hmn.trans hlen), if_pos hlen]
      exact .inr ⟨rfl, Nat.succ_lt_succ hmn⟩
    · rw [if_neg hlen]
      by_cases hm : m < len
      · rw [if_pos hm]
        exact .inl (first_le_inMonths (first + 1) (n - len) rest)
      · rw [if_neg hm]
        exact ih (by omega) (by omega)

theorem monthLengths_le (year : Nat) : ∀ len ∈ monthLengths year, len ≤ 31 := by
  unfold monthLengths
  cases isLeap year <;> decide

/-- The month and the day of the day of a year that comes `n` days after its first. -/
def dayText (year n : Nat) : List Char :=
  '-' :: padded 2 (inMonths 1 n (monthLengths year)).1 ++
    '-' :: padded 2 (inMonths 1 n (monthLengths year)).2

theorem ascending_dayText (year : Nat) : Ascending (monthLengths year).sum 6 (dayText year) := by
  have htwo := ascending_marked (Nat.le_refl 100) '-'
  refine htwo.split (fun _ _ => htwo) (fun n hn => ?_) (fun n hn => ?_) ?_
  · obtain ⟨before, len, after, hlens, hmonth, _⟩ := inMonths_spec 1 hn
    have hlength : (before ++ len :: after).length = 12 := hlens ▸ rfl
    rw [List.length_append, List.length_cons] at hlength
    omega
  · obtain ⟨before, len, after, hlens, _, _, hle, _⟩ := inMonths_spec 1 hn
    have hmem : len ∈ monthLengths year := hlens ▸ List.mem_append_right _ List.mem_cons_self
    have hlen := monthLengths_le year len hmem
    omega
  · exact fun m n => inMonths_order

/-! ## Years -/

theorem daysBefore_mono {y z : Nat} (h : y ≤ z) : daysBefore y ≤ daysBefore z := by
  rcases h.eq_or_lt with rfl | hlt
  · exact Nat.le_refl _
  · unfold daysBefore
    dsimp only
    omega

/-- A year is as long as its months. -/
theorem daysBefore_succ {year : Nat} (hyear : 0 < year) :
    daysBefore (year + 1) = daysBefore year + (monthLengths year).sum := by
  have hsum : (monthLengths year).sum = if isLeap year then 366 else 365 := by
    unfold monthLengths
    cases isLeap year <;> rfl
  obtain ⟨y, rfl⟩ : ∃ y, year = y + 1 := ⟨year - 1, by omega⟩
  rw [hsum]
  unfold daysBefore
  simp only [Nat.add_sub_cancel]
  by_cases hleap : isLeap (y + 1) = true
  · rw [if_pos hleap]
    simp only [isLeap, Bool.and_eq_true, Bool.or_eq_true, decide_eq_true_eq] at hleap
    omega
  · rw [if_neg hleap]
    simp only [isLeap, Bool.and_eq_true, Bool.or_eq_true, decide_eq_true_eq, not_and_or, not_or,
      not_not] at hleap
    rcases hleap with hfour | ⟨hhundred, hfourhundred⟩
    · -- no multiple of four is one of a hundred
      have hquotients : (y + 1) / 100 = y / 100 ∧ (y + 1) / 400 = y / 400 := by omega
      omega
    · omega

theorem yearOf_go_spec {n k y : Nat} (hy : 0 < y) (hle : daysBefore y ≤ n)
    (hlt : n < daysBefore (y + k + 1)) :
    0 < yearOf.go n k y ∧ daysBefore (yearOf.go n k y) ≤ n ∧
      n < daysBefore (yearOf.go n k y + 1) := by
  induction k generalizing y with
  | zero => exact ⟨hy, hle, hlt⟩
  | succ k ih =>
    unfold yearOf.go
    split
    next h => exact ih (Nat.succ_pos y) h (by rwa [Nat.add_right_comm y 1 k])
    next h => exact ⟨hy, hle, Nat.lt_of_not_le h⟩

/-- The year of a day starts no later, and the next one starts later. -/
theorem yearOf_spec (n : Nat) :
    0 < yearOf n ∧ daysBefore (yearOf n) ≤ n ∧ n < daysBefore (yearOf n + 1) := by
  unfold yearOf
  apply yearOf_go_spec
  · omega
  · unfold daysBefore
    dsimp only
    omega
  · unfold daysBefore
    dsimp only
    omega

/-- A later day is in a later year, or in the same year and later in it. -/
theorem yearOf_order {m n : Nat} (hmn : m < n) :
    yearOf m < yearOf n ∨
      yearOf m = yearOf n ∧ m - daysBefore (yearOf m) < n - daysBefore (yearOf n) := by
  obtain ⟨_, hm, _⟩ := yearOf_spec m
  obtain ⟨_, hn, hn'⟩ := yearOf_spec n
  rcases Nat.lt_trichotomy (yearOf m) (yearOf n) with hlt | heq | hgt
  · exact .inl hlt
  · rw [heq] at hm ⊢
    exact .inr ⟨rfl, by omega⟩
  · have := daysBefore_mono (y := yearOf n + 1) hgt
    omega

/-! ## Dates -/

/-- The date of a day has a month of its year and a day of that month. Its year, the months
before its own and its day, counted together, come to the day. -/
theorem dateOf_spec (n : Nat) :
    0 < (dateOf n).year ∧ ∃ before len after,
      monthLengths (dateOf n).year = before ++ len :: after ∧
      (dateOf n).month = before.length + 1 ∧ 0 < (dateOf n).day ∧ (dateOf n).day ≤ len ∧
      daysBefore (dateOf n).year + before.sum + (dateOf n).day = n + 1 := by
  obtain ⟨hpos, hle, hlt⟩ := yearOf_spec n
  rw [daysBefore_succ hpos] at hlt
  have hwithin : n - daysBefore (yearOf n) < (monthLengths (yearOf n)).sum := by omega
  obtain ⟨before, len, after, hlens, hmonth, hday, hday', hsum⟩ := inMonths_spec 1 hwithin
  refine ⟨hpos, before, len, after, hlens, hmonth.trans (Nat.add_comm _ _), hday, hday', ?_⟩
  calc
    daysBefore (yearOf n) + before.sum + (dateOf n).day =
        daysBefore (yearOf n) + (before.sum + (dateOf n).day) := Nat.add_assoc _ _ _
    _ = daysBefore (yearOf n) + (n - daysBefore (yearOf n) + 1) := congrArg _ hsum
    _ = n + 1 := by omega

/-- The text of the date of the day that comes `n` days after the first day of year 1. -/
def dateText (n : Nat) : List Char :=
  padded 4 (dateOf n).year ++ '-' :: padded 2 (dateOf n).month ++ '-' :: padded 2 (dateOf n).day

/-- Up to the end of the year 9999 dates are written in their order. -/
theorem ascending_dateText : Ascending (daysBefore 10000) 10 dateText := by
  have hsplit : Ascending (daysBefore 10000) (4 + 6)
      fun n => padded 4 (yearOf n) ++ dayText (yearOf n) (n - daysBefore (yearOf n)) := by
    refine (ascending_padded (by decide)).split (fun k _ => ascending_dayText k) (fun n hn => ?_)
      (fun n _ => ?_) (fun m n hmn _ => yearOf_order hmn)
    · obtain ⟨_, hle, _⟩ := yearOf_spec n
      by_contra hge
      have hmono : daysBefore 10000 ≤ daysBefore (yearOf n) := daysBefore_mono (by omega)
      omega
    · obtain ⟨hpos, hle, hlt⟩ := yearOf_spec n
      rw [daysBefore_succ hpos] at hlt
      omega
  exact hsplit.congr fun n _ => List.append_assoc _ _ _

/-! ## Instants -/

/-- The text of the instant that comes `n` microseconds after the first one. -/
def instantText (n : Nat) : List Char := render (dateOf (n / 86400000000)) (n % 86400000000)

theorem ascending_instantText :
    Ascending (daysBefore 10000 * 24 * 60 * 60 * 1000000) 32 instantText := by
  have hhours := ascending_dateText.radix (ascending_marked (by decide : 24 ≤ 100) 'T') (by decide)
  have hminutes := hhours.radix (ascending_marked (by decide : 60 ≤ 100) ':') (by decide)
  have hseconds := hminutes.radix (ascending_marked (by decide : 60 ≤ 100) ':') (by decide)
  have hmicros : Ascending 1000000 7 fun n => '.' :: padded 6 n :=
    (ascending_padded (by decide : 0 < 6)).cons '.'
  refine ((hseconds.radix hmicros (by decide)).append "+00:00".toList).congr fun n _ => ?_
  have hday : n / 86400000000 = n / 1000000 / 60 / 60 / 24 := by omega
  have hhour : n % 86400000000 / 3600000000 = n / 1000000 / 60 / 60 % 24 := by omega
  have hminute : n % 86400000000 / 60000000 % 60 = n / 1000000 / 60 % 60 := by omega
  have hsecond : n % 86400000000 / 1000000 % 60 = n / 1000000 % 60 := by omega
  have hmicro : n % 86400000000 % 1000000 = n % 1000000 := by omega
  unfold instantText render
  rw [hday, hhour, hminute, hsecond, hmicro]
  rfl

/-- The microseconds from the first instant that has a date. -/
def sinceFirst (instant : Int) : Nat := (instant - firstInstant).toNat

theorem timestamp?_eq {instant : Int} (hfirst : firstInstant ≤ instant)
    (hend : instant < endOfTime) :
    timestamp? instant = some (String.ofList (instantText (sinceFirst instant))) := by
  unfold timestamp? instantText sinceFirst
  rw [if_pos ⟨hfirst, hend⟩, Int.fdiv_eq_ediv_of_nonneg _ (by decide),
    Int.fmod_eq_emod_of_nonneg _ (by decide)]
  unfold firstInstant at hfirst ⊢
  unfold dayLength epochDay
  have hday : (instant / 86400000000 + 719162).toNat =
      (instant - -62135596800000000).toNat / 86400000000 := by omega
  have hmicros : (instant % 86400000000).toNat =
      (instant - -62135596800000000).toNat % 86400000000 := by omega
  dsimp only
  rw [hday, hmicros]

theorem sinceFirst_lt {instant : Int} (hend : instant < endOfTime) :
    sinceFirst instant < daysBefore 10000 * 24 * 60 * 60 * 1000000 := by
  have hlast : daysBefore 10000 * 24 * 60 * 60 * 1000000 = 315537897600000000 := rfl
  rw [hlast]
  unfold sinceFirst firstInstant
  unfold endOfTime at hend
  omega

end Calendar

/-- Timestamps are 32 characters long. As texts they stand in the order of the instants that the
clock showed for them. -/
theorem Work.timestamps_stand_as_their_instants {s t : Session}
    (hs : Calendar.firstInstant ≤ s.clock.current) (hs' : s.clock.current < Calendar.endOfTime)
    (ht : Calendar.firstInstant ≤ t.clock.current) (ht' : t.clock.current < Calendar.endOfTime) :
    ∃ a b, Work.timestamp s = .ok a { s with clock := s.clock.next } ∧
      Work.timestamp t = .ok b { t with clock := t.clock.next } ∧
      a.length = 32 ∧ b.length = 32 ∧ (a < b ↔ s.clock.current < t.clock.current) ∧
      (a = b ↔ s.clock.current = t.clock.current) := by
  have hm := Calendar.sinceFirst_lt hs'
  have hn := Calendar.sinceFirst_lt ht'
  have horder := Calendar.ascending_instantText
  refine ⟨_, _, Work.timestamp_ok (Calendar.timestamp?_eq hs hs'),
    Work.timestamp_ok (Calendar.timestamp?_eq ht ht'), ?_, ?_, ?_, ?_⟩
  · rw [String.length_ofList, horder.length hm]
  · rw [String.length_ofList, horder.length hn]
  · rw [String.lt_iff, String.toList_ofList, String.toList_ofList, horder.lt_iff hm hn]
    unfold Calendar.sinceFirst
    omega
  · rw [String.ofList_inj, horder.eq_iff hm hn]
    unfold Calendar.sinceFirst
    omega

/-- The first and the last instant of all are 9999 years apart. -/
theorem Work.timestamps_at_the_ends_of_time :
    let first : Session := { clock := .still Calendar.firstInstant }
    let last : Session := { clock := .still (Calendar.endOfTime - 1) }
    Work.timestamp first =
        .ok "0001-01-01T00:00:00.000000+00:00" { first with clock := first.clock.next } ∧
      Work.timestamp last =
        .ok "9999-12-31T23:59:59.999999+00:00" { last with clock := last.clock.next } ∧
      "0001-01-01T00:00:00.000000+00:00" < "9999-12-31T23:59:59.999999+00:00" := by
  intro first last
  have hfirst : Work.timestamp first =
      .ok "0001-01-01T00:00:00.000000+00:00" { first with clock := first.clock.next } :=
    Work.timestamp_ok (by decide)
  have hlast : Work.timestamp last =
      .ok "9999-12-31T23:59:59.999999+00:00" { last with clock := last.clock.next } :=
    Work.timestamp_ok (by decide)
  obtain ⟨a, b, ha, hb, _, _, hlt, _⟩ := Work.timestamps_stand_as_their_instants
    (s := first) (t := last) (by decide) (by decide) (by decide) (by decide)
  obtain ⟨rfl, _⟩ := EStateM.Result.ok.inj (hfirst.symm.trans ha)
  obtain ⟨rfl, _⟩ := EStateM.Result.ok.inj (hlast.symm.trans hb)
  exact ⟨hfirst, hlast, hlt.mpr (by decide)⟩

end SchemaLedger
