-- Places for values around a quoted text. A statement has just the places that the text in its
-- quotes has, if nothing outside of them looks like one.
import SchemaLedger.Proofs.CommentRemoval
import SchemaLedger.Sql.Parameter

namespace SchemaLedger.Sql

variable {s : List Char}

/-- Where no colon and no percent sign is, there is no place. -/
theorem placesFrom_append (h : ∀ c ∈ s, c ≠ ':' ∧ c ≠ '%') (before : Option Char) (t : List Char) :
    placesFrom before (s ++ t) = placesFrom (s.getLast?.or before) t := by
  induction s generalizing before with
  | nil => rfl
  | cons c s ih =>
    obtain ⟨⟨hcolon, hpercent⟩, hs⟩ := List.forall_mem_cons.mp h
    have hplace : placeAt? before c (s ++ t) = none := by
      rw [placeAt?, if_neg fun h => hcolon h.1, if_neg hpercent]
    rw [List.cons_append, placesFrom, hplace, ih hs]
    cases s with
    | nil => simp
    | cons d s => simp [List.getLast?_cons]

/-- A quote ends the name of a parameter and does not forbid it. -/
theorem parameter?_quote (s t : List Char) : parameter? (s ++ '\x27' :: t) = parameter? s := by
  have hstop : ∀ c ∈ ('\x27' :: t).head?, isNamePart c = false := by
    rintro c ⟨⟩
    decide
  have hnext : ((s.dropWhile isNamePart ++ '\x27' :: t).head? == some ':') =
      ((s.dropWhile isNamePart).head? == some ':') := by
    cases s.dropWhile isNamePart <;> rfl
  rw [parameter?, parameter?, takeWhile_append_of_head? hstop, dropWhile_append_of_head? hstop,
    hnext]

/-- The parenthesis after a closing quote closes no mark. -/
theorem mark?_quote (s : List Char) : mark? (s ++ ['\x27', ')']) = mark? s := by
  cases s with
  | nil => rfl
  | cons c s =>
    by_cases hc : c = '('
    · subst hc
      have hsplit := List.takeWhile_append_dropWhile (p := (· != ')')) (l := s)
      cases hdrop : s.dropWhile (· != ')') with
      | nil => simp [mark?, List.dropWhile_append, hdrop]
      | cons d rest =>
        obtain rfl : d = ')' := by simpa [hdrop] using List.head?_dropWhile_not (· != ')') s
        have hafter : (s ++ ['\x27', ')']).dropWhile (· != ')') = ')' :: (rest ++ ['\x27', ')']) := by
          rw [List.dropWhile_append, hdrop]
          rfl
        have hname : (s ++ ['\x27', ')']).takeWhile (· != ')') = s.takeWhile (· != ')') := by
          obtain ⟨a, ha⟩ : ∃ a, s = a ++ ')' :: rest := ⟨_, (hdrop ▸ hsplit).symm⟩
          rw [ha, List.append_assoc, takeWhile_append_of_head? (by simp),
            takeWhile_append_of_head? (by simp)]
        have hnext : ((')' :: (rest ++ ['\x27', ')'])).take 2 != [')', 's']) =
            ((')' :: rest).take 2 != [')', 's']) := by
          cases rest <;> rfl
        simp only [mark?, List.cons_append, hafter, hname, hnext, hdrop]
    · simp [mark?, hc]

theorem placesFrom_quote (before : Option Char) (s : List Char) :
    placesFrom before (s ++ ['\x27', ')']) = placesFrom before s := by
  induction s generalizing before with
  | nil => rfl
  | cons c s ih =>
    have hplace : placeAt? before c (s ++ ['\x27', ')']) = placeAt? before c s := by
      rw [placeAt?, placeAt?, parameter?_quote, mark?_quote]
    rw [List.cons_append, placesFrom, placesFrom, hplace, ih]

theorem placesFrom_of_mayPrecede {before : Option Char} (h : before.all mayPrecede = true) :
    placesFrom before s = places s := by
  cases s with
  | nil => rfl
  | cons c s => simp [places, placesFrom, placeAt?, h]

/-- The places of a quoted text are those of a statement that ends with it. -/
theorem places_quoted {front : List Char} (h : ∀ c ∈ front, c ≠ ':' ∧ c ≠ '%') (x : List Char) :
    places (front ++ '\x27' :: (x ++ ['\x27', ')'])) = places x := by
  have hquote : places ('\x27' :: (x ++ ['\x27', ')'])) = places x := by
    change placesFrom (some '\x27') (x ++ ['\x27', ')']) = places x
    rw [placesFrom_quote, placesFrom_of_mayPrecede (by decide)]
  rw [places, placesFrom_append h, ← hquote]
  -- whatever stands before a quote does not matter
  rfl

/-- A backslash is needed for an escape. -/
theorem unescape_eq (h : '\\' ∉ s) : unescape s = s := by
  induction s with
  | nil => rfl
  | cons c s ih =>
    rw [List.mem_cons, not_or] at h
    rw [unescape, ih h.2]
    exact fun _ hback _ => h.1 hback.symm

end SchemaLedger.Sql
