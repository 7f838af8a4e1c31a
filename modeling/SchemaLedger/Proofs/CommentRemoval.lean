-- What the removal of comments leaves. In front of a statement nothing but white space is left of
-- comments and white space; a statement without comments stays as it is. Only the lexeme right
-- after the first comment is passed over, so a comment there stays.
import Mathlib.Data.List.TakeWhile
import SchemaLedger.Sql.Script

namespace SchemaLedger.Sql

variable {x y : Lexeme} {xs ls st : List Lexeme} {i : Item} {is fs before : List Item}

namespace Item

theorem textAll_eq_flatMap (is : List Item) : textAll is = is.flatMap text := by
  induction is with
  | nil => rfl
  | cons i is ih => rw [textAll, ih, List.flatMap_cons]

@[simp]
theorem textAll_append (is fs : List Item) : textAll (is ++ fs) = textAll is ++ textAll fs := by
  simp only [textAll_eq_flatMap, List.flatMap_append]

@[simp]
theorem textAll_singleton (i : Item) : textAll [i] = i.text := by
  rw [textAll_eq_flatMap, List.flatMap_singleton]

theorem textAll_map_lexeme (xs : List Lexeme) : textAll (xs.map .lexeme) = textOf xs := by
  rw [textAll_eq_flatMap, List.flatMap_map]
  rfl

end Item

theorem cleanedAll_eq_map (is : List Item) : cleanedAll is = is.map cleaned := by
  induction is with
  | nil => rfl
  | cons i is ih => rw [cleanedAll, ih, List.map_cons]

/-! ## Items without comments -/

/-- No comment stands anywhere in the item. -/
inductive Bare : Item → Prop where
  | lexeme {x : Lexeme} : x.isComment = false → Bare (.lexeme x)
  | parens {inside : List Item} : (∀ i ∈ inside, Bare i) → Bare (.parens inside)

theorem Bare.isRemoved_eq (h : Bare i) : i.isRemoved = false := by
  cases h with
  | lexeme h => simp [Item.isRemoved, h]
  | parens => rfl

theorem sweep_cons_of_not_removed (h : i.isRemoved = false) :
    sweep before (i :: is) = sweep (before ++ [i]) is := by
  rw [sweep.eq_def]
  simp [h]

theorem sweep_cons_of_removed (h : i.isRemoved = true) (hbefore : opens before = false) :
    sweep before (i :: is) = sweep (before ++ [remnant i]) is := by
  rw [sweep.eq_def]
  simp [h, hbefore]

/-- What comes right after a comment that leaves no trace is passed over. -/
theorem sweep_first (h : i.isRemoved = true) (j : Item) :
    sweep [] (i :: j :: is) = sweep [j] is := by
  rw [sweep.eq_def]
  simp [h, opens]

theorem sweep_only (h : i.isRemoved = true) : sweep [] [i] = [] := by
  rw [sweep.eq_def]
  simp [h, opens]

theorem sweep_bare (h : ∀ i ∈ fs, i.isRemoved = false) : sweep before fs = before ++ fs := by
  induction fs generalizing before with
  | nil => rw [sweep, List.append_nil]
  | cons i fs ih =>
    obtain ⟨hi, hfs⟩ := List.forall_mem_cons.mp h
    rw [sweep_cons_of_not_removed hi, ih hfs, List.append_assoc]
    rfl

theorem map_cleaned_eq (h : ∀ i ∈ fs, cleaned i = i) : fs.map cleaned = fs :=
  (List.map_congr_left (g := id) h).trans (List.map_id fs)

theorem Bare.cleaned_eq (h : Bare i) : cleaned i = i := by
  induction h with
  | lexeme => rw [cleaned]
  | parens hinside ih =>
    rw [cleaned, cleanedAll_eq_map, map_cleaned_eq ih,
      sweep_bare fun i hi => (hinside i hi).isRemoved_eq]
    rfl

/-! ## Nesting -/

section nest

variable {outer : List (List Item)} {current : List Item}

theorem nest_open (h : i.isKind .openParen = true) :
    nest outer current (i :: is) = nest (current :: outer) [i] is := by
  rw [nest.eq_def]
  simp [h]

theorem nest_close_nil (ho : i.isKind .openParen = false) (h : i.isKind .closeParen = true) :
    nest [] current (i :: is) = nest [] (current ++ [i]) is := by
  rw [nest.eq_def]
  simp [ho, h]

theorem nest_close_cons (ho : i.isKind .openParen = false) (h : i.isKind .closeParen = true) :
    nest (before :: outer) current (i :: is) =
      nest outer (before ++ [.parens (current ++ [i])]) is := by
  rw [nest.eq_def]
  simp [ho, h]

theorem nest_other (ho : i.isKind .openParen = false) (hc : i.isKind .closeParen = false) :
    nest outer current (i :: is) = nest outer (current ++ [i]) is := by
  rw [nest.eq_def]
  simp [ho, hc]

end nest

/-- What comes before everything else stays there. -/
theorem nest_append (before is : List Item) : ∀ current : List Item,
    nest [] (before ++ current) is = before ++ nest [] current is ∧
      ∀ (outer : List (List Item)) (base : List Item),
        nest (outer ++ [before ++ base]) current is =
          before ++ nest (outer ++ [base]) current is := by
  induction is with
  | nil =>
    refine fun current => ⟨by simp [nest], fun outer base => ?_⟩
    simp [nest, List.foldl_append]
  | cons i is ih =>
    intro current
    cases hopen : i.isKind .openParen with
    | true =>
      simp only [nest_open hopen]
      exact ⟨(ih [i]).2 [] current, fun outer base => (ih [i]).2 (current :: outer) base⟩
    | false =>
      cases hclose : i.isKind .closeParen with
      | true =>
        refine ⟨?_, fun outer base => ?_⟩
        · rw [nest_close_nil hopen hclose, nest_close_nil hopen hclose, List.append_assoc]
          exact (ih _).1
        · cases outer with
          | nil =>
            rw [List.nil_append, List.nil_append, nest_close_cons hopen hclose,
              nest_close_cons hopen hclose, List.append_assoc]
            exact (ih _).1
          | cons inner outer =>
            rw [List.cons_append, List.cons_append, nest_close_cons hopen hclose,
              nest_close_cons hopen hclose]
            exact (ih _).2 outer base
      | false =>
        simp only [nest_other hopen hclose, List.append_assoc]
        exact ⟨(ih _).1, fun outer base => (ih _).2 outer base⟩

/-- An item that is no parenthesis. -/
def IsFlat (i : Item) : Prop := i.isKind .openParen = false ∧ i.isKind .closeParen = false

theorem nest_flat (h : ∀ i ∈ is, IsFlat i) : nest [] [] (is ++ fs) = is ++ nest [] [] fs := by
  suffices hcurrent : ∀ current, nest [] current (is ++ fs) = current ++ is ++ nest [] [] fs from
    hcurrent []
  induction is with
  | nil =>
    intro current
    simpa using (nest_append current fs []).1
  | cons i is ih =>
    intro current
    obtain ⟨⟨hopen, hclose⟩, his⟩ := List.forall_mem_cons.mp h
    rw [List.cons_append, nest_other hopen hclose, ih his]
    simp

theorem foldl_before (outer : List (List Item)) (current : List Item) :
    outer.foldl (fun inner before => before ++ inner) current =
      outer.reverse.flatten ++ current := by
  induction outer generalizing current with
  | nil => rfl
  | cons before outer ih => simp [ih]

theorem nest_cons (hi : IsFlat i) (is : List Item) : nest [] [] (i :: is) = i :: nest [] [] is := by
  have h : ∀ j ∈ [i], IsFlat j := by simpa using hi
  exact nest_flat h

theorem nest_bare {outer : List (List Item)} {current : List Item}
    (houter : ∀ before ∈ outer, ∀ i ∈ before, Bare i) (hcurrent : ∀ i ∈ current, Bare i)
    (his : ∀ i ∈ is, Bare i) : ∀ i ∈ nest outer current is, Bare i := by
  fun_induction nest outer current is with
  | case1 outer current =>
    rw [foldl_before]
    intro i hi
    rw [List.mem_append, List.mem_flatten] at hi
    rcases hi with ⟨before, hbefore, hi⟩ | hi
    · exact houter before (List.mem_reverse.mp hbefore) i hi
    · exact hcurrent i hi
  | case2 outer current i is hopen ih =>
    obtain ⟨hi, his⟩ := List.forall_mem_cons.mp his
    exact ih (List.forall_mem_cons.mpr ⟨hcurrent, houter⟩) (by simpa using hi) his
  | case3 current i is hopen hclose ih =>
    obtain ⟨hi, his⟩ := List.forall_mem_cons.mp his
    exact ih houter (List.forall_mem_append.mpr ⟨hcurrent, by simpa using hi⟩) his
  | case4 current i is hopen hclose before outer ih =>
    obtain ⟨hi, his⟩ := List.forall_mem_cons.mp his
    obtain ⟨hbefore, houter⟩ := List.forall_mem_cons.mp houter
    have hparens : Bare (.parens (current ++ [i])) :=
      .parens (List.forall_mem_append.mpr ⟨hcurrent, by simpa using hi⟩)
    exact ih houter (List.forall_mem_append.mpr ⟨hbefore, by simpa using hparens⟩) his
  | case5 outer current i is hopen hclose ih =>
    obtain ⟨hi, his⟩ := List.forall_mem_cons.mp his
    exact ih houter (List.forall_mem_append.mpr ⟨hcurrent, by simpa using hi⟩) his

theorem textAll_nest (outer : List (List Item)) (current is : List Item) :
    Item.textAll (nest outer current is) =
      Item.textAll (outer.reverse.flatten ++ current ++ is) := by
  fun_induction nest outer current is with
  | case1 outer current => rw [foldl_before, List.append_nil]
  | case2 outer current i is hopen ih => simp [ih]
  | case3 current i is hopen hclose ih => simp [ih]
  | case4 current i is hopen hclose before outer ih => simp [ih, Item.textAll, Item.text]
  | case5 outer current i is hopen hclose ih => simp [ih]

/-- A statement without comments loses nothing. -/
theorem bare_nest (h : ∀ x ∈ st, x.isComment = false) :
    (∀ i ∈ nest [] [] (st.map .lexeme), Bare i) ∧
      Item.textAll (nest [] [] (st.map .lexeme)) = textOf st := by
  constructor
  · refine nest_bare (by simp) (by simp) ?_
    simpa using fun x hx => Bare.lexeme (h x hx)
  · rw [textAll_nest, ← Item.textAll_map_lexeme]
    rfl

/-! ## Comments and white space -/

/-- A lexeme that is a comment, other than a hint, or white space. -/
def IsIdle (x : Lexeme) : Prop :=
  x.kind = .lineComment ∨ x.kind = .blockComment ∨
    ((x.kind = .blank ∨ x.kind = .newline) ∧ ∀ c ∈ x.text, Text.isBlank c = true)

/-- An item of which white space stays behind, or less. -/
def Fades (i : Item) : Prop :=
  i.isRemoved = true ∨ (i.isKind .openParen = false ∧ ∀ c ∈ i.text, Text.isBlank c = true)

theorem remnant_fades (i : Item) :
    (remnant i).isKind .openParen = false ∧ ∀ c ∈ (remnant i).text, Text.isBlank c = true := by
  unfold remnant
  dsimp only
  split
  · exact ⟨rfl, by simp only [Item.text, List.mem_singleton, forall_eq]; decide⟩
  · refine ⟨rfl, fun c hc => ?_⟩
    have hend := List.mem_takeWhile_imp (List.mem_reverse.mp hc)
    rw [Bool.or_eq_true, beq_iff_eq, beq_iff_eq] at hend
    rcases hend with rfl | rfl <;> decide

theorem opens_concat (before : List Item) (i : Item) :
    opens (before ++ [i]) = i.isKind .openParen := by
  simp [opens]

/-- After something else than an open parenthesis, only white space is left. -/
theorem sweep_fades (hbefore : opens before = false) (his : ∀ i ∈ is, Fades i)
    (hfs : ∀ i ∈ fs, i.isRemoved = false) :
    ∃ t : List Char, (∀ c ∈ t, Text.isBlank c = true) ∧
      Item.textAll (sweep before (is ++ fs)) = Item.textAll before ++ t ++ Item.textAll fs := by
  induction is generalizing before with
  | nil => exact ⟨[], by simp, by simp [sweep_bare hfs]⟩
  | cons i is ih =>
    obtain ⟨hi, his⟩ := List.forall_mem_cons.mp his
    obtain ⟨j, ⟨hopen, hblank⟩, hsweep⟩ : ∃ j : Item,
        (j.isKind .openParen = false ∧ ∀ c ∈ j.text, Text.isBlank c = true) ∧
          sweep before (i :: (is ++ fs)) = sweep (before ++ [j]) (is ++ fs) := by
      cases hremoved : i.isRemoved with
      | true => exact ⟨remnant i, remnant_fades i, sweep_cons_of_removed hremoved hbefore⟩
      | false =>
        exact ⟨i, hi.resolve_left (by simp [hremoved]), sweep_cons_of_not_removed hremoved⟩
    have hopens : opens (before ++ [j]) = false := by rw [opens_concat, hopen]
    obtain ⟨t, ht, htext⟩ := ih hopens his
    refine ⟨j.text ++ t, fun c hc => (List.mem_append.mp hc).elim (hblank c) (ht c), ?_⟩
    rw [List.cons_append, hsweep, htext]
    simp

/-! ## Rows of comments -/

def joinsRow (y : Lexeme) : Bool := y.isComment || y.kind == .newline

/-- The row that a comment begins. -/
def rowOf (x : Lexeme) (xs : List Lexeme) : Item :=
  .comments (textOf (x :: xs.takeWhile joinsRow)) ((x :: xs.takeWhile joinsRow).map .lexeme)

theorem groupComments_other (hx : x.isComment = false) :
    groupComments (x :: xs) = .lexeme x :: groupComments xs := by
  rw [groupComments.eq_def]
  simp [hx]

theorem groupComments_comment (hx : x.isComment = true) :
    groupComments (x :: xs) =
      if (xs.dropWhile joinsRow).isEmpty then (x :: xs).map .lexeme
      else rowOf x xs :: groupComments (xs.dropWhile joinsRow) := by
  rw [groupComments.eq_def]
  simp only [hx, if_true]
  rfl

theorem groupComments_bare (h : ∀ x ∈ st, x.isComment = false) :
    groupComments st = st.map .lexeme := by
  induction st with
  | nil => rw [groupComments, List.map_nil]
  | cons x st ih =>
    obtain ⟨hx, hst⟩ := List.forall_mem_cons.mp h
    rw [groupComments_other hx, ih hst, List.map_cons]

theorem isHint_remnant (i : Item) : (remnant i).isHint = false := by
  unfold remnant
  dsimp only
  split <;> rfl

theorem sweep_unhinted (hbefore : ∀ i ∈ before, i.isHint = false)
    (his : ∀ i ∈ is, i.isHint = false) : ∀ i ∈ sweep before is, i.isHint = false := by
  fun_induction sweep before is with
  | case1 before => exact hbefore
  | case2 before i is hkept ih =>
    obtain ⟨hi, his⟩ := List.forall_mem_cons.mp his
    exact ih (List.forall_mem_append.mpr ⟨hbefore, by simpa using hi⟩) his
  | case3 before i is hremoved hopens ih =>
    obtain ⟨-, his⟩ := List.forall_mem_cons.mp his
    exact ih (List.forall_mem_append.mpr ⟨hbefore, by simpa using isHint_remnant i⟩) his
  | case4 before i hremoved hopens => exact hbefore
  | case5 before i hremoved hopens next is ih =>
    obtain ⟨-, his⟩ := List.forall_mem_cons.mp his
    obtain ⟨hnext, his⟩ := List.forall_mem_cons.mp his
    exact ih (List.forall_mem_append.mpr ⟨hbefore, by simpa using hnext⟩) his

theorem IsIdle.kind_ne (hx : IsIdle x) :
    x.kind ≠ .hint ∧ x.kind ≠ .openParen ∧ x.kind ≠ .closeParen := by
  rcases hx with h | h | ⟨h | h, -⟩ <;> simp [h]

theorem IsIdle.blank (hx : IsIdle x) (hplain : x.isComment = false) :
    ∀ c ∈ x.text, Text.isBlank c = true := by
  rcases hx with h | h | ⟨-, h⟩
  · simp [Lexeme.isComment, h] at hplain
  · simp [Lexeme.isComment, h] at hplain
  · exact h

theorem IsIdle.isRemoved (hx : IsIdle x) (hcomment : x.isComment = true) :
    (Item.lexeme x).isRemoved = true := by
  simp [Item.isRemoved, hcomment, hx.kind_ne.1]

theorem IsIdle.fades (hx : IsIdle x) : IsFlat (.lexeme x) ∧ Fades (cleaned (.lexeme x)) := by
  obtain ⟨hhint, hopen, hclose⟩ := hx.kind_ne
  refine ⟨⟨by simpa [Item.isKind] using hopen, by simpa [Item.isKind] using hclose⟩, ?_⟩
  rw [cleaned]
  rcases hx with h | h | ⟨-, h⟩
  · exact .inl (by simp [Item.isRemoved, Lexeme.isComment, h])
  · exact .inl (by simp [Item.isRemoved, Lexeme.isComment, h])
  · exact .inr ⟨by simpa [Item.isKind] using hopen, h⟩

theorem rowOf_fades (h : ∀ y ∈ x :: xs, IsIdle y) :
    IsFlat (rowOf x xs) ∧ (cleaned (rowOf x xs)).isRemoved = true := by
  refine ⟨⟨rfl, rfl⟩, ?_⟩
  generalize hrow : x :: xs.takeWhile joinsRow = row
  have hkind : ∀ y ∈ row, y.kind ≠ .hint := by
    intro y hy
    rcases List.mem_cons.mp (hrow ▸ hy) with rfl | hy
    · exact (h _ List.mem_cons_self).kind_ne.1
    · exact (h y (List.mem_cons_of_mem x ((List.takeWhile_prefix _).subset hy))).kind_ne.1
  have hhints : ∀ i ∈ sweep [] (row.map .lexeme), i.isHint = false :=
    sweep_unhinted (by simp) (by simpa [Item.isHint] using hkind)
  rw [rowOf, hrow, cleaned, cleanedAll_eq_map, map_cleaned_eq (by simp [cleaned])]
  cases hsweep : sweep [] (row.map .lexeme) with
  | nil => rfl
  | cons i is => simp [Item.isRemoved, hhints i (by simp [hsweep])]

theorem dropWhile_append_of_head? {α : Type} {p : α → Bool} {l l' : List α}
    (h : ∀ a ∈ l'.head?, p a = false) : (l ++ l').dropWhile p = l.dropWhile p ++ l' := by
  rw [List.dropWhile_append]
  cases l' with
  | nil => simp
  | cons a l' =>
    rw [List.dropWhile_cons_of_neg (by simpa using h a rfl)]
    split
    next hnil => rw [List.isEmpty_iff.mp hnil, List.nil_append]
    next => rfl

theorem takeWhile_append_of_head? {α : Type} {p : α → Bool} {l l' : List α}
    (h : ∀ a ∈ l'.head?, p a = false) : (l ++ l').takeWhile p = l.takeWhile p := by
  have hsplit := List.takeWhile_append_dropWhile (p := p) (l := l ++ l')
  rw [dropWhile_append_of_head? h, ← List.append_assoc] at hsplit
  have := List.append_cancel_right hsplit
  conv at this => rhs; rw [← List.takeWhile_append_dropWhile (p := p) (l := l)]
  exact List.append_cancel_right this

theorem rowOf_append (h : ∀ y ∈ st.head?, joinsRow y = false) :
    rowOf x (ls ++ st) = rowOf x ls := by
  rw [rowOf, takeWhile_append_of_head? h, rowOf]

/-- A statement that is to follow comments: it has none itself, and does not begin with a line
end. -/
structure Follows (st : List Lexeme) : Prop where
  bare : ∀ x ∈ st, x.isComment = false
  head : ∀ x ∈ st.head?, joinsRow x = false

/-- Comments and white space before a statement become items that fade, and the statement is left
alone. -/
theorem groupComments_append (hls : ∀ x ∈ ls, IsIdle x) (hst : Follows st) :
    ∃ is, groupComments (ls ++ st) = is ++ st.map .lexeme ∧
      ∀ i ∈ is, IsFlat i ∧ Fades (cleaned i) := by
  induction hn : ls.length using Nat.strongRecOn generalizing ls with
  | ind n ih =>
    subst hn
    cases ls with
    | nil => exact ⟨[], groupComments_bare hst.bare, by simp⟩
    | cons x ls =>
      obtain ⟨hx, hrest⟩ := List.forall_mem_cons.mp hls
      rw [List.cons_append]
      cases hcomment : x.isComment with
      | false =>
        obtain ⟨is, his, hfades⟩ := ih ls.length (by simp) hrest rfl
        exact ⟨.lexeme x :: is, by rw [groupComments_other hcomment, his]; rfl,
          List.forall_mem_cons.mpr ⟨hx.fades, hfades⟩⟩
      | true =>
        rw [groupComments_comment hcomment, dropWhile_append_of_head? hst.head]
        split
        next hnil =>
          obtain ⟨-, rfl⟩ := List.append_eq_nil_iff.mp (List.isEmpty_iff.mp hnil)
          refine ⟨(x :: ls).map .lexeme, by simp, ?_⟩
          simpa using ⟨hx.fades, fun y hy => (hrest y hy).fades⟩
        next =>
          have hmore : ∀ y ∈ ls.dropWhile joinsRow, IsIdle y := fun y hy =>
            hrest y ((List.dropWhile_suffix _).subset hy)
          obtain ⟨is, his, hfades⟩ := ih (ls.dropWhile joinsRow).length
            (Nat.lt_succ_of_le (List.dropWhile_suffix _).length_le) hmore rfl
          obtain ⟨hflat, hremoved⟩ := rowOf_fades hls
          exact ⟨rowOf x ls :: is, by rw [rowOf_append hst.head, his]; rfl,
            List.forall_mem_cons.mpr ⟨⟨hflat, .inl hremoved⟩, hfades⟩⟩

/-! ## What is left -/

/-- White space, and after it what `st` spells. -/
def Cleared (t : List Char) (st : List Lexeme) : Prop :=
  ∃ s : List Char, (∀ c ∈ s, Text.isBlank c = true) ∧ t = s ++ textOf st

theorem withoutComments_bare (hst : Follows st) : withoutComments st = textOf st := by
  obtain ⟨hbare, htext⟩ := bare_nest hst.bare
  rw [withoutComments, groupComments_bare hst.bare, cleanedAll_eq_map,
    map_cleaned_eq fun i hi => (hbare i hi).cleaned_eq,
    sweep_bare fun i hi => (hbare i hi).isRemoved_eq, List.nil_append, htext]

theorem Cleared.blank_append {u t : List Char} (h : Cleared t st)
    (hu : ∀ c ∈ u, Text.isBlank c = true) : Cleared (u ++ t) st := by
  obtain ⟨s, hs, rfl⟩ := h
  exact ⟨u ++ s, fun c hc => (List.mem_append.mp hc).elim (hu c) (hs c),
    (List.append_assoc u s _).symm⟩

/-- After a lexeme that stays, comments and white space are cleared away. -/
theorem sweep_after (hx : x.kind ≠ .openParen) (his : ∀ i ∈ is, IsFlat i ∧ Fades (cleaned i))
    (hst : Follows st) :
    ∃ t, Cleared t st ∧ Item.textAll (sweep [.lexeme x]
      ((nest [] [] (is ++ st.map .lexeme)).map cleaned)) = x.text ++ t := by
  obtain ⟨hbare, htext⟩ := bare_nest hst.bare
  rw [nest_flat fun i hi => (his i hi).1, List.map_append,
    map_cleaned_eq fun i hi => (hbare i hi).cleaned_eq]
  have hopens : opens [.lexeme x] = false := by simpa [opens, Item.isKind] using hx
  have hfades : ∀ i ∈ is.map cleaned, Fades i := by simpa using fun i hi => (his i hi).2
  obtain ⟨t, ht, hsweep⟩ := sweep_fades hopens hfades fun i hi => (hbare i hi).isRemoved_eq
  refine ⟨_, ⟨t, ht, rfl⟩, ?_⟩
  rw [hsweep, htext, Item.textAll_singleton, List.append_assoc]
  rfl


/-- A comment that stands before white space or a statement goes, and so do all others before the
statement. -/
theorem withoutComments_of_more (hx : x.isComment = true) (hls : ∀ y ∈ x :: ls, IsIdle y)
    (hst : Follows st) (hmore : ls.dropWhile joinsRow ++ st ≠ []) :
    Cleared (withoutComments (x :: ls ++ st)) st := by
  rw [withoutComments, List.cons_append, groupComments_comment hx,
    dropWhile_append_of_head? hst.head, rowOf_append hst.head, if_neg (by simpa using hmore),
    cleanedAll_eq_map]
  obtain ⟨hflat, hremoved⟩ := rowOf_fades hls
  rw [nest_cons hflat, List.map_cons]
  cases hdrop : ls.dropWhile joinsRow with
  | nil =>
    obtain ⟨hbare, htext⟩ := bare_nest hst.bare
    rw [List.nil_append, groupComments_bare hst.bare,
      map_cleaned_eq fun i hi => (hbare i hi).cleaned_eq]
    refine ⟨[], by simp, ?_⟩
    rw [List.nil_append, ← htext]
    cases hfs : nest [] [] (st.map .lexeme) with
    | nil => rw [sweep_only hremoved]
    | cons i fs =>
      rw [sweep_first hremoved, sweep_bare, List.singleton_append]
      exact fun j hj => (hbare j (hfs ▸ List.mem_cons_of_mem i hj)).isRemoved_eq
  | cons y more =>
    have hsub : ∀ z ∈ y :: more, IsIdle z := fun z hz =>
      hls z (List.mem_cons_of_mem x ((List.dropWhile_suffix _).subset (hdrop ▸ hz)))
    obtain ⟨hy, hmore⟩ := List.forall_mem_cons.mp hsub
    have hjoins : joinsRow y = false := by
      have := List.head?_dropWhile_not joinsRow ls
      rwa [hdrop] at this
    have hplain : y.isComment = false := (Bool.or_eq_false_iff.mp hjoins).1
    obtain ⟨is, his, hfades⟩ := groupComments_append hmore hst
    obtain ⟨t, ht, htext⟩ := sweep_after hy.kind_ne.2.1 hfades hst
    rw [List.cons_append, groupComments_other hplain, his, nest_cons hy.fades.1, List.map_cons,
      cleaned, sweep_first hremoved, htext]
    exact ht.blank_append (hy.blank hplain)

/-- All lexemes are comments and line ends: the first goes, and the one right after it stays. -/
theorem withoutComments_of_row (hx : x.isComment = true) (hls : ∀ z ∈ x :: y :: ls, IsIdle z)
    (hrow : (y :: ls).dropWhile joinsRow = []) :
    ∃ t, Cleared t [] ∧ withoutComments (x :: y :: ls) = y.text ++ t := by
  obtain ⟨hidle, hrest⟩ := List.forall_mem_cons.mp hls
  obtain ⟨hy, hmore⟩ := List.forall_mem_cons.mp hrest
  have hst : Follows [] := ⟨by simp, by simp⟩
  have hfades : ∀ i ∈ ls.map Item.lexeme, IsFlat i ∧ Fades (cleaned i) := by
    simpa using fun z hz => (hmore z hz).fades
  obtain ⟨t, ht, htext⟩ := sweep_after hy.kind_ne.2.1 hfades hst
  refine ⟨t, ht, ?_⟩
  rw [List.map_nil, List.append_nil] at htext
  rw [withoutComments, groupComments_comment hx, hrow, List.isEmpty_nil, if_pos rfl, List.map_cons,
    nest_cons hidle.fades.1, List.map_cons, nest_cons hy.fades.1, cleanedAll_eq_map, List.map_cons,
    List.map_cons, cleaned, cleaned, sweep_first (hidle.isRemoved hx), htext]

theorem withoutComments_single (hx : x.isComment = true) (hidle : IsIdle x) :
    withoutComments [x] = [] := by
  rw [withoutComments, groupComments_comment hx, List.dropWhile_nil, List.isEmpty_nil, if_pos rfl,
    List.map_cons, nest_cons hidle.fades.1, cleanedAll_eq_map, List.map_cons, cleaned]
  exact congrArg Item.textAll (sweep_only (hidle.isRemoved hx))

end SchemaLedger.Sql
