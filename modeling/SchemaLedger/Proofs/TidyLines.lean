-- What becomes of the lines of a statement. White space in front of it stays white space, and the
-- statement stays on its line; the first characters of a text stay first.
import Mathlib.Data.List.Basic
import SchemaLedger.Proofs.Remarks

namespace SchemaLedger.Sql

variable {c : Char} {s t u line : List Char}

/-! ## One line -/

theorem linesFrom_returnFeed : linesFrom line ('\r' :: '\n' :: s) = line :: linesFrom [] s := by
  rw [linesFrom]

theorem linesFrom_lineEnd (hc : IsLineEnd c) (h : c = '\r' → s.head? ≠ some '\n') :
    linesFrom line (c :: s) = line :: linesFrom [] s := by
  rw [linesFrom, if_pos hc.symm]
  rintro rest rfl rfl
  exact h rfl rfl

theorem linesFrom_stretch (hc : ¬ IsLineEnd c) {n : Nat} (hn : stretch (c :: s) = n + 1) :
    linesFrom line (c :: s) = linesFrom (line ++ c :: s.take n) (s.drop n) := by
  rw [linesFrom, if_neg (mt Or.symm hc), hn, Nat.add_sub_cancel]
  rintro rest rfl rfl
  exact hc (.inr rfl)

/-- No line ends within the text, wherever it begins. -/
def OnOneLine (s : List Char) : Prop := ∀ line, linesFrom line s = [line ++ s]

theorem OnOneLine.nil : OnOneLine [] := fun line => by rw [linesFrom, List.append_nil]

theorem OnOneLine.cons (hc : ¬ IsLineEnd c) (hquote : c ≠ '\x27' ∧ c ≠ '\x22') (h : OnOneLine s) :
    OnOneLine (c :: s) := fun line => by
  have hstretch : stretch (c :: s) = 0 + 1 := by
    rw [stretch, if_neg (not_or.mpr hquote)]
  rw [linesFrom_stretch hc hstretch, List.drop_zero, h]
  simp

theorem OnOneLine.append (ht : ∀ c ∈ t, ¬ IsLineEnd c ∧ c ≠ '\x27' ∧ c ≠ '\x22')
    (h : OnOneLine s) : OnOneLine (t ++ s) := by
  induction t with
  | nil => exact h
  | cons c t ih =>
    obtain ⟨⟨hc, hquote⟩, ht⟩ := List.forall_mem_cons.mp ht
    exact (ih ht).cons hc hquote

theorem closedLength?_append {q : Char} (ht : ∀ c ∈ t, c ≠ q ∧ c ≠ '\\') (hq : q ≠ '\\')
    (s : List Char) : closedLength? q (t ++ q :: s) = some (t.length + 1) := by
  induction t with
  | nil => 
    rw [List.nil_append, closedLength?, if_pos rfl, List.length_nil]
    exact fun c rest h _ => hq h
  | cons c t ih =>
    obtain ⟨hc, ht⟩ := List.forall_mem_cons.mp ht
    rw [List.cons_append, closedLength?, if_neg hc.1, if_neg hc.2, ih ht]
    · rfl
    · exact fun d rest h _ => hc.2 h

/-- What stands in quotes belongs to the line. -/
theorem OnOneLine.quoted (ht : ∀ c ∈ t, c ≠ '\x27' ∧ c ≠ '\\') (h : OnOneLine s) :
    OnOneLine ('\x27' :: (t ++ '\x27' :: s)) := fun line => by
  have hstretch : stretch ('\x27' :: (t ++ '\x27' :: s)) = t.length + 1 + 1 := by
    rw [stretch, if_pos (.inl rfl), closedLength?_append ht (by decide)]
    rfl
  have hsplit : t ++ '\x27' :: s = (t ++ ['\x27']) ++ s := by simp
  have hlength : t.length + 1 = (t ++ ['\x27']).length := by simp
  rw [linesFrom_stretch (by simp [IsLineEnd]) hstretch, hsplit, hlength, List.take_left, List.drop_left,
    h, List.append_assoc, List.cons_append]

/-! ## White space in front -/

/-- White space in front makes up lines of its own and the front of the line that follows. -/
theorem linesFrom_blank (ht : ∀ c ∈ t, Text.isBlank c = true)
    (hline : ∀ c ∈ line, Text.isBlank c = true) (hu : u.head? ≠ some '\n') :
    ∃ ls l, linesFrom line (t ++ u) = ls ++ linesFrom l u ∧
      ∀ l' ∈ l :: ls, ∀ c ∈ l', Text.isBlank c = true := by
  induction hn : t.length using Nat.strongRecOn generalizing t line with
  | ind n ih =>
    subst hn
    -- A line that ends here is followed by the lines of a shorter text.
    have hends {s : List Char} (hs : ∀ c ∈ s, Text.isBlank c = true) (hlt : s.length < t.length)
        (hlines : linesFrom line (t ++ u) = line :: linesFrom [] (s ++ u)) :
        ∃ ls l, linesFrom line (t ++ u) = ls ++ linesFrom l u ∧
          ∀ l' ∈ l :: ls, ∀ c ∈ l', Text.isBlank c = true := by
      have hempty : ∀ c ∈ ([] : List Char), Text.isBlank c = true := by simp
      obtain ⟨ls, l, hrest, hblank⟩ := ih s.length hlt hs hempty rfl
      obtain ⟨hl, hls⟩ := List.forall_mem_cons.mp hblank
      exact ⟨line :: ls, l, by rw [hlines, hrest]; rfl,
        List.forall_mem_cons.mpr ⟨hl, List.forall_mem_cons.mpr ⟨hline, hls⟩⟩⟩
    cases t with
    | nil => exact ⟨[], line, rfl, by simpa using hline⟩
    | cons c t =>
      obtain ⟨hc, hrest⟩ := List.forall_mem_cons.mp ht
      by_cases hend : IsLineEnd c
      · by_cases hreturn : c = '\r'
        · rcases head?_append_or hu t with hnext | ⟨t', rfl⟩
          · exact hends hrest (by simp) (linesFrom_lineEnd hend fun _ => hnext)
          · subst hreturn
            exact hends (List.forall_mem_cons.mp hrest).2 (by simp only [List.length_cons]; omega)
              linesFrom_returnFeed
        · exact hends hrest (by simp) (linesFrom_lineEnd hend fun h => absurd h hreturn)
      · have hquote : c ≠ '\x27' ∧ c ≠ '\x22' := by
          constructor <;> rintro rfl <;> exact absurd hc (by decide)
        have hstretch : stretch (c :: (t ++ u)) = 0 + 1 := by
          rw [stretch, if_neg (not_or.mpr hquote)]
        rw [List.cons_append, linesFrom_stretch hend hstretch, List.take_zero, List.drop_zero]
        exact ih t.length (by simp) hrest (by simpa [or_imp, forall_and] using ⟨hline, hc⟩) rfl

theorem dropEndWhile_blank (hs : ∀ c ∈ s, Text.isBlank c = true) :
    Text.dropEndWhile Text.isBlank s = [] := by
  rw [Text.dropEndWhile, List.reverse_eq_nil_iff, List.dropWhile_eq_nil_iff]
  simpa using hs

theorem intercalate_append {a b : List (List Char)} (hb : b ≠ []) (d : List Char) :
    d.intercalate (a ++ b) = a.flatMap (· ++ d) ++ d.intercalate b := by
  induction a with
  | nil => rfl
  | cons l a ih =>
    rw [List.cons_append, List.intercalate_cons_of_ne_nil (by simp [hb]), ih, List.flatMap_cons,
      List.append_assoc, List.append_assoc, List.append_assoc]

/-- White space in front stays white space, and the text after it stays on its line. -/
theorem tidyLines_blank_append (ht : ∀ c ∈ t, Text.isBlank c = true) (hu : OnOneLine u)
    (hhead : u.head? ≠ some '\n') :
    ∃ t' l, (∀ c ∈ t' ++ l, Text.isBlank c = true) ∧
      tidyLines (t ++ u) = t' ++ Text.dropEndWhile Text.isBlank (l ++ u) := by
  have hempty : ∀ c ∈ ([] : List Char), Text.isBlank c = true := by simp
  obtain ⟨ls, l, hlines, hblank⟩ := linesFrom_blank ht hempty hhead
  obtain ⟨hl, hls⟩ := List.forall_mem_cons.mp hblank
  refine ⟨(ls.map (Text.dropEndWhile Text.isBlank)).flatMap (· ++ ['\n']), l, ?_, ?_⟩
  · rw [List.forall_mem_append]
    refine ⟨fun c hc => ?_, hl⟩
    simp only [List.mem_flatMap, List.mem_map, List.mem_append, List.mem_singleton] at hc
    obtain ⟨_, ⟨l', hl', rfl⟩, hc | rfl⟩ := hc
    · rw [dropEndWhile_blank (hls l' hl')] at hc
      exact absurd hc List.not_mem_nil
    · decide
  · rw [tidyLines, hlines, hu l, List.map_append, intercalate_append (by simp), List.map_singleton,
      List.intercalate_singleton]

/-! ## The first characters -/

/-- Line ends aside, nothing of a line is lost. -/
theorem linesFrom_head (line s : List Char) : ∃ l ls, linesFrom line s = (line ++ l) :: ls := by
  fun_induction linesFrom line s with
  | case1 line => exact ⟨[], [], by simp⟩
  | case2 line rest ih => exact ⟨[], linesFrom [] rest, by simp⟩
  | case3 line c rest _ hc ih => exact ⟨[], linesFrom [] rest, by simp⟩
  | case4 line c rest _ hc n ih =>
    obtain ⟨l, ls, h⟩ := ih
    exact ⟨c :: rest.take n ++ l, ls, by rw [h]; simp⟩


/-- What ends in a character outside the class stays at the front. -/
theorem prefix_dropEndWhile {p : Char → Bool} (hc : p c = false) (s t : List Char) :
    s ++ [c] <+: Text.dropEndWhile p (s ++ [c] ++ t) := by
  induction t using List.reverseRecOn with
  | nil => rw [List.append_nil, dropEndWhile_concat, hc]; exact List.prefix_rfl
  | append_singleton t d ih =>
    rw [← List.append_assoc, dropEndWhile_concat]
    split
    · exact ih
    · exact (List.prefix_append _ _).trans (List.prefix_append _ _)

/-- A mark of two characters at the front stays there. -/
theorem tidyLines_mark {a b : Char} (ha : ¬ IsLineEnd a ∧ a ≠ '\x27' ∧ a ≠ '\x22')
    (hb : ¬ IsLineEnd b ∧ b ≠ '\x27' ∧ b ≠ '\x22') (hblank : Text.isBlank b = false) :
    [a, b] <+: tidyLines (a :: b :: s) := by
  have hmark : linesFrom [] (a :: b :: s) = linesFrom [a, b] s := by
    rw [linesFrom_stretch ha.1 (n := 0) (by rw [stretch, if_neg (not_or.mpr ha.2)]),
      List.take_zero, List.drop_zero,
      linesFrom_stretch hb.1 (n := 0) (by rw [stretch, if_neg (not_or.mpr hb.2)])]
    rfl
  obtain ⟨l, ls, hlines⟩ := linesFrom_head [a, b] s
  rw [tidyLines, hmark, hlines, List.map_cons]
  have hfirst : [a, b] <+: Text.dropEndWhile Text.isBlank ([a, b] ++ l) :=
    prefix_dropEndWhile hblank [a] l
  refine hfirst.trans ?_
  cases ls with
  | nil => simp [List.intercalate_singleton]
  | cons l' ls =>
    rw [List.map_cons, List.intercalate_cons_cons, List.append_assoc]
    exact List.prefix_append _ _

end SchemaLedger.Sql
