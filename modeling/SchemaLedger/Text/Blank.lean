-- White space: the 29 characters that trimming removes and that separate words.
import SchemaLedger.Text.CharClass

namespace SchemaLedger

/-- White space: the ASCII controls from tab to carriage return and from file
separator to space, and the space and line separators beyond ASCII. -/
def CharClass.blank : CharClass :=
  ⟨[(0x9, 0xD), (0x1C, 0x20), (0x85, 0x85), (0xA0, 0xA0), (0x1680, 0x1680), (0x2000, 0x200A),
    (0x2028, 0x2029), (0x202F, 0x202F), (0x205F, 0x205F), (0x3000, 0x3000)]⟩

namespace Text

def isBlank (c : Char) : Bool := CharClass.blank.holds c

/-- Without the white space at the front. -/
def trimStart (s : List Char) : List Char := s.dropWhile isBlank

/-- Without the characters of a class at the end. -/
def dropEndWhile (p : Char → Bool) (s : List Char) : List Char :=
  (s.reverse.dropWhile p).reverse

/-- Without the white space at both ends. -/
def trim (s : List Char) : List Char := dropEndWhile isBlank (trimStart s)

theorem isBlank_of_isWhitespace {c : Char} (h : c.isWhitespace = true) : isBlank c = true := by
  simp only [Char.isWhitespace, Bool.or_eq_true, decide_eq_true_eq] at h
  rcases h with ((h | h) | h) | h <;> subst h <;> decide

theorem trimStart_eq_nil {s : List Char} (h : ∀ c ∈ s, isBlank c = true) : trimStart s = [] := by
  induction s with
  | nil => rfl
  | cons c rest ih =>
    have hc := h c (by simp)
    have hr : trimStart rest = [] := ih fun d hd => h d (by simp [hd])
    simpa [trimStart, List.dropWhile_cons, hc] using hr

theorem trim_eq_nil {s : List Char} (h : ∀ c ∈ s, isBlank c = true) : trim s = [] := by
  simp [trim, trimStart_eq_nil h, dropEndWhile]

end Text
end SchemaLedger
