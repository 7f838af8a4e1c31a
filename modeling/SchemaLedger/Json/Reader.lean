-- Reading JSON text. Each reader takes the characters that are left and gives a
-- value and a shorter rest; a refusal carries how many characters were left where
-- it arose, so the place of a fault is read off the length of the text.
import SchemaLedger.Value
import SchemaLedger.Text.Line

namespace SchemaLedger.Json

/-- What the text should have held where it went wrong. -/
inductive Complaint where
  | value
  | propertyName
  | colon
  | comma
  | extraData
  | unterminated
  | controlCharacter
  | escape
  | unicodeEscape
  | byteOrderMark
  deriving DecidableEq, Repr

def Complaint.text : Complaint → String
  | .value => "Expecting value"
  | .propertyName => "Expecting property name enclosed in double quotes"
  | .colon => "Expecting ':' delimiter"
  | .comma => "Expecting ',' delimiter"
  | .extraData => "Extra data"
  | .unterminated => "Unterminated string starting at"
  | .controlCharacter => "Invalid control character at"
  | .escape => "Invalid \\escape"
  | .unicodeEscape => "Invalid \\uXXXX escape"
  | .byteOrderMark => "Unexpected UTF-8 BOM (decode using utf-8-sig)"

/-- Why a reader stops: the text is malformed with so many characters left, or a
whole number has more digits than are read. -/
inductive Stop where
  | malformed (what : Complaint) (left : Nat)
  | tooManyDigits (count : Nat)
  deriving DecidableEq, Repr

/-- A value read from the front of `s`, and a rest that is shorter than `s`. -/
structure Parsed (α : Type) (s : List Char) where
  value : α
  rest : List Char
  shorter : rest.length < s.length

def isSpace (c : Char) : Bool := c == ' ' || c == '\t' || c == '\n' || c == '\r'

def skipSpace (s : List Char) : List Char := s.dropWhile isSpace

theorem length_dropWhile_le {α : Type} (p : α → Bool) (s : List α) :
    (s.dropWhile p).length ≤ s.length := by
  induction s with
  | nil => simp
  | cons c rest ih =>
    rw [List.dropWhile_cons]
    split
    · simp only [List.length_cons]; omega
    · simp

theorem length_skipSpace_le (s : List Char) : (skipSpace s).length ≤ s.length :=
  length_dropWhile_le isSpace s

/-! ## Texts -/

/-- The value of a hexadecimal digit. -/
def hexDigit? (c : Char) : Option Nat :=
  if '0' ≤ c ∧ c ≤ '9' then some (c.toNat - 48)
  else if 'a' ≤ c ∧ c ≤ 'f' then some (c.toNat - 87)
  else if 'A' ≤ c ∧ c ≤ 'F' then some (c.toNat - 55)
  else none

def hex4? (a b c d : Char) : Option Nat := do
  let a ← hexDigit? a
  let b ← hexDigit? b
  let c ← hexDigit? c
  let d ← hexDigit? d
  return ((a * 16 + b) * 16 + c) * 16 + d

/-- The character that a one-letter escape stands for. -/
def shortEscape? (c : Char) : Option Char :=
  if c = '\x22' ∨ c = '\\' ∨ c = '/' then some c
  else if c = 'b' then some '\x08'
  else if c = 'f' then some '\x0c'
  else if c = 'n' then some '\n'
  else if c = 'r' then some '\r'
  else if c = 't' then some '\t'
  else none

/-- The low half of a pair of escapes that together name one character. The text
has to go on after it. -/
def lowHalf? : List Char → Option (Nat × List Char)
  | '\\' :: 'u' :: a :: b :: c :: d :: next :: rest =>
    match hex4? a b c d with
    | some n => if 0xDC00 ≤ n ∧ n < 0xE000 then some (n, next :: rest) else none
    | none => none
  | _ => none

/-- A pair escape whose second half is not four hexadecimal digits. -/
def brokenHalf? : List Char → Option Nat
  | '\\' :: 'u' :: a :: b :: c :: d :: _ :: rest =>
    if (hex4? a b c d).isNone then some (rest.length + 6) else none
  | _ => none

theorem lowHalf?_lt {s rest : List Char} {n : Nat} (h : lowHalf? s = some (n, rest)) :
    rest.length < s.length := by
  unfold lowHalf? at h
  split at h
  · split at h
    · split at h
      · simp only [Option.some.injEq, Prod.mk.injEq] at h
        obtain ⟨_, rfl⟩ := h
        simp only [List.length_cons]
        omega
      · simp at h
    · simp at h
  · simp at h

/-- The characters of a text after its opening quote, and what follows the closing
quote. `opened` is how many characters were left at the opening quote. -/
def readText (opened : Nat) (s : List Char) (acc : List Char) : Except Stop (List Char × List Char) :=
  match s with
  | [] => .error (.malformed .unterminated opened)
  | '\x22' :: rest => .ok (acc.reverse, rest)
  | '\\' :: [] => .error (.malformed .unterminated opened)
  | '\\' :: 'u' :: rest =>
    match rest with
    | a :: b :: c :: d :: next :: more =>
      match hex4? a b c d with
      | none => .error (.malformed .unicodeEscape (rest.length + 1))
      | some n =>
        if 0xD800 ≤ n ∧ n < 0xDC00 then
          match h : lowHalf? (next :: more) with
          | some (low, more) =>
            readText opened more (Char.ofNat (0x10000 + (n - 0xD800) * 0x400 + (low - 0xDC00)) :: acc)
          | none =>
            match brokenHalf? (next :: more) with
            | some left => .error (.malformed .unicodeEscape left)
            | none => readText opened (next :: more) ('\uFFFD' :: acc)
        else if 0xDC00 ≤ n ∧ n < 0xE000 then readText opened (next :: more) ('\uFFFD' :: acc)
        else readText opened (next :: more) (Char.ofNat n :: acc)
    | _ => .error (.malformed .unicodeEscape (rest.length + 1))
  | '\\' :: e :: rest =>
    match shortEscape? e with
    | some c => readText opened rest (c :: acc)
    | none => .error (.malformed .escape (rest.length + 2))
  | c :: rest =>
    if c.toNat < 0x20 then .error (.malformed .controlCharacter (rest.length + 1))
    else readText opened rest (c :: acc)
termination_by s.length
decreasing_by
  all_goals simp only [List.length_cons]
  all_goals first
    | (have hl := lowHalf?_lt h; simp only [List.length_cons] at hl; omega)
    | omega

theorem readText_lt {opened : Nat} {s acc t rest : List Char}
    (h : readText opened s acc = .ok (t, rest)) : rest.length < s.length := by
  fun_induction readText opened s acc <;> simp_all <;> first
    | omega
    | (have hl := lowHalf?_lt (by assumption); simp only [List.length_cons] at hl; omega)

/-! ## Numbers -/

/-- The most digits that a whole number may have in text. -/
def digitLimit : Nat := 4300

def digitsValue (ds : List Char) : Nat := ds.foldl (fun n c => n * 10 + (c.toNat - 48)) 0

/-- The part of a number after the point: a point and at least one digit. -/
def fractionPart : List Char → List Char × List Char
  | '.' :: rest =>
    match rest.takeWhile Char.isDigit with
    | [] => ([], '.' :: rest)
    | ds => (ds, rest.dropWhile Char.isDigit)
  | s => ([], s)

/-- A sign at the front, if there is one: whether it is a minus, and the rest. -/
def signPart : List Char → Bool × List Char
  | '-' :: rest => (true, rest)
  | '+' :: rest => (false, rest)
  | rest => (false, rest)

theorem signPart_le (s : List Char) : (signPart s).2.length ≤ s.length := by
  unfold signPart
  split <;> simp

/-- The power of ten of a number: `e` or `E`, an optional sign and at least one digit. -/
def exponentPart (s : List Char) : Option Int × List Char :=
  match s with
  | e :: rest =>
    if e = 'e' ∨ e = 'E' then
      match (signPart rest).2.takeWhile Char.isDigit with
      | [] => (none, s)
      | ds =>
        let n : Int := digitsValue ds
        (some (if (signPart rest).1 then -n else n), (signPart rest).2.dropWhile Char.isDigit)
    else (none, s)
  | [] => (none, [])

theorem fractionPart_le (s : List Char) : (fractionPart s).2.length ≤ s.length := by
  unfold fractionPart
  split
  · split
    · exact Nat.le_refl _
    · rename_i rest _ _
      have := length_dropWhile_le Char.isDigit rest
      simp only [List.length_cons]
      omega
  · exact Nat.le_refl _

theorem exponentPart_le (s : List Char) : (exponentPart s).2.length ≤ s.length := by
  unfold exponentPart
  split
  · rename_i e rest
    split
    · split
      · exact Nat.le_refl _
      · have h1 := length_dropWhile_le Char.isDigit (signPart rest).2
        have h2 := signPart_le rest
        simp only [List.length_cons]
        omega
    · exact Nat.le_refl _
  · exact Nat.le_refl _

/-- The digits of the whole part: a zero, or digits that do not start with one. -/
def wholePart : List Char → List Char × List Char
  | '0' :: rest => (['0'], rest)
  | s => (s.takeWhile Char.isDigit, s.dropWhile Char.isDigit)

/-- The number that digits, a fraction and a power of ten write. -/
def numberOf (negative : Bool) (whole fraction : List Char) (exponent : Option Int) :
    Except Stop Value :=
  if fraction.isEmpty && exponent.isNone then
    if whole.length > digitLimit then .error (.tooManyDigits whole.length)
    else
      let n : Int := digitsValue whole
      .ok (.int (if negative then -n else n))
  else
    .ok (.float (.ofDecimal negative (digitsValue (whole ++ fraction))
      (exponent.getD 0 - fraction.length)))

/-- A minus at the front, if there is one. -/
def minusPart : List Char → Bool × List Char
  | '-' :: rest => (true, rest)
  | rest => (false, rest)

theorem minusPart_le (s : List Char) : (minusPart s).2.length ≤ s.length := by
  unfold minusPart
  split <;> simp

/-- A number at the front of `s`, or nothing if there is none. -/
def readNumber? (s : List Char) : Option (Except Stop Value × List Char) :=
  let whole := wholePart (minusPart s).2
  if whole.1.isEmpty then none
  else
    let fraction := fractionPart whole.2
    let exponent := exponentPart fraction.2
    some (numberOf (minusPart s).1 whole.1 fraction.1 exponent.1, exponent.2)

theorem wholePart_lt {s : List Char} (h : (wholePart s).1 ≠ []) :
    (wholePart s).2.length < s.length := by
  unfold wholePart at h ⊢
  split
  · simp
  · rename_i hs
    cases s with
    | nil => simp at h
    | cons c rest =>
      by_cases hc : c.isDigit
      · have := length_dropWhile_le Char.isDigit rest
        simp only [List.dropWhile_cons, hc, if_true, List.length_cons]
        omega
      · simp [hc] at h

theorem readNumber?_lt {s rest : List Char} {v : Except Stop Value}
    (h : readNumber? s = some (v, rest)) : rest.length < s.length := by
  simp only [readNumber?] at h
  split at h
  · simp at h
  · rename_i hw
    have h1 := wholePart_lt (s := (minusPart s).2) (by simpa using hw)
    have h2 := fractionPart_le (wholePart (minusPart s).2).2
    have h3 := exponentPart_le (fractionPart (wholePart (minusPart s).2).2).2
    have h4 := minusPart_le s
    simp only [Option.some.injEq, Prod.mk.injEq] at h
    obtain ⟨_, rfl⟩ := h
    omega

/-! ## Values -/

/-- The words that stand for a value. -/
def words : List (List Char × Value) :=
  [("null".toList, .null), ("true".toList, .bool true), ("false".toList, .bool false),
   ("NaN".toList, .float ⟨0x7FF8000000000000⟩), ("Infinity".toList, .float ⟨0x7FF0000000000000⟩),
   ("-Infinity".toList, .float ⟨0xFFF0000000000000⟩)]

/-- A word at the front of `s`. -/
def readWord? (s : List Char) : Option (Value × List Char) :=
  (words.find? fun w => w.1.isPrefixOf s).map fun w => (w.2, s.drop w.1.length)

theorem readWord?_lt {s rest : List Char} {v : Value} (h : readWord? s = some (v, rest)) :
    rest.length < s.length := by
  simp only [readWord?, Option.map_eq_some_iff, Prod.mk.injEq] at h
  obtain ⟨w, hw, _, rfl⟩ := h
  have hm := List.mem_of_find?_eq_some hw
  have hp : w.1 <+: s := by simpa using List.find?_some hw
  have hl := hp.length_le
  have h0 : 0 < w.1.length := by
    simp only [words, List.mem_cons, List.not_mem_nil, or_false] at hm
    rcases hm with h | h | h | h | h | h <;> subst h <;> decide
  simp only [List.length_drop]
  omega

mutual

/-- One value at the front of `s`. -/
def readValue (s : List Char) : Except Stop (Parsed Value s) :=
  match s with
  | [] => .error (.malformed .value 0)
  | '\x22' :: rest =>
    match h : readText (rest.length + 1) rest [] with
    | .error e => .error e
    | .ok (t, more) =>
      .ok ⟨.text (String.ofList t), more, by
        have := readText_lt h
        simp only [List.length_cons]
        omega⟩
  | '[' :: rest =>
    match h : skipSpace rest with
    | ']' :: more =>
      .ok ⟨.list [], more, by
        have := length_skipSpace_le rest
        rw [h] at this
        simp only [List.length_cons] at this ⊢
        omega⟩
    | body =>
      have hb : body.length < rest.length + 1 := by
        have := length_skipSpace_le rest
        rw [h] at this
        omega
      match readItems body [] with
      | .error e => .error e
      | .ok ⟨items, more, hm⟩ => .ok ⟨.list items, more, by simp only [List.length_cons]; omega⟩
  | '\x7b' :: rest =>
    match h : skipSpace rest with
    | '\x7d' :: more =>
      .ok ⟨.map [], more, by
        have := length_skipSpace_le rest
        rw [h] at this
        simp only [List.length_cons] at this ⊢
        omega⟩
    | body =>
      have hb : body.length < rest.length + 1 := by
        have := length_skipSpace_le rest
        rw [h] at this
        omega
      match readEntries body [] with
      | .error e => .error e
      | .ok ⟨entries, more, hm⟩ => .ok ⟨.map entries, more, by simp only [List.length_cons]; omega⟩
  | c :: rest =>
    match h : readWord? (c :: rest) with
    | some (v, more) => .ok ⟨v, more, readWord?_lt h⟩
    | none =>
      match h : readNumber? (c :: rest) with
      | some (.ok v, more) => .ok ⟨v, more, readNumber?_lt h⟩
      | some (.error e, _) => .error e
      | none => .error (.malformed .value (rest.length + 1))
termination_by (s.length, 0)

/-- The items of a list up to its closing bracket. -/
def readItems (s : List Char) (acc : List Value) : Except Stop (Parsed (List Value) s) :=
  match readValue s with
  | .error e => .error e
  | .ok ⟨v, rest, hr⟩ =>
    have hs := length_skipSpace_le rest
    match h : skipSpace rest with
    | ']' :: more =>
      .ok ⟨(v :: acc).reverse, more, by
        rw [h] at hs
        simp only [List.length_cons] at hs
        omega⟩
    | ',' :: more =>
      have hm : (skipSpace more).length < s.length := by
        have := length_skipSpace_le more
        rw [h] at hs
        simp only [List.length_cons] at hs
        omega
      match readItems (skipSpace more) (v :: acc) with
      | .error e => .error e
      | .ok ⟨items, left, hl⟩ => .ok ⟨items, left, by omega⟩
    | other => .error (.malformed .comma other.length)
termination_by (s.length, 1)

/-- The entries of a map up to its closing brace. An entry whose key was there
keeps the earlier place and takes the later value. -/
def readEntries (s : List Char) (acc : List (Value × Value)) :
    Except Stop (Parsed (List (Value × Value)) s) :=
  match s with
  | '\x22' :: rest =>
    match h : readText (rest.length + 1) rest [] with
    | .error e => .error e
    | .ok (key, more) =>
      have hk := readText_lt h
      have hc := length_skipSpace_le more
      match h : skipSpace more with
      | ':' :: more =>
        have hv := length_skipSpace_le more
        have hd : (skipSpace more).length < rest.length + 1 := by
          rw [h] at hc
          simp only [List.length_cons] at hc
          omega
        match readValue (skipSpace more) with
        | .error e => .error e
        | .ok ⟨v, left, hl⟩ =>
          have hs := length_skipSpace_le left
          match h : skipSpace left with
          | '\x7d' :: more =>
            .ok ⟨Value.setEntry (.text (String.ofList key)) v acc, more, by
              rw [h] at hs
              simp only [List.length_cons] at hs ⊢
              omega⟩
          | ',' :: more =>
            have hm : (skipSpace more).length < rest.length + 1 := by
              have := length_skipSpace_le more
              rw [h] at hs
              simp only [List.length_cons] at hs
              omega
            match readEntries (skipSpace more) (Value.setEntry (.text (String.ofList key)) v acc) with
            | .error e => .error e
            | .ok ⟨entries, left, hl⟩ => .ok ⟨entries, left, by simp only [List.length_cons]; omega⟩
          | other => .error (.malformed .comma other.length)
      | other => .error (.malformed .colon other.length)
  | other => .error (.malformed .propertyName other.length)
termination_by (s.length, 1)

end

/-! ## Documents -/

/-- Why a text is not one JSON value. -/
inductive Fault where
  | malformed (what : Complaint) (place : Text.Position)
  | tooManyDigits (count : Nat)
  deriving DecidableEq, Repr

def Fault.message : Fault → String
  | .malformed what place => what.text ++ ": " ++ place.text
  | .tooManyDigits n =>
    "Exceeds the limit (4300 digits) for integer string conversion: value has " ++ toString n ++
      " digits; use sys.set_int_max_str_digits() to increase the limit"

/-- The place of a stop in the text that was read. -/
def Stop.fault (s : List Char) : Stop → Fault
  | .malformed what left => .malformed what (Text.positionAt s (s.length - left))
  | .tooManyDigits n => .tooManyDigits n

/-- The one value that a text holds. -/
def read (s : List Char) : Except Fault Value :=
  if s.head? = some '\uFEFF' then .error (.malformed .byteOrderMark (Text.positionAt s 0))
  else
    match readValue (skipSpace s) with
    | .error e => .error (e.fault s)
    | .ok ⟨v, rest, _⟩ =>
      match skipSpace rest with
      | [] => .ok v
      | left => .error ((Stop.malformed .extraData left.length).fault s)

end SchemaLedger.Json
