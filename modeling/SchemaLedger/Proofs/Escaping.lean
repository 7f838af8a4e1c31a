-- Texts in URLs. UTF-8 bytes are read as the text that they encode, and percent signs give back
-- the bytes that they stand for; so a text that is escaped can be told from its escaped form,
-- which holds nothing but plain characters and escaped bytes.
import Mathlib.Data.List.Basic
import SchemaLedger.Database.Url

namespace SchemaLedger

/-! ## UTF-8 -/

namespace Utf8

variable {a b : UInt8} {n : Nat}

theorem isContinuation_iff : isContinuation b = true ↔ 0x80 ≤ b.toNat ∧ b.toNat < 0xC0 := by
  simp [isContinuation, UInt8.le_iff_toNat_le, UInt8.lt_iff_toNat_lt]

/-- A second byte fits unless it begins an overlong form, a surrogate, or what lies above the
last code point. -/
theorem secondFits_of (hb : isContinuation b = true)
    (hlong : a.toNat = 0xE0 → 0xA0 ≤ b.toNat) (hsurrogate : a.toNat = 0xED → b.toNat < 0xA0)
    (hlong' : a.toNat = 0xF0 → 0x90 ≤ b.toNat) (hlast : a.toNat = 0xF4 → b.toNat < 0x90) :
    secondFits a b = true := by
  simp only [secondFits, hb, Bool.true_and, Bool.and_eq_true, Bool.not_eq_true',
    Bool.and_eq_false_iff, beq_eq_false_iff_ne, decide_eq_false_iff_not, ← UInt8.toNat_inj, ne_eq,
    UInt8.lt_iff_toNat_lt, UInt8.le_iff_toNat_le, ge_iff_le, UInt8.reduceToNat]
  omega

/-- A byte that begins a character of several bytes. -/
theorem leads (hlow : 0xC2 ≤ a.toNat) (hhigh : a.toNat ≤ 0xF4) :
    ¬ a < 0x80 ∧ ¬ (a < 0xC2 || a > 0xF4) = true := by
  simp only [Bool.or_eq_true, decide_eq_true_eq, UInt8.lt_iff_toNat_lt, gt_iff_lt,
    UInt8.reduceToNat]
  omega

theorem toNat_byte (h : n < 256) : n.toUInt8.toNat = n := Nat.mod_eq_of_lt h

theorem toNat_continuation (n : Nat) : (0x80 + n % 64).toUInt8.toNat = 0x80 + n % 64 :=
  toNat_byte (by omega)

theorem isContinuation_continuation (n : Nat) :
    isContinuation (0x80 + n % 64).toUInt8 = true := by
  rw [isContinuation_iff, toNat_continuation]
  omega

variable (position : Nat) (rest : List UInt8)

theorem decodeFrom_one (h : n < 0x80) :
    decodeFrom position (n.toUInt8 :: rest) =
      (decodeFrom (position + 1) rest).map (Char.ofNat n :: ·) := by
  have ha : n.toUInt8.toNat = n := toNat_byte (by omega)
  rw [decodeFrom.eq_def]
  dsimp only
  rw [if_pos (UInt8.lt_iff_toNat_lt.mpr (ha.symm ▸ h)), ha]

theorem decodeFrom_two (hlow : 0x80 ≤ n) (hhigh : n < 0x800) :
    decodeFrom position ((0xC0 + n / 64).toUInt8 :: (0x80 + n % 64).toUInt8 :: rest) =
      (decodeFrom (position + 2) rest).map (Char.ofNat n :: ·) := by
  have ha : (0xC0 + n / 64).toUInt8.toNat = 0xC0 + n / 64 := toNat_byte (by omega)
  have hb := toNat_continuation n
  have hlead := leads (a := (0xC0 + n / 64).toUInt8) (by omega) (by omega)
  have hfits : secondFits (0xC0 + n / 64).toUInt8 (0x80 + n % 64).toUInt8 = true :=
    secondFits_of (isContinuation_continuation n) (by omega) (by omega) (by omega) (by omega)
  have htwo : (0xC0 + n / 64).toUInt8 < 0xE0 := by
    simp only [UInt8.lt_iff_toNat_lt, ha, UInt8.reduceToNat]
    omega
  have hvalue : bits (0xC0 + n / 64).toUInt8 32 * 64 + bits (0x80 + n % 64).toUInt8 64 = n := by
    unfold bits
    omega
  rw [decodeFrom.eq_def]
  dsimp only
  rw [if_neg hlead.1, if_neg hlead.2, if_neg (by rw [hfits]; decide), if_pos htwo, hvalue]

theorem decodeFrom_three (hlow : 0x800 ≤ n) (hhigh : n < 0x10000)
    (hsurrogate : n < 0xD800 ∨ 0xDFFF < n) :
    decodeFrom position ((0xE0 + n / 4096).toUInt8 :: (0x80 + n / 64 % 64).toUInt8 ::
        (0x80 + n % 64).toUInt8 :: rest) =
      (decodeFrom (position + 3) rest).map (Char.ofNat n :: ·) := by
  have ha : (0xE0 + n / 4096).toUInt8.toNat = 0xE0 + n / 4096 := toNat_byte (by omega)
  have hb := toNat_continuation (n / 64)
  have hc := toNat_continuation n
  have hlead := leads (a := (0xE0 + n / 4096).toUInt8) (by omega) (by omega)
  have hfits : secondFits (0xE0 + n / 4096).toUInt8 (0x80 + n / 64 % 64).toUInt8 = true :=
    secondFits_of (isContinuation_continuation _) (by omega) (by omega) (by omega) (by omega)
  have hthree : ¬ (0xE0 + n / 4096).toUInt8 < 0xE0 ∧ (0xE0 + n / 4096).toUInt8 < 0xF0 := by
    simp only [UInt8.lt_iff_toNat_lt, ha, UInt8.reduceToNat]
    omega
  have hvalue : (bits (0xE0 + n / 4096).toUInt8 16 * 64 + bits (0x80 + n / 64 % 64).toUInt8 64) * 64 +
      bits (0x80 + n % 64).toUInt8 64 = n := by
    unfold bits
    omega
  rw [decodeFrom.eq_def]
  dsimp only
  rw [if_neg hlead.1, if_neg hlead.2, if_neg (by rw [hfits]; decide), if_neg hthree.1,
    if_neg (by rw [isContinuation_continuation]; decide), if_pos hthree.2, hvalue]

theorem decodeFrom_four (hlow : 0x10000 ≤ n) (hhigh : n < 0x110000) :
    decodeFrom position ((0xF0 + n / 262144).toUInt8 :: (0x80 + n / 4096 % 64).toUInt8 ::
        (0x80 + n / 64 % 64).toUInt8 :: (0x80 + n % 64).toUInt8 :: rest) =
      (decodeFrom (position + 4) rest).map (Char.ofNat n :: ·) := by
  have ha : (0xF0 + n / 262144).toUInt8.toNat = 0xF0 + n / 262144 := toNat_byte (by omega)
  have hb := toNat_continuation (n / 4096)
  have hc := toNat_continuation (n / 64)
  have hd := toNat_continuation n
  have hlead := leads (a := (0xF0 + n / 262144).toUInt8) (by omega) (by omega)
  have hfits : secondFits (0xF0 + n / 262144).toUInt8 (0x80 + n / 4096 % 64).toUInt8 = true :=
    secondFits_of (isContinuation_continuation _) (by omega) (by omega) (by omega) (by omega)
  have hfour : ¬ (0xF0 + n / 262144).toUInt8 < 0xE0 ∧ ¬ (0xF0 + n / 262144).toUInt8 < 0xF0 := by
    simp only [UInt8.lt_iff_toNat_lt, ha, UInt8.reduceToNat]
    omega
  have hvalue : ((bits (0xF0 + n / 262144).toUInt8 8 * 64 + bits (0x80 + n / 4096 % 64).toUInt8 64) *
      64 + bits (0x80 + n / 64 % 64).toUInt8 64) * 64 + bits (0x80 + n % 64).toUInt8 64 = n := by
    unfold bits
    omega
  rw [decodeFrom.eq_def]
  dsimp only
  rw [if_neg hlead.1, if_neg hlead.2, if_neg (by rw [hfits]; decide), if_neg hfour.1,
    if_neg (by rw [isContinuation_continuation]; decide), if_neg hfour.2,
    if_neg (by rw [isContinuation_continuation]; decide), hvalue]

/-- The bytes of a character are read as that character, whatever follows them. -/
theorem decodeFrom_encodeChar (c : Char) :
    ∃ later, decodeFrom position (encodeChar c ++ rest) = (decodeFrom later rest).map (c :: ·) := by
  have hvalid : c.toNat < 0xD800 ∨ 0xDFFF < c.toNat ∧ c.toNat < 0x110000 := c.valid
  have hc : Char.ofNat c.toNat = c := Char.ofNat_toNat c
  unfold encodeChar
  dsimp only
  generalize c.toNat = n at hc hvalid ⊢
  subst hc
  split
  next h => exact ⟨_, decodeFrom_one position rest h⟩
  next hone =>
    split
    next h => exact ⟨_, decodeFrom_two position rest (by omega) h⟩
    next htwo =>
      split
      next h => exact ⟨_, decodeFrom_three position rest (by omega) h (by omega)⟩
      next hthree => exact ⟨_, decodeFrom_four position rest (by omega) (by omega)⟩

theorem decodeFrom_encode (s : List Char) : decodeFrom position (encode s) = .ok s := by
  induction s generalizing position with
  | nil => rfl
  | cons c s ih =>
    obtain ⟨later, h⟩ := decodeFrom_encodeChar position (encode s) c
    rw [ih] at h
    exact h

/-- Reading the bytes of a text gives the text. -/
theorem decode_encode (s : List Char) : decode (encode s) = .ok s := decodeFrom_encode 0 s

/-! ### Bytes that are read -/

variable {c d : UInt8} {position : Nat} {bytes : List UInt8} {s : List Char}

theorem toNat_ofNat (h : n < 0xD800 ∨ 0xDFFF < n ∧ n < 0x110000) : (Char.ofNat n).toNat = n := by
  rw [Char.ofNat, dif_pos h]
  rfl

theorem toUInt8_eq (h : n = a.toNat) : n.toUInt8 = a := by
  rw [h]
  exact UInt8.ofNat_toNat

/-- The bounds on a second byte that fits. -/
theorem bounds_of_secondFits (h : secondFits a b = true) : (0x80 ≤ b.toNat ∧ b.toNat < 0xC0) ∧
    (a.toNat = 0xE0 → 0xA0 ≤ b.toNat) ∧ (a.toNat = 0xED → b.toNat < 0xA0) ∧
    (a.toNat = 0xF0 → 0x90 ≤ b.toNat) ∧ (a.toNat = 0xF4 → b.toNat < 0x90) := by
  simp only [secondFits, Bool.and_eq_true, isContinuation_iff, Bool.not_eq_true',
    Bool.and_eq_false_iff, beq_eq_false_iff_ne, decide_eq_false_iff_not, ← UInt8.toNat_inj, ne_eq,
    UInt8.lt_iff_toNat_lt, UInt8.le_iff_toNat_le, ge_iff_le, UInt8.reduceToNat] at h
  omega

theorem bounds_of_lead (h : ¬ (a < 0xC2 || a > 0xF4) = true) :
    0xC2 ≤ a.toNat ∧ a.toNat ≤ 0xF4 := by
  simp only [Bool.or_eq_true, decide_eq_true_eq, UInt8.lt_iff_toNat_lt, gt_iff_lt,
    UInt8.reduceToNat] at h
  omega

theorem encodeChar_one (h : a.toNat < 0x80) : encodeChar (Char.ofNat a.toNat) = [a] := by
  unfold encodeChar
  rw [toNat_ofNat (.inl (by omega))]
  dsimp only
  rw [if_pos h, toUInt8_eq rfl]

theorem encodeChar_two (hlow : 0xC2 ≤ a.toNat) (hhigh : a.toNat < 0xE0)
    (hb : 0x80 ≤ b.toNat ∧ b.toNat < 0xC0) :
    encodeChar (Char.ofNat (bits a 32 * 64 + bits b 64)) = [a, b] := by
  have ha : a.toNat % 32 + 0xC0 = a.toNat := by omega
  have hb' : b.toNat % 64 + 0x80 = b.toNat := by omega
  unfold encodeChar bits
  rw [toNat_ofNat (.inl (by omega))]
  dsimp only
  rw [if_neg (by omega), if_pos (by omega), toUInt8_eq (a := a) (by omega),
    toUInt8_eq (a := b) (by omega)]

theorem encodeChar_three (hlow : 0xE0 ≤ a.toNat) (hhigh : a.toNat < 0xF0)
    (hb : secondFits a b = true) (hc : isContinuation c = true) :
    encodeChar (Char.ofNat ((bits a 16 * 64 + bits b 64) * 64 + bits c 64)) = [a, b, c] := by
  have hb := bounds_of_secondFits hb
  have hc := isContinuation_iff.mp hc
  have ha' : a.toNat % 16 + 0xE0 = a.toNat := by omega
  have hb' : b.toNat % 64 + 0x80 = b.toNat := by omega
  have hc' : c.toNat % 64 + 0x80 = c.toNat := by omega
  unfold encodeChar bits
  rw [toNat_ofNat (by omega)]
  dsimp only
  rw [if_neg (by omega), if_neg (by omega), if_pos (by omega), toUInt8_eq (a := a) (by omega),
    toUInt8_eq (a := b) (by omega), toUInt8_eq (a := c) (by omega)]

theorem encodeChar_four (hlow : 0xF0 ≤ a.toNat) (hhigh : a.toNat ≤ 0xF4)
    (hb : secondFits a b = true) (hc : isContinuation c = true) (hd : isContinuation d = true) :
    encodeChar (Char.ofNat (((bits a 8 * 64 + bits b 64) * 64 + bits c 64) * 64 + bits d 64)) =
      [a, b, c, d] := by
  have hb := bounds_of_secondFits hb
  have hc := isContinuation_iff.mp hc
  have hd := isContinuation_iff.mp hd
  have ha' : a.toNat % 8 + 0xF0 = a.toNat := by omega
  have hb' : b.toNat % 64 + 0x80 = b.toNat := by omega
  have hc' : c.toNat % 64 + 0x80 = c.toNat := by omega
  have hd' : d.toNat % 64 + 0x80 = d.toNat := by omega
  unfold encodeChar bits
  rw [toNat_ofNat (by omega)]
  dsimp only
  rw [if_neg (by omega), if_neg (by omega), if_neg (by omega), toUInt8_eq (a := a) (by omega),
    toUInt8_eq (a := b) (by omega), toUInt8_eq (a := c) (by omega), toUInt8_eq (a := d) (by omega)]

/-- Bytes that are read as a text are the bytes of the text. -/
theorem encode_of_decodeFrom (h : decodeFrom position bytes = .ok s) : encode s = bytes := by
  have hcons {c : Char} {position : Nat} {t : List Char} {rest : List UInt8}
      (h : (decodeFrom position rest).map (c :: ·) = .ok t)
      (ih : ∀ {s}, decodeFrom position rest = .ok s → encode s = rest) :
      encode t = encodeChar c ++ rest := by
    cases hrest : decodeFrom position rest with
    | error f => rw [hrest] at h; cases h
    | ok u =>
      rw [hrest] at h
      cases h
      exact congrArg (encodeChar c ++ ·) (ih hrest)
  fun_induction decodeFrom position bytes generalizing s with
  | case1 => cases h; rfl
  | case2 position a rest hascii ih =>
    rw [hcons h ih, encodeChar_one (UInt8.lt_iff_toNat_lt.mp hascii)]
    rfl
  | case3 | case4 | case5 | case7 | case8 | case10 | case11 => cases h
  | case6 position a _ hlead b rest hfits htwo ih =>
    have ha := bounds_of_lead hlead
    have hfits : secondFits a b = true := by simpa using hfits
    rw [hcons h ih, encodeChar_two ha.1 (UInt8.lt_iff_toNat_lt.mp htwo) (bounds_of_secondFits hfits).1]
    rfl
  | case9 position a _ _ b hfits htwo c rest hc hthree ih =>
    have hfits : secondFits a b = true := by simpa using hfits
    have hc : isContinuation c = true := by simpa using hc
    have htwo : 0xE0 ≤ a.toNat := UInt8.le_iff_toNat_le.mp (UInt8.not_lt.mp htwo)
    rw [hcons h ih, encodeChar_three htwo (UInt8.lt_iff_toNat_lt.mp hthree) hfits hc]
    rfl
  | case12 position a _ hlead b hfits htwo c hc hthree d rest hd ih =>
    have ha := bounds_of_lead hlead
    have hfits : secondFits a b = true := by simpa using hfits
    have hc : isContinuation c = true := by simpa using hc
    have hd : isContinuation d = true := by simpa using hd
    have hthree : 0xF0 ≤ a.toNat := UInt8.le_iff_toNat_le.mp (UInt8.not_lt.mp hthree)
    rw [hcons h ih, encodeChar_four hthree ha.2 hfits hc hd]
    rfl

/-- Bytes are read as a text just if they are its bytes. -/
theorem decode_ok_iff : decode bytes = .ok s ↔ bytes = encode s := by
  constructor
  · exact fun h => (encode_of_decodeFrom h).symm
  · rintro rfl
    exact decode_encode s
end Utf8

/-! ## Percent signs -/

namespace DatabaseUrl

/-- Characters that stand for themselves. -/
def IsPlainChar (c : Char) : Prop := c.isAlphanum = true ∨ c ∈ ['_', '.', '-', '~', '/', ':']

/-- A hexadecimal digit in upper case. -/
def IsUpperHex (c : Char) : Prop := c.isDigit = true ∨ c ∈ ['A', 'B', 'C', 'D', 'E', 'F']

/-- Plain characters, and percent signs with two upper-case hexadecimal digits. -/
inductive Escaped : List Char → Prop where
  | nil : Escaped []
  | plain {c : Char} {s : List Char} : IsPlainChar c → Escaped s → Escaped (c :: s)
  | byte {high low : Char} {s : List Char} : IsUpperHex high → IsUpperHex low → Escaped s →
    Escaped ('%' :: high :: low :: s)

theorem Escaped.append {s t : List Char} (hs : Escaped s) (ht : Escaped t) : Escaped (s ++ t) := by
  induction hs with
  | nil => exact ht
  | plain hc _ ih => exact .plain hc ih
  | byte hhigh hlow _ ih => exact .byte hhigh hlow ih

/-- The value of a hexadecimal digit in upper case. -/
def hexValue? (c : Char) : Option Nat :=
  if c.isDigit then some (c.toNat - '0'.toNat)
  else if 'A' ≤ c ∧ c ≤ 'F' then some (c.toNat - 'A'.toNat + 10)
  else none

/-- The bytes that a text of ASCII characters and percent escapes stands for. -/
def unescape? : List Char → Option (List UInt8)
  | [] => some []
  | '%' :: high :: low :: rest =>
    match hexValue? high, hexValue? low, unescape? rest with
    | some a, some b, some bytes => some ((a * 16 + b).toUInt8 :: bytes)
    | _, _, _ => none
  | c :: rest => if c.toNat < 0x80 ∧ c ≠ '%' then (unescape? rest).map (c.toNat.toUInt8 :: ·) else none

theorem hexDigit_spec (n : Nat) (h : n < 16) :
    IsUpperHex (hexDigit n) ∧ hexValue? (hexDigit n) = some n := by
  unfold IsUpperHex
  revert n
  decide

theorem isPlain_spec {b : UInt8} (h : isPlain b = true) :
    b.toNat < 0x80 ∧ IsPlainChar (Char.ofNat b.toNat) ∧ Char.ofNat b.toNat ≠ '%' := by
  simp only [isPlain, Bool.and_eq_true, Bool.or_eq_true, decide_eq_true_eq, UInt8.lt_iff_toNat_lt,
    List.contains_iff_mem] at h
  refine ⟨h.1, h.2, fun hpercent => ?_⟩
  rw [hpercent] at h
  exact absurd h.2 (by decide)

/-- A byte is read off its escaped form, whatever follows. -/
theorem unescape?_escapeByte (b : UInt8) (rest : List Char) :
    unescape? (escapeByte b ++ rest) = (unescape? rest).map (b :: ·) := by
  have hb : b.toNat < 256 := b.toNat_lt
  unfold escapeByte
  split
  next h =>
    obtain ⟨hascii, -, hpercent⟩ := isPlain_spec h
    have hchar : (Char.ofNat b.toNat).toNat = b.toNat := Utf8.toNat_ofNat (.inl (by omega))
    rw [List.singleton_append, unescape?.eq_3 _ _ (by simp [hpercent]),
      if_pos ⟨hchar.symm ▸ hascii, hpercent⟩, hchar]
    simp
  next =>
    have hhigh := hexDigit_spec (b.toNat / 16) (by omega)
    have hlow := hexDigit_spec (b.toNat % 16) (by omega)
    have hvalue : (b.toNat / 16 * 16 + b.toNat % 16).toUInt8 = b := by
      rw [Nat.div_add_mod']
      simp
    simp only [List.cons_append, List.nil_append, unescape?, hhigh.2, hlow.2]
    cases unescape? rest with
    | none => rfl
    | some bytes => exact congrArg (fun a => some (a :: bytes)) hvalue

theorem escaped_escapeByte (b : UInt8) : Escaped (escapeByte b) := by
  have hb : b.toNat < 256 := b.toNat_lt
  unfold escapeByte
  split
  next h => exact .plain (isPlain_spec h).2.1 .nil
  next =>
    exact .byte (hexDigit_spec (b.toNat / 16) (by omega)).1
      (hexDigit_spec (b.toNat % 16) (by omega)).1 .nil

theorem escaped_bytes (bytes : List UInt8) : Escaped (bytes.flatMap escapeByte) := by
  induction bytes with
  | nil => exact .nil
  | cons b bytes ih => exact (escaped_escapeByte b).append ih

theorem unescape?_bytes (bytes : List UInt8) :
    unescape? (bytes.flatMap escapeByte) = some bytes := by
  induction bytes with
  | nil => rfl
  | cons b bytes ih => rw [List.flatMap_cons, unescape?_escapeByte, ih, Option.map_some]

/-- What is escaped holds nothing but plain characters and escaped bytes. -/
theorem escaped_escape (s : String) : Escaped (escape s).toList := by
  rw [escape, String.toList_ofList]
  exact escaped_bytes _

/-- The text that an escaped text stands for, if it stands for one. -/
def textOf? (s : List Char) : Option (List Char) :=
  (unescape? s).bind fun bytes => (Utf8.decode bytes).toOption

/-- An escaped text stands for the text that was escaped. -/
theorem textOf?_escape (s : String) : textOf? (escape s).toList = some s.toList := by
  rw [textOf?, escape, String.toList_ofList, unescape?_bytes, Option.bind_some, Utf8.decode_encode]
  rfl

end DatabaseUrl
end SchemaLedger
