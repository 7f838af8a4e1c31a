-- Quoted texts, as messages show them: single quotes, or double quotes around a
-- text that holds a single quote and no double quote. Inside, the quote in use,
-- the backslash and all characters that do not print are escaped.
import SchemaLedger.Text.Printable

namespace SchemaLedger.Text

/-- Lower-case hexadecimal digits, filled up with zeros to `width`. -/
def hex (width n : Nat) : List Char :=
  let ds := Nat.toDigits 16 n
  List.replicate (width - ds.length) '0' ++ ds

/-- How one character is written between quotes `q`. -/
def escaped (q c : Char) : List Char :=
  if c = q ∨ c = '\\' then ['\\', c]
  else if c = '\n' then ['\\', 'n']
  else if c = '\r' then ['\\', 'r']
  else if c = '\t' then ['\\', 't']
  else if isPrintable c then [c]
  else if c.toNat < 0x100 then '\\' :: 'x' :: hex 2 c.toNat
  else if c.toNat < 0x10000 then '\\' :: 'u' :: hex 4 c.toNat
  else '\\' :: 'U' :: hex 8 c.toNat

/-- The quote for a text. -/
def quoteFor (s : List Char) : Char :=
  if s.contains '\x27' && !s.contains '\x22' then '\x22' else '\x27'

def quotedChars (s : List Char) : List Char :=
  let q := quoteFor s
  q :: s.flatMap (escaped q) ++ [q]

/-- A text in quotes. -/
def quoted (s : String) : String := String.ofList (quotedChars s.toList)

end SchemaLedger.Text
