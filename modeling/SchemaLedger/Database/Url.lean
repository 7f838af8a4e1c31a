-- Database URLs. A text that starts with the name of a known backend is a URL as it
-- stands. Any other text is the path of a file, which is made absolute and written
-- with percent signs for all but a few characters.
import SchemaLedger.Files.Path
import SchemaLedger.Text.Utf8
import SchemaLedger.Failure

namespace SchemaLedger.DatabaseUrl

/-- A text starts with another one. -/
def startsWith (start s : String) : Bool := start.toList.isPrefixOf s.toList

/-- The backends that a URL may start with. -/
def backends : List String := ["sqlite", "postgresql", "mysql"]

def isUrl (s : String) : Bool := backends.any (startsWith · s)

/-- Characters that stand for themselves in the path of a URL. -/
def isPlain (b : UInt8) : Bool :=
  let c := Char.ofNat b.toNat
  b < 128 && (c.isAlphanum || ['_', '.', '-', '~', '/', ':'].contains c)

/-- A hexadecimal digit, in upper case. -/
def hexDigit (n : Nat) : Char := (Nat.digitChar n).toUpper

def escapeByte (b : UInt8) : List Char :=
  if isPlain b then [Char.ofNat b.toNat]
  else ['%', hexDigit (b.toNat / 16), hexDigit (b.toNat % 16)]

/-- A text with percent signs for the bytes of all other characters. -/
def escape (s : String) : String := String.ofList ((Utf8.encode s.toList).flatMap escapeByte)

/-- The path that a text denotes from a directory. Absolute paths keep double dots. -/
def pathOf (base : List String) (s : String) : Except FileFault Path :=
  let p := Path.ofText s
  if p.isAbsolute then .ok p
  else if s.toList.contains '\x00' then .error .nullInPath
  else .ok (p.resolve base)

/-- The URL that a text stands for, seen from a directory. -/
def normalize (base : List String) (s : String) : Except FileFault String :=
  if isUrl s then .ok s
  else if s = ":memory:" then .ok "sqlite:///:memory:"
  else (pathOf base s).map fun p => "sqlite:///" ++ escape p.text

/-- The backend of a URL: what comes before the first colon, and before a plus sign in that. -/
def backend (url : String) : String :=
  String.ofList ((url.toList.takeWhile (· != ':')).takeWhile (· != '+'))

end SchemaLedger.DatabaseUrl
