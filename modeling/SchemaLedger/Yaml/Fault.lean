-- Why a YAML text has no value: it is malformed, or a scalar with a declared or
-- recognised kind does not spell a value of that kind.

namespace SchemaLedger.Yaml

inductive Fault where
  /-- The text breaks the rules of the format, or names what it does not define. -/
  | malformed
  /-- An escape names no character. -/
  | noSuchCharacter
  | notAnInteger (base : Nat) (quoted : String)
  | notAFloat (quoted : String)
  | tooManyDigits (count : Nat)
  | emptyNumber
  | notABool (quoted : String)
  | notAMoment
  /-- A date or a time of day that does not exist. -/
  | noSuchMoment (reason : String)
  deriving DecidableEq, Repr

def Fault.message : Fault → String
  | .malformed => "malformed"
  | .noSuchCharacter => "chr() arg not in range(0x110000)"
  | .notAnInteger base q => "invalid literal for int() with base " ++ toString base ++ ": " ++ q
  | .notAFloat q => "could not convert string to float: " ++ q
  | .tooManyDigits n =>
    "Exceeds the limit (4300 digits) for integer string conversion: value has " ++ toString n ++
      " digits; use sys.set_int_max_str_digits() to increase the limit"
  | .emptyNumber => "string index out of range"
  | .notABool q => q
  | .notAMoment => "'NoneType' object has no attribute 'groupdict'"
  | .noSuchMoment reason => reason

end SchemaLedger.Yaml
