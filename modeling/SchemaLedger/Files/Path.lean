-- Paths in their normal form: repeated slashes and single dots are dropped, double
-- dots are kept, and exactly two slashes at the front are kept as they are. A path
-- can be resolved against a directory, which takes the double dots out.

namespace SchemaLedger

structure Path where
  /-- How many slashes come first: none for a relative path. -/
  slashes : Nat
  parts : List String
  deriving DecidableEq, Repr

namespace Path

/-- The parts of a text between slashes, where `part` has begun. -/
def splitFrom (part : List Char) : List Char → List (List Char)
  | [] => [part]
  | c :: rest => if c = '/' then part :: splitFrom [] rest else splitFrom (part ++ [c]) rest

/-- How many slashes count for as many at the front of a text. -/
def leading (n : Nat) : Nat := if n = 0 then 0 else if n = 2 then 2 else 1

def ofChars (s : List Char) : Path :=
  { slashes := leading (s.takeWhile (· == '/')).length,
    parts := ((splitFrom [] s).filter fun p => p != [] && p != ['.']).map String.ofList }

def ofText (s : String) : Path := ofChars s.toList

def isAbsolute (p : Path) : Bool := 0 < p.slashes

def text (p : Path) : String :=
  let body := "/".intercalate p.parts
  if p.slashes = 0 ∧ p.parts.isEmpty then "."
  else String.ofList (List.replicate p.slashes '/') ++ body

/-- The last part with the last point in it, unless that is at one of its ends. -/
def suffix (p : Path) : String :=
  let name := ((p.parts.getLast?).getD "").toList
  let after := (name.reverse.takeWhile (· != '.')).reverse
  let before := name.take (name.length - after.length - 1)
  if after.isEmpty ∨ after.length = name.length ∨ before.isEmpty then ""
  else String.ofList ('.' :: after)

/-- Without the last part. -/
def parent (p : Path) : Path := { p with parts := p.parts.dropLast }

/-- Takes double dots out, from the left. One that has nothing before it is dropped. -/
def collapse (parts : List String) : List String :=
  parts.foldl (fun done p => if p = ".." then done.dropLast else done ++ [p]) []

/-- The absolute path that a path denotes from a directory. -/
def resolve (base : List String) (p : Path) : Path :=
  if p.isAbsolute then { slashes := 1, parts := collapse p.parts }
  else { slashes := 1, parts := collapse (base ++ p.parts) }

end Path
end SchemaLedger
