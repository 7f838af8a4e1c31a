-- The arguments of a command line at one level: options, some with a value, and
-- operands. They are read from the left, and the first fault, or the first request
-- for help, ends the reading.
import SchemaLedger.Text.Digit
import SchemaLedger.Text.Quoted

namespace SchemaLedger

/-- An option. -/
structure Flag where
  spellings : List String
  takesValue : Bool := true
  deriving DecidableEq, Repr

/-- The option that asks for help. It is the only one without a value. -/
def Flag.help : Flag := ⟨["-h", "--help"], false⟩

def Flag.text (f : Flag) : String := "/".intercalate f.spellings

/-- What is wrong with arguments. -/
inductive ArgumentFault where
  /-- A shortened option that could be several. -/
  | ambiguous (argument : String) (spellings : List String)
  | noValue (f : Flag)
  /-- A value with an option that takes none. -/
  | needlessValue (f : Flag) (value : String)
  | noCommand
  | unknownCommand (name : String) (known : List String)
  /-- Arguments that nothing asks for. -/
  | unrecognized (arguments : List String)
  deriving DecidableEq, Repr

def ArgumentFault.message : ArgumentFault → String
  | .ambiguous a ss => "ambiguous option: " ++ a ++ " could match " ++ ", ".intercalate ss
  | .noValue f => "argument " ++ f.text ++ ": expected one argument"
  | .needlessValue f v =>
    "argument " ++ f.text ++ ": ignored explicit argument " ++ Text.quoted v
  | .noCommand => "the following arguments are required: command"
  | .unknownCommand n known =>
    "argument command: invalid choice: " ++ Text.quoted n ++
      " (choose from " ++ ", ".intercalate (known.map Text.quoted) ++ ")"
  | .unrecognized as => "unrecognized arguments: " ++ " ".intercalate as

/-! ## One argument -/

/-- What is written into the argument of an option beside its name. -/
inductive Attached where
  | nothing
  /-- A value behind an equals sign. -/
  | assigned (value : List Char)
  /-- More letters behind a name of one letter. -/
  | joined (rest : List Char)
  deriving DecidableEq, Repr

/-- What an argument is. -/
inductive Mark where
  | operand
  /-- Two dashes: all that comes after them is an operand. -/
  | divider
  | option (f : Flag) (attached : Attached)
  /-- An option that this level does not have. -/
  | foreign
  deriving DecidableEq, Repr

namespace Mark

/-- A text up to its first equals sign, and what is behind that. -/
def splitAssigned : List Char → List Char × Attached
  | [] => ([], .nothing)
  | '=' :: value => ([], .assigned value)
  | c :: rest => let (name, v) := splitAssigned rest; (c :: name, v)

def allDigits (s : List Char) : Bool := s.all fun c => (Text.digit? c).isSome

/-- A number with a minus sign. A line break may follow it. -/
def isNegative : List Char → Bool
  | '-' :: rest =>
    let s := if rest.getLast? = some '\n' then rest.dropLast else rest
    let whole := s.takeWhile (· != '.')
    match s.drop whole.length with
    | [] => !whole.isEmpty && allDigits whole
    | _ :: places => allDigits whole && !places.isEmpty && allDigits places
  | _ => false

/-- The spellings of all options. -/
def spellings (flags : List Flag) : List (List Char × Flag) :=
  flags.flatMap fun f => f.spellings.map fun s => (s.toList, f)

/-- What a name of one letter can stand for, with or without more letters behind it. -/
def fromLetter (flags : List Flag) (letter : Char) (rest : List Char) : List (List Char × Mark) :=
  (spellings flags).filterMap fun (s, f) =>
    if s = ['-', letter] then some (s, .option f (.joined rest))
    else if ('-' :: letter :: rest).isPrefixOf s then some (s, .option f .nothing)
    else none

/-- What the beginning of a longer name can stand for. -/
def fromStart (flags : List Flag) (argument : List Char) : List (List Char × Mark) :=
  let (name, attached) := splitAssigned argument
  (spellings flags).filterMap fun (s, f) =>
    if name.isPrefixOf s then some (s, .option f attached) else none

/-- All that an argument with a dash can stand for, if it is no full spelling. -/
def candidates (flags : List Flag) : List Char → List (List Char × Mark)
  | '-' :: '-' :: rest => fromStart flags ('-' :: '-' :: rest)
  | '-' :: c :: rest => fromLetter flags c rest
  | _ => []

/-- The option that an argument spells in full. -/
def spelled? (flags : List Flag) (argument : List Char) : Option Mark :=
  let (name, attached) := splitAssigned argument
  match (spellings flags).lookup argument, (spellings flags).lookup name with
  | some f, _ => some (.option f .nothing)
  | none, some f => some (.option f attached)
  | none, none => none

/-- What an argument is at a level with some options. -/
def of (flags : List Flag) (argument : String) : Except ArgumentFault Mark :=
  let s := argument.toList
  if s.head? != some '-' || s == ['-'] then .ok .operand
  else
    match spelled? flags s, candidates flags s with
    | some m, _ => .ok m
    | none, [(_, m)] => .ok m
    | none, [] => .ok (if isNegative s || s.contains ' ' then .operand else .foreign)
    | none, cs => .error (.ambiguous argument (cs.map fun c => String.ofList c.1))

/-- Arguments with what they are. -/
def all (flags : List Flag) : List String → Except ArgumentFault (List (String × Mark))
  | [] => .ok []
  | a :: rest =>
    if a = "--" then .ok ((a, .divider) :: rest.map fun r => (r, .operand))
    else do
      let m ← of flags a
      return (a, m) :: (← all flags rest)

end Mark

/-! ## One level -/

/-- What the arguments of one level say. -/
inductive Reading where
  | help
  /-- The values of options in order, arguments that nothing asks for, and the command
  with all that comes after it. -/
  | given (values : List (Flag × String)) (extras : List String) (command : List String)
  deriving DecidableEq, Repr

namespace Reading

def withValue (f : Flag) (v : String) : Reading → Reading
  | .given values extras command => .given ((f, v) :: values) extras command
  | .help => .help

def withExtra (a : String) : Reading → Reading
  | .given values extras command => .given values (a :: extras) command
  | .help => .help

/-- A request for help with more letters behind it. A letter that is no option does
not matter any more, but a value does. -/
def helpWith : List Char → Except ArgumentFault Reading
  | '-' :: rest => .error (.needlessValue .help (String.ofList ('-' :: rest)))
  | 'h' :: '=' :: value => .error (.needlessValue .help (String.ofList value))
  | 'h' :: rest => helpWith rest
  | _ => .ok .help

/-- Reads arguments. Where a level has commands, its first operand is one. -/
def ofMarks (commands : Bool) : List (String × Mark) → Except ArgumentFault Reading
  | [] => .ok (.given [] [] [])
  | (a, .operand) :: rest =>
    if commands then .ok (.given [] [] (a :: rest.map Prod.fst))
    else (ofMarks commands rest).map (withExtra a)
  | (a, .divider) :: rest =>
    if commands && !rest.isEmpty then .ok (.given [] [] (a :: rest.map Prod.fst))
    else (ofMarks commands rest).map (withExtra a)
  | (a, .foreign) :: rest => (ofMarks commands rest).map (withExtra a)
  | (_, .option f (.assigned v)) :: rest =>
    if f.takesValue then (ofMarks commands rest).map (withValue f (String.ofList v))
    else .error (.needlessValue f (String.ofList v))
  | (_, .option f (.joined v)) :: rest =>
    if f.takesValue then (ofMarks commands rest).map (withValue f (String.ofList v)) else helpWith v
  | (_, .option f .nothing) :: (v, .operand) :: rest =>
    if f.takesValue then (ofMarks commands rest).map (withValue f v) else .ok .help
  | (_, .option f .nothing) :: _ => if f.takesValue then .error (.noValue f) else .ok .help

/-- Reads the arguments of a level with some options. -/
def ofArguments (flags : List Flag) (commands : Bool) (arguments : List String) :
    Except ArgumentFault Reading := do
  ofMarks commands (← Mark.all flags arguments)

end Reading
end SchemaLedger
