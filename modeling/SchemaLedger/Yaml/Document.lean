-- YAML documents: the nodes that tokens describe, with anchors and tags resolved,
-- and the value of a text that holds one document.
import SchemaLedger.Yaml.Token
import SchemaLedger.Yaml.Scalar

namespace SchemaLedger.Yaml

inductive Node where
  | scalar (tag : String) (text : List Char)
  | sequence (tag : String) (items : List Node)
  | mapping (tag : String) (entries : List (Node × Node))
  deriving Repr, Inhabited

def Node.tag : Node → String
  | .scalar t _ => t
  | .sequence t _ => t
  | .mapping t _ => t

/-! ## Nodes from tokens -/

/-- The tokens that are left, the tag handles in force and the nodes named so far.
A collection that is still open is named without its contents. -/
structure Builder where
  tokens : List Token
  handles : List (List Char × List Char) := []
  anchors : List (List Char × Node) := []

abbrev Build := StateT Builder (Except Fault)

namespace Build

def fail {α : Type} : Build α := throw .malformed

def peek : Build (Option Token) := do return (← get).tokens.head?

def drop : Build Unit := modify fun b => { b with tokens := b.tokens.tail }

/-- Takes the next token if it is `t`. -/
def take? (t : Token) : Build Bool := do
  if (← peek) == some t then
    drop
    return true
  else return false

/-- The next token is one of these, or there is none and `atEnd`. -/
def sees (ts : List Token) : Build Bool := do
  match ← peek with
  | some t => return ts.contains t
  | none => return false

def defaultHandles : List (List Char × List Char) :=
  [(['!'], ['!']), (['!', '!'], "tag:yaml.org,2002:".toList)]

/-- The full tag of a token, or nothing for the mark that asks for the usual one. -/
def tagText (handle : Option (List Char)) (suffix : List Char) : Build (Option String) := do
  match handle with
  | none => return if suffix = ['!'] then none else some (String.ofList suffix)
  | some h =>
    match (← get).handles.lookup h with
    | some expansion =>
      let full := expansion ++ suffix
      return if full = ['!'] then none else some (String.ofList full)
    | none => fail

/-- An anchor and a tag in front of a node, in either order. The second result is
whether there is a tag at all. -/
def properties : Build (Option (List Char) × Option (Option String)) := do
  match ← peek with
  | some (.anchor a) =>
    drop
    match ← peek with
    | some (.tag h s) =>
      drop
      return (some a, some (← tagText h s))
    | _ => return (some a, none)
  | some (.tag h s) =>
    drop
    let t ← tagText h s
    match ← peek with
    | some (.anchor a) =>
      drop
      return (some a, some t)
    | _ => return (none, some t)
  | _ => return (none, none)

def checkAnchor (anchor : Option (List Char)) : Build Unit := do
  match anchor with
  | some a => if ((← get).anchors.lookup a).isSome then fail
  | none => return

def name (anchor : Option (List Char)) (n : Node) : Build Unit :=
  match anchor with
  | some a => modify fun b => { b with anchors := (a, n) :: b.anchors }
  | none => return

def emptyNode : Node := .scalar (coreTag "null") []

mutual

/-- A node. `block` allows block collections, `bare` a sequence whose entries stand
at the column of the key before them. -/
def node (block bare : Bool) : Nat → Build Node
  | 0 => fail
  | fuel + 1 => do
    match ← peek with
    | some (.alias a) =>
      drop
      match (← get).anchors.lookup a with
      | some n => return n
      | none => fail
    | _ =>
      let (anchor, tag) ← properties
      checkAnchor anchor
      let seqTag := (tag.join).getD (coreTag "seq")
      let mapTag := (tag.join).getD (coreTag "map")
      let sequence (items : Build (List Node)) : Build Node := do
        name anchor (.sequence seqTag [])
        let n := Node.sequence seqTag (← items)
        name anchor n
        return n
      let mapping (entries : Build (List (Node × Node))) : Build Node := do
        name anchor (.mapping mapTag [])
        let n := Node.mapping mapTag (← entries)
        name anchor n
        return n
      let next ← peek
      if bare && next == some .blockEntry then sequence (bareItems fuel)
      else
        match next with
        | some (.scalar text plain) =>
          drop
          let t := match tag with
            | none => if plain then plainTag text else coreTag "str"
            | some none => plainTag text
            | some (some t) => t
          let n := Node.scalar t text
          name anchor n
          return n
        | some .flowSequenceStart => drop; sequence (flowItems fuel true)
        | some .flowMappingStart => drop; mapping (flowEntries fuel true)
        | some .blockSequenceStart =>
          if block then do drop; sequence (blockItems fuel) else fail
        | some .blockMappingStart =>
          if block then do drop; mapping (blockEntries fuel) else fail
        | _ =>
          if anchor.isSome || tag.isSome then
            let n := Node.scalar ((tag.join).getD (coreTag "null")) []
            name anchor n
            return n
          else fail

def blockItems : Nat → Build (List Node)
  | 0 => fail
  | fuel + 1 => do
    if ← take? .blockEntry then
      let n ← if ← sees [.blockEntry, .blockEnd] then pure emptyNode else node true false fuel
      return n :: (← blockItems fuel)
    else if ← take? .blockEnd then return []
    else fail

def bareItems : Nat → Build (List Node)
  | 0 => fail
  | fuel + 1 => do
    if ← take? .blockEntry then
      let n ← if ← sees [.blockEntry, .key, .value, .blockEnd] then pure emptyNode
        else node true false fuel
      return n :: (← bareItems fuel)
    else return []

def blockEntries : Nat → Build (List (Node × Node))
  | 0 => fail
  | fuel + 1 => do
    if ← take? .key then
      let k ← if ← sees [.key, .value, .blockEnd] then pure emptyNode else node true true fuel
      let v ← if ← take? .value then
          if ← sees [.key, .value, .blockEnd] then pure emptyNode else node true true fuel
        else pure emptyNode
      return (k, v) :: (← blockEntries fuel)
    else if ← take? .blockEnd then return []
    else fail

def flowItems : Nat → Bool → Build (List Node)
  | 0, _ => fail
  | fuel + 1, first => do
    if ← take? .flowSequenceEnd then return []
    else
      if !first then
        if !(← take? .flowEntry) then fail
      if ← take? .key then
        let k ← if ← sees [.value, .flowEntry, .flowSequenceEnd] then pure emptyNode
          else node false false fuel
        let v ← if ← take? .value then
            if ← sees [.flowEntry, .flowSequenceEnd] then pure emptyNode else node false false fuel
          else pure emptyNode
        return .mapping (coreTag "map") [(k, v)] :: (← flowItems fuel false)
      else if ← take? .flowSequenceEnd then return []
      else
        let n ← node false false fuel
        return n :: (← flowItems fuel false)

def flowEntries : Nat → Bool → Build (List (Node × Node))
  | 0, _ => fail
  | fuel + 1, first => do
    if ← take? .flowMappingEnd then return []
    else
      if !first then
        if !(← take? .flowEntry) then fail
      if ← take? .key then
        let k ← if ← sees [.value, .flowEntry, .flowMappingEnd] then pure emptyNode
          else node false false fuel
        let v ← if ← take? .value then
            if ← sees [.flowEntry, .flowMappingEnd] then pure emptyNode else node false false fuel
          else pure emptyNode
        return (k, v) :: (← flowEntries fuel false)
      else if ← take? .flowMappingEnd then return []
      else
        let k ← node false false fuel
        return (k, emptyNode) :: (← flowEntries fuel false)

end

/-- The directives in front of a document. -/
def directives : Nat → Bool → List (List Char × List Char) → Build (List (List Char × List Char))
  | 0, _, handles => return handles
  | fuel + 1, versioned, handles => do
    match ← peek with
    | some (.versionDirective major _) =>
      drop
      if versioned || major ≠ 1 then fail else directives fuel true handles
    | some (.tagDirective h expansion) =>
      drop
      if (handles.lookup h).isSome then fail else directives fuel versioned ((h, expansion) :: handles)
    | some .otherDirective => drop; directives fuel versioned handles
    | _ => return handles

def dropDocumentEnds : Nat → Build Unit
  | 0 => return
  | fuel + 1 => do if ← take? .documentEnd then dropDocumentEnds fuel

/-- The one document of a text, or nothing for a text without one. -/
def document (fuel : Nat) : Build (Option Node) := do
  let isStart : Token → Bool
    | .versionDirective _ _ | .tagDirective _ _ | .otherDirective | .documentStart => true
    | _ => false
  match ← peek with
  | none => return none
  | some t =>
    let n ←
      if isStart t then do
        let handles ← directives fuel false []
        if !(← take? .documentStart) then fail
        else
          let usual := defaultHandles.filter fun h => (handles.lookup h.1).isNone
          modify fun b => { b with handles := handles ++ usual }
          match ← peek with
          | none => pure emptyNode
          | some t => if isStart t || t == .documentEnd then pure emptyNode else node true false fuel
      else do
        modify fun b => { b with handles := defaultHandles }
        node true false fuel
    dropDocumentEnds fuel
    if (← peek).isNone then return some n else fail

end Build

/-! ## Values of nodes -/

/-- Replaces merge keys by the entries that they merge in, which come first and
give way to the mapping's own. -/
def flatten : Nat → List (Node × Node) → Except Fault (List (Node × Node))
  | 0, entries => .ok entries
  | fuel + 1, entries => do
    let merged ← (entries.filter fun e => e.1.tag == coreTag "merge").mapM fun e =>
      match e.2 with
      | .mapping _ es => flatten fuel es
      | .sequence _ items => do
        let parts ← items.mapM fun n =>
          match n with
          | .mapping _ es => flatten fuel es
          | _ => Except.error Fault.malformed
        return parts.reverse.flatten
      | .scalar _ _ => .error .malformed
    let own := (entries.filter fun e => e.1.tag != coreTag "merge").map fun e =>
      match e.1 with
      | .scalar t s => if t == coreTag "value" then (Node.scalar (coreTag "str") s, e.2) else e
      | _ => e
    return merged.flatten ++ own

/-- Keys must be scalars or groups of them. -/
def isKey : Value → Bool
  | .list _ | .map _ | .set _ => false
  | _ => true

/-- Entries that name the same key become one, in the earlier place. -/
def putAll (entries : List (Value × Value)) : List (Value × Value) :=
  entries.foldl (fun acc e => Value.setEntry e.1 e.2 acc) []

/-- The value of a node. The fuel bounds the nesting. -/
def valueOf : Nat → Node → Except Fault Value
  | 0, _ => .error .malformed
  | fuel + 1, n =>
    let entryValues (es : List (Node × Node)) : Except Fault (List (Value × Value)) := do
      let es ← flatten fuel es
      let es ← es.mapM fun e => do
        let k ← valueOf fuel e.1
        if isKey k then return (k, ← valueOf fuel e.2) else Except.error Fault.malformed
      return putAll es
    match n with
    | .scalar tag text => scalarValue tag text
    | .sequence tag items =>
      if tag == coreTag "seq" then (items.mapM (valueOf fuel)).map .list
      else if tag == coreTag "omap" || tag == coreTag "pairs" then do
        let pairs ← items.mapM fun item =>
          match item with
          | .mapping _ [(k, v)] => do return Value.group [← valueOf fuel k, ← valueOf fuel v]
          | _ => Except.error Fault.malformed
        return .list pairs
      else .error .malformed
    | .mapping tag entries =>
      if tag == coreTag "map" then (entryValues entries).map .map
      else if tag == coreTag "set" then do
        let es ← entryValues entries
        return .set (es.map Prod.fst)
      else .error .malformed

/-- The value of a text with at most one document; a text without one has no value. -/
def read (text : List Char) : Except Fault Value := do
  let ts ← tokens text
  let fuel := 8 * ts.length + 16
  let (n, _) ← (Build.document fuel).run { tokens := ts }
  match n with
  | none => return .null
  | some n => valueOf fuel n

end SchemaLedger.Yaml
