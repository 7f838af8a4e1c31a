-- Trees of files below a working directory. A file's directories exist with it.
import SchemaLedger.Files.Path

namespace SchemaLedger

structure FileTree where
  /-- Files by the parts of their paths. -/
  files : List (List String × List UInt8) := []
  dirs : List (List String) := []
  deriving Repr

namespace FileTree

/-- Why a path leads to no file. -/
inductive Fault where
  | missing
  | isDirectory
  /-- The path goes on behind a file. -/
  | notADirectory
  deriving DecidableEq, Repr

def file? (t : FileTree) (parts : List String) : Option (List UInt8) := t.files.lookup parts

def isDir (t : FileTree) (parts : List String) : Bool :=
  parts.isEmpty || t.dirs.any parts.isPrefixOf ||
    t.files.any fun f => parts.isPrefixOf f.1 && parts.length < f.1.length

/-- Follows the parts of a path from a directory to a place in the tree. -/
def walk (t : FileTree) (place : List String) : List String → Except Fault (List String)
  | [] => .ok place
  | ".." :: rest => if place.isEmpty then .error .missing else walk t place.dropLast rest
  | p :: rest =>
    if t.isDir (place ++ [p]) then walk t (place ++ [p]) rest
    else if (t.file? (place ++ [p])).isSome then
      if rest.isEmpty then .ok (place ++ [p]) else .error .notADirectory
    else .error .missing

/-- The bytes of the file at a path. What lies outside the tree is missing. -/
def read (t : FileTree) (p : Path) : Except Fault (List UInt8) :=
  if p.isAbsolute then .error (if p.parts.isEmpty then .isDirectory else .missing)
  else
    match t.walk [] p.parts with
    | .error e => .error e
    | .ok place => (t.file? place).elim (.error .isDirectory) .ok

/-- Writes bytes at the end of a file, which is created if it is not there. -/
def append (t : FileTree) (parts : List String) (bytes : List UInt8) : FileTree :=
  if (t.file? parts).isSome then
    { t with files := t.files.map fun f => if f.1 == parts then (f.1, f.2 ++ bytes) else f }
  else { t with files := t.files ++ [(parts, bytes)] }

/-- Creates a directory with all above it. -/
def makeDir (t : FileTree) (parts : List String) : FileTree :=
  if t.isDir parts then t else { t with dirs := t.dirs ++ [parts] }

end FileTree
end SchemaLedger
