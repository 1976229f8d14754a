/-!
Files of a directory, and why one cannot be read.
-/

namespace Script

inductive ReadError
  | missing
  | directory
  | notDirectory
  | other (text : String)
  deriving DecidableEq, Repr

def ReadError.message : ReadError → String
  | .missing => "No such file or directory"
  | .directory => "Is a directory"
  | .notDirectory => "Not a directory"
  | .other text => text

/-- The steps of a path and what stands there: a file's text, or nothing for a directory. -/
abbrev Files := List (List String × Option String)

inductive Place
  | directory (path : List String)
  | file (text : String)

namespace Files

def steps (name : String) : List String :=
  (name.splitOn "/").map fun step => if step = "." then "" else step

def ofEntries (entries : List (String × String)) : Files :=
  entries.map fun (name, text) =>
    ((steps name).filter (· ≠ ""), if name.endsWith "/" then none else some text)

def at? (files : Files) (path : List String) : Option Place :=
  match List.find? (·.1 = path) files with
  | some (_, some text) => some (.file text)
  | some (_, none) => some (.directory path)
  | none =>
    if path = [] ∨ List.any files (path.isPrefixOf ·.1) then some (.directory path) else none

/-- Walks from a directory, whose steps are in `path`. Around the outermost directory there is
nothing to find. -/
def walk (files : Files) (path : List String) : List String → Except ReadError Place
  | [] => .ok (.directory path)
  | step :: rest =>
    if step = "" then files.walk path rest
    else if step = ".." then
      if path ≠ [] then files.walk path.dropLast rest
      else if rest.all fun step => step = "" ∨ step = ".." then .ok (.directory [])
      else .error .missing
    else
      match files.at? (path ++ [step]) with
      | none => .error .missing
      | some (.directory path) => files.walk path rest
      | some (.file text) => if rest = [] then .ok (.file text) else .error .notDirectory

def read (files : Files) (name : String) : Except ReadError String :=
  if name = "" then .error .missing
  else if name.startsWith "/" then
    if (steps name).all (· = "") then .error .directory else .error .missing
  else
    match files.walk [] (steps name) with
    | .error e => .error e
    | .ok (.file text) => .ok text
    | .ok (.directory _) => .error .directory

end Files

end Script
