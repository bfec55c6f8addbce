/-
  Files, and the paths that lead to them.

  A file stands at a place, which is the list of the names that lead to it from
  the root.  A path is followed part by part, from the root or from the
  directory of the run, and every step needs a directory to start from.

  * `FileError`: why a path leads to no text, with the words of the system;
  * `Files.follow`: the way from a place along the parts of a path;
  * `Files.read`: the text that a path leads to.
-/

namespace MacroLisp

/-- Why a file cannot be read. -/
inductive FileError where
  | missing
  | denied
  | directory
  | notDirectory
  | nameTooLong
  | notText
  | other (reason : String)
deriving DecidableEq, Repr

def FileError.message : FileError → String
  | missing => "No such file or directory (os error 2)"
  | denied => "Permission denied (os error 13)"
  | directory => "Is a directory (os error 21)"
  | notDirectory => "Not a directory (os error 20)"
  | nameTooLong => "File name too long (os error 36)"
  | notText => "stream did not contain valid UTF-8"
  | other reason => reason

/-- The names that lead to a file or to a directory, from the root on. -/
abbrev Place := List String

/-- What stands at a place. -/
inductive Entry where
  | file (text : String)
  | directory
deriving DecidableEq, Repr

/-- The texts of some files, and the directory that a run starts in.  A
    directory is there when something stands in it. -/
structure Files where
  home : Place
  texts : List (Place × String)
deriving Repr

namespace Files

/-- What stands at `place`, if anything does. -/
def entry? (fs : Files) (place : Place) : Option Entry :=
  match fs.texts.find? fun t => t.1 == place with
  | some t => some (.file t.2)
  | none =>
    if place.isPrefixOf fs.home || fs.texts.any fun t => place.isPrefixOf t.1 then some .directory
    else none

/-- The bytes that one name may have. -/
def nameLimit : Nat := 255

/-- The bytes that no path has as many of. -/
def pathLimit : Nat := 4096

/-- The place that one part of a path leads to.  Nothing lies above the root. -/
def step (here : Place) : String → Place
  | "" | "." => here
  | ".." => here.dropLast
  | name => here ++ [name]

/-- The text at the end of a path, followed from `here`.  The part after a slash
    at the end is empty, so that a file with a slash after it is no directory. -/
def follow (fs : Files) (here : Place) : List String → Except FileError String
  | [] =>
    match fs.entry? here with
    | none => .error .missing
    | some (.file text) => .ok text
    | some .directory => .error .directory
  | part :: rest =>
    match fs.entry? here with
    | none => .error .missing
    | some (.file _) => .error .notDirectory
    | some .directory =>
      if nameLimit < part.utf8ByteSize then .error .nameTooLong
      else fs.follow (step here part) rest

/-- The text that `path` leads to, from the root if it begins with a slash. -/
def read (fs : Files) (path : String) : Except FileError String :=
  if path.isEmpty then .error .missing
  else if pathLimit ≤ path.utf8ByteSize then .error .nameTooLong
  else
    fs.follow (if path.toList.head? = some '/' then [] else fs.home) (path.splitOn "/")

/-- A file leads nowhere. -/
theorem follow_of_file {fs : Files} {here : Place} {text : String}
    (h : fs.entry? here = some (.file text)) (parts : List String) :
    fs.follow here parts = if parts.isEmpty then .ok text else .error .notDirectory := by
  cases parts <;> simp [follow, h]

/-- The part `.` leads to where it starts, as an empty part does. -/
theorem follow_dot {fs : Files} {here : Place} (h : fs.entry? here = some .directory)
    (parts : List String) : fs.follow here ("." :: parts) = fs.follow here parts := by
  have size : ¬ nameLimit < ".".utf8ByteSize := by decide
  rw [follow, h]
  simp only [if_neg size, step]

end Files

end MacroLisp
