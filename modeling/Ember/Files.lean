import Ember.Text.Utf8

/-!
# Files

Files that are read by the path that a user gave. `Files` is what is known of them:
for every path the bytes, or why there are none. A `Directory` holds files in
memory and answers for every path into it.
-/

namespace Ember

/-- Why a path gives no bytes. -/
inductive FileError where
  | notFound (path : String)
  | notADirectory (path : String)
  | isADirectory (path : String)
  /-- Any other reason, by its number and wording. -/
  | other (number : Nat) (reason path : String)
deriving DecidableEq, Repr

namespace FileError

/-- The number that the operating system has for a reason. -/
def number : FileError → Nat
  | notFound _ => 2
  | notADirectory _ => 20
  | isADirectory _ => 21
  | other number _ _ => number

/-- The wording of a reason. -/
def reason : FileError → String
  | notFound _ => "No such file or directory"
  | notADirectory _ => "Not a directory"
  | isADirectory _ => "Is a directory"
  | other _ reason _ => reason

/-- The path that was asked for. -/
def path : FileError → String
  | notFound path | notADirectory path | isADirectory path | other _ _ path => path

/-- The text of a reason. -/
def message (e : FileError) : String :=
  "[Errno " ++ toString e.number ++ "] " ++ e.reason ++ ": " ++ Text.quoted e.path

end FileError

/-- What is known of the files of a machine. -/
structure Files where
  read : String → Except FileError (List UInt8)

/-- The files of paths that were asked for already. -/
def Files.ofAnswers (answers : List (String × Except FileError (List UInt8))) : Files :=
  { read := fun path => (answers.lookup path).getD (.error (.notFound path)) }

/-- Why a file gives no text. -/
inductive TextFileError where
  | file (error : FileError)
  | encoding (error : Text.Utf8Error)
deriving DecidableEq, Repr

/-- The text of a file. -/
def Files.readText (files : Files) (path : String) : Except TextFileError String :=
  match files.read path with
  | .error e => .error (.file e)
  | .ok bytes =>
    match Text.ofBytes bytes with
    | .ok text => .ok text
    | .error e => .error (.encoding e)

/-! ## Directories in memory -/

/-- Files by the names on the way to them. -/
structure Directory where
  entries : List (List String × List UInt8) := []

namespace Directory

/-- The names that a path goes through; the present directory has none. -/
def names (path : String) : List String :=
  (path.splitOn "/").filter fun name => name ≠ "" && name ≠ "."

/-- The directory of files with the given paths. -/
def ofList (entries : List (String × List UInt8)) : Directory :=
  { entries := entries.map fun (path, bytes) => (names path, bytes) }

/-- Follows names from a place in the directory to the bytes of a file. -/
def follow (d : Directory) (path : String) (place : List String) :
    List String → Except FileError (List UInt8)
  | [] =>
    match d.entries.lookup place with
    | some bytes => .ok bytes
    | none => .error (.isADirectory path)
  | name :: names =>
    if (d.entries.lookup place).isSome then .error (.notADirectory path)
    else if name = "" ∨ name = "." then d.follow path place names
    else if name = ".." then
      if place.isEmpty then
        .error (if names.all (· ∈ ["", ".", ".."]) then .isADirectory path else .notFound path)
      else d.follow path place.dropLast names
    else
      let place := place ++ [name]
      if d.entries.any fun (names, _) => place.isPrefixOf names then d.follow path place names
      else .error (.notFound path)

/-- The bytes of the file at a path. -/
def read (d : Directory) (path : String) : Except FileError (List UInt8) :=
  if path.isEmpty then .error (.notFound path)
  else if path.startsWith "/" then
    .error (if (names path).isEmpty then .isADirectory path else .notFound path)
  else d.follow path [] (path.splitOn "/")

/-- The files of a directory. -/
def files (d : Directory) : Files :=
  { read := d.read }

end Directory

end Ember
