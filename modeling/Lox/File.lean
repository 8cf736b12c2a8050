import Lox.Text.Blank
import Lox.Text.Quoted

set_option autoImplicit false

namespace Lox

/-- A path: what stands before its first name, and its names. -/
structure Path where
  root : String
  names : List String

namespace Path

/-- Splits a path at its slashes. Empty names and single dots mean nothing. -/
def ofText (text : String) : Path :=
  let slashes := (text.toList.takeWhile (· == '/')).length
  let root := if slashes = 0 then "" else if slashes = 2 then "//" else "/"
  ⟨root, (text.splitOn "/").filter fun name => !name.isEmpty && name != "."⟩

def text (path : Path) : String :=
  let shown := path.root ++ "/".intercalate path.names
  if shown.isEmpty then "." else shown

/-- The most bytes that a name may have. -/
def nameLimit : Nat := 255

def limit : Nat := 4095

end Path

/-- What breaks a program off when it reads a file, for nothing provides for it. -/
inductive Breakdown where
  /-- The file's bytes are no text. -/
  | notText
  /-- The path has a null character in it, so that the system cannot be asked for it. -/
  | nullInPath
deriving DecidableEq, Repr

def Breakdown.reason : Breakdown → String
  | notText => "invalid UTF-8"
  | nullInPath => "embedded null byte"

inductive ReadError where
  | missing
  | notDirectory
  | isDirectory
  | tooLong
  /-- Another failure, by its number and words. -/
  | other (number : Nat) (words : String)
  | breakdown (cause : Breakdown)
deriving DecidableEq, Repr

namespace ReadError

def reason : ReadError → String
  | missing => "[Errno 2] No such file or directory"
  | notDirectory => "[Errno 20] Not a directory"
  | isDirectory => "[Errno 21] Is a directory"
  | tooLong => "[Errno 36] File name too long"
  | other number words => "[Errno " ++ toString number ++ "] " ++ words
  | breakdown cause => cause.reason

def message (error : ReadError) (asked : String) : String :=
  "Error reading '" ++ asked ++ "': " ++ error.reason ++ ": " ++
    Text.quoted (Path.ofText asked).text

end ReadError

def Path.problem? (path : Path) : Option ReadError :=
  if path.text.toList.contains '\x00' then some (.breakdown .nullInPath)
  else if Path.limit < path.text.utf8ByteSize then some .tooLong
  else none

def sourceOfBytes (bytes : ByteArray) : Except ReadError String :=
  match String.fromUTF8? bytes with
  | some text => .ok (String.ofList (Text.unifyNewlines text.toList))
  | none => .error (.breakdown .notText)

/-- Files below a directory, by their names from there. Directories are what files lie in. -/
structure FileTree where
  files : List (List String × ByteArray)

namespace FileTree

def empty : FileTree := ⟨[]⟩

def file? (tree : FileTree) (place : List String) : Option ByteArray :=
  (tree.files.find? (·.1 == place)).map (·.2)

def isDirectory (tree : FileTree) (place : List String) : Bool :=
  place.isEmpty || tree.files.any fun (names, _) =>
    place.length < names.length && names.take place.length == place

/-- The place around a place of the tree, unless that is the top. -/
def around (place : List String) : Option (List String) :=
  if place.isEmpty then none else some place.dropLast

/-- Follows names from a directory of the tree. Two dots lead to the directory around; what lies
outside the tree is unknown, and only directories lead there. -/
def walk (tree : FileTree) : Option (List String) → List String → Except ReadError ByteArray
  | _, [] => .error .isDirectory
  | start, name :: rest =>
    if name == ".." then walk tree (start.bind around) rest
    else if Path.nameLimit < name.utf8ByteSize then .error .tooLong
    else
      match start with
      | none => .error .missing
      | some place =>
        let next := place ++ [name]
        match tree.file? next with
        | some bytes => if rest.isEmpty then .ok bytes else .error .notDirectory
        | none => if tree.isDirectory next then walk tree (some next) rest else .error .missing

/-- Reads a source file from the top of the tree. -/
def read (tree : FileTree) (asked : String) : Except ReadError String := do
  let path := Path.ofText asked
  match path.problem? with
  | some error => .error error
  | none => do
    let bytes ← tree.walk (if path.root.isEmpty then some [] else none) path.names
    sourceOfBytes bytes

end FileTree

end Lox
