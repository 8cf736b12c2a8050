import Lox.CommandLine

set_option autoImplicit false

namespace Lox.Shell

open CommandLine

/-- A host whose clock was read once, in seconds since the machine started, and goes on by its
smallest step with every answer. -/
def newHost : IO Host := do
  let nanos ← IO.monoNanosNow
  let seconds (count : Nat) : Value := .number (Float.ofNat (nanos + count + 1) / 1e9)
  return { answer := fun _ _ => seconds 0, later := fun count _ _ => seconds (count + 1) }

/-- Whether a code is an error number of the system, which comes with either sign. -/
def isNumber (code number : UInt32) : Bool :=
  code == number || code == 0 - number

def readErrorOf : IO.Error → ReadError
  | .noFileOrDirectory .. => .missing
  | .inappropriateType _ code _ => if isNumber code 21 then .isDirectory else .notDirectory
  | .permissionDenied .. => .other 13 "Permission denied"
  | .invalidArgument _ code details =>
    if isNumber code 36 then .tooLong else .other 22 details
  | error => .other 5 (toString error)

def readSource (asked : String) : IO (Except ReadError String) := do
  let path := Path.ofText asked
  match path.problem? with
  | some error => return .error error
  | none =>
    try
      return sourceOfBytes (← IO.FS.readBinFile path.text)
    catch error =>
      return .error (readErrorOf error)

def write (out err : String) : IO Unit := do
  let stdout ← IO.getStdout
  stdout.putStr out
  stdout.flush
  (← IO.getStderr).putStr err

def finish (result : Result) : IO UInt32 := do
  write result.out result.err
  return result.exit.toUInt32

def breakOff (cause : Breakdown) : IO UInt32 := do
  write "" ("Error: " ++ cause.reason ++ "\n")
  return 1

/-- The next line: one that was read with an earlier one, or one from the input. -/
def nextLine (input : IO.FS.Stream) : List String → IO (Option String × List String)
  | line :: rest => return (some line, rest)
  | [] => do
    let text ← input.getLine
    let lines := linesOf text
    return (lines.head?, lines.tail)

partial def converse (setup : Setup) (input : IO.FS.Stream) (session : Session)
    (pending : List String) : IO UInt32 := do
  write prompt ""
  let (line, rest) ← nextLine input pending
  match line with
  | none => finish ⟨0, "\n", ""⟩
  | some line => do
    let command := Command.ofLine line
    let source ← match command with
      | .load path => readSource path
      | _ => pure (.error .missing)
    let world : World := { session.world with host := ← newHost }
    let response := { session with world }.obey (fun _ => source) command
    write response.out (responseText setup response)
    match response.next with
    | .more => converse setup input response.session rest
    | .quit => return 0
    | .broken cause => breakOff cause

def run (arguments : List String) : IO UInt32 := do
  let word := (← IO.getEnv Policy.variableName).getD ""
  match Task.ofArguments arguments word with
  | .done result => finish result
  | .script setup path => do
    let source ← readSource path
    match runScript (← newHost) setup path source with
    | .ok result => finish result
    | .error cause => breakOff cause
  | .interactive setup => do
    write banner setup.preface
    converse setup (← IO.getStdin) (.start ⟨← newHost, setup.config⟩) []

end Lox.Shell

def main (arguments : List String) : IO UInt32 :=
  Lox.Shell.run arguments
