import Lox.CommandLine.Options
import Lox.Config.Policy
import Lox.Session.Command

set_option autoImplicit false

namespace Lox.CommandLine

/-- What a finished program leaves: its exit code and what it wrote. -/
structure Result where
  exit : Nat
  out : String
  err : String
deriving DecidableEq, Repr

def usage : String :=
  "usage: lox [-h] [-v] [--abort-on-error] [script]\n"

def help : String :=
  usage ++
  "\nRun a Lox script or start a REPL.\n" ++
  "\npositional arguments:\n" ++
  "  script            script to run; omit for an interactive session\n" ++
  "\noptions:\n" ++
  "  -h, --help        show this help message and exit\n" ++
  "  -v, --verbose     enable debug logging\n" ++
  "  --abort-on-error  stop at the first runtime error instead of continuing with\n" ++
  "                    nil\n"

structure Setup where
  config : Config
  verbose : Bool

inductive Task where
  | done (result : Result)
  | script (setup : Setup) (path : String)
  | interactive (setup : Setup)

/-- The task that the arguments ask for under a policy word. The option to abort overrides the
word, but the word has to be a policy all the same. An empty name is no script. -/
def Task.ofArguments (arguments : List String) (policyWord : String) : Task :=
  match Request.ofArguments arguments with
  | .help => .done ⟨0, help, ""⟩
  | .refuse error => .done ⟨2, "", usage ++ "lox: error: " ++ error.message ++ "\n"⟩
  | .proceed options =>
    match Config.ofPolicyWord policyWord with
    | .error error => .done ⟨2, "", "Error: " ++ error.message ++ "\n"⟩
    | .ok config =>
      let config := if options.abort then { config with policy := .abort } else config
      let setup := ⟨config, options.verbose⟩
      match options.script with
      | none | some "" => .interactive setup
      | some path => .script setup path

namespace Setup

def logText (setup : Setup) (sink : Sink) (events : List Event) : String :=
  asLines ((logOf sink setup.verbose events).map (·.text))

def preface (setup : Setup) : String :=
  if setup.verbose then asLines [(LogLine.ofPolicy setup.config.policy).text] else ""

/-- What an event of a script writes as an error: its log lines, then its diagnostic. -/
def eventText (setup : Setup) (event : Event) : String :=
  setup.logText .written [event] ++ asLines (event.diagnostic?.toList.map (·.format))

end Setup

def Setup.result (setup : Setup) (verdict : Verdict) : Result :=
  let events := verdict.state.trace.toList
  let exit := if events.any (·.diagnostic?.isSome) then 70 else 0
  ⟨exit, asLines (events.filterMap Event.output?),
    setup.preface ++ String.join (events.map setup.eventText)⟩

/-- Runs the source of a script, with fuel for so deep a run. -/
def runSource? (fuel : Nat) (host : Host) (setup : Setup) (source : String) : Option Result :=
  match Program.ofSource source with
  | .error problems => some ⟨65, "", setup.preface ++ Report.text problems⟩
  | .ok program =>
    let world : World := ⟨host, setup.config⟩
    (world.interpret? fuel program (.initial setup.config [])).map setup.result

/-- Runs a script that was read, or says why it could not be read, unless that breaks it off. -/
def runScript? (fuel : Nat) (host : Host) (setup : Setup) (path : String)
    (source : Except ReadError String) : Option (Except Breakdown Result) :=
  match source with
  | .ok source => (runSource? fuel host setup source).map .ok
  | .error (.breakdown cause) => some (.error cause)
  | .error error => some (.ok ⟨1, "", setup.preface ++ error.message path ++ "\n"⟩)

def runScript (host : Host) (setup : Setup) (path : String) (source : Except ReadError String) :
    Except Breakdown Result :=
  (runScript? World.ample host setup path source).getD (.ok ⟨70, "", setup.preface⟩)

def banner : String :=
  "Lox REPL  (:q to quit  |  :vars  :reset  :load <file>  :inspect <expr>)\n"

def prompt : String := "> "

def responseText (setup : Setup) (response : Response) : String :=
  setup.logText .kept response.log ++ response.err

/-- The lines of an input, however they end; the last need not be ended. -/
def linesOf (input : String) : List String :=
  let parts := (String.ofList (Text.unifyNewlines input.toList)).splitOn "\n"
  if parts.getLast? = some "" then parts.dropLast else parts

/-- An interactive session over lines, with what it wrote so far. Without a line it writes a
newline and ends. -/
def converse (setup : Setup) (read : String → Except ReadError String) (session : Session)
    (written : Result) : List String → Except Breakdown Result
  | [] => .ok { written with out := written.out ++ prompt ++ "\n" }
  | line :: rest =>
    let response := session.obey read (.ofLine line)
    let written : Result :=
      ⟨written.exit, written.out ++ prompt ++ response.out,
        written.err ++ responseText setup response⟩
    match response.next with
    | .more => converse setup read response.session written rest
    | .quit => .ok written
    | .broken cause => .error cause

def runInteractive (host : Host) (setup : Setup) (read : String → Except ReadError String)
    (input : String) : Except Breakdown Result :=
  converse setup read (.start ⟨host, setup.config⟩) ⟨0, banner, setup.preface⟩ (linesOf input)

/-- The whole program over a tree of files and an input. -/
def run (host : Host) (files : FileTree) (arguments : List String) (policyWord input : String) :
    Except Breakdown Result :=
  match Task.ofArguments arguments policyWord with
  | .done result => .ok result
  | .script setup path => runScript host setup path (files.read path)
  | .interactive setup => runInteractive host setup files.read input

end Lox.CommandLine
