import Lox.Machine.State

set_option autoImplicit false

namespace Lox

inductive Severity where
  | debug
  | warning
deriving DecidableEq, Repr

def Severity.name : Severity → String
  | debug => "DEBUG"
  | warning => "WARNING"

/-- One line of a log, with the part of the program that it comes from. -/
structure LogLine where
  severity : Severity
  source : String
  message : String

/-- What becomes of reported diagnostics: they are kept, or written at once. -/
inductive Sink where
  | kept
  | written
deriving DecidableEq, Repr

def Sink.verb : Sink → String
  | kept => "collected"
  | written => "reported"

namespace LogLine

def text (line : LogLine) : String :=
  line.severity.name ++ " " ++ line.source ++ ": " ++ line.message

def ofDiagnostic (sink : Sink) (d : Diagnostic) : LogLine :=
  let flat := d.format.map fun c => if c = '\n' then ' ' else c
  ⟨.debug, "lox_core.reporter", sink.verb ++ ": " ++ flat⟩

def ofFault (fault : Fault) : LogLine :=
  ⟨.debug, "lox_core.evaluator", "runtime fault " ++ fault.cause.family ++ " at line " ++
    toString fault.token.line ++ ": " ++ fault.cause.message⟩

def ofPolicy (policy : Policy) : LogLine :=
  ⟨.debug, "lox_core.repl", "error policy: " ++ policy.name⟩

end LogLine

namespace Event

def log (sink : Sink) : Event → List LogLine
  | printed _ => []
  | reported fault => [.ofFault fault, .ofDiagnostic sink fault.diagnostic]
  | entered name params depth =>
    [⟨.debug, "lox_core.callables", "call " ++ name ++ "(" ++ ", ".intercalate params ++
      ") depth=" ++ toString depth⟩]
  | noOperator operator =>
    [⟨.warning, "lox_core.evaluator", "no numeric operator for " ++ operator.lexeme ++
      " at line " ++ toString operator.line⟩]

end Event

/-- The lines for events: all of them, or the warnings only. -/
def logOf (sink : Sink) (all : Bool) (events : List Event) : List LogLine :=
  (events.flatMap (Event.log sink)).filter fun line => all || line.severity == .warning

end Lox
