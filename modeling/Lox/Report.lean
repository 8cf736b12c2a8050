import Lox.Log

set_option autoImplicit false

namespace Lox

/-- Diagnostics in the order of their report. -/
abbrev Report := List Diagnostic

namespace Report

def hadError (report : Report) : Bool :=
  report.any (!·.runtime)

def hadRuntimeError (report : Report) : Bool :=
  report.any (·.runtime)

def text (report : Report) : String :=
  String.join (report.map (·.format ++ "\n"))

end Report

end Lox
