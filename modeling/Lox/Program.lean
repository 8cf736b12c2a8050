import Lox.Token.Scan
import Lox.Grammar.Statement

set_option autoImplicit false

namespace Lox

/-- A program: what runs at the top level, in order. -/
abbrev Program := List Stmt

namespace Program

/-- The statements that can be read from tokens, and the problems met on the way. -/
def ofTokens (tokens : List Token) (last : Token) : Program × List Diagnostic :=
  match Reader.declarations (M := Parse) (.start tokens last) with
  | .ok program cursor => (program, cursor.problems.toList)
  | .failed cursor => ([], cursor.problems.toList)
  | .spent => ([], [])

/-- The program that a text writes, or all its problems: those of the scan first. -/
def ofSource (source : String) : Except (List Diagnostic) Program :=
  let scan := Scan.ofSource source
  let (program, problems) := ofTokens scan.tokens scan.last
  match scan.problems ++ problems with
  | [] => .ok program
  | found => .error found

end Program

end Lox
