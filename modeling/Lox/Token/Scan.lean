import Lox.Token.Piece
import Lox.Diagnostic

set_option autoImplicit false

namespace Lox

inductive LexicalError where
  | unexpectedCharacter
  | unterminatedString

def LexicalError.message : LexicalError → String
  | unexpectedCharacter => "Unexpected character."
  | unterminatedString => "Unterminated string."

/-- The value that a lexeme writes: a number, or the text between the quotes of a string. -/
def Literal.ofLexeme? (kind : Kind) (text : List Char) : Option Literal :=
  match kind with
  | .number => some (.number (Decimal.ofText text).toFloat)
  | .string => some (.text (String.ofList (text.drop 1).dropLast))
  | _ => none

namespace Piece

/-- Gives every piece the line on which it ends, the first one starting on `line`. -/
def numbered : Nat → List Piece → List (Piece × Nat)
  | _, [] => []
  | line, piece :: rest =>
    (piece, line + piece.lineBreaks) :: numbered (line + piece.lineBreaks) rest

def lastLine : Nat → List Piece → Nat
  | line, [] => line
  | line, piece :: rest => lastLine (line + piece.lineBreaks) rest

def token? : Piece × Nat → Option Token
  | (lexeme kind text, line) => some ⟨kind, String.ofList text, Literal.ofLexeme? kind text, line⟩
  | _ => none

/-- The problem with a stray character or an open string. It is located by its line alone. -/
def problem? : Piece × Nat → Option Diagnostic
  | (stray _, line) => some (report .unexpectedCharacter line)
  | (unterminated _, line) => some (report .unterminatedString line)
  | _ => none
where
  /-- A lexical error on a line. -/
  report (error : LexicalError) (line : Nat) : Diagnostic :=
    ⟨some (.plain .identifier "" line), error.message, false⟩

end Piece

structure Scan where
  tokens : List Token
  last : Token
  problems : List Diagnostic

namespace Scan

def ofNumbered (pieces : List (Piece × Nat)) (line : Nat) : Scan :=
  ⟨pieces.filterMap Piece.token?, .plain .endOfInput "" line, pieces.filterMap Piece.problem?⟩

/-- Scans a source text. No text is refused: problems are collected beside the tokens. -/
def ofSource (source : String) : Scan :=
  let pieces := Piece.split source.toList
  ofNumbered (Piece.numbered 1 pieces) (Piece.lastLine 1 pieces)

def allTokens (scan : Scan) : List Token :=
  scan.tokens ++ [scan.last]

end Scan

end Lox
