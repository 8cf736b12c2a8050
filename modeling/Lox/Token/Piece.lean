import Lox.Token
import Lox.Decimal

set_option autoImplicit false

namespace Lox

inductive Piece where
  /-- A space, tab, carriage return or newline. -/
  | blank (c : Char)
  /-- Two slashes and the rest of the line. -/
  | comment (text : List Char)
  /-- The text of a token. -/
  | lexeme (kind : Kind) (text : List Char)
  /-- A character with which no other piece begins. -/
  | stray (c : Char)
  /-- A quote and everything after it, when no second quote follows. -/
  | unterminated (text : List Char)

namespace Piece

def text : Piece → List Char
  | blank c => [c]
  | comment cs => cs
  | lexeme _ cs => cs
  | stray c => [c]
  | unterminated cs => cs

def lineBreaks (piece : Piece) : Nat :=
  piece.text.count '\n'

def isBlank (c : Char) : Bool :=
  c == ' ' || c == '\r' || c == '\t' || c == '\n'

def isLetter (c : Char) : Bool :=
  c == '_' || ('a' ≤ c && c ≤ 'z') || ('A' ≤ c && c ≤ 'Z')

def isWordPart (c : Char) : Bool :=
  isLetter c || isDigit c

/-- The characters that are tokens by themselves, whatever follows. -/
def symbol? : Char → Option Kind
  | '(' => some .leftParen
  | ')' => some .rightParen
  | '{' => some .leftBrace
  | '}' => some .rightBrace
  | ',' => some .comma
  | '.' => some .dot
  | '-' => some .minus
  | '+' => some .plus
  | ';' => some .semicolon
  | '*' => some .star
  | _ => none

/-- The characters that join with an equals sign: the kind of the pair and of the character
alone. -/
def paired? : Char → Option (Kind × Kind)
  | '!' => some (.bangEqual, .bang)
  | '=' => some (.equalEqual, .equal)
  | '<' => some (.lessEqual, .less)
  | '>' => some (.greaterEqual, .greater)
  | _ => none

def afterSlash (cs : List Char) : Piece × List Char :=
  match cs with
  | '/' :: rest =>
    (comment ('/' :: '/' :: rest.takeWhile (· != '\n')), rest.dropWhile (· != '\n'))
  | _ => (lexeme .slash ['/'], cs)

def afterQuote (cs : List Char) : Piece × List Char :=
  let body := cs.takeWhile (· != '"')
  match cs.dropWhile (· != '"') with
  | [] => (unterminated ('"' :: body), [])
  | close :: rest => (lexeme .string ('"' :: body ++ [close]), rest)

/-- A number: digits, and a point only if a digit follows it. -/
def number (cs : List Char) : Piece × List Char :=
  let whole := cs.takeWhile isDigit
  let rest := cs.dropWhile isDigit
  match rest with
  | '.' :: d :: more =>
    if isDigit d then
      (lexeme .number (whole ++ '.' :: (d :: more).takeWhile isDigit),
        (d :: more).dropWhile isDigit)
    else (lexeme .number whole, rest)
  | _ => (lexeme .number whole, rest)

def word (cs : List Char) : Piece × List Char :=
  let text := cs.takeWhile isWordPart
  (lexeme (.ofWord (String.ofList text)) text, cs.dropWhile isWordPart)

/-- The piece at the start of a text, and what follows it. -/
def first (c : Char) (cs : List Char) : Piece × List Char :=
  match symbol? c with
  | some kind => (lexeme kind [c], cs)
  | none =>
    match paired? c with
    | some (joined, alone) =>
      match cs with
      | '=' :: rest => (lexeme joined [c, '='], rest)
      | _ => (lexeme alone [c], cs)
    | none =>
      if c == '/' then afterSlash cs
      else if isBlank c then (blank c, cs)
      else if c == '"' then afterQuote cs
      else if isDigit c then number (c :: cs)
      else if isLetter c then word (c :: cs)
      else (stray c, cs)

theorem length_dropWhile_le {α : Type} (p : α → Bool) (l : List α) :
    (l.dropWhile p).length ≤ l.length :=
  (List.dropWhile_suffix p).length_le

theorem afterSlash_length (cs : List Char) : (afterSlash cs).2.length ≤ cs.length := by
  unfold afterSlash
  split
  · have := length_dropWhile_le (fun c : Char => c != '\n') (by assumption)
    simp only [List.length_cons]
    omega
  · exact Nat.le_refl _

theorem afterQuote_length (cs : List Char) : (afterQuote cs).2.length ≤ cs.length := by
  have := length_dropWhile_le (fun c : Char => c != '"') cs
  unfold afterQuote
  simp only
  split
  · exact Nat.zero_le _
  · simp_all only [List.length_cons]
    omega

theorem number_length (c : Char) (cs : List Char) (digit : isDigit c = true) :
    (number (c :: cs)).2.length ≤ cs.length := by
  have head : (c :: cs).dropWhile isDigit = cs.dropWhile isDigit := by
    simp [digit]
  have shorter := length_dropWhile_le isDigit cs
  unfold number
  simp only [head]
  split
  · split
    · rename_i d more rest _
      have := length_dropWhile_le isDigit (d :: more)
      simp_all only [List.length_cons]
      omega
    · exact shorter
  · exact shorter

theorem word_length (c : Char) (cs : List Char) (letter : isLetter c = true) :
    (word (c :: cs)).2.length ≤ cs.length := by
  have head : (c :: cs).dropWhile isWordPart = cs.dropWhile isWordPart := by
    simp [isWordPart, letter]
  unfold word
  simp only [head]
  exact length_dropWhile_le isWordPart cs

/-- A piece takes at least one character. -/
theorem first_length (c : Char) (cs : List Char) : (first c cs).2.length ≤ cs.length := by
  unfold first
  split
  · exact Nat.le_refl _
  · split
    · split
      · simp
      · exact Nat.le_refl _
    · split
      · exact afterSlash_length cs
      · split
        · exact Nat.le_refl _
        · split
          · exact afterQuote_length cs
          · split
            · exact number_length c cs (by assumption)
            · split
              · exact word_length c cs (by assumption)
              · exact Nat.le_refl _

def split : List Char → List Piece
  | [] => []
  | c :: cs => (first c cs).1 :: split (first c cs).2
termination_by cs => cs.length
decreasing_by exact Nat.lt_succ_of_le (first_length c cs)

end Piece

end Lox
