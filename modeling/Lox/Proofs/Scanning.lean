import Lox.Token.Scan

set_option autoImplicit false

namespace Lox

namespace Piece

theorem takeWhile_stop (p : Char → Bool) (stop : Char) (stops : p stop = false)
    (text more : List Char) : (text ++ stop :: more).takeWhile p = text.takeWhile p := by
  induction text with
  | nil => simp [stops]
  | cons c rest ih => simp only [List.cons_append, List.takeWhile_cons, ih]

theorem dropWhile_stop (p : Char → Bool) (stop : Char) (stops : p stop = false)
    (text more : List Char) :
    (text ++ stop :: more).dropWhile p = text.dropWhile p ++ stop :: more := by
  induction text with
  | nil => simp [stops]
  | cons c rest ih =>
    simp only [List.cons_append, List.dropWhile_cons, ih]
    split <;> rfl

def isOpen : Piece → Bool
  | unterminated _ => true
  | _ => false

/-- A piece and what follows it, when a newline and more text stand behind. -/
def before (more : List Char) : Piece × List Char → Piece × List Char
  | (piece, rest) => (piece, rest ++ '\n' :: more)

theorem afterSlash_newline (text more : List Char) :
    afterSlash (text ++ '\n' :: more) = before more (afterSlash text) := by
  unfold afterSlash
  rcases text with _ | ⟨c, rest⟩
  · rfl
  · by_cases slash : c = '/'
    · subst slash
      simp only [List.cons_append, takeWhile_stop (· != '\n') '\n' rfl,
        dropWhile_stop (· != '\n') '\n' rfl, before]
    · simp [slash, before]

/-- What stops within a text stops at the same place with more text behind. -/
theorem takeWhile_append_of_stop {p : Char → Bool} {text rest : List Char} {stop : Char}
    (stopped : text.dropWhile p = stop :: rest) (more : List Char) :
    (text ++ more).takeWhile p = text.takeWhile p ∧
      (text ++ more).dropWhile p = stop :: (rest ++ more) := by
  induction text with
  | nil => cases stopped
  | cons c others ih =>
    simp only [List.cons_append, List.takeWhile_cons, List.dropWhile_cons] at stopped ⊢
    cases goes : p c with
    | false =>
      simp only [goes, Bool.false_eq_true, ↓reduceIte] at stopped ⊢
      cases stopped
      exact ⟨trivial, rfl⟩
    | true =>
      simp only [goes, ↓reduceIte] at stopped ⊢
      obtain ⟨same, left⟩ := ih stopped
      exact ⟨congrArg (c :: ·) same, left⟩

theorem afterQuote_newline (text more : List Char) (closed : (afterQuote text).1.isOpen = false) :
    afterQuote (text ++ '\n' :: more) = before more (afterQuote text) := by
  unfold afterQuote at closed ⊢
  cases left : text.dropWhile (· != '"') with
  | nil =>
    rw [left] at closed
    cases closed
  | cons quote rest =>
    obtain ⟨body, after⟩ := takeWhile_append_of_stop left ('\n' :: more)
    simp only [body, after, before]

theorem number_newline (text more : List Char) :
    number (text ++ '\n' :: more) = before more (number text) := by
  have stops : isDigit '\n' = false := rfl
  simp only [number, takeWhile_stop isDigit '\n' stops, dropWhile_stop isDigit '\n' stops]
  rcases text.dropWhile isDigit with _ | ⟨c, _ | ⟨d, rest⟩⟩
  · rfl
  · by_cases point : c = '.'
    · subst point
      rfl
    · simp [point, before]
  · by_cases point : c = '.'
    · subst point
      have whole := takeWhile_stop isDigit '\n' stops (d :: rest) more
      have left := dropWhile_stop isDigit '\n' stops (d :: rest) more
      simp only [List.cons_append] at whole left ⊢
      rw [whole, left]
      split <;> rfl
    · simp [point, before]

theorem word_newline (text more : List Char) :
    word (text ++ '\n' :: more) = before more (word text) := by
  have stops : isWordPart '\n' = false := rfl
  simp only [word, takeWhile_stop isWordPart '\n' stops, dropWhile_stop isWordPart '\n' stops,
    before]

/-- A newline ends the piece before it, if that is no open string. -/
theorem first_newline (c : Char) (text more : List Char) (closed : (first c text).1.isOpen = false) :
    first c (text ++ '\n' :: more) = before more (first c text) := by
  unfold first at closed ⊢
  split
  · rfl
  · rename_i noSymbol
    split
    · rcases text with _ | ⟨d, rest⟩
      · rfl
      · by_cases sign : d = '='
        · subst sign
          rfl
        · simp [sign, before]
    · rename_i alone
      simp only [noSymbol, alone] at closed
      by_cases slash : (c == '/') = true
      · simp only [slash, ↓reduceIte]
        exact afterSlash_newline text more
      by_cases empty : isBlank c = true
      · simp only [slash, empty, Bool.false_eq_true, ↓reduceIte, before]
      by_cases quote : (c == '"') = true
      · simp only [slash, empty, quote, Bool.false_eq_true, ↓reduceIte] at closed ⊢
        exact afterQuote_newline text more closed
      by_cases digit : isDigit c = true
      · simp only [slash, empty, quote, digit, Bool.false_eq_true, ↓reduceIte]
        exact number_newline (c :: text) more
      by_cases letter : isLetter c = true
      · simp only [slash, empty, quote, digit, letter, Bool.false_eq_true, ↓reduceIte]
        exact word_newline (c :: text) more
      · simp only [slash, empty, quote, digit, letter, Bool.false_eq_true, ↓reduceIte, before]

theorem split_cons (c : Char) (text : List Char) :
    split (c :: text) = (first c text).1 :: split (first c text).2 := by
  rw [split]

/-- A text and another on the next line are cut into the pieces of both. -/
theorem split_newline (text more : List Char)
    (closed : ∀ piece ∈ split text, piece.isOpen = false) :
    split (text ++ '\n' :: more) = split text ++ blank '\n' :: split more := by
  induction text using split.induct with
  | case1 =>
    rw [List.nil_append, split_cons, split]
    rfl
  | case2 c rest ih =>
    rw [split_cons] at closed
    have cut := first_newline c rest more (closed _ List.mem_cons_self)
    rw [List.cons_append, split_cons, split_cons, cut]
    exact congrArg _ (ih fun piece member => closed piece (List.mem_cons_of_mem _ member))

/-- A piece and what follows it are the text. -/
theorem first_text (c : Char) (text : List Char) :
    (first c text).1.text ++ (first c text).2 = c :: text := by
  have slashed : (afterSlash text).1.text ++ (afterSlash text).2 = '/' :: text := by
    unfold afterSlash
    split
    · simp [Piece.text]
    · rfl
  have quoted : (afterQuote text).1.text ++ (afterQuote text).2 = '"' :: text := by
    have whole := List.takeWhile_append_dropWhile (p := (· != '"')) (l := text)
    simp only [afterQuote]
    split <;> rename_i left <;> rw [left] at whole
    · simpa [Piece.text] using whole
    · simpa [Piece.text] using whole
  have numeral : (number (c :: text)).1.text ++ (number (c :: text)).2 = c :: text := by
    have whole := List.takeWhile_append_dropWhile (p := isDigit) (l := c :: text)
    simp only [number]
    split
    · rename_i d more left
      rw [left] at whole
      split
      · have fraction := List.takeWhile_append_dropWhile (p := isDigit) (l := d :: more)
        simpa [Piece.text] using whole
      · exact List.takeWhile_append_dropWhile
    · exact List.takeWhile_append_dropWhile
  have worded : (word (c :: text)).1.text ++ (word (c :: text)).2 = c :: text :=
    List.takeWhile_append_dropWhile
  unfold first
  split
  · rfl
  · split
    · split <;> rfl
    · split
      · rename_i slash
        rw [beq_iff_eq.mp slash]
        exact slashed
      · split
        · rfl
        · split
          · rename_i quote
            rw [beq_iff_eq.mp quote]
            exact quoted
          · split
            · exact numeral
            · split
              · exact worded
              · rfl

/-- The pieces of a text are the text, without gaps. -/
theorem split_text (text : List Char) : (split text).flatMap Piece.text = text := by
  induction text using split.induct with
  | case1 => rw [split]; rfl
  | case2 c rest ih => rw [split_cons, List.flatMap_cons, ih, first_text]

theorem map_fst_numbered (line : Nat) (pieces : List Piece) :
    (numbered line pieces).map Prod.fst = pieces := by
  induction pieces generalizing line with
  | nil => rfl
  | cons piece rest ih => exact congrArg _ (ih (line + piece.lineBreaks))

theorem numbered_append (line : Nat) (pieces more : List Piece) :
    numbered line (pieces ++ more) = numbered line pieces ++ numbered (lastLine line pieces) more := by
  induction pieces generalizing line with
  | nil => rfl
  | cons piece rest ih => exact congrArg _ (ih (line + piece.lineBreaks))

theorem le_of_mem_numbered {piece : Piece × Nat} {line : Nat} {pieces : List Piece}
    (member : piece ∈ numbered line pieces) : line ≤ piece.2 := by
  induction pieces generalizing line with
  | nil => cases member
  | cons first rest ih =>
    rcases List.mem_cons.mp member with rfl | later
    · exact Nat.le_add_right _ _
    · exact Nat.le_trans (Nat.le_add_right _ _) (ih later)

theorem lastLine_eq (line : Nat) (pieces : List Piece) :
    lastLine line pieces = line + (pieces.flatMap Piece.text).count '\n' := by
  induction pieces generalizing line with
  | nil => rfl
  | cons piece rest ih =>
    rw [lastLine, ih, List.flatMap_cons, List.count_append, lineBreaks]
    omega

end Piece

def Token.lower (lines : Nat) (token : Token) : Token :=
  { token with line := token.line + lines }

def Diagnostic.lower (lines : Nat) (diagnostic : Diagnostic) : Diagnostic :=
  { diagnostic with token := diagnostic.token.map (Token.lower lines) }

namespace Piece

def lower (lines : Nat) : Piece × Nat → Piece × Nat
  | (piece, line) => (piece, line + lines)

theorem numbered_add (line lines : Nat) (pieces : List Piece) :
    numbered (line + lines) pieces = (numbered line pieces).map (lower lines) := by
  induction pieces generalizing line with
  | nil => rfl
  | cons piece rest ih =>
    have same : line + lines + piece.lineBreaks = line + piece.lineBreaks + lines := by omega
    rw [numbered, numbered, same, ih, List.map_cons, lower]

theorem token?_lower (lines : Nat) (piece : Piece × Nat) :
    token? (lower lines piece) = (token? piece).map (Token.lower lines) := by
  obtain ⟨piece, line⟩ := piece
  cases piece <;> simp [lower, token?, Token.lower]

theorem problem?_lower (lines : Nat) (piece : Piece × Nat) :
    problem? (lower lines piece) = (problem? piece).map (Diagnostic.lower lines) := by
  obtain ⟨piece, line⟩ := piece
  cases piece <;> simp [lower, problem?, problem?.report, Diagnostic.lower, Token.lower, Token.plain]

end Piece

namespace Scan

/-- How many lines a text and a newline after it take up. -/
def lines (source : String) : Nat :=
  1 + source.toList.count '\n'

/-- A text and another on the next line have the tokens and the problems of both, those of the
second on later lines. -/
theorem ofSource_newline (first second : String)
    (closed : ∀ piece ∈ Piece.split first.toList, piece.isOpen = false) :
    (ofSource (first ++ "\n" ++ second)).tokens =
        (ofSource first).tokens ++ (ofSource second).tokens.map (Token.lower (lines first)) ∧
      (ofSource (first ++ "\n" ++ second)).problems =
        (ofSource first).problems ++ (ofSource second).problems.map (Diagnostic.lower (lines first)) := by
  have text : (first ++ "\n" ++ second).toList = first.toList ++ '\n' :: second.toList := by
    simp
  have start : Piece.lastLine 1 (Piece.split first.toList) + Piece.lineBreaks (.blank '\n') =
      1 + lines first := by
    rw [Piece.lastLine_eq, Piece.split_text, lines]
    show 1 + _ + 1 = _
    omega
  have pieces : Piece.numbered 1 (Piece.split (first ++ "\n" ++ second).toList) =
      Piece.numbered 1 (Piece.split first.toList) ++ (.blank '\n', 1 + lines first) ::
        (Piece.numbered 1 (Piece.split second.toList)).map (Piece.lower (lines first)) := by
    rw [text, Piece.split_newline _ _ closed, Piece.numbered_append, Piece.numbered, start,
      Piece.numbered_add]
  have token : Piece.token? ∘ Piece.lower (lines first) =
      Option.map (Token.lower (lines first)) ∘ Piece.token? :=
    funext fun piece => Piece.token?_lower (lines first) piece
  have problem : Piece.problem? ∘ Piece.lower (lines first) =
      Option.map (Diagnostic.lower (lines first)) ∘ Piece.problem? :=
    funext fun piece => Piece.problem?_lower (lines first) piece
  simp only [ofSource, ofNumbered, pieces, List.filterMap_append, List.filterMap_cons,
    List.filterMap_map, token, problem, List.map_filterMap]
  exact ⟨rfl, rfl⟩

/-- The lines of a text's tokens are counted from one. -/
theorem line_pos {source : String} {token : Token} (member : token ∈ (ofSource source).tokens) :
    0 < token.line := by
  obtain ⟨⟨piece, line⟩, numbered, same⟩ := List.mem_filterMap.mp member
  have counted := Piece.le_of_mem_numbered numbered
  cases piece with
  | lexeme kind text =>
    cases same
    exact Int.natCast_pos.mpr counted
  | _ => cases same

theorem closed_of_messages {source : String}
    (closed : ∀ problem ∈ (ofSource source).problems,
      problem.message ≠ LexicalError.unterminatedString.message) :
    ∀ piece ∈ Piece.split source.toList, piece.isOpen = false := by
  intro piece member
  rw [← Piece.map_fst_numbered 1 (Piece.split source.toList), List.mem_map] at member
  obtain ⟨⟨piece, line⟩, numbered, rfl⟩ := member
  cases piece with
  | unterminated text =>
    have reported : Piece.problem?.report .unterminatedString line ∈ (ofSource source).problems :=
      List.mem_filterMap.mpr ⟨_, numbered, rfl⟩
    exact absurd rfl (closed _ reported)
  | blank | comment | lexeme | stray => rfl

theorem closed_of_problems {source : String} (clean : (ofSource source).problems = []) :
    ∀ piece ∈ Piece.split source.toList, piece.isOpen = false := by
  apply closed_of_messages
  intro problem member
  rw [clean] at member
  cases member

/-- The end of a text is marked on its last line. -/
theorem last_eq (source : String) :
    (ofSource source).last = .plain .endOfInput "" (lines source) := by
  rw [ofSource, ofNumbered, Piece.lastLine_eq, Piece.split_text, lines]

/-- A text in which no string is left open ends with its line: with another on the next line it has
its own tokens, then those of the other and the mark of the end, and its own problems, then those of
the other, all of the other's on lines further down by as many as the first takes up. -/
theorem line_by_line (first second : String)
    (closed : ∀ problem ∈ (ofSource first).problems, problem.message ≠ "Unterminated string.") :
    let both := ofSource (first ++ "\n" ++ second)
    let down := 1 + first.toList.count '\n'
    both.allTokens =
        (ofSource first).tokens ++ (ofSource second).allTokens.map (Token.lower down) ∧
      both.problems =
        (ofSource first).problems ++ (ofSource second).problems.map (Diagnostic.lower down) := by
  intro both down
  obtain ⟨tokens, problems⟩ := ofSource_newline first second (closed_of_messages closed)
  refine ⟨?_, problems⟩
  have further : lines (first ++ "\n" ++ second) = lines second + lines first := by
    simp only [lines, String.toList_append, List.count_append]
    show 1 + (_ + 1 + _) = _
    omega
  have last : both.last = (ofSource second).last.lower down := by
    rw [last_eq, last_eq, further, Int.natCast_add]
    rfl
  rw [allTokens, allTokens, tokens, last, List.map_append, ← List.append_assoc]
  rfl

/-- A stray character before the line break, and a number that would go on but for it. -/
theorem line_by_line_halvedNumber :
    let first := "a # 1"
    let second := ".5\n@"
    (∀ problem ∈ (ofSource first).problems, problem.message ≠ "Unterminated string.") ∧
      (ofSource (first ++ "\n" ++ second)).allTokens =
        (ofSource first).tokens ++ (ofSource second).allTokens.map (Token.lower 1) ∧
      (ofSource (first ++ "\n" ++ second)).problems =
        (ofSource first).problems ++ (ofSource second).problems.map (Diagnostic.lower 1) ∧
      (ofSource (first ++ "\n" ++ second)).problems.map (·.line) = [some 1, some 3] := by
  have closed : ∀ problem ∈ (ofSource "a # 1").problems,
      problem.message ≠ "Unterminated string." := by
    decide +kernel
  obtain ⟨tokens, problems⟩ := line_by_line "a # 1" ".5\n@" closed
  exact ⟨closed, tokens, problems, by decide +kernel⟩

end Scan

end Lox
